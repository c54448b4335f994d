import BaobabIam.Base.Closed
import BaobabIam.Base.Url

/-! The wire boundary of human authentication: the canonical request and response, and
the projection of a provider's token response onto the canonical one. -/
namespace HumanAuth

open Wire WireFields

structure Request where
  grantType : Text
  codeChallenge : Text
  codeChallengeMethod : Text
  clientID : Text
  redirectURI : Text
  scope : Text
  state : Text
  nonce : Text
  acrValues : Text
  deriving DecidableEq

def Request.validate (r : Request) : Bool :=
  r.grantType == "authorization_code".toList && r.codeChallengeMethod == "S256".toList &&
  43 ≤ r.codeChallenge.length && r.codeChallenge.length ≤ 128 && r.clientID.length ≤ 255 &&
    r.scope.length ≤ 500 &&
  r.acrValues.length ≤ 500 &&
  [r.state, r.nonce].all (fun v => v.isEmpty || 16 ≤ v.length && v.length ≤ 500) &&
  (r.redirectURI.isEmpty || (Url.parseUrl r.redirectURI).any (fun u => !u.scheme.isEmpty))

structure Response where
  accessToken : Text
  tokenType : Text
  expiresIn : Nat
  idToken : Text
  refreshToken : Text
  scope : Text
  sessionState : Text
  deriving DecidableEq

def Response.validate (r : Response) : Bool :=
  20 ≤ r.accessToken.length && r.tokenType == "Bearer".toList && 60 ≤ r.expiresIn && r.expiresIn ≤ 86400 &&
  (r.idToken.isEmpty || 20 ≤ r.idToken.length) && (r.refreshToken.isEmpty || 20 ≤ r.refreshToken.length)

section Lifetime

def digitsValue (t : Text) : Nat := (Text.numeral 10 Text.digitValue? 0 t).getD 0

/-- A number literal without a sign as digits and a power of ten. -/
def scaled (literal : Text) : Nat × Int :=
  let (whole, rest) := literal.span Text.isDigit
  let (fraction, rest) :=
    match rest with
    | '.' :: t => t.span Text.isDigit
    | t => ([], t)
  let exponent : Int :=
    match rest with
    | _ :: '-' :: t => -digitsValue t
    | _ :: '+' :: t => digitsValue t
    | _ :: t => digitsValue t
    | [] => 0
  (digitsValue (whole ++ fraction), exponent - fraction.length)

/-- The literal is exactly an integer between a minute and a day. -/
def exactLifetime : Json → Option Nat
  | .num ('-' :: _) => none
  | .num literal =>
    let (digits, power) := scaled literal
    let value := if 0 ≤ power then digits * 10 ^ power.toNat else digits / 10 ^ (-power).toNat
    if (power < 0 ∧ digits % 10 ^ (-power).toNat ≠ 0) ∨ value < 60 ∨ 86400 < value then none else some value
  | _ => none

end Lifetime

section Projection

/-- The members of a response. A projected and a received one read the lifetime differently. -/
def Response.fields (lifetime : Json → Option Nat) : List (ClosedField Response) :=
  [text "access_token" Response.accessToken (fun v r => { r with accessToken := v }),
    text "token_type" Response.tokenType (fun v r => { r with tokenType := v }),
    ⟨RecordField.of "expires_in" Response.expiresIn (fun v r => { r with expiresIn := v }), lifetime⟩,
    bounded "id_token" 20 0 Response.idToken (fun v r => { r with idToken := v }),
    bounded "refresh_token" 20 0 Response.refreshToken (fun v r => { r with refreshToken := v }),
    bounded "scope" 1 0 Response.scope (fun v r => { r with scope := v }),
    bounded "session_state" 0 0 Response.sessionState (fun v r => { r with sessionState := v })]

def Response.zero : Response := ⟨[], [], 0, [], [], [], []⟩

/-- What a provider's response keeps, in the order of the keys. -/
def canonicalMembers (fields : Members) : List (Text × Json) :=
  (["access_token", "expires_in", "id_token", "refresh_token", "scope", "session_state"].filterMap
    fun key => (fields.lookup key.toList).map (Prod.mk key.toList)) ++ [("token_type".toList, .str "Bearer".toList)]

def projectOAuthResponse (raw : Text) : Option Response :=
  if 65536 < raw.size then none
  else
    match parse raw with
    | some (.obj fields) =>
      if ¬ (fields.map Prod.fst).Nodup then none
      else if (fields.lookup "error".toList).isSome then none
      else
        match fields.lookup "token_type".toList with
        | some (.str tokenType) =>
          if tokenType.map Char.toLower ≠ "bearer".toList then none
          else
            ((foldMembers (closedStep (Response.fields exactLifetime)) ([], Response.zero)
              (canonicalMembers fields)).map Prod.snd).filter Response.validate
        | _ => none
    | _ => none

end Projection

end HumanAuth
