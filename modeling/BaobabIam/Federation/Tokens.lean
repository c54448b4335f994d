import BaobabIam.Base.Base64
import BaobabIam.Federation.Snapshot
import BaobabIam.Federation.Storage

/-! ID tokens. The JOSE and OpenID Connect libraries are a parameter: they parse a
text, judge its signature and standard claims, and read the standard claims of a
payload. What the package itself checks is computed here: keys, the claims of its
own, and the bounds on time. -/

/-- `time.Unix` in some zone. -/
def Time.unix (zone seconds : Int) : Time := ⟨(seconds + 62135596800) * Time.second, zone⟩

/-- `Unix()`: whole seconds, rounded down. -/
def Time.unixSeconds (t : Time) : Int := t.ns / Time.second - 62135596800

namespace Federation

open Wire

def secretDigest (s : Text) : Text := "sha256:".toList ++ Sha256.hex s

def equalSecret (s digest : Text) : Bool := secretDigest s == digest

def activeSnapshot (s : TrustSnapshot) (now : Time) : Bool :=
  s.trust.status == .active && uuidPattern s.trust.id && !s.snapshotID.isEmpty &&
  s.approvedRevision == s.trust.revision && 0 < s.trust.revision && now.before s.validUntil &&
  !s.trust.updatedAt.after now

structure Signed where
  content : Text
  algorithm : Text
  type : Option Text
  payload : Json

/-- The standard claims. A time that is missing is the zero time. -/
structure IDToken where
  issuer : Text
  subject : Text
  audience : List Text
  expiry : Time
  issuedAt : Time
  nonce : Text
  deriving DecidableEq

inductive PublicKey where
  | rsa (bits exponent : Nat)
  | ecdsa (p256 : Bool)
  | other
  deriving DecidableEq

structure JSONWebKey where
  valid : Bool
  isPublic : Bool
  keyID : Text
  use : Text
  algorithm : Text
  key : PublicKey
  deriving DecidableEq

structure TokenLibrary where
  parseSigned : Text → Option Signed
  keySet : (jwks : Text) → Option (List JSONWebKey)
  /-- The verifier's verdict for an issuer, a client, an algorithm, keys and a time. -/
  accepts : (issuer clientID algorithm jwks : Text) → Time → (raw : Text) → Bool
  idToken : (payload : Json) → Option IDToken
  /-- Times are given in the zone of the process, less than a day from UTC. -/
  localZone : ∀ payload t, idToken payload = some t → t.expiry.zone.natAbs < 1440

/-- One member of the claims, read by its name regardless of case; the last one
counts, a null changes nothing, a value of another type is an error. -/
def claim {α : Type} (read : Json → Option α) (zero : α) (name : String) (ms : Members) : Option α :=
  ms.foldlM (fun value m =>
    if foldName m.1 = foldName name.toList then
      match m.2 with
      | .null => some value
      | j => read j
    else some value) zero

def readText : Json → Option Text
  | .str s => some s
  | _ => none

def readTexts : Json → Option (Option (List Text))
  | .arr js => (js.mapM readText).map some
  | _ => none

def readInt64 : Json → Option Int
  | .num ('-' :: literal) =>
    match Text.numeral 10 Text.digitValue? 0 literal with
    | some n => if n ≤ 2 ^ 63 then some (-n) else none
    | none => none
  | .num literal =>
    match Text.numeral 10 Text.digitValue? 0 literal with
    | some n => if n < 2 ^ 63 then some n else none
    | none => none
  | _ => none

structure TokenClaims where
  azp : Text
  authTime : Int
  nbf : Int
  acr : Text
  amr : Option (List Text)
  typ : Text
  deriving DecidableEq

def members : Json → Option (List (Text × Json))
  | .obj ms => some ms
  | _ => none

def tokenClaims (payload : Json) : Option TokenClaims := do
  let ms ← members payload
  return {
    azp := ← claim readText [] "azp" ms
    authTime := ← claim readInt64 0 "auth_time" ms
    nbf := ← claim readInt64 0 "nbf" ms
    acr := ← claim readText [] "acr" ms
    amr := ← claim readTexts none "amr" ms
    typ := ← claim readText [] "typ" ms }

/-- The members of the keys of a key set; other members are refused. -/
def jwksKeys (j : Json) : Option (List (List (Text × Json))) := do
  let ms ← members j
  if ms.all (fun m => foldName m.1 = foldName "keys".toList) then
    claim (fun
      | .arr js => js.mapM members
      | _ => none) [] "keys" ms
  else none

def privateMembers : List Text :=
  ["d".toList, "p".toList, "q".toList, "dp".toList, "dq".toList, "qi".toList, "oth".toList, "k".toList,
    "jku".toList, "x5u".toList]

def checkKeys (algorithm : Text) : List Text → List JSONWebKey → Except Fault Unit
  | _, [] => .ok ()
  | seen, k :: ks =>
    if !k.valid || !k.isPublic || !exact k.keyID || seen.contains k.keyID || k.use != "sig".toList ||
        k.algorithm != algorithm then .error .invalid
    else
      match k.key with
      | .rsa bits exponent =>
        if algorithm != "RS256".toList || bits < 2048 || exponent < 65537 then .error .invalid
        else checkKeys algorithm (k.keyID :: seen) ks
      | .ecdsa p256 =>
        if algorithm != "ES256".toList || !p256 then .error .invalid
        else checkKeys algorithm (k.keyID :: seen) ks
      | .other => .error .unsupported

def publicOIDCKeys (lib : TokenLibrary) (algorithm jwks : Text) : Except Fault Unit :=
  if (algorithm != "RS256".toList && algorithm != "ES256".toList) || 32768 < jwks.size then .error .unsupported
  else
    match parse jwks with
    | none => .error .invalid
    | some j =>
      if !uniqueJSON j then .error .invalid
      else
        match jwksKeys j with
        | none => .error .invalid
        | some keys =>
          if keys.length < 1 || 8 < keys.length ||
              keys.any (fun k => k.any (fun m => privateMembers.contains m.1)) then .error .invalid
          else
            match lib.keySet jwks with
            | none => .error .invalid
            | some set => checkKeys algorithm [] set

/-- A text whose signature and standard claims the library accepts at a time,
with its payload. -/
def verifiedToken (lib : TokenLibrary) (issuer clientID algorithm jwks raw : Text) (now : Time) :
    Except Fault (IDToken × Json) :=
  match publicOIDCKeys lib algorithm jwks with
  | .error e => .error e
  | .ok _ =>
    match lib.parseSigned raw with
    | none => .error .denied
    | some signed =>
      if signed.algorithm != algorithm || signed.type.any (fun t => t != "JWT".toList) then .error .denied
      else if !lib.accepts issuer clientID algorithm jwks now raw then .error .denied
      else
        match lib.idToken signed.payload with
        | none => .error .denied
        | some t => if uniqueJSON signed.payload then .ok (t, signed.payload) else .error .invalid

/-- The exact issuer, one audience, the nonce, and times inside the lifetime. -/
def tokenHolds (issuer clientID nonceDigest : Text) (created now : Time) (lifetime : Int) (t : IDToken)
    (k : TokenClaims) : Bool :=
  let authenticated := Time.unix 0 k.authTime
  t.issuer == issuer && exact t.subject && t.audience == [clientID] &&
  (k.azp.isEmpty || k.azp == clientID) && (k.typ.isEmpty || k.typ == "ID".toList) &&
  equalSecret t.nonce nonceDigest && now.before t.expiry && !t.issuedAt.isZero && !t.issuedAt.after now &&
  !t.issuedAt.before (created.add (-Time.second)) && decide (t.expiry.sub t.issuedAt ≤ lifetime) &&
  decide (0 < k.authTime) && !authenticated.after t.issuedAt && decide (now.sub authenticated ≤ lifetime) &&
  decide (k.nbf ≤ now.unixSeconds)

section Facts

variable {lib : TokenLibrary} {issuer clientID algorithm jwks raw nonceDigest : Text} {created now : Time}
  {lifetime : Int} {t : IDToken} {payload : Json} {k : TokenClaims}

theorem verifiedToken_ok (h : verifiedToken lib issuer clientID algorithm jwks raw now = .ok (t, payload)) :
    ∃ signed, lib.parseSigned raw = some signed ∧ signed.payload = payload ∧ lib.idToken payload = some t := by
  unfold verifiedToken at h
  split at h
  · cases h
  · split at h
    · cases h
    · rename_i signed parsed
      split at h
      · cases h
      · split at h
        · cases h
        · split at h
          · cases h
          · rename_i t' read
            split at h
            · cases h
              exact ⟨signed, parsed, rfl, read⟩
            · cases h

theorem tokenHolds_expiry (h : tokenHolds issuer clientID nonceDigest created now lifetime t k = true) :
    t.issuer = issuer ∧ now.ns < t.expiry.ns ∧ t.expiry.ns ≤ now.ns + lifetime := by
  simp only [tokenHolds, Bool.and_eq_true, Bool.or_eq_true, beq_iff_eq, decide_eq_true_eq, Bool.not_eq_true',
    Time.before_iff, Time.after_false, Time.sub] at h
  obtain ⟨⟨⟨⟨⟨⟨⟨⟨⟨⟨⟨⟨⟨⟨same, -⟩, -⟩, -⟩, -⟩, -⟩, live⟩, -⟩, issued⟩, -⟩,
    short⟩, -⟩, -⟩, -⟩, -⟩ := h
  have within := of_decide_eq_true short
  exact ⟨same, live, by omega⟩

end Facts

end Federation
