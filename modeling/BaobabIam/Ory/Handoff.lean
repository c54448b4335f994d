import BaobabIam.Base.Sha256
import BaobabIam.HumanAuth.Profile
import BaobabIam.NativeBff.Routes
import BaobabIam.Ory.NativeSession
import BaobabIam.TokenProfile.Human

/-! The handoff of a login or consent challenge from the native authenticator to the
authorization server. Replicas share one ledger of consumed challenges. An exchange
with a provider is one question: its answer is the decoded document or why there is
none. The acceptance is in the trace, because it cannot be taken back. -/
namespace Ory.Handoff

open Interleaving
open Checks (require each)

/-- Decoding of a query string, address literals and the keyed digest. -/
structure Library where
  parseQuery : Text → Option (List (Text × Text))
  isLoopback : Text → Bool
  mac : TokenProfile.MAC

inductive Kind where
  | login | consent
  deriving DecidableEq

def Kind.text : Kind → Text
  | .login => "login"
  | .consent => "consent"

structure Credential where
  sessionToken : Text
  cookie : Text

structure Challenge where
  challenge : Text
  consentRequestID : Text
  subject : Text
  requestURL : Text
  scopes : List Text
  audience : List Text
  clientID : Text

inductive Body where
  | login (subject acr : Text) (amr : List Text)
  | consent (grantScope grantAudience : List Text) (seal_ : Option TokenProfile.HumanConsentSeal)

section Configuration

structure Config where
  kratosPublicURL : Text
  hydraAdminURL : Text
  issuer : Text
  tokenProfiles : Option TokenProfile.Config
  consentSealKey : Option (List UInt8)
  allowLoopbackHTTP : Bool

inductive Misconfigured where
  | origin | https | composition | consentPair | sealKey | tokenProfiles
  deriving DecidableEq

structure NativeHumanHandoff where
  kratos : Url
  hydra : Url
  issuer : Url
  /-- Governed composition. -/
  authority : Bool
  buyer : Option TokenProfile.Config
  sealKey : List UInt8

variable (lib : Library)

def origin (allowLoopback : Bool) (raw : Text) : Except Misconfigured Url := do
  let u ← (Url.parse raw).elim (.error .origin) .ok
  require (!u.hostname.isEmpty && u.user.isNone && u.rawQuery.isEmpty && u.fragment.isEmpty &&
    (u.path.isEmpty || u.path == ['/'])) .origin
  require (u.scheme == "https".toList || allowLoopback && u.scheme == "http".toList && lib.isLoopback u.hostname) .https
  return u

def newHandoff (governed : Bool) (c : Config) : Except Misconfigured NativeHumanHandoff := do
  require (governed || c.tokenProfiles.isNone && c.consentSealKey.isNone) .composition
  let kratos ← origin lib c.allowLoopbackHTTP c.kratosPublicURL
  let hydra ← origin lib c.allowLoopbackHTTP c.hydraAdminURL
  let issuer ← origin lib c.allowLoopbackHTTP c.issuer
  require (c.tokenProfiles.isNone == c.consentSealKey.isNone) .consentPair
  match c.tokenProfiles with
  | none => return ⟨kratos, hydra, issuer, governed, none, c.consentSealKey.getD []⟩
  | some profiles =>
    require (TokenProfile.minConsentSealKeyBytes ≤ (c.consentSealKey.getD []).length) .sealKey
    profiles.validate.mapError (fun _ => .tokenProfiles)
    return ⟨kratos, hydra, issuer, governed, some profiles, c.consentSealKey.getD []⟩

structure Replica where
  handoff : NativeHumanHandoff
  governed : Bool
  config : Config
  built : newHandoff lib governed config = .ok handoff

end Configuration

section Ports

inductive CallFailure where
  | request | unavailable | denied | ambiguous | trailing | invalid
  deriving DecidableEq

inductive Refusal where
  | dispatchDenied | consentRequired | unavailable
  | businessScopes | outsideProfile | intent
  | target | query | mismatch | parameter | scope
  | credential | session | subject | unsealable | changed
  /-- An exchange before the acceptance failed. -/
  | read (failure : CallFailure)
  | fence
  /-- The acceptance itself failed. -/
  | acceptance (failure : CallFailure)
  | redirect
  deriving DecidableEq

inductive Outcome where
  | refused | applied
  /-- Committed, but the caller was not told. -/
  | unacknowledged
  deriving DecidableEq

inductive Query where
  /-- The caller's context, the routing authority, the clock. -/
  | cancelled | capability | now
  | ledger
  | challenge (hydra : Url) (kind : Kind) (id : Text)
  | whoami (kratos : Url) (credential : Credential)
  | accept (hydra : Url) (kind : Kind) (id : Text) (body : Body)

abbrev Query.Answer : Query → Type
  | .cancelled | .capability => Bool
  | .now => Time
  | .ledger => Outcome
  | .challenge .. => Except CallFailure Challenge
  | .whoami .. => Except CallFailure NativeSession
  | .accept .. => Except CallFailure Text

abbrev ports : Interface := ⟨Query, Query.Answer⟩

abbrev Ledger := Text → Bool

abbrev Op := Prog ports Ledger Refusal

end Ports

section Checks

variable (lib : Library) (h : NativeHumanHandoff)

def nul : Char := Char.ofNat 0

/-- What an intent may be granted: an audience for business scopes, none for the others. -/
def buyerConsent (intent : HumanAuth.Request) : Except Refusal (List Text) :=
  if (Text.fields intent.scope).all (fun scope => TokenProfile.consentScopes.contains scope) then .ok []
  else
    match h.buyer with
    | none => .error .businessScopes
    | some buyer =>
      if !h.authority then .error .businessScopes
      else (buyer.humanConsent intent.clientID (Text.fields intent.scope)).mapError (fun _ => .outsideProfile)

def supported (id : Text) (intent : HumanAuth.Request) : Bool :=
  intent.validate && !intent.clientID.isEmpty && !intent.redirectURI.isEmpty && !intent.state.isEmpty &&
  !intent.nonce.isEmpty && (Text.fields intent.scope).contains "openid".toList && intent.acrValues.isEmpty &&
  !id.isEmpty && id.size ≤ 16384 && Text.trimSpace id == id

def expected (intent : HumanAuth.Request) : List (Text × Text) :=
  [("response_type", "code"), ("client_id", intent.clientID), ("redirect_uri", intent.redirectURI),
   ("scope", intent.scope), ("state", intent.state), ("nonce", intent.nonce),
   ("code_challenge", intent.codeChallenge), ("code_challenge_method", "S256")]

def authorizationURL (raw : Text) : Option Url :=
  (Url.parse raw).filter (fun u => u.user.isNone && u.fragment.isEmpty && u.scheme == h.issuer.scheme &&
    u.host == h.issuer.host && NativeBff.unescape u.path == "/oauth2/auth".toList)

def confirm (id : Text) (intent : HumanAuth.Request) (c : Challenge) : Except Refusal Unit := do
  let u ← (authorizationURL h c.requestURL).elim (.error .target) .ok
  require (c.challenge == id && c.clientID == intent.clientID && c.audience.isEmpty) .target
  let query ← (lib.parseQuery u.rawQuery).elim (.error .query) .ok
  each (fun p => require (query.filter (fun q => q.1 == p.1) == [p]) .mismatch) (expected intent)
  require (query.all (fun q => (expected intent).any (fun p => p.1 == q.1))) .parameter
  require (c.scopes == Text.fields intent.scope) .scope

def Credential.exact (c : Credential) : Bool :=
  let value := c.sessionToken ++ c.cookie
  c.sessionToken.isEmpty != c.cookie.isEmpty && value.size ≤ 4096 && Text.trimSpace value == value &&
  !value.any (fun x => x == '\r' || x == '\n')

def subjectMatches (kind : Kind) (c : Challenge) (s : NativeSession) : Bool :=
  (c.subject.isEmpty || c.subject == s.identityID) && (kind != .consent || c.subject == s.identityID)

def acceptance (kind : Kind) (c : Challenge) (grantAudience : List Text) (s : NativeSession) : Except Refusal Body :=
  match kind with
  | .login => .ok (.login s.identityID s.aal (nativeAMR s))
  | .consent =>
    if grantAudience.isEmpty then .ok (.consent c.scopes grantAudience none)
    else
      match TokenProfile.sealHumanConsent lib.mac h.sealKey c.consentRequestID c.clientID s.identityID c.scopes
          grantAudience with
      | .ok mark => .ok (.consent c.scopes grantAudience (some mark))
      | .error _ => .error .unsealable

def unchanged (s : NativeSession) : Except Refusal NativeSession → Bool
  | .ok current => sameNativeSession current s
  | .error _ => false

/-- What the ledger's key is the digest of: an optional root slash of the issuer is
not in it. -/
def keyText (scheme host : Text) (kind : Kind) (id : Text) : Text :=
  scheme ++ "://".toList ++ host ++ nul :: (kind.text ++ nul :: id)

@[irreducible] def challengeKey (scheme host : Text) (kind : Kind) (id : Text) : Text :=
  Sha256.hex (keyText scheme host kind id)

end Checks

section Fence

def canonicalKey (key : Text) : Bool := key.length == 64 && key.all (fun c => Text.isDigit c || 'a' ≤ c && c ≤ 'f')

def consume (key : Text) : Tx ports Ledger Refusal Bool := do
  let cancelled : Bool ← Tx.ask (I := ports) .cancelled
  Tx.require (!cancelled) .fence
  let outcome : Outcome ← Tx.ask (I := ports) .ledger
  let taken ← Tx.read (fun l => l key)
  Tx.require (outcome != .refused && !taken) .fence
  Tx.write (fun l => Function.update l key true)
  return (outcome = .applied)

def consumeNativeChallenge (key : Text) : Op Unit := do
  let cancelled : Bool ← Prog.question (I := ports) .cancelled
  Prog.require (!cancelled) .fence
  Prog.require (canonicalKey key) .fence
  let acknowledged ← Prog.atomic (consume key) Prog.ofExcept
  Prog.require acknowledged .fence

end Fence

section Handoff

variable (lib : Library) (h : NativeHumanHandoff)

def challenge (kind : Kind) (id : Text) (intent : HumanAuth.Request) : Op (Challenge × List Text) := do
  let audience ← Prog.ofExcept (buyerConsent h intent)
  Prog.require (supported id intent) .intent
  let answer : Except CallFailure Challenge ← Prog.question (I := ports) (.challenge h.hydra kind id)
  let c ← Prog.ofExcept (answer.mapError .read)
  Prog.ofExcept (confirm lib h id intent c)
  return (c, audience)

def session (credential : Credential) : Op NativeSession := do
  Prog.require credential.exact .credential
  let answer : Except CallFailure NativeSession ← Prog.question (I := ports) (.whoami h.kratos credential)
  let s ← Prog.ofExcept (answer.mapError .read)
  let now : Time ← Prog.question (I := ports) .now
  let later : Time ← Prog.question (I := ports) .now
  Prog.require (s.current now later) .session
  return s

def checkCapability : Op Unit := do
  let allowed : Bool ← Prog.question (I := ports) .capability
  Prog.require allowed .dispatchDenied

/-- The irreversible part: the ledger, then the provider. -/
def complete (kind : Kind) (id : Text) (body : Body) : Op Text := do
  consumeNativeChallenge (challengeKey h.issuer.scheme h.issuer.host kind id)
  let answer : Except CallFailure Text ← Prog.effect (I := ports) (.accept h.hydra kind id body)
  let redirect ← Prog.ofExcept (answer.mapError .acceptance)
  Prog.require (authorizationURL h redirect).isSome .redirect
  return redirect

def accept (kind : Kind) (id : Text) (credential : Credential) (intent : HumanAuth.Request) : Op Text := do
  let cancelled : Bool ← Prog.question (I := ports) .cancelled
  Prog.require (!cancelled) .unavailable
  let (c, audience) ← challenge lib h kind id intent
  let s ← session h credential
  Prog.require (subjectMatches kind c s) .subject
  let body ← Prog.ofExcept (acceptance lib h kind c audience s)
  -- revocation while the challenge is processed must not end in an acceptance
  let current ← (session h credential).attempt
  Prog.require (unchanged s current) .changed
  Prog.when h.authority checkCapability
  complete h kind id body

end Handoff

section Runs

variable (lib : Library)

structure Call where
  replica : Replica lib
  kind : Kind
  id : Text
  credential : Credential
  intent : HumanAuth.Request
  consented : Bool

/-- `AcceptLogin` or `AcceptConsent`; governed composition asks for the route first. -/
def Call.code (c : Call lib) : Op Text := do
  Prog.when c.replica.handoff.authority checkCapability
  Prog.require (c.kind == .login || c.consented) .consentRequired
  accept lib c.replica.handoff c.kind c.id c.credential c.intent

def system : System ports Ledger Refusal where
  Call := Call lib
  Result _ := Text
  code := Call.code lib
  init _ := false
  admits _ _ _ _ := true

end Runs

end Ory.Handoff
