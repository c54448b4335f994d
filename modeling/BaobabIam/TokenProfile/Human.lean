import BaobabIam.TokenProfile.Profile

/-! Human tokens of an estate BFF. Governed consent decides the audience of a grant
and seals the decision; the token hook recomputes the audience and checks the
seal. The keyed digest is a parameter. -/
namespace TokenProfile

open Checks

/-- `base64(HMAC-SHA-256)` of a text under a key. -/
abbrev MAC := (key : List UInt8) → (message : Text) → Text

section Consent

def consentScopes : List Text := ["openid".toList, "profile".toList, "email".toList]

/-- The profile scopes among these; each is a profile scope or one of `others`, and new. -/
def profileScopes (human : HumanTokenProfile) (others : List Text) : List Text → List Text → Option (List Text)
  | _, [] => some []
  | seen, scope :: scopes =>
    if seen.contains scope then none
    else if human.scopes.contains scope then
      (profileScopes human others (scope :: seen) scopes).map (fun granted => scope :: granted)
    else if others.contains scope then profileScopes human others (scope :: seen) scopes
    else none

def Workload.humanAudience (p : Workload) (human : HumanTokenProfile) (scopes : List Text) : List Text :=
  human.audiences.filter (fun audience => scopes.any (fun scope => (p.scopeAudiences scope).contains audience))

def Config.humanRegistration (c : Config) (id : Text) (denied : Refusal) : Checked (Workload × HumanTokenProfile) := do
  let p ← c.registered id denied
  require (p.status == "ACTIVE".toList && !p.environment.isEmpty && p.environment == c.environment) denied
  let human ← p.humanTokenProfile.elim (.error denied) .ok
  return (p, human)

def Config.humanConsent (c : Config) (clientID : Text) (requestedScopes : List Text) : Checked (List Text) := do
  c.held clientID
  let (p, human) ← c.humanRegistration clientID .consentDenied
  require (requestedScopes.contains "openid".toList) .consentOpenid
  let granted ← (profileScopes human consentScopes [] requestedScopes).elim (.error .consentScope) .ok
  require (!granted.isEmpty) .consentProfileScope
  return p.humanAudience human granted

end Consent

section Seal

structure HumanConsentSeal where
  audience : List Text
  mark : Text

def minConsentSealKeyBytes : Nat := 32

def nul : Char := Char.ofNat 0

def canonicalConsentValue (value : Text) : Bool :=
  !value.isEmpty && Text.trimSpace value == value && !value.any (fun c => (nul :: " \t\r\n".toList).contains c)

def consentSealMessage (consentRequestID clientID subject : Text) (scopes audience : List Text) : Option Text :=
  if ([consentRequestID, clientID, subject] ++ Text.sorted scopes ++ audience).all canonicalConsentValue &&
    !scopes.isEmpty && !audience.isEmpty then
    some (Text.join nul ["baobab-iam/human-consent/v1", consentRequestID, clientID, subject,
      Text.join ' ' (Text.sorted scopes), Text.join ' ' audience])
  else none

def sealHumanConsent (mac : MAC) (key : List UInt8) (consentRequestID clientID subject : Text)
    (scopes audience : List Text) : Checked HumanConsentSeal :=
  match consentSealMessage consentRequestID clientID subject scopes audience with
  | none => .error .consentSeal
  | some message =>
    if key.length < minConsentSealKeyBytes then .error .consentSeal else .ok ⟨audience, mac key message⟩

def verifyHumanConsent (mac : MAC) (key : List UInt8) (consent : Option HumanConsentSeal)
    (consentRequestID clientID subject : Text) (scopes audience : List Text) : Bool :=
  match consent with
  | none => false
  | some s =>
    if key.length < minConsentSealKeyBytes || s.audience != audience then false
    else
      match consentSealMessage consentRequestID clientID subject scopes audience with
      | none => false
      | some message => s.mark == mac key message

end Seal

section Claims

structure HumanEvidence where
  clientID : Text
  subject : Text
  grant : Text
  consentRequestID : Text
  consent : Option HumanConsentSeal
  requestedScopes : List Text
  grantedScopes : List Text
  grantedAudiences : List Text
  acr : Text
  amr : List Text
  authTime : Int

structure HumanClaims where
  actorType : Text
  azp : Text
  acr : Text
  authTime : Int
  amr : Option (List Text)

def issuedACR : List Text := ["aal1".toList, "aal2".toList]

def issuedAMR : List Text := ["pwd".toList, "otp".toList, "hwk".toList, "mfa".toList]

/-- A code exchange is described before its grant: only the requested scopes are known. -/
def HumanEvidence.codeExchange (e : HumanEvidence) : Bool :=
  e.grantedScopes.isEmpty && e.grant == "authorization_code".toList

def HumanEvidence.scopes (e : HumanEvidence) : List Text :=
  if e.codeExchange then e.requestedScopes else e.grantedScopes

def Config.humanClaims (mac : MAC) (c : Config) (e : HumanEvidence) (sealKey : List UInt8) : Checked HumanClaims := do
  require (minConsentSealKeyBytes ≤ sealKey.length) .sealKey
  c.held e.clientID
  tmsGrantHold ⟨e.clientID, [], [], [], [], e.requestedScopes, e.grantedScopes, e.grantedAudiences⟩
  let (p, human) ← c.humanRegistration e.clientID .humanDenied
  require (e.grant == "authorization_code".toList || e.grant == "refresh_token".toList) .humanGrant
  require (!e.subject.isEmpty && Text.trimSpace e.subject == e.subject && e.subject != e.clientID) .humanSubject
  require (!e.codeExchange || e.grantedAudiences.isEmpty) .humanAudienceAlone
  let resource ← (profileScopes human oidcScopes [] e.scopes).elim (.error .humanScope) .ok
  require (!resource.isEmpty) .humanScope
  let audience := p.humanAudience human resource
  require (verifyHumanConsent mac sealKey e.consent e.consentRequestID e.clientID e.subject e.scopes audience)
    .consentNotGoverned
  require (e.codeExchange || sameSet e.grantedAudiences audience) .humanAudience
  require (issuedACR.contains e.acr && 0 < e.authTime) .assuranceMissing
  require (subset e.amr issuedAMR) .assuranceMalformed
  return ⟨"human", e.clientID, e.acr, e.authTime, if e.amr.isEmpty then none else some e.amr⟩

end Claims

end TokenProfile
