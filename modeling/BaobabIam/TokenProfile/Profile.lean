import BaobabIam.Base.Checks
import BaobabIam.Base.Words

/-! Token profiles: what the pinned registry lets a workload have, and the claims that
authenticated evidence of the provider is worth. Configurations may be built by
hand, so every issuance checks again what validation checks. -/
namespace TokenProfile

open Checks

structure Registry (α : Type) where
  entries : List (Text × α)
  distinct : (entries.map Prod.fst).Nodup

def Registry.get {α : Type} (r : Registry α) (k : Text) : Option α := r.entries.lookup k

structure HumanTokenProfile where
  purpose : Text
  audiences : List Text
  scopes : List Text

structure Workload where
  environment : Text
  credentialType : Text
  status : Text
  scopes : List Text
  audiences : List Text
  humanTokenProfile : Option HumanTokenProfile
  humanScopeAudiences : Option (Registry (List Text))

/-- What a map yields for a key that it does not have. -/
def Workload.zero : Workload := ⟨[], [], [], [], [], none, none⟩

def Workload.scopeAudiences (p : Workload) (scope : Text) : List Text :=
  ((p.humanScopeAudiences.bind (fun m => m.get scope))).getD []

structure Binding where
  issuer : Text
  subject : Text
  deriving DecidableEq

structure Config where
  sharedCommit : Text
  environment : Text
  workloads : Registry Workload
  bindings : Registry Binding

structure Evidence where
  clientID : Text
  subject : Text
  grant : Text
  assertionIssuer : Text
  assertionSubject : Text
  requestedScopes : List Text
  grantedScopes : List Text
  grantedAudiences : List Text

inductive Refusal where
  | sharedCommit | issuerEnvironment | workloadEnvironment | workloadProfile | credentialProfile | lifecycle
  | noncanonicalValue | handoffWithoutProfile | audiencesWithoutProfile | sharedBinding
  | noncanonicalProfile | tmsWorkload | tmsAudience | tmsScope
  | noncanonicalHumanScope | noncanonicalHumanAudience | tmsHumanAudience | tmsHumanScope
  | humanPurpose | humanCredential | humanHandoff | humanValues | humanControlPlane | humanResourceScopes
  | humanScopeAudience | humanAudienceUnreached
  | submitInHumanToken | submitClientID | submitByBFF | submitAudience
  | issuanceDenied | credentialMismatch | assertionMismatch | scopeMismatch | audienceMismatch | submitNotScoped
  | consentDenied | consentOpenid | consentScope | consentProfileScope | consentSeal
  | sealKey | humanDenied | humanGrant | humanSubject | humanAudienceAlone | humanScope | consentNotGoverned
  | humanAudience | assuranceMissing | assuranceMalformed
  | requestShape | requestScopes | registrationDenied | requestScopesMissing | intentDiffers
  deriving DecidableEq

abbrev Checked := Except Refusal

section Lists

/-- Every value is allowed, and none comes twice. -/
def subsetFrom (allowed : List Text) : List Text → List Text → Bool
  | _, [] => true
  | seen, value :: values => allowed.contains value && !seen.contains value && subsetFrom allowed (value :: seen) values

def subset (values allowed : List Text) : Bool := subsetFrom allowed [] values

def sameSet (a b : List Text) : Bool := a.length == b.length && subset a b

/-- A value as validation wants it; the last condition of each loop is that it is new. -/
def canonicalValues : List Text → List Text → Bool
  | _, [] => true
  | seen, value :: values =>
    !value.isEmpty && Text.trimSpace value == value && !value.any (fun c => " \t\r\n*".toList.contains c) &&
    !seen.contains value && canonicalValues (value :: seen) values

end Lists

section Hold

def singleIssuanceToken (value : Text) : Bool :=
  !value.isEmpty && value.size ≤ 256 &&
  value.all (fun c => 0x20 < c.toNat && c.toNat < 0x7F && c != '*' && c != '"' && c != '\\')

def reservedTMSClient (id : Text) : Bool :=
  id == "baobab-tms".toList || "baobab-tms-".toList.isPrefixOf id || "baobab-dev-tms-".toList.isPrefixOf id

def reservedTMSAudience (audience : Text) : Bool :=
  audience == "baobab-tms".toList || "baobab-tms-".toList.isPrefixOf audience

def nativeTMSScope (scope : Text) : Bool := "tms:".toList.isPrefixOf scope

def holdHumanAudience (audience : Text) : Checked Unit := do
  require (singleIssuanceToken audience) .noncanonicalHumanAudience
  require (!reservedTMSAudience audience) .tmsHumanAudience

def holdHumanMapping (m : Text × List Text) : Checked Unit := do
  require (singleIssuanceToken m.1) .noncanonicalHumanScope
  each holdHumanAudience m.2
  require (!nativeTMSScope m.1) .tmsHumanScope

def holdHumanScope (scope : Text) : Checked Unit := do
  require (singleIssuanceToken scope) .noncanonicalHumanScope
  require (!nativeTMSScope scope) .tmsHumanScope

def tmsProposalHold (id : Text) (p : Workload) : Checked Unit := do
  each (fun value => require (singleIssuanceToken value) .noncanonicalProfile) (p.scopes ++ p.audiences)
  require (!reservedTMSClient id) .tmsWorkload
  each (fun audience => require (!reservedTMSAudience audience) .tmsAudience) p.audiences
  each (fun scope => require (!nativeTMSScope scope) .tmsScope) p.scopes
  each holdHumanMapping ((p.humanScopeAudiences.map Registry.entries).getD [])
  match p.humanTokenProfile with
  | none => return ()
  | some human => do
    each holdHumanAudience human.audiences
    each holdHumanScope human.scopes

def holdGrantedAudience (audience : Text) : Checked Unit := do
  require (singleIssuanceToken audience) .noncanonicalProfile
  require (!reservedTMSAudience audience) .tmsAudience

def holdGrantedScope (scope : Text) : Checked Unit := do
  require (singleIssuanceToken scope) .noncanonicalProfile
  require (!nativeTMSScope scope) .tmsScope

def tmsGrantHold (e : Evidence) : Checked Unit := do
  require (!reservedTMSClient e.clientID) .tmsWorkload
  each holdGrantedAudience e.grantedAudiences
  each holdGrantedScope (e.requestedScopes ++ e.grantedScopes)

end Hold

section NativeCommitment

def nativeCommitmentSubmitScope : Text := "trade:native-commitment:submit"

def nativeCommitmentAudience : Text := "baobab-trade"

def buyerHandoffScope : Text := "trade:buyer-handoff"

def lowerOrDigit (c : Char) : Bool := ('a' ≤ c && c ≤ 'z') || Text.isDigit c

/-- `^[a-z][a-z0-9-]{2,62}$` -/
def workloadClientID : Text → Bool
  | c :: rest => 'a' ≤ c && c ≤ 'z' && 2 ≤ rest.length && rest.length ≤ 62 && rest.all (fun d =>
      lowerOrDigit d || d == '-')
  | [] => false

def validateNativeCommitmentSubmitter (id : Text) (p : Workload) : Checked Unit := do
  require (!(p.humanTokenProfile.any (fun h => h.scopes.contains nativeCommitmentSubmitScope))) .submitInHumanToken
  if !p.scopes.contains nativeCommitmentSubmitScope then return ()
  else do
    require (workloadClientID id) .submitClientID
    require (p.humanTokenProfile.isNone && !p.scopes.contains buyerHandoffScope) .submitByBFF
    require (p.audiences.contains nativeCommitmentAudience) .submitAudience

def nativeCommitmentTokenScoped (e : Evidence) : Bool :=
  !e.grantedScopes.contains nativeCommitmentSubmitScope || e.grantedAudiences == [nativeCommitmentAudience]

end NativeCommitment

section Validation

def oidcScopes : List Text := ["openid".toList, "profile".toList, "email".toList, "offline_access".toList]

def HumanTokenProfile.validate (p : HumanTokenProfile) (workload : Workload) : Checked Unit := do
  require (p.purpose == "ESTATE_BFF_BUYER".toList) .humanPurpose
  require (workload.credentialType == "client_credentials".toList) .humanCredential
  require (workload.scopes.contains buyerHandoffScope) .humanHandoff
  each (fun values => require (!values.isEmpty && canonicalValues [] values) .humanValues) [p.audiences, p.scopes]
  require (!p.audiences.contains "baobab-control-plane".toList) .humanControlPlane
  each (fun scope => require (!oidcScopes.contains scope && scope != buyerHandoffScope) .humanResourceScopes) p.scopes
  let mapping := (workload.humanScopeAudiences.map Registry.entries).getD []
  require (mapping.length == p.scopes.length) .humanScopeAudience
  each (fun scope =>
    require (!(workload.scopeAudiences scope).isEmpty && subset (workload.scopeAudiences scope) p.audiences)
      .humanScopeAudience) p.scopes
  -- every profile audience is reached by some scope
  require ((p.scopes.flatMap workload.scopeAudiences).dedup.length == p.audiences.length) .humanAudienceUnreached

def lifecycles : List Text :=
  ["ACTIVE".toList, "PROVISIONED".toList, "SUSPENDED".toList, "REVOKED".toList, "RETIRED".toList]

def validateWorkload (environment id : Text) (p : Workload) : Checked Unit := do
  tmsProposalHold id p
  require (p.environment == environment) .workloadEnvironment
  require (!id.isEmpty && Text.trimSpace id == id && !p.scopes.isEmpty && !p.audiences.isEmpty) .workloadProfile
  require (p.credentialType == "client_credentials".toList || p.credentialType == "federated_workload_token".toList)
    .credentialProfile
  require (lifecycles.contains p.status) .lifecycle
  each (fun values => require (canonicalValues [] values) .noncanonicalValue) [p.scopes, p.audiences]
  match p.humanTokenProfile with
  | some human => human.validate p
  | none => do
    require (!p.scopes.contains buyerHandoffScope) .handoffWithoutProfile
    require p.humanScopeAudiences.isNone .audiencesWithoutProfile
  validateNativeCommitmentSubmitter id p

def validateBindings (c : Config) : List Binding → List (Text × Binding) → Checked Unit
  | _, [] => return ()
  | seen, (id, b) :: rest => do
    require ((c.workloads.get id).any (fun p => p.credentialType == "federated_workload_token".toList) &&
      !b.issuer.isEmpty && !b.subject.isEmpty && !seen.contains b) .sharedBinding
    validateBindings c (b :: seen) rest

def isCommit (t : Text) : Bool :=
  t.length == 40 && t.all (fun c => ('a' ≤ c && c ≤ 'f') || Text.isDigit c)

def environments : List Text := ["development".toList, "staging".toList, "production".toList]

def Config.validate (c : Config) : Checked Unit := do
  require (isCommit c.sharedCommit && !c.workloads.entries.isEmpty) .sharedCommit
  require (environments.contains c.environment) .issuerEnvironment
  each (fun w => validateWorkload c.environment w.1 w.2) c.workloads.entries
  validateBindings c [] c.bindings.entries

end Validation

section Claims

structure WorkloadClaims where
  actorType : Text
  azp : Text
  scope : Text

def federatedGrant : Text := "urn:ietf:params:oauth:grant-type:jwt-bearer"

/-- The registration of a client, held back before it is even looked at. -/
def Config.held (c : Config) (id : Text) : Checked Unit := tmsProposalHold id ((c.workloads.get id).getD Workload.zero)

def Config.registered (c : Config) (id : Text) (denied : Refusal) : Checked Workload :=
  (c.workloads.get id).elim (.error denied) .ok

def Config.credential (c : Config) (p : Workload) (e : Evidence) : Checked Unit :=
  if p.credentialType = "client_credentials".toList then
    require (e.grant == "client_credentials".toList && e.subject == e.clientID) .credentialMismatch
  else if p.credentialType = "federated_workload_token".toList then
    require ((c.bindings.get e.clientID).any (fun b => e.grant == federatedGrant && e.subject == b.subject &&
      e.assertionSubject == b.subject && e.assertionIssuer == b.issuer)) .assertionMismatch
  else .error .credentialProfile

def Config.claims (c : Config) (e : Evidence) : Checked WorkloadClaims := do
  c.held e.clientID
  tmsGrantHold e
  let p ← c.registered e.clientID .issuanceDenied
  require (p.status == "ACTIVE".toList || p.status == "PROVISIONED".toList) .issuanceDenied
  require (!p.environment.isEmpty && p.environment == c.environment) .issuanceDenied
  c.credential p e
  require (!e.requestedScopes.isEmpty && subset e.requestedScopes p.scopes && sameSet e.grantedScopes e.requestedScopes)
    .scopeMismatch
  require (!e.grantedAudiences.isEmpty && subset e.grantedAudiences p.audiences) .audienceMismatch
  require (nativeCommitmentTokenScoped e) .submitNotScoped
  return ⟨"workload", e.clientID, Text.join ' ' e.grantedScopes⟩

end Claims

section Requests

structure WorkloadTokenRequest where
  workloadID : Text
  audience : Text
  /-- Omitted, or a list. -/
  scopes : Option (List Text)

/-- `[a-z][a-z0-9-]*` -/
def nameKey : Text → Bool
  | c :: rest => 'a' ≤ c && c ≤ 'z' && rest.all (fun d => lowerOrDigit d || d == '-')
  | [] => false

def scopeKey (t : Text) : Bool := 2 ≤ (t.splitOn ':').length && (t.splitOn ':').all nameKey

def requestScopes : List Text → List Text → Bool
  | _, [] => true
  | seen, scope :: scopes =>
    scope.size ≤ 63 && scopeKey scope && !seen.contains scope && requestScopes (scope :: seen) scopes

def WorkloadTokenRequest.validate (r : WorkloadTokenRequest) : Checked Unit := do
  require (r.workloadID.size ≤ 63 && nameKey r.workloadID && r.audience.size ≤ 63 && nameKey r.audience &&
    (r.scopes.getD []).length ≤ 32) .requestShape
  require (requestScopes [] (r.scopes.getD [])) .requestScopes

abbrev WorkloadDefaults := Registry (Registry (List Text))

def WorkloadDefaults.scopes (d : WorkloadDefaults) (id audience : Text) : Option (List Text) :=
  (Registry.get d id).bind (fun m => m.get audience)

def Config.admitRequest (c : Config) (r : WorkloadTokenRequest) (defaults : WorkloadDefaults) (e : Evidence) :
    Checked WorkloadTokenRequest := do
  c.validate
  r.validate
  let p ← c.registered r.workloadID .registrationDenied
  require (p.status == "ACTIVE".toList && e.clientID == r.workloadID && p.audiences.contains r.audience)
    .registrationDenied
  let scopes := (r.scopes.orElse (fun _ => WorkloadDefaults.scopes defaults r.workloadID r.audience)).getD []
  require (!scopes.isEmpty) .requestScopesMissing
  WorkloadTokenRequest.validate { r with scopes := some scopes }
  require (sameSet e.requestedScopes scopes && sameSet e.grantedScopes scopes &&
    sameSet e.grantedAudiences [r.audience]) .intentDiffers
  let _ ← c.claims e
  return { r with scopes := some scopes }

end Requests

end TokenProfile
