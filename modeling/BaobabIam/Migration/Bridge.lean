import BaobabIam.Migration.Service

/-! The provision bridge: it moves a row along the happy path to PROVISIONING, asks
the provider of its class for a target and binds it. Provider calls change the
world, so each of them has its place in the trace. -/
namespace Migration

open Interleaving Text Wire

inductive WorkloadProfile where
  | federated | clientSecret
  /-- A value that names no profile; empty when it is not set. -/
  | other (value : Text)
  deriving DecidableEq, Repr

def WorkloadProfile.text : WorkloadProfile → Text
  | .federated => "federated_workload_token"
  | .clientSecret => "client_secret"
  | .other value => value

structure FederatedTrustTemplate where
  assertionIssuer : Text := []
  assertionSubjectFor : Option (Text → Text) := none
  assertionJWK : Table Json := []
  trustTTL : Int := 0
  scopesByLogicalID : Table (List Text) := []
  audiencesByLogicalID : Table (List Text) := []

structure ProvisionBridge where
  /-- Which of the ports are configured. -/
  human : Bool := false
  humanTraits : Bool := false
  workload : Bool := false
  federated : Bool := false
  targetIssuer : Text
  targetProvider : Text := "ory"
  defaultWorkloadProfile : WorkloadProfile := .federated
  clientSecretAllowList : List Text := []
  clientSecretScopesByLogicalID : Table (List Text) := []
  federatedTrust : FederatedTrustTemplate := {}
  /-- The mail address parser of the standard library. -/
  parseAddress : Text → Option Text

structure ProvisionResult where
  record : Record
  providerSubject : Text
  workloadProfile : WorkloadProfile := .other []
  alreadyProvisioned : Bool := false

def stateOrder : MigrationState → Nat
  | .discovered => 0
  | .validated => 1
  | .ready => 2
  | .provisioning => 3
  | .provisioned => 4
  | _ => 100

def nextHappy : MigrationState → Option MigrationState
  | .discovered => some .validated
  | .validated => some .ready
  | .ready => some .provisioning
  | .provisioning => some .provisioned
  | _ => none

namespace ProvisionBridge

variable {S : Type} (b : ProvisionBridge)

def targetProviderName (fromProvisioner : Text) : Text :=
  if fromProvisioner ≠ [] then fromProvisioner
  else if b.targetProvider ≠ [] then b.targetProvider
  else "ory"

def issuerOr (issuer : Text) : Text := if issuer = [] then b.targetIssuer else issuer

def humanSpec (r : Record) (traits : Table Json) : IdentityProvisioningSpec where
  traits := traits
  migrationID := r.migrationID
  metadata :=
    [("gate".toList, "IAM-M5".toList), ("migration_id".toList, r.migrationID),
     ("source_issuer".toList, r.source.issuer), ("source_subject".toList, r.source.subject),
     ("canonical_identity_id".toList, r.canonicalIdentityID),
     ("email_role".toList, "kratos_schema_identifier_only".toList)]

def provisionHuman (r : Record) : Op S ProviderBinding := do
  Prog.require b.human (.errorf "migration: IdentityProvisioner is required for human identities" [])
  Prog.require b.humanTraits (.errorf "migration: authorized HumanTraitsSource is required" [])
  let answer ← Prog.question (I := ports) (.loadHumanTraits r.source r.sourceSnapshotReference)
  let traits ← Prog.ofExcept (answer.mapError (.wrapped "migration: load authorized human traits: %w" []))
  Prog.ofExcept (validateHumanTraits b.parseAddress traits)
  Prog.ofExcept (humanSpec r traits).validate
  let answer ← Prog.effect (I := ports) (.provisionIdentity (humanSpec r traits))
  let ident ← Prog.ofExcept answer
  match ident with
  | none => .fail (.errorf "migration: human provisioner returned empty subject" [])
  | some ident =>
    Prog.require (ident.subject ≠ []) (.errorf "migration: human provisioner returned empty subject" [])
    return ⟨b.targetProviderName ident.provider, b.issuerOr ident.issuer, ident.subject⟩

def clientSecretSpec (r : Record) (logicalID : Text) (scopes : List Text) : WorkloadProvisioningSpec where
  logicalClientID := logicalID
  displayName := logicalID
  authMethod := .clientSecret
  allowedScopes := scopes
  lifecycleStatus := .provisioned
  metadata :=
    [("gate".toList, "IAM-M5".toList), ("migration_id".toList, r.migrationID),
     ("source_issuer".toList, r.source.issuer), ("baobab_credential_type".toList, "client_secret".toList),
     ("m4_path".toList, "M4-C".toList)]

def provisionWorkloadClientSecret (r : Record) (logicalID : Text) : Op S ProviderBinding := do
  Prog.require b.workload (.errorf "migration: WorkloadProvisioner required for M4-C client_secret" [])
  let scopes := (b.clientSecretScopesByLogicalID.lookup logicalID).getD []
  Prog.require (!scopes.isEmpty)
    (.errorf "migration: ClientSecretScopesByLogicalID missing for allow-listed client %q" [logicalID])
  Prog.ofExcept (clientSecretSpec r logicalID scopes).validate
  let answer ← Prog.effect (I := ports) (.provisionWorkload (clientSecretSpec r logicalID scopes))
  let w ← Prog.ofExcept answer
  match w with
  | none => .fail (.errorf "migration: workload provisioner returned empty client id" [])
  | some w =>
    Prog.require (w.providerClientID ≠ []) (.errorf "migration: workload provisioner returned empty client id" [])
    return ⟨b.targetProviderName w.provider, b.issuerOr w.issuer, w.providerClientID⟩

def federatedSpec (r : Record) (logicalID : Text) (scopes audiences : List Text) (now : Time) :
    FederatedWorkloadTrustSpec where
  logicalClientID := logicalID
  displayName := logicalID
  allowedScopes := scopes
  intendedAudiences := audiences
  assertionIssuer := b.federatedTrust.assertionIssuer
  assertionSubject :=
    match b.federatedTrust.assertionSubjectFor with
    | some subject => subject logicalID
    | none => "system:serviceaccount:baobab:".toList ++ logicalID
  assertionJWK := b.federatedTrust.assertionJWK
  trustExpiresAt :=
    now.utc.add (if b.federatedTrust.trustTTL ≤ 0 then 24 * 60 * Time.minute else b.federatedTrust.trustTTL)
  lifecycleStatus := .provisioned
  metadata :=
    [("gate".toList, "IAM-M5".toList), ("migration_id".toList, r.migrationID),
     ("source_issuer".toList, r.source.issuer),
     ("baobab_credential_type".toList, "federated_workload_token".toList), ("m4_path".toList, "M4-F".toList)]

def provisionFederatedWorkload (r : Record) (logicalID : Text) : Op S ProviderBinding := do
  Prog.require (trimSpace b.federatedTrust.assertionIssuer ≠ [])
    (.errorf "migration: FederatedTrust.AssertionIssuer is required" [])
  Prog.require (!b.federatedTrust.assertionJWK.isEmpty)
    (.errorf "migration: FederatedTrust.AssertionJWK is required" [])
  let scopes := (b.federatedTrust.scopesByLogicalID.lookup logicalID).getD []
  Prog.require (!scopes.isEmpty)
    (.errorf "migration: FederatedTrust.ScopesByLogicalID missing for %q (Shared registry)" [logicalID])
  let audiences := (b.federatedTrust.audiencesByLogicalID.lookup logicalID).getD []
  Prog.require (!audiences.isEmpty)
    (.errorf "migration: FederatedTrust.AudiencesByLogicalID missing for %q (Shared registry)" [logicalID])
  let created ← now
  let spec := b.federatedSpec r logicalID scopes audiences created
  let checked ← now
  Prog.ofExcept (spec.validate checked)
  let answer ← Prog.effect (I := ports) (.provisionFederatedWorkload spec)
  let trust ← Prog.ofExcept answer
  match trust with
  | none => .fail (.errorf "migration: federated provisioner returned nil" [])
  | some trust =>
    let clientID := if trust.providerClientID = [] then trust.logicalClientID else trust.providerClientID
    Prog.require (clientID ≠ []) (.errorf "migration: federated provisioner returned empty client id" [])
    return ⟨b.targetProviderName trust.provider, b.issuerOr trust.issuer, clientID⟩

def provisionWorkload (r : Record) : Op S (ProviderBinding × WorkloadProfile) := do
  let logicalID := r.source.subject
  Prog.require (logicalID ≠ []) (.errorf "migration: workload logical client id (Source.Subject) is required" [])
  if b.clientSecretAllowList.contains logicalID then
    let binding ← b.provisionWorkloadClientSecret r logicalID
    return (binding, .clientSecret)
  else
    let profile := if b.defaultWorkloadProfile = .other [] then .federated else b.defaultWorkloadProfile
    Prog.require (profile = .federated)
      (.errorf "migration: non-federated profile %q requires ClientSecretAllowList entry for %q"
        [profile.text, logicalID])
    Prog.require b.federated
      (.errorf "migration: FederatedWorkloadProvisioner required for M4-F (logical client %q)" [logicalID])
    let binding ← b.provisionFederatedWorkload r logicalID
    return (binding, .federated)

def provisionTarget (r : Record) : Op S (ProviderBinding × WorkloadProfile) :=
  match r.identityClass with
  | .human | .privilegedHuman | .federatedHuman | .testOrNonProd => do
    let binding ← b.provisionHuman r
    return (binding, .other [])
  | .workload | .serviceIntegration => b.provisionWorkload r
  | other => .fail (.errorf "migration: unsupported identity class %q" [other.text])

/-- The loop of `advanceTo`. Every pass raises the order by one, so it ends before
the passes allowed here are used up. -/
def advance (store : RecordStore S) (policy : Policy) (migrationID : Text) (next : MigrationState) :
    Nat → MigrationState → Op S Unit
  | passes, state =>
    if stateOrder state < stateOrder next then
      match passes, nextHappy state with
      | _, none => .fail (.errorf "migration: cannot advance from %s toward %s" [state.text, next.text])
      | 0, some _ => .fail (.errorf "migration: cannot advance from %s toward %s" [state.text, next.text])
      | passes + 1, some step => do
        let r ← applyTransition store policy migrationID step
        advance store policy migrationID next passes r.migrationState
    else return ()

def advanceTo (store : RecordStore S) (policy : Policy) (migrationID : Text) (next : MigrationState) :
    Op S Unit := do
  let r ← store.get migrationID
  if r.migrationState = next || stateOrder next ≤ stateOrder r.migrationState then return ()
  else advance store policy migrationID next (stateOrder next) r.migrationState

/-- The transition of the failure handler; when it is refused, the code is put on the
row that the handler had read. -/
def failTransition (store : RecordStore S) (policy : Policy) (migrationID code : Text) (r : Record)
    (next : MigrationState) : Op S Unit := do
  let moved ← (applyTransition store policy migrationID next).attempt
  match moved with
  | .ok _ => return ()
  | .error e =>
    let _ ← (store.put { r with lastErrorCode := code }).attempt
    .fail e

/-- The failure handler. Its own failures are dropped by its caller. -/
def fail (store : RecordStore S) (policy : Policy) (migrationID code : Text) : Op S Unit := do
  let r ← store.get migrationID
  let next := if canTransition r.migrationState .failedRetryable then .failedRetryable else .failedManualReview
  Prog.when (canTransition r.migrationState next) (failTransition store policy migrationID code r next)
  let r ← store.get migrationID
  let _ ← store.put { r with lastErrorCode := code }
  return ()

def already : MigrationState → Bool
  | .provisioned | .credentialPending | .credentialReady | .verificationPending | .verified | .cutoverReady
  | .cutover | .legacyRetired => true
  | _ => false

def provisionRow (store : RecordStore S) (policy : Policy) (migrationID : Text) : Op S ProvisionResult := do
  let r ← store.get migrationID
  let made ← (b.provisionTarget r).attempt
  match made with
  | .error e =>
    let _ ← (fail store policy migrationID "provision_failed").attempt
    .fail (.wrapped "migration: provision %s: %w" [migrationID] e)
  | .ok (target, profile) =>
    let bound ← (setTargetBinding store migrationID target).attempt
    match bound with
    | .error e =>
      let _ ← (fail store policy migrationID "set_target_failed").attempt
      .fail e
    | .ok _ =>
      let out ← applyTransition store policy migrationID .provisioned
      return ⟨out, target.subject, profile, false⟩

def provision (store : RecordStore S) (policy : Policy) (migrationID : Text) : Op S ProvisionResult := do
  let r ← store.get migrationID
  Prog.require (r.identityClass ≠ .orphanCandidate)
    (.errorf "migration: refuse to provision ORPHAN_CANDIDATE %q (manual review)" [migrationID])
  Prog.require (r.identityClass ≠ .breakGlass)
    (.errorf "migration: refuse to auto-provision BREAK_GLASS %q" [migrationID])
  if !targetOptional r.migrationState && r.migrationState ≠ .provisioning && already r.migrationState then
    return ⟨r, r.target.subject, .other [], true⟩
  else
    advanceTo store policy migrationID .validated
    advanceTo store policy migrationID .ready
    advanceTo store policy migrationID .provisioning
    b.provisionRow store policy migrationID

end ProvisionBridge

end Migration
