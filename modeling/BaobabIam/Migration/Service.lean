import BaobabIam.Base.Sha256
import BaobabIam.Migration.Ports

/-! The service over a record store: registration, transitions and target
bindings, the credential and verification stages, and batch registration. -/
namespace Migration

open Interleaving Text Wire

variable {S : Type}

def Record.defaulted (r : Record) (created : Time) : Record :=
  { r with
    migrationState := if r.migrationState = .other [] then .discovered else r.migrationState
    createdAt := if r.createdAt.isZero then created else r.createdAt }

def registerRow (store : RecordStore S) (r : Record) : Op S Record := do
  Prog.ofExcept r.validateStructural
  let found ← (store.get r.migrationID).attempt
  match found with
  | .ok _ => .fail (.errorf "migration: migration_id %q already exists" [r.migrationID])
  | .error e =>
    if e.is .notFound then store.put r
    else .fail (.wrapped "migration: store get %s: %w" [r.migrationID] e)

/-- The clock is read only for a record without a creation time. -/
def register (store : RecordStore S) (r : Record) : Op S Record :=
  if r.createdAt.isZero then do
    let created ← now
    registerRow store (r.defaulted created.utc)
  else registerRow store (r.defaulted r.createdAt)

def Record.stamp (r : Record) (n : Time) : MigrationState → Record
  | .provisioning | .ready => { r with startedAt := some (r.startedAt.getD n) }
  | .verified => { r with verifiedAt := some n }
  | .cutover => { r with cutoverAt := some n }
  | .legacyRetired => { r with retiredAt := some n }
  | _ => r

def applyTransition (store : RecordStore S) (policy : Policy) (migrationID : Text) (next : MigrationState) :
    Op S Record := do
  let r ← store.get migrationID
  allowTransition policy migrationID r.migrationState next
  let r ← Prog.ofExcept (r.transition next)
  let n ← now
  store.put (r.stamp n.utc next)

def setTargetBinding (store : RecordStore S) (migrationID : Text) (target : ProviderBinding) : Op S Record := do
  let target : ProviderBinding := ⟨trimSpace target.provider, trimSpace target.issuer, trimSpace target.subject⟩
  Prog.require (target.issuer ≠ [] && target.subject ≠ [] && target.provider ≠ [])
    (.errorf "migration: target provider, issuer, and subject are required" [])
  let r ← store.get migrationID
  let r := { r with target := target }
  Prog.ofExcept r.validateStructural
  store.put r

structure StageResult where
  record : Record
  outcome : String
  already : Bool := false

namespace CredentialStage

def ready : MigrationState → Bool
  | .credentialReady | .verificationPending | .verified | .cutoverReady | .cutover | .legacyRetired => true
  | _ => false

def toPending (store : RecordStore S) (policy : Policy) (migrationID : Text) (r : Record) (outcome : String) :
    Op S StageResult :=
  if r.migrationState = .credentialPending then return ⟨r, outcome, false⟩
  else do
    let out ← applyTransition store policy migrationID .credentialPending
    return ⟨out, outcome, false⟩

def toReady (store : RecordStore S) (policy : Policy) (migrationID : Text) (r : Record) (outcome : String) :
    Op S StageResult :=
  if r.migrationState = .provisioned || r.migrationState = .credentialPending then do
    let out ← applyTransition store policy migrationID .credentialReady
    return ⟨out, outcome, false⟩
  else return ⟨r, outcome, true⟩

def apply (store : RecordStore S) (policy : Policy) (migrationID : Text) : Op S StageResult := do
  let r ← store.get migrationID
  Prog.require r.credentialStrategy.valid
    (.errorf "migration: invalid credential_strategy %q" [r.credentialStrategy.text])
  if ready r.migrationState then return ⟨r, "already_credential_ready", true⟩
  else if r.migrationState = .provisioned || r.migrationState = .credentialPending then
    match r.credentialStrategy with
    | .noCredentialRequired => toReady store policy migrationID r "no_credential_required"
    | .firstLoginMigration | .controlledReEnrolment | .federatedRebind | .passkeyReEnrolment | .mfaReEnrolment =>
      toPending store policy migrationID r "awaiting_external_credential_action"
    | .directImport => toPending store policy migrationID r "direct_import_pending_provider_side"
    | .other value => .fail (.errorf "migration: unhandled credential_strategy %q" [value])
  else
    .fail (.errorf "migration: credential stage requires PROVISIONED or CREDENTIAL_PENDING, got %s"
      [r.migrationState.text])

def markReady (store : RecordStore S) (policy : Policy) (migrationID : Text) : Op S StageResult := do
  let r ← store.get migrationID
  if ready r.migrationState then return ⟨r, "already_credential_ready", true⟩
  else if r.migrationState = .credentialPending then do
    let out ← applyTransition store policy migrationID .credentialReady
    return ⟨out, "marked_ready_external_proof", false⟩
  else if r.migrationState = .provisioned then
    if r.credentialStrategy = .noCredentialRequired then
      toReady store policy migrationID r "no_credential_required"
    else
      .fail (.errorf "migration: MarkReady from PROVISIONED only for NO_CREDENTIAL_REQUIRED; got %s"
        [r.credentialStrategy.text])
  else
    .fail (.errorf "migration: MarkReady requires CREDENTIAL_PENDING (or PROVISIONED+NO_CREDENTIAL_REQUIRED), got %s"
      [r.migrationState.text])

end CredentialStage

namespace VerificationStage

def verified : MigrationState → Bool
  | .verified | .cutoverReady | .cutover | .legacyRetired => true
  | _ => false

def apply (store : RecordStore S) (policy : Policy) (migrationID : Text) : Op S StageResult := do
  let r ← store.get migrationID
  if verified r.migrationState then return ⟨r, "already_verified", true⟩
  else if r.migrationState = .verificationPending then return ⟨r, "verification_pending", false⟩
  else if r.migrationState = .credentialReady then do
    let out ← applyTransition store policy migrationID .verificationPending
    return ⟨out, "verification_pending", false⟩
  else
    .fail (.errorf "migration: verification stage requires CREDENTIAL_READY or VERIFICATION_PENDING, got %s"
      [r.migrationState.text])

def markVerified (store : RecordStore S) (policy : Policy) (migrationID : Text) : Op S StageResult := do
  let r ← store.get migrationID
  if verified r.migrationState then return ⟨r, "already_verified", true⟩
  else if r.migrationState = .verificationPending then do
    let out ← applyTransition store policy migrationID .verified
    return ⟨out, "verified", false⟩
  else
    .fail (.errorf "migration: MarkVerified requires VERIFICATION_PENDING, got %s" [r.migrationState.text])

end VerificationStage

structure BatchRegisterRequest where
  batchID : Text
  defaultStrategy : CredentialStrategy := .other []
  defaultClass : IdentityClass := .other []
  orphanClass : IdentityClass := .other []
  deriving DecidableEq, Repr

structure BatchRegisterResult where
  batchID : Text
  registered : Nat := 0
  orphans : Nat := 0
  skippedExists : Nat := 0
  migrationIDs : List Text := []
  deriving DecidableEq, Repr

/-- The key of a source binding: a digest of the whole tuple, so that separators in
issuers or subjects cannot make two tuples meet. -/
@[irreducible] def batchMigrationID (batchID : Text) (source : ProviderBinding) : Text :=
  "migration-v1-".toList ++
    Sha256.hex (render (.arr [.str batchID, .str source.provider, .str source.issuer, .str source.subject]))

namespace BatchRegisterRequest

def trimmed (req : BatchRegisterRequest) : BatchRegisterRequest where
  batchID := trimSpace req.batchID
  defaultStrategy :=
    if req.defaultStrategy = .other [] then .noCredentialRequired
    else .ofText (trimSpace req.defaultStrategy.text)
  defaultClass :=
    if req.defaultClass = .other [] then .testOrNonProd else .ofText (trimSpace req.defaultClass.text)
  orphanClass :=
    if req.orphanClass = .other [] then .orphanCandidate else .ofText (trimSpace req.orphanClass.text)

def checks (req : BatchRegisterRequest) : List (Bool × Failure) :=
  [(req.batchID ≠ [], .errorf "migration: BatchID is required" []),
   (req.defaultStrategy.valid, .errorf "migration: invalid DefaultStrategy %q" [req.defaultStrategy.text]),
   (req.defaultClass.valid, .errorf "migration: invalid DefaultClass %q" [req.defaultClass.text])]

end BatchRegisterRequest

def SourceBinding.source (b : SourceBinding) : ProviderBinding :=
  ⟨trimSpace b.provider, trimSpace b.issuer, trimSpace b.subject⟩

def SourceBinding.classFor (b : SourceBinding) (req : BatchRegisterRequest) : IdentityClass :=
  if b.suggestedClass = .other [] then req.defaultClass else b.suggestedClass

/-- A row that an earlier run left is the row this binding would get. -/
def repeatChecks (req : BatchRegisterRequest) (b : SourceBinding) (id : Text) (existing : Record) : Bool × Failure :=
  (existing.migrationBatchID = req.batchID && existing.source = b.source &&
     existing.sourceSnapshotReference = b.snapshotReference,
   .errorf "migration: source binding/receipt drift for %s" [id])

def sameCanonical (existing : Record) (canonical id : Text) : Bool × Failure :=
  (existing.canonicalIdentityID = canonical &&
     (decide (existing.identityClass = .orphanCandidate) == decide (canonical = [])),
   .errorf "migration: canonical identity drift for %s (requires manual reconciliation)" [id])

def BatchRegisterRequest.newRecord (req : BatchRegisterRequest) (b : SourceBinding) (canonicalID : Text)
    (identityClass : IdentityClass) : Record where
  migrationID := batchMigrationID req.batchID b.source
  migrationBatchID := req.batchID
  canonicalIdentityID := canonicalID
  source := b.source
  identityClass := identityClass
  credentialStrategy := req.defaultStrategy
  migrationState := .discovered
  sourceSnapshotReference := b.snapshotReference

def registerBinding (store : RecordStore S) (req : BatchRegisterRequest) (index : Nat) (b : SourceBinding)
    (result : BatchRegisterResult) : Op S BatchRegisterResult := do
  let id := batchMigrationID req.batchID b.source
  Prog.require (b.source.provider ≠ [] && b.source.issuer ≠ [] && b.source.subject ≠ [])
    (.errorf "migration: binding[%d] missing provider/issuer/subject" [decimal index])
  let found ← (store.get id).attempt
  match found with
  | .ok existing =>
    Prog.ofExcept (firstFailure [repeatChecks req b id existing])
    let answer ← Prog.question (I := ports) (.resolveCanonical b.source)
    match answer with
    | .ok canonical =>
      Prog.ofExcept (firstFailure [sameCanonical existing canonical id])
      return { result with skippedExists := result.skippedExists + 1 }
    | .error e =>
      if e.is .noCanonicalMapping then
        Prog.ofExcept (firstFailure [sameCanonical existing [] id])
        return { result with skippedExists := result.skippedExists + 1 }
      else .fail (.wrapped "migration: repeat canonical readback unavailable: %w" [] e)
  | .error e =>
    if e.is .notFound then
      let answer ← Prog.question (I := ports) (.resolveCanonical b.source)
      match answer with
      | .ok canonical =>
        let stored ← (register store (req.newRecord b canonical (b.classFor req))).attempt
        let _ ← Prog.ofExcept (stored.mapError (.wrapped "migration: register %s: %w" [id]))
        return { result with registered := result.registered + 1, migrationIDs := result.migrationIDs ++ [id] }
      | .error e =>
        if e.is .noCanonicalMapping then
          let stored ← (register store (req.newRecord b [] req.orphanClass)).attempt
          let _ ← Prog.ofExcept (stored.mapError (.wrapped "migration: register %s: %w" [id]))
          return { result with
            registered := result.registered + 1
            orphans := result.orphans + 1
            migrationIDs := result.migrationIDs ++ [id] }
        else .fail (.wrapped "migration: resolve %s: %w" [id] e)
    else .fail (.wrapped "migration: store get %s: %w" [id] e)

def registerBindings (store : RecordStore S) (req : BatchRegisterRequest) :
    Nat → List SourceBinding → BatchRegisterResult → Op S BatchRegisterResult
  | _, [], result => return result
  | index, b :: rest, result => do
    let result ← registerBinding store req index b result
    registerBindings store req (index + 1) rest result

def registerBatch (store : RecordStore S) (req : BatchRegisterRequest) : Op S BatchRegisterResult := do
  let req := req.trimmed
  Prog.ofExcept (firstFailure req.checks)
  let answer ← Prog.question (I := ports) (.listSourceBindings req.batchID)
  let bindings ← Prog.ofExcept answer
  registerBindings store req 0 bindings { batchID := req.batchID }

end Migration
