import BaobabIam.Migration.PostgresStore

/-! Native containment and rollback. Containment commits a deny fence, a journal row
and the quarantine of the migration in one transaction before it touches the
provider, and every failure after that leaves the journal UNKNOWN. -/
namespace Migration

open Interleaving Text

def operationChar (c : Char) : Bool := ('a' ≤ c && c ≤ 'z') || ('0' ≤ c && c ≤ '9')

def n05OperationID : Text → Bool
  | [] => false
  | c :: t =>
    operationChar c && 15 ≤ t.length && t.length ≤ 159 && t.all (fun c => operationChar c || c = '_' || c = '-')

structure ContainmentReceipt where
  operationID : Text
  migrationID : Text
  phase : Phase
  classification : String
  source : ExternalSubject
  target : ExternalSubject
  canonicalPrincipalID : Text
  deriving DecidableEq, Repr

namespace Database

def containmentOf (db : Database) (migrationID : Text) : Option ContainmentRow :=
  db.containment.find? (fun c => c.migrationID = migrationID)

def operation (db : Database) (operationID : Text) : Option ContainmentRow :=
  db.containment.find? (fun c => c.operationID = operationID)

def fence (db : Database) (migrationID : Text) : Option FenceRow :=
  db.denyFence.find? (fun f => f.migrationID = migrationID)

def insertContainment (db : Database) (row : ContainmentRow) : Except SqlCode Database :=
  if !(Record.between 16 160 row.operationID && Record.between 1 2048 row.targetIssuer &&
      Record.between 1 512 row.targetSubject) then .error .checkViolation
  else if (db.operation row.operationID).isSome then .error .uniqueViolation
  else if (db.find row.migrationID).isNone then .error .foreignKeyViolation
  else .ok { db with
    containment := db.containment ++ [row]
    containmentHistory := db.containmentHistory ++ [(row.operationID, row.phase)] }

def insertFence (db : Database) (row : FenceRow) : Database :=
  match db.fence row.migrationID with
  | some _ => db
  | none => { db with denyFence := db.denyFence ++ [row] }

/-- A row that a phase update changes: VERIFIED only becomes UNKNOWN. -/
def marks (operationID : Text) (phase : Phase) (row : ContainmentRow) : Bool :=
  row.operationID = operationID && (row.phase ≠ .verified || phase = .unknown)

def updatePhase (db : Database) (operationID : Text) (phase : Phase) : Database :=
  { db with
    containment :=
      db.containment.map (fun row => if marks operationID phase row then { row with phase := phase } else row)
    containmentHistory :=
      db.containmentHistory ++ (db.containment.filter (marks operationID phase)).map (fun _ => (operationID, phase)) }

end Database

namespace NativeContainment

def humanClass : IdentityClass → Bool
  | .human | .privilegedHuman | .federatedHuman | .testOrNonProd => true
  | _ => false

def sourceOf (row : Record) : ExternalSubject := ⟨row.source.issuer, row.source.subject⟩
def targetOf (row : Record) : ExternalSubject := ⟨row.target.issuer, row.target.subject⟩

def fenceFor (row : Record) : FenceRow :=
  ⟨row.migrationID, row.source.issuer, row.source.subject, row.target.issuer, row.target.subject⟩

def journalFor (row : Record) (operationID : Text) : Body Database Unit := do
  statement n05WriteError
  let prior ← Tx.read (fun db : Database => db.containmentOf row.migrationID)
  match prior with
  | some prior => Tx.require (prior.operationID = operationID) .migrationConflict
  | none =>
    statement n05WriteError
    let db ← Tx.read id
    let db ← orFail ((db.insertContainment
      ⟨operationID, row.migrationID, row.target.issuer, row.target.subject, .pending⟩).mapError n05WriteError)
    Tx.write (fun _ => db)

def sealFence (row : Record) : Body Database Unit := do
  statement n05WriteError
  Tx.write (fun db => db.insertFence (fenceFor row))
  statement (fun _ => .migrationConflict)
  let observed ← Tx.read (fun db : Database => db.fence row.migrationID)
  Tx.require (observed = some (fenceFor row)) .migrationConflict

def quarantine (row : Record) : Body Database Unit :=
  if row.migrationState = .quarantined then pure ()
  else writeRow (some row) { row with migrationState := .quarantined, revision := row.revision + 1 }

def receiptFor (row : Record) (operationID : Text) (phase : Phase) : ContainmentReceipt where
  operationID := operationID
  migrationID := row.migrationID
  phase := phase
  classification := "DURABLE_IAM_DENY_FENCE_NOT_RESOURCE_ATTESTATION"
  source := sourceOf row
  target := targetOf row
  canonicalPrincipalID := row.canonicalIdentityID

def beginBody (migrationID operationID : Text) : Body Database (Except Failure ContainmentReceipt) := do
  statement n05WriteError
  statement n05WriteError
  let found ← Tx.read (fun db : Database => db.find migrationID)
  match found with
  | none => .fail .notFound
  | some row =>
    Tx.require (humanClass row.identityClass)
      (.errorf "migration: N05 human containment cannot impersonate workload lifecycle" [])
    Tx.require (row.target.issuer ≠ [] && row.target.subject ≠ [] && row.canonicalIdentityID ≠ [] &&
      row.migrationState ≠ .legacyRetired && row.migrationState ≠ .discovered)
      (.errorf "migration: no verified, reversible target human binding" [])
    Tx.require (row.migrationState = .quarantined || canTransition row.migrationState .quarantined)
      (.errorf "migration: quarantine transition not permitted" [])
    journalFor row operationID
    sealFence row
    quarantine row
    statement n05WriteError
    let journal ← Tx.read (fun db : Database => db.operation operationID)
    match journal with
    | none => .fail (n05WriteError (.other "02000"))
    | some journal => commit n05WriteError (receiptFor row operationID journal.phase)

def begin (migrationID operationID : Text) : Op Database ContainmentReceipt := do
  Prog.require (n05OperationID operationID && migrationID ≠ [])
    (.errorf "migration: bounded N05 containment input required" [])
  settled (beginBody migrationID operationID)

def n05PhaseError (code : SqlCode) : Failure :=
  .wrapped "migration: containment journal unavailable: %w" [] (.sql code)

def markBody (operationID : Text) (phase : Phase) : Body Database (Except Failure Unit) := do
  statement n05PhaseError
  Tx.write (fun db => db.updatePhase operationID phase)
  commit n05PhaseError ()

def markPhase (operationID : Text) (phase : Phase) : Op Database Unit := settled (markBody operationID phase)

def disabledAs (target : ExternalSubject) : Except Failure (Option ProviderIdentity) → Bool
  | .ok (some identity) =>
    identity.issuer = target.issuer && identity.subject = target.subject && identity.status = .disabled
  | _ => false

def noSessions : Except Failure Int → Bool
  | .ok count => count = 0
  | .error _ => false

/-- A complete denial proof, observed at most one minute before `now`. -/
def provesDenial (now : Time) : Except Failure CurrentVetoEvidence → Bool
  | .ok proof =>
    proof.sourceIssuerDenied && proof.targetIssuerDenied && proof.canonicalUnchanged &&
    proof.originalReference ≠ [] && !proof.observedAt.isZero && !proof.observedAt.after now &&
    now.sub proof.observedAt ≤ Time.minute
  | .error _ => false

/-- A journal that was VERIFIED before this call is read back at all three boundaries. -/
def recheck (configured : Bool) (receipt : ContainmentReceipt) : Op Database ContainmentReceipt := do
  Prog.require configured (.errorf "migration: current verified-containment readback unavailable" [])
  let identity ← Prog.question (I := ports) (.getIdentity receipt.target)
  let count ← Prog.question (I := ports) (.activeSessionCount receipt.target)
  let proof ← Prog.question (I := ports)
    (.verifyCurrentDenial receipt.source receipt.target receipt.canonicalPrincipalID)
  let read ← now
  if disabledAs receipt.target identity && noSessions count && provesDenial read proof then return receipt
  else
    let _ ← (markPhase receipt.operationID .unknown).attempt
    .fail (.errorf "migration: current containment drift after restore/replay" [])

def execute (configured : Bool) (receipt : ContainmentReceipt) : Op Database ContainmentReceipt := do
  Prog.require configured (.errorf "migration: real issuer and CP/resource revocation witnesses required" [])
  let answer ← Prog.effect (I := ports) (.disableIdentity receipt.target)
  let _ ← Prog.ofExcept (answer.mapError (fun _ => .errorf "migration: target identity disable unconfirmed" []))
  let identity ← Prog.question (I := ports) (.getIdentity receipt.target)
  Prog.require (disabledAs receipt.target identity) (.errorf "migration: target disable readback failed" [])
  markPhase receipt.operationID .identityDisabled
  let answer ← Prog.effect (I := ports) (.revokeSessions receipt.target)
  let _ ← Prog.ofExcept (answer.mapError (fun _ => .errorf "migration: target session revocation unconfirmed" []))
  let count ← Prog.question (I := ports) (.activeSessionCount receipt.target)
  Prog.require (noSessions count) (.errorf "migration: active native sessions remain or readback unavailable" [])
  markPhase receipt.operationID .sessionsRevoked
  let proof ← Prog.question (I := ports)
    (.verifyCurrentDenial receipt.source receipt.target receipt.canonicalPrincipalID)
  let read ← now
  Prog.require (provesDenial read proof) (.errorf "migration: current source/target CP token denial not proven" [])
  markPhase receipt.operationID .currentTokensDenied
  markPhase receipt.operationID .verified
  return { receipt with
    phase := .verified
    classification := "IAM_PROVIDER_CP_WITNESSES_REPORTED_NOT_INDEPENDENTLY_ATTESTED" }

/-- `configured` says that provider and denial witness are both there. -/
def contain (configured : Bool) (migrationID operationID : Text) : Op Database ContainmentReceipt := do
  let receipt ← begin migrationID operationID
  if receipt.phase = .verified then recheck configured receipt
  else
    let done ← (execute configured receipt).attempt
    match done with
    | .ok receipt => return receipt
    | .error e =>
      let _ ← (markPhase operationID .unknown).attempt
      .fail e

end NativeContainment

def RollbackWitness.complete (w : RollbackWitness) : Bool :=
  w.sourceFallbackConfirmed && w.targetActorDenied && w.canonicalUnchanged && w.legacyRevocationsPreserved &&
  w.originalReference ≠ []

namespace PostgresStore

def deniedByFence (migrationID : Text) : Op Database Bool :=
  transaction (do
    statement .sql
    Tx.read (fun db : Database => (db.fence migrationID).isSome))

def rollbackPreCutover (d : Driver) (id : Text) : Op Database Record := do
  let fenced ← deniedByFence id
  Prog.require (!fenced) (.errorf "migration: rollback cannot restore revoked authority" [])
  let current ← get d id
  Prog.require (current.migrationState ≠ .cutover && current.migrationState ≠ .legacyRetired &&
    canTransition current.migrationState .rolledBack) .cutoverNotApproved
  let answer ← Prog.question (I := ports) (.verifyPreCutoverRollback current)
  let witness ← Prog.ofExcept (answer.mapError (fun _ =>
    .errorf "migration: independent rollback/trust readback missing" []))
  Prog.require witness.complete
    (.errorf "migration: independent rollback/trust readback missing" [])
  applyTransition (store d) .phaseC id .rolledBack

end PostgresStore

end Migration
