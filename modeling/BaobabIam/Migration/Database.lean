import BaobabIam.Migration.State

/-! The tables of the migration ledger with their constraints and triggers. A row is
kept as the database holds it: times to the microsecond, without a zone. -/
namespace Migration

open Text

inductive EventType where
  | discovered | stateChanged | targetBound | reconciled
  deriving DecidableEq, Repr

structure HistoryRow where
  migrationID : Text
  revision : Int
  fromState : Option MigrationState
  toState : MigrationState
  eventType : EventType
  deriving DecidableEq, Repr

inductive Phase where
  | pending | identityDisabled | sessionsRevoked | currentTokensDenied | verified | unknown
  deriving DecidableEq, Repr

structure ContainmentRow where
  operationID : Text
  migrationID : Text
  targetIssuer : Text
  targetSubject : Text
  phase : Phase
  deriving DecidableEq, Repr

structure FenceRow where
  migrationID : Text
  sourceIssuer : Text
  sourceSubject : Text
  targetIssuer : Text
  targetSubject : Text
  deriving DecidableEq, Repr

structure Database where
  records : List Record := []
  history : List HistoryRow := []
  containment : List ContainmentRow := []
  containmentHistory : List (Text × Phase) := []
  denyFence : List FenceRow := []
  deriving DecidableEq, Repr

def timestamptz (t : Time) : Time := ⟨t.ns / 1000 * 1000, 0⟩

def Record.stored (r : Record) : Record :=
  { r with
    createdAt := timestamptz r.createdAt
    startedAt := r.startedAt.map timestamptz
    verifiedAt := r.verifiedAt.map timestamptz
    cutoverAt := r.cutoverAt.map timestamptz
    retiredAt := r.retiredAt.map timestamptz }

structure RowIdentity where
  migrationID : Text
  migrationBatchID : Text
  canonicalIdentityID : Text
  source : ProviderBinding
  identityClass : IdentityClass
  credentialStrategy : CredentialStrategy
  createdAt : Int
  deriving DecidableEq

namespace Record

/-- The values can be sent: no NUL in a text, an attempt count of four bytes and a
revision of eight. -/
def encodable (r : Record) : Bool :=
  [r.migrationID, r.migrationBatchID, r.canonicalIdentityID, r.source.provider, r.source.issuer, r.source.subject,
    r.target.provider, r.target.issuer, r.target.subject, r.identityClass.text, r.credentialStrategy.text,
    r.migrationState.text, r.verificationState, r.cutoverState, r.sourceSnapshotReference, r.lastErrorCode].all
      (fun t => t.all (fun c => c ≠ Char.ofNat 0)) &&
  -2147483648 ≤ r.attemptCount && r.attemptCount ≤ 2147483647 && r.revision ≤ 9223372036854775807

def between (low high : Nat) (t : Text) : Bool := low ≤ t.length && t.length ≤ high

def targetRequired : MigrationState → Bool
  | .provisioned | .credentialPending | .credentialReady | .verificationPending | .verified | .cutoverReady
  | .cutover | .legacyRetired => true
  | _ => false

def columnChecks (r : Record) : Bool :=
  between 1 160 r.migrationID && between 0 160 r.migrationBatchID && between 0 160 r.canonicalIdentityID &&
  between 1 40 r.source.provider && between 1 2048 r.source.issuer && between 1 512 r.source.subject &&
  between 0 40 r.target.provider && between 0 2048 r.target.issuer && between 0 512 r.target.subject &&
  r.identityClass.valid && r.credentialStrategy.valid && r.migrationState.valid &&
  between 0 80 r.verificationState && between 0 80 r.cutoverState && between 0 512 r.sourceSnapshotReference &&
  0 ≤ r.attemptCount && between 0 80 r.lastErrorCode && 0 < r.revision

def orphanRequiresBlankCanonical (r : Record) : Bool :=
  decide (r.identityClass = .orphanCandidate) == decide (r.canonicalIdentityID = [])

def targetComplete (r : Record) : Bool :=
  (r.target.provider = [] && r.target.issuer = [] && r.target.subject = []) ||
  (r.target.provider ≠ [] && r.target.issuer ≠ [] && r.target.subject ≠ [])

def provisionedTargetRequired (r : Record) : Bool := !targetRequired r.migrationState || r.target.subject ≠ []

def checks (r : Record) : Bool :=
  r.columnChecks && r.orphanRequiresBlankCanonical && r.targetComplete && r.provisionedTargetRequired

def identity (r : Record) : RowIdentity :=
  ⟨r.migrationID, r.migrationBatchID, r.canonicalIdentityID, r.source, r.identityClass, r.credentialStrategy,
    r.createdAt.ns⟩

def clashes (r other : Record) : Bool :=
  r.source = other.source || (r.target.subject ≠ [] && r.target = other.target)

end Record

namespace Database

def find (db : Database) (id : Text) : Option Record := db.records.find? (fun r => r.migrationID = id)

def auditRecordRevision (old : Option Record) (new : Record) : Bool :=
  new.migrationState ≠ .cutover && new.migrationState ≠ .legacyRetired &&
  match old with
  | none => decide (new.revision = 1)
  | some old => decide (old.identity = new.identity ∧ new.revision = old.revision + 1)

def eventType (old : Option Record) (new : Record) : EventType :=
  match old with
  | none => .discovered
  | some old =>
    if new.migrationState ≠ old.migrationState then .stateChanged
    else if new.target ≠ old.target then .targetBound
    else .reconciled

def historyRow (old : Option Record) (new : Record) : HistoryRow :=
  ⟨new.migrationID, new.revision, old.map Record.migrationState, new.migrationState, eventType old new⟩

def place (old : Option Record) (new : Record) (rows : List Record) : List Record :=
  match old with
  | none => rows ++ [new]
  | some _ => rows.map (fun r => if r.migrationID = new.migrationID then new else r)

/-- Insert a row, or update the row with its key, with constraints and triggers. -/
def write (db : Database) (old : Option Record) (new : Record) : Except SqlCode Database :=
  if !new.encodable then .error (.other "22P05")
  else if !auditRecordRevision old new then .error .raised
  else if !new.checks then .error .checkViolation
  else if old.isNone && (db.find new.migrationID).isSome then .error .uniqueViolation
  else if db.records.any (fun r => r.migrationID ≠ new.migrationID && new.clashes r) then .error .uniqueViolation
  else if db.history.any (fun h => h.migrationID = new.migrationID && h.revision = new.revision) then
    .error .uniqueViolation
  else .ok { db with records := place old new db.records, history := db.history ++ [historyRow old new] }

end Database

end Migration
