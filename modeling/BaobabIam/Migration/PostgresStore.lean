import BaobabIam.Migration.Database
import BaobabIam.Migration.Bridge

/-! The durable store. Every operation is one serialisable transaction; each of its
statements may fail, and a commit may be durable without being acknowledged. -/
namespace Migration

open Interleaving Text

/-- What the driver and the standard library add to the rows they hand over. -/
structure Driver where
  /-- The zone of the process at an instant. -/
  localZone : Int → Int
  /-- `reflect.DeepEqual` also compares locations by their address. Kept of it is
  that it tells no two different records equal, not that it finds equal ones equal. -/
  deepEqual : Record → Record → Bool
  deepEqual_sound : ∀ a b, deepEqual a b = true → a = b

def n05WriteError : SqlCode → Failure
  | .uniqueViolation | .checkViolation | .serializationFailure | .foreignKeyViolation | .raised => .migrationConflict
  | .other code => .wrapped "migration: durable ledger unavailable: %w" [] (.sql (.other code))

def startError (code : SqlCode) : Failure := .wrapped "migration: start ledger transaction: %w" [] (.sql code)
def readError (code : SqlCode) : Failure := .wrapped "migration: database read unavailable: %w" [] (.sql code)

def statement (wrap : SqlCode → Failure) : Body Database Unit := do
  let answer ← Tx.ask (I := ports) .statement
  match answer with
  | none => return ()
  | some code => .fail (wrap code)

def commit {α : Type} (wrap : SqlCode → Failure) (a : α) : Body Database (Except Failure α) := do
  let answer ← Tx.ask (I := ports) .commit
  match answer with
  | .done => return .ok a
  | .refused code => .fail (wrap code)
  | .unacknowledged code => return .error (wrap code)

def orFail {α : Type} : Except Failure α → Body Database α
  | .ok a => pure a
  | .error e => .fail e

def writeRow (old : Option Record) (new : Record) : Body Database Unit := do
  statement n05WriteError
  let db ← Tx.read id
  let db ← orFail ((db.write old new).mapError n05WriteError)
  Tx.write (fun _ => db)

namespace Driver

def handed (d : Driver) (row : Record) : Record :=
  { row with
    createdAt := ⟨row.createdAt.ns, d.localZone row.createdAt.ns⟩
    startedAt := row.startedAt.map (fun t => ⟨t.ns, d.localZone t.ns⟩)
    verifiedAt := row.verifiedAt.map (fun t => ⟨t.ns, d.localZone t.ns⟩)
    cutoverAt := row.cutoverAt.map (fun t => ⟨t.ns, d.localZone t.ns⟩)
    retiredAt := row.retiredAt.map (fun t => ⟨t.ns, d.localZone t.ns⟩) }

def scanN05 (d : Driver) : Option Record → Except Failure Record
  | none => .error .notFound
  | some row =>
    match (d.handed row).validateStructural with
    | .ok () => .ok (d.handed row)
    | .error e => .error (.wrapped "migration: invalid durable row: %w" [] e)

end Driver

namespace PostgresStore

variable (d : Driver)

def get (id : Text) : Op Database Record :=
  transaction (do
    statement readError
    let row ← Tx.read (fun db : Database => db.find id)
    orFail (d.scanN05 row))

def emptyTargetN05 (p : ProviderBinding) : Bool := p = {}

def immutableN05 (existing next : Record) : Bool :=
  existing.migrationID = next.migrationID && existing.migrationBatchID = next.migrationBatchID &&
  existing.canonicalIdentityID = next.canonicalIdentityID && existing.source = next.source &&
  existing.identityClass = next.identityClass && existing.credentialStrategy = next.credentialStrategy &&
  existing.createdAt.equal next.createdAt

def bounded (r : Record) : Bool :=
  r.migrationID.size ≤ 160 && r.canonicalIdentityID.size ≤ 160 && r.migrationBatchID.size ≤ 160 &&
  r.source.issuer.size ≤ 2048 && r.source.subject.size ≤ 512 && r.source.provider.size ≤ 40

def inserted (r : Record) : Record := { r.stored with revision := 1 }

def updated (row r : Record) : Record :=
  { row with
    target := r.target
    migrationState := r.migrationState
    verificationState := r.verificationState
    cutoverState := r.cutoverState
    sourceSnapshotReference := r.sourceSnapshotReference
    attemptCount := r.attemptCount
    lastErrorCode := r.lastErrorCode
    startedAt := r.startedAt.map timestamptz
    verifiedAt := r.verifiedAt.map timestamptz
    cutoverAt := r.cutoverAt.map timestamptz
    retiredAt := r.retiredAt.map timestamptz
    revision := row.revision + 1 }

def insertBody (r : Record) : Body Database (Except Failure Record) := do
  Tx.require (r.revision = 0 && r.migrationState = .discovered) .migrationConflict
  writeRow none (inserted r)
  commit n05WriteError { r with revision := 1 }

def updateBody (r row : Record) : Body Database (Except Failure Record) := do
  let old ← orFail (d.scanN05 (some row))
  Tx.require (old.revision = r.revision && immutableN05 old r &&
    (emptyTargetN05 old.target || old.target = r.target)) .migrationConflict
  Tx.require (old.target = r.target ||
    (r.migrationState = .provisioning && old.migrationState = .provisioning && !emptyTargetN05 r.target))
    .migrationConflict
  Tx.require (old.migrationState = r.migrationState || canTransition old.migrationState r.migrationState)
    .migrationConflict
  if d.deepEqual old r then return .ok r
  else
    writeRow (some row) (updated row r)
    commit n05WriteError { r with revision := row.revision + 1 }

def putBody (r : Record) : Body Database (Except Failure Record) := do
  statement startError
  statement readError
  let found ← Tx.read (fun db : Database => db.find r.migrationID)
  match found with
  | none => insertBody r
  | some row => updateBody d r row

def put (r : Record) : Op Database Record := do
  Prog.ofExcept r.validateStructural
  Prog.require (bounded r) (.errorf "migration: bounded ledger identifiers required" [])
  Prog.require (r.migrationState ≠ .cutover && r.migrationState ≠ .legacyRetired) .cutoverNotApproved
  settled (putBody d r)

def store : RecordStore Database := ⟨get d, put d⟩

end PostgresStore

end Migration
