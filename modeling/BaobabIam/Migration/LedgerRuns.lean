import BaobabIam.Base.Once
import BaobabIam.Migration.ContainmentSteps

/-! Runs of any number of services, writers, containments and rollbacks on one
database: what each transaction of such a run does, and what follows for the tables.
Every table but the phases of the journal only grows, and a row changes only by a legal
write that raises its revision by one. -/
namespace Migration

open Interleaving NativeContainment

namespace PostgresStore

section Rollback

variable {sys : System ports Database Failure} (d : Driver)

/-- A rollback that succeeded: it found no fence, later read the row and then wrote the
transition of that row, or found it written. -/
def RollbackPost (migrationID : Text) (i : Nat) : Post sys Record := fun T _ r =>
  ∀ out, r = .ok out → ∃ A check T₁ read moved n, check.thread = i ∧ check.after = check.before ∧
    check.before.fence migrationID = none ∧ A ++ [check] <+: T₁ ∧
      JustRead (lawful d) T₁ i migrationID read ∧ read.transition .rolledBack = .ok moved ∧
    JustPut (lawful d) T₁ T i (moved.stamp n .rolledBack)

variable {v : Setting sys} {T : Trace sys} {L : Log ports} {migrationID : Text}
  (grows : ∀ T T', v.others T T' → T <+: T')

theorem wp_deniedByFence (idle : ∀ T L L', StoreLog L L' → v.spec T (leaves v T (last T) L L')) {Q : Post sys Bool}
    (failed : ∀ T' L' e, Q T' L' (.error e))
    (ok : ∀ A g L', v.others T A → g.thread = v.thread → g.after = g.before →
      Q (A ++ [g]) L' (.ok (g.before.fence migrationID).isSome)) :
    wp v (deniedByFence migrationID) T L Q := by
  intro T' more
  apply wp_statement_then
  · intro code e
    exact ⟨idle T' L _ (.statement L _), failed _ _ e⟩
  · exact ⟨idle T' L _ (.statement L none), ok T' (leaves v T' (last T') L _) _ more rfl rfl⟩

include grows

theorem wp_rollbackPreCutover
    (admits : ∀ T e, e.thread = v.thread → e.call = v.call →
      ServiceStep (lawful d) (.applyTransition migrationID .rolledBack) .phaseC T e → v.spec T e) :
    wp v (rollbackPreCutover d migrationID) T L (RollbackPost d migrationID v.thread) := by
  have idle := service_idle (lawful d) admits
  have failed : ∀ T : Trace sys, Accepts T (RollbackPost d migrationID v.thread) := by
    rintro T T' L' e - out ⟨⟩
  unfold rollbackPreCutover
  apply wp_then
  apply wp_deniedByFence idle (fun T' L' e => (failed T').now L' e)
  intro A check L₁ _ mine same
  apply wp_require_or (failed _)
  intro clear
  have absent : check.before.fence migrationID = none := by simpa using clear
  apply wp_then
  apply wp_get_own (lawful d) grows idle (failed _).andThen
  intro T₂ L₂ current reads
  have sub₂ := reads.sub grows
  apply wp_require_or (failed _)
  intro _
  apply wp_question_then
  intro answer _
  apply wp_ofExcept_or (failed _)
  intro witness _
  apply wp_require_or (failed _)
  intro _
  apply wp_applyTransition (lawful d) grows idle
  · apply service_moves (lawful d) grows admits ⟨rfl, rfl⟩
    rintro T' _ b id ⟨⟩
  · exact failed _
  · rintro T₁ T' L' read moved n k reads' step put out ⟨⟩
    exact ⟨A, check, T₁, read, moved, n, mine, same, absent,
      sub₂.trans (reads'.sub grows), reads'.just, step, put⟩

end Rollback

section Run

variable (d : Driver) {init : Database}

inductive Step (T : Trace (system d init)) (e : Entry (system d init)) : Prop
  | service (policy : Policy) (c : ServiceCall) (call : e.call = .service policy c)
      (step : ServiceStep (lawful d) c policy T e)
  | put (r : Record) (call : e.call = .put r) (step : e.after = e.before ∨ Puts r e.before e.after)
  | contain (configured : Bool) (migrationID operationID : Text)
      (call : e.call = .contain configured migrationID operationID)
      (step : ContainStep migrationID operationID T e)
  | rollback (migrationID : Text) (call : e.call = .rollback migrationID)
      (step : ServiceStep (lawful d) (.applyTransition migrationID .rolledBack) .phaseC T e)

def Ended (i : Nat) : (c : Call) → Post (system d init) c.Result
  | .service _ c => Provisioned (lawful d) i c
  | .put _ => fun _ _ _ => True
  | .contain configured migrationID operationID => ContainPost configured migrationID operationID i
  | .rollback migrationID => RollbackPost d migrationID i

theorem exec_steps (schedule : List (Action (system d init))) :
    Sound (Step d) (fun c i => Ended d i c) (exec _ schedule) := by
  apply exec_sound
  intro i c T _
  have grows : ∀ T T', (safe (Step d) i c).others T T' → T <+: T' := fun _ _ more => Others.sub more
  cases c with
  | service policy c =>
    apply wp_service (lawful d) c grows
    exact fun T e _ call step => .service policy c call step
  | put r =>
    apply (lawful d).put_wp
    · exact fun e => trivial
    · intro T' L' more asked
      refine ⟨.put r rfl (.inl rfl), fun e => trivial, fun x _ _ => trivial, ?_⟩
      intro s put
      exact ⟨.put r rfl (.inr put), fun e => trivial, fun n => trivial⟩
  | contain configured migrationID operationID =>
    apply wp_contain grows
    exact fun T e _ call step => .contain configured migrationID operationID call step
  | rollback migrationID =>
    apply wp_rollbackPreCutover d grows
    exact fun T e _ call step => .rollback migrationID call step

end Run

end PostgresStore

section Tables

def RowsKept (db db' : Database) : Prop := db'.records = db.records ∧ db'.history = db.history

/-- One row was inserted or rewritten legally; the other rows and the earlier history stay. -/
structure RowChange (db db' : Database) (old : Option Record) (new : Record) : Prop extends Legal old new where
  found : db.find new.migrationID = old
  audited : Database.auditRecordRevision old new = true
  checked : new.checks = true
  apart : ∀ r ∈ db.records, r.migrationID ≠ new.migrationID → new.clashes r = false
  recorded : ∀ h ∈ db.history, h.migrationID = new.migrationID → h.revision ≠ new.revision
  records : db'.records = Database.place old new db.records
  history : db'.history = db.history ++ [Database.historyRow old new]

variable {db db₁ db' : Database} {old : Option Record} {new : Record}

theorem RowWrite.change (h : RowWrite db₁ db' old new) (same : RowsKept db db₁) : RowChange db db' old new := by
  obtain ⟨legal, written, found⟩ := h
  obtain ⟨audited, checked, absent, apart, recorded, rfl⟩ := written
  obtain ⟨records, history⟩ := same
  rw [records] at apart
  rw [history] at recorded
  rw [find_of_records records] at found
  exact ⟨legal, found, audited, checked, apart, recorded, by rw [records], by rw [history]⟩

theorem RowChange.find_self (h : RowChange db db' old new) : db'.find new.migrationID = some new := by
  rw [Database.find, h.records]
  exact Database.find_place_self _ h.found

theorem RowChange.find_other (h : RowChange db db' old new) {id : Text} (other : id ≠ new.migrationID) :
    db'.find id = db.find id := by
  rw [Database.find, h.records]
  exact Database.find_place_other _ other

theorem RowChange.revision {row : Record} (h : RowChange db db' (some row) new) : new.revision = row.revision + 1 := by
  have audited := h.audited
  simp only [Database.auditRecordRevision, Bool.and_eq_true, decide_eq_true_eq] at audited
  exact audited.2.2

theorem RowChange.identity {row : Record} (h : RowChange db db' (some row) new) : row.identity = new.identity := by
  have audited := h.audited
  simp only [Database.auditRecordRevision, Bool.and_eq_true, decide_eq_true_eq] at audited
  exact audited.2.1

theorem Puts_change {r : Record} (h : PostgresStore.Puts r db db') : ∃ old new, RowChange db db' old new := by
  cases h with
  | insert fresh write => exact ⟨_, _, write.change ⟨rfl, rfl⟩⟩
  | update row current same write => exact ⟨_, _, write.change ⟨rfl, rfl⟩⟩

theorem Puts_tables {r : Record} (h : PostgresStore.Puts r db db') :
    db'.denyFence = db.denyFence ∧ db'.containment = db.containment := by
  cases h with
  | insert fresh write =>
    rw [write.written.result]
    exact ⟨rfl, rfl⟩
  | update row current same write =>
    rw [write.written.result]
    exact ⟨rfl, rfl⟩

end Tables

namespace NativeContainment

variable {db db₁ db' : Database} {operationID : Text} {row : Record}

theorem fence_insert_other {f : FenceRow} {id : Text} (h : id ≠ f.migrationID) :
    (db.insertFence f).fence id = db.fence id := by
  unfold Database.insertFence
  split
  · rfl
  · simp [Database.fence, List.find?_append, Ne.symm h]

theorem fence_insert_present {f g : FenceRow} (h : db.fence f.migrationID = some g) : db.insertFence f = db := by
  unfold Database.insertFence
  rw [h]

theorem Quarantined.tables (h : Quarantined row db db') :
    db'.denyFence = db.denyFence ∧ db'.containment = db.containment := by
  cases h with
  | prior state => exact ⟨rfl, rfl⟩
  | moved _ write =>
    rw [write.written.result]
    exact ⟨rfl, rfl⟩

theorem fence_of_table (h : db'.denyFence = db.denyFence) (id : Text) : db'.fence id = db.fence id := by
  rw [Database.fence, Database.fence, h]

namespace Sealed

variable (h : Sealed operationID row db db')

include h

theorem fence : db'.fence row.migrationID = some (fenceFor row) := by
  obtain ⟨-, -, db₁, -, observed, quarantined⟩ := h
  rw [fence_of_table quarantined.tables.1]
  exact observed

theorem fence_before : db.fence row.migrationID = none ∨ db.fence row.migrationID = some (fenceFor row) := by
  obtain ⟨-, -, db₁, journaled, observed, -⟩ := h
  have same := fence_of_table journaled.records.2.2 row.migrationID
  cases present : db.fence row.migrationID with
  | none => exact .inl rfl
  | some f =>
    rw [present] at same
    rw [fence_insert_present same, same] at observed
    exact .inr observed

theorem fence_other {id : Text} (other : id ≠ row.migrationID) : db'.fence id = db.fence id := by
  obtain ⟨-, -, db₁, journaled, -, quarantined⟩ := h
  rw [fence_of_table quarantined.tables.1, fence_insert_other other, fence_of_table journaled.records.2.2]

theorem rows : RowsKept db db' ∧ row.migrationState = .quarantined ∨
    RowChange db db' (some row) (quarantinedRow row) := by
  obtain ⟨-, -, db₁, journaled, -, quarantined⟩ := h
  obtain ⟨records, history, -⟩ := journaled.records
  obtain ⟨records', history', -⟩ := insertFence_tables db₁ (fenceFor row)
  cases quarantined with
  | prior state => exact .inl ⟨⟨records'.trans records, history'.trans history⟩, state⟩
  | moved _ write => exact .inr (write.change ⟨records'.trans records, history'.trans history⟩)

theorem state : ∃ x, db'.find row.migrationID = some x ∧ x.migrationState = .quarantined := by
  rcases h.rows with ⟨kept, state⟩ | change
  · exact ⟨row, by rw [find_of_records kept.1]; exact h.found, state⟩
  · exact ⟨quarantinedRow row, change.find_self, rfl⟩

end Sealed

end NativeContainment

namespace PostgresStore

section Runs

variable {d : Driver} {init : Database} {T T' : Trace (system d init)} {e : Entry (system d init)}

variable {c : ServiceCall} {policy : Policy} {id : Text} {x : Record}

theorem service_rows (h : ServiceStep (lawful d) c policy T e) :
    RowsKept e.before e.after ∨ ∃ old new, RowChange e.before e.after old new := by
  cases h with
  | asks same => exact .inl ⟨by rw [same], by rw [same]⟩
  | puts r write origin started => exact .inr (Puts_change write)

theorem Step.rows (h : Step d T e) : RowsKept e.before e.after ∨ ∃ old new, RowChange e.before e.after old new := by
  cases h with
  | service policy c call step => exact service_rows step
  | put r call step =>
    rcases step with same | put
    · exact .inl ⟨by rw [same], by rw [same]⟩
    · exact .inr (Puts_change put)
  | contain configured migrationID operationID call step =>
    cases step with
    | reads same stored => exact .inl ⟨by rw [same], by rw [same]⟩
    | seals row named done stored =>
      rcases done.rows with ⟨kept, -⟩ | change
      · exact .inl kept
      · exact .inr ⟨_, _, change⟩
    | kills row named begun same call => exact .inl ⟨by rw [same], by rw [same]⟩
    | marks row named begun phase write proof stored => exact .inl ⟨by rw [write]; rfl, by rw [write]; rfl⟩
  | rollback migrationID call step => exact service_rows step

theorem service_tables (h : ServiceStep (lawful d) c policy T e) :
    e.after.denyFence = e.before.denyFence ∧ e.after.containment = e.before.containment := by
  cases h with
  | asks same => exact ⟨by rw [same], by rw [same]⟩
  | puts r write origin started => exact Puts_tables write

theorem Step.fence (h : Step d T e) (id : Text) : e.after.fence id = e.before.fence id ∨
    (e.before.fence id = none ∧ ∃ configured operationID row, e.call = .contain configured id operationID ∧
      row.migrationID = id ∧ Sealed operationID row e.before e.after) := by
  cases h with
  | service policy c call step => exact .inl (fence_of_table (service_tables step).1 id)
  | put r call step =>
    rcases step with same | put
    · exact .inl (by rw [same])
    · exact .inl (fence_of_table (Puts_tables put).1 id)
  | contain configured migrationID operationID call step =>
    cases step with
    | reads same stored => exact .inl (by rw [same])
    | seals row named done stored =>
      subst named
      by_cases mine : id = row.migrationID
      · subst mine
        rcases done.fence_before with absent | present
        · exact .inr ⟨absent, configured, operationID, row, call, rfl, done⟩
        · exact .inl (done.fence.trans present.symm)
      · exact .inl (done.fence_other mine)
    | kills row named begun same call => exact .inl (by rw [same])
    | marks row named begun phase write proof stored => exact .inl (by rw [write]; rfl)
  | rollback migrationID call step => exact .inl (fence_of_table (service_tables step).1 id)

theorem fence_stays (valid : Valid (Step d) T') (sub : T <+: T') {f : FenceRow}
    (h : (last T).fence id = some f) : (last T').fence id = some f := by
  refine valid.evolves (R := fun s s' => s.fence id = some f → s'.fence id = some f) ?_ ?_ ?_ sub h
  · exact fun s h => h
  · exact fun s t u first second h => second (first h)
  · intro T e _ _ step there
    rcases step.fence id with same | ⟨absent, -⟩
    · rwa [same]
    · rw [there] at absent
      cases absent

theorem Step.row (h : Step d T e) (found : e.before.find id = some x) :
    e.after.find id = some x ∨ ∃ new, new.migrationID = id ∧ RowChange e.before e.after (some x) new := by
  rcases h.rows with ⟨records, -⟩ | ⟨old, new, change⟩
  · exact .inl ((find_of_records records id).trans found)
  · by_cases mine : id = new.migrationID
    · subst mine
      have same : old = some x := change.found.symm.trans found
      subst same
      exact .inr ⟨new, rfl, change⟩
    · exact .inl ((change.find_other mine).trans found)

theorem row_grows (valid : Valid (Step d) T') (sub : T <+: T')
    (h : (last T).find id = some x) : ∃ y, (last T').find id = some y ∧ (y = x ∨ x.revision < y.revision) := by
  refine valid.evolves (R := fun s s' => ∀ x, s.find id = some x →
    ∃ y, s'.find id = some y ∧ (y = x ∨ x.revision < y.revision)) ?_ ?_ ?_ sub x h
  · exact fun s x h => ⟨x, h, .inl rfl⟩
  · intro s t u first second x h
    obtain ⟨y, hy, up⟩ := first x h
    obtain ⟨z, hz, up'⟩ := second y hy
    refine ⟨z, hz, ?_⟩
    rcases up with rfl | up
    · exact up'
    · rcases up' with rfl | up'
      · exact .inr up
      · exact .inr (by omega)
  · intro T e _ _ step x found
    rcases step.row found with same | ⟨new, rfl, change⟩
    · exact ⟨x, same, .inl rfl⟩
    · have := change.revision
      exact ⟨new, change.find_self, .inr (by omega)⟩

theorem row_unchanged (valid : Valid (Step d) T') (sub : T <+: T') {y : Record}
    (h : (last T).find id = some x) (h' : (last T').find id = some y) (same : y.revision = x.revision) : y = x := by
  obtain ⟨z, hz, up⟩ := row_grows valid sub h
  rw [h'] at hz
  cases hz
  rcases up with rfl | up
  · rfl
  · omega

end Runs

end PostgresStore

end Migration
