import BaobabIam.Migration.LedgerRuns

/-! The durable ledger over whole runs. From an empty database, whatever services,
writers, containments and rollbacks run on it: every row has a history of consecutive
revisions that starts in DISCOVERED and follows legal edges, rows keep their identity,
a target is bound once, and no two rows share a source or a target. -/
namespace Migration

open Interleaving NativeContainment

def Database.historyOf (db : Database) (id : Text) : List HistoryRow :=
  db.history.filter (fun h => h.migrationID = id)

inductive Chained : List HistoryRow → MigrationState → Prop
  | first (h : HistoryRow) (revision : h.revision = 1) (created : h.fromState = none)
      (state : h.toState = .discovered) : Chained [h] .discovered
  | next (hs : List HistoryRow) (s : MigrationState) (chain : Chained hs s) (h : HistoryRow)
      (revision : h.revision = hs.length + 1) (left : h.fromState = some s)
      (legal : h.toState = s ∨ canTransition s h.toState = true) : Chained (hs ++ [h]) h.toState

structure Consistent (db : Database) : Prop where
  keyed : ∀ r ∈ db.records, db.find r.migrationID = some r
  chained : ∀ r ∈ db.records, Chained (db.historyOf r.migrationID) r.migrationState
  numbered : ∀ r ∈ db.records, r.revision = (db.historyOf r.migrationID).length
  unrecorded : ∀ id, db.find id = none → db.historyOf id = []
  uncut : ∀ r ∈ db.records, r.migrationState ≠ .cutover ∧ r.migrationState ≠ .legacyRetired
  apart : ∀ r ∈ db.records, ∀ s ∈ db.records, r ≠ s →
    r.migrationID ≠ s.migrationID ∧ r.source ≠ s.source ∧ (r.target ≠ {} → r.target ≠ s.target)

structure RowStep (x y : Record) : Prop where
  identity : x.identity = y.identity
  legal : y.migrationState = x.migrationState ∨ canTransition x.migrationState y.migrationState = true
  revision : y = x ∨ y.revision = x.revision + 1
  target : y.target = x.target ∨ (x.target = {} ∧
    (y.target.provider ≠ [] ∧ y.target.issuer ≠ [] ∧ y.target.subject ≠ []) ∧
    x.migrationState = .provisioning ∧ y.migrationState = .provisioning)

section Change

variable {db db' : Database} {old : Option Record} {new : Record}

theorem Consistent.empty : Consistent {} :=
  ⟨by simp, by simp, by simp, fun _ _ => rfl, by simp, by simp⟩

theorem Consistent.kept (h : Consistent db) (same : RowsKept db db') : Consistent db' := by
  obtain ⟨records, history⟩ := same
  have finds := find_of_records records
  have rows : ∀ id, db'.historyOf id = db.historyOf id := by
    intro id
    rw [Database.historyOf, history]
    rfl
  constructor
  · simpa [records, finds] using h.keyed
  · simpa [records, rows] using h.chained
  · simpa [records, rows] using h.numbered
  · simpa [finds, rows] using h.unrecorded
  · simpa [records] using h.uncut
  · simpa [records] using h.apart

theorem RowChange.mem (h : RowChange db db' old new) (keyed : ∀ r ∈ db.records, db.find r.migrationID = some r)
    {r : Record} (hr : r ∈ db'.records) : r = new ∨ (r ∈ db.records ∧ r.migrationID ≠ new.migrationID) := by
  have found := h.found
  rw [h.records] at hr
  cases old with
  | none =>
    rcases List.mem_append.mp hr with old | fresh
    · refine .inr ⟨old, ?_⟩
      intro same
      rw [← same, keyed r old] at found
      cases found
    · exact .inl (List.mem_singleton.mp fresh)
  | some row =>
    obtain ⟨s, hs, rfl⟩ := List.mem_map.mp hr
    split
    · exact .inl rfl
    · rename_i other
      exact .inr ⟨hs, other⟩

theorem RowChange.historyOf_self (h : RowChange db db' old new) :
    db'.historyOf new.migrationID = db.historyOf new.migrationID ++ [Database.historyRow old new] := by
  rw [Database.historyOf, h.history, List.filter_append]
  simp [Database.historyOf, Database.historyRow]

theorem RowChange.historyOf_other (h : RowChange db db' old new) {id : Text} (other : id ≠ new.migrationID) :
    db'.historyOf id = db.historyOf id := by
  rw [Database.historyOf, h.history, List.filter_append]
  simp [Database.historyOf, Database.historyRow, Ne.symm other]

theorem RowChange.chained (h : RowChange db db' old new) (c : Consistent db) :
    Chained (db'.historyOf new.migrationID) new.migrationState ∧
      new.revision = (db'.historyOf new.migrationID).length := by
  rw [h.historyOf_self]
  cases old with
  | none =>
    have first : new.revision = 1 := by
      have audited := h.audited
      simp only [Database.auditRecordRevision, Bool.and_eq_true, decide_eq_true_eq] at audited
      exact audited.2
    have state := h.begins rfl
    rw [c.unrecorded _ h.found, List.nil_append, state]
    exact ⟨.first _ first rfl state, by simp [first]⟩
  | some row =>
    have mem := Database.find_mem h.found
    have same := Database.find_id h.found
    have chain := c.chained row mem
    have number := c.numbered row mem
    rw [same] at chain number
    have next := h.revision
    constructor
    · exact .next _ _ chain (Database.historyRow (some row) new) (by simp [Database.historyRow, next, number]) rfl
        (h.legal row rfl)
    · rw [List.length_append, List.length_singleton, next, number]
      simp

theorem target_bound {r : Record} (complete : r.targetComplete = true) (bound : r.target ≠ {}) :
    r.target.provider ≠ [] ∧ r.target.issuer ≠ [] ∧ r.target.subject ≠ [] := by
  simp only [Record.targetComplete, Bool.or_eq_true, Bool.and_eq_true, decide_eq_true_eq] at complete
  rcases complete with ⟨⟨provider, issuer⟩, subject⟩ | ⟨⟨provider, issuer⟩, subject⟩
  · exfalso
    apply bound
    cases target : r.target
    rw [target] at provider issuer subject
    simp only at provider issuer subject
    rw [provider, issuer, subject]
  · exact ⟨provider, issuer, subject⟩

theorem apart_of_clashes {r s : Record} (complete : r.targetComplete = true) (h : r.clashes s = false) :
    r.source ≠ s.source ∧ (r.target ≠ {} → r.target ≠ s.target) := by
  simp only [Record.clashes, Bool.or_eq_false_iff, Bool.and_eq_false_iff, decide_eq_false_iff_not] at h
  refine ⟨h.1, ?_⟩
  intro bound same
  rcases h.2 with unnamed | differ
  · exact unnamed (target_bound complete bound).2.2
  · exact differ same

theorem RowChange.complete (h : RowChange db db' old new) : new.targetComplete = true := by
  have checked := h.checked
  simp only [Record.checks, Bool.and_eq_true] at checked
  exact checked.1.2

theorem RowChange.consistent (h : RowChange db db' old new) (c : Consistent db) : Consistent db' := by
  have mem := fun {r} => h.mem c.keyed (r := r)
  obtain ⟨chain, number⟩ := h.chained c
  have apart : ∀ r ∈ db.records, r.migrationID ≠ new.migrationID →
      new.source ≠ r.source ∧ (new.target ≠ {} → new.target ≠ r.target) :=
    fun r hr other => apart_of_clashes h.complete (h.apart r hr other)
  constructor
  · intro r hr
    rcases mem hr with rfl | ⟨old, other⟩
    · exact h.find_self
    · rw [h.find_other other]
      exact c.keyed r old
  · intro r hr
    rcases mem hr with rfl | ⟨old, other⟩
    · exact chain
    · rw [h.historyOf_other other]
      exact c.chained r old
  · intro r hr
    rcases mem hr with rfl | ⟨old, other⟩
    · exact number
    · rw [h.historyOf_other other]
      exact c.numbered r old
  · intro id absent
    by_cases mine : id = new.migrationID
    · rw [mine, h.find_self] at absent
      cases absent
    · rw [h.find_other mine] at absent
      rw [h.historyOf_other mine]
      exact c.unrecorded id absent
  · intro r hr
    rcases mem hr with rfl | ⟨old, other⟩
    · have audited := h.audited
      simp only [Database.auditRecordRevision, Bool.and_eq_true, decide_eq_true_eq] at audited
      exact audited.1
    · exact c.uncut r old
  · intro r hr s hs differ
    rcases mem hr with rfl | ⟨oldR, otherR⟩
    · rcases mem hs with rfl | ⟨oldS, otherS⟩
      · exact absurd rfl differ
      · exact ⟨Ne.symm otherS, apart s oldS otherS⟩
    · rcases mem hs with rfl | ⟨oldS, otherS⟩
      · obtain ⟨source, target⟩ := apart r oldR otherR
        refine ⟨otherR, Ne.symm source, ?_⟩
        intro bound same
        exact target (same ▸ bound) same.symm
      · exact c.apart r oldR s oldS differ

theorem RowChange.row_step {row : Record} (h : RowChange db db' (some row) new) : RowStep row new where
  identity := h.identity
  legal := h.legal row rfl
  revision := .inr h.revision
  target := by
    rcases h.target row rfl with same | ⟨empty, bound, before, after⟩
    · exact .inl same
    · exact .inr ⟨empty, target_bound h.complete bound, before, after⟩

end Change

namespace PostgresStore

variable {d : Driver}

variable {init : Database} {T T' : Trace (system d init)} {e : Entry (system d init)}

theorem Step.moves (h : Step d T e) {id : Text} {x : Record} (found : e.before.find id = some x) :
    ∃ y, e.after.find id = some y ∧ RowStep x y := by
  rcases h.row found with same | ⟨new, rfl, change⟩
  · exact ⟨x, same, rfl, .inl rfl, .inl rfl, .inl rfl⟩
  · exact ⟨new, change.find_self, change.row_step⟩

theorem Step.begins (h : Step d T e) {id : Text} {y : Record} (absent : e.before.find id = none)
    (found : e.after.find id = some y) : y.migrationState = .discovered ∧ y.revision = 1 := by
  rcases h.rows with ⟨records, -⟩ | ⟨old, new, change⟩
  · rw [find_of_records records, absent] at found
    cases found
  · by_cases mine : id = new.migrationID
    · subst mine
      rw [change.find_self] at found
      cases found
      have first : old = none := change.found.symm.trans absent
      subst first
      refine ⟨change.begins rfl, ?_⟩
      have audited := change.audited
      simp only [Database.auditRecordRevision, Bool.and_eq_true, decide_eq_true_eq] at audited
      exact audited.2
    · rw [change.find_other mine, absent] at found
      cases found

theorem Step.stale (h : Step d T e) {r x : Record} (call : e.call = .put r)
    (found : e.before.find r.migrationID = some x) (stale : x.revision ≠ r.revision) : e.after = e.before := by
  cases h with
  | service _ _ call' => cases call.symm.trans call'
  | contain _ _ _ call' => cases call.symm.trans call'
  | rollback _ call' => cases call.symm.trans call'
  | put r' call' step =>
    cases call.symm.trans call'
    rcases step with same | puts
    · exact same
    · exfalso
      cases puts with
      | insert fresh write =>
        have absent := write.found
        rw [show (inserted r).migrationID = r.migrationID from rfl, found] at absent
        cases absent
      | update row current same write =>
        have there := write.found
        rw [show (updated row r).migrationID = r.migrationID from (immutableN05_fields same).1, found] at there
        cases there
        exact stale current

theorem row_keeps (valid : Valid (Step d) T') (sub : T <+: T') {id : Text} {x : Record}
    (found : (last T).find id = some x) :
    ∃ y, (last T').find id = some y ∧ y.identity = x.identity ∧ (x.target ≠ {} → y.target = x.target) := by
  refine valid.evolves (R := fun s s' => ∀ x, s.find id = some x → ∃ y, s'.find id = some y ∧
    y.identity = x.identity ∧ (x.target ≠ {} → y.target = x.target)) ?_ ?_ ?_ sub x found
  · exact fun s x found => ⟨x, found, rfl, fun _ => rfl⟩
  · intro s t u first second x found
    obtain ⟨y, hy, same, bound⟩ := first x found
    obtain ⟨z, hz, same', bound'⟩ := second y hy
    refine ⟨z, hz, same'.trans same, ?_⟩
    intro full
    rw [← bound full]
    exact bound' (by rw [bound full]; exact full)
  · intro U e _ _ step x found
    obtain ⟨y, hy, moves⟩ := step.moves found
    refine ⟨y, hy, moves.identity.symm, ?_⟩
    intro full
    rcases moves.target with same | ⟨empty, -⟩
    · exact same
    · exact absurd empty full

structure Durable (T : Trace (system d {})) : Prop where
  /-- At every point the tables are consistent. -/
  consistent : ∀ U, U <+: T → Consistent (last U)
  /-- A row begins in DISCOVERED, with its first revision. -/
  begins : ∀ e ∈ T, ∀ id y, e.before.find id = none → e.after.find id = some y →
    y.migrationState = .discovered ∧ y.revision = 1
  /-- A transaction keeps a row, or moves it legally. -/
  moves : ∀ e ∈ T, ∀ id x, e.before.find id = some x → ∃ y, e.after.find id = some y ∧ RowStep x y
  /-- From any point on, a row keeps its identity, and a target that it has. -/
  keeps : ∀ U V, U <+: V → V <+: T → ∀ id x, (last U).find id = some x →
    ∃ y, (last V).find id = some y ∧ y.identity = x.identity ∧ (x.target ≠ {} → y.target = x.target)
  /-- A write of any other revision than the stored one changes nothing. -/
  stale : ∀ e ∈ T, ∀ r x, e.call = .put r → e.before.find r.migrationID = some x →
    x.revision ≠ r.revision → e.after = e.before

/-- The ledger is durable in every run. -/
theorem durable_ledger_of_every_run (d : Driver) (schedule : List (Action (system d {}))) :
    Durable (exec (system d {}) schedule).trace := by
  have valid := (exec_steps d schedule).valid
  generalize (exec (system d {}) schedule).trace = T at valid
  constructor
  · intro U sub
    apply (valid.restrict sub).invariant (P := fun U => Consistent (last U))
    · exact Consistent.empty
    · intro U e _ before from_last step
      rw [last_append]
      rw [← from_last] at before
      rcases step.rows with same | ⟨old, new, change⟩
      · exact before.kept same
      · exact change.consistent before
  · intro e he id y absent found
    obtain ⟨U, -, -, -, step⟩ := valid.mem he
    exact step.begins absent found
  · intro e he id x found
    obtain ⟨U, -, -, -, step⟩ := valid.mem he
    exact step.moves found
  · intro U V sub subV id x found
    exact row_keeps (valid.restrict subV) sub found
  · intro e he r x call found stale
    obtain ⟨U, -, -, -, step⟩ := valid.mem he
    exact step.stale call found stale

end PostgresStore

end Migration
