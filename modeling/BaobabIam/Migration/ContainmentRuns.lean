import BaobabIam.Migration.DurableLedger

/-! Containments over whole runs from an empty database. The journal has one operation
for each migration, the fence of a migration never changes, and the provider is touched
only after both are committed. A phase is VERIFIED only by the readbacks of the call
that marks it; a failed call leaves the journal UNKNOWN, except when it finds it VERIFIED
and has no provider to read back from. -/
namespace Migration

open Interleaving NativeContainment

namespace Database

def Journals (db : Database) (migrationID operationID : Text) : Prop :=
  ∃ c ∈ db.containment, c.migrationID = migrationID ∧ c.operationID = operationID

def OneOperation (db : Database) : Prop :=
  ∀ c ∈ db.containment, ∀ c' ∈ db.containment,
    c.migrationID = c'.migrationID ∨ c.operationID = c'.operationID → c = c'

variable {db db' : Database}

theorem Journals.of_table (same : db'.containment = db.containment) {id op : Text} (h : db.Journals id op) :
    db'.Journals id op := by
  obtain ⟨c, hc, named⟩ := h
  exact ⟨c, same ▸ hc, named⟩

theorem OneOperation.of_table (same : db'.containment = db.containment) (h : db.OneOperation) : db'.OneOperation := by
  intro c hc c' hc'
  rw [same] at hc hc'
  exact h c hc c' hc'

theorem OneOperation.migration (h : db.OneOperation) {id id' op : Text} (j : db.Journals id op)
    (j' : db.Journals id' op) : id = id' := by
  obtain ⟨c, hc, named, operation⟩ := j
  obtain ⟨c', hc', named', operation'⟩ := j'
  have same := h c hc c' hc' (.inr (operation.trans operation'.symm))
  rw [← named, same, named']

theorem OneOperation.operation (h : db.OneOperation) {id op op' : Text} (j : db.Journals id op)
    (j' : db.Journals id op') : op = op' := by
  obtain ⟨c, hc, named, operation⟩ := j
  obtain ⟨c', hc', named', operation'⟩ := j'
  have same := h c hc c' hc' (.inl (named.trans named'.symm))
  rw [← operation, same, operation']

section Phases

variable (operationID : Text) (phase : Phase)

def marked (c : ContainmentRow) : ContainmentRow := if marks operationID phase c then { c with phase := phase } else c

theorem marked_names (c : ContainmentRow) :
    (marked operationID phase c).migrationID = c.migrationID ∧
    (marked operationID phase c).operationID = c.operationID := by
  unfold marked
  split <;> exact ⟨rfl, rfl⟩

theorem updatePhase_containment (db : Database) :
    (db.updatePhase operationID phase).containment = db.containment.map (marked operationID phase) := rfl

theorem Journals.updatePhase {id op : Text} (h : db.Journals id op) :
    (db.updatePhase operationID phase).Journals id op := by
  obtain ⟨c, hc, named, operation⟩ := h
  obtain ⟨same, same'⟩ := marked_names operationID phase c
  exact ⟨_, List.mem_map_of_mem hc, same.trans named, same'.trans operation⟩

theorem OneOperation.updatePhase (h : db.OneOperation) : (db.updatePhase operationID phase).OneOperation := by
  intro c hc c' hc' same
  obtain ⟨a, ha, rfl⟩ := List.mem_map.mp hc
  obtain ⟨b, hb, rfl⟩ := List.mem_map.mp hc'
  change marked operationID phase a = marked operationID phase b
  change (marked operationID phase a).migrationID = (marked operationID phase b).migrationID ∨
    (marked operationID phase a).operationID = (marked operationID phase b).operationID at same
  rw [(marked_names _ _ a).1, (marked_names _ _ b).1, (marked_names _ _ a).2, (marked_names _ _ b).2] at same
  rw [h a ha b hb same]

theorem operation_updatePhase (db : Database) (op : Text) :
    (db.updatePhase operationID phase).operation op = (db.operation op).map (marked operationID phase) := by
  unfold operation
  rw [updatePhase_containment, List.find?_map]
  congr 2
  funext c
  simp [marked_names]

end Phases

theorem operation_of_journals {id op : Text} (h : db.Journals id op) :
    ∃ c, db.operation op = some c ∧ c.operationID = op := by
  obtain ⟨c, hc, -, operation⟩ := h
  cases found : db.operation op with
  | none =>
    have := List.find?_eq_none.mp found c hc
    simp [operation] at this
  | some c' => exact ⟨c', rfl, by simpa using List.find?_some found⟩

end Database

namespace NativeContainment

open Database

variable {db db' : Database} {row : Record} {operationID : Text}

theorem Journaled.journals (h : Journaled operationID row db db') : db'.Journals row.migrationID operationID := by
  cases h with
  | prior journal found same => exact ⟨journal, List.mem_of_find?_eq_some found,
      by simpa using List.find?_some found, same⟩
  | fresh _ absent added =>
    obtain ⟨-, rfl⟩ := insertContainment_ok added
    exact ⟨_, List.mem_concat_self, rfl, rfl⟩

theorem Journaled.sub (h : Journaled operationID row db db') : ∃ new, db'.containment = db.containment ++ new ∧
    ∀ c ∈ new, db.containmentOf c.migrationID = none ∧ db.operation c.operationID = none := by
  cases h with
  | prior journal found same => exact ⟨[], by simp, by simp⟩
  | fresh _ absent added =>
    obtain ⟨free, rfl⟩ := insertContainment_ok added
    refine ⟨_, rfl, ?_⟩
    intro c hc
    rw [List.mem_singleton.mp hc]
    exact ⟨absent, free⟩

theorem Sealed.containment (h : Sealed operationID row db db') : ∃ new, db'.containment = db.containment ++ new ∧
    ∀ c ∈ new, db.containmentOf c.migrationID = none ∧ db.operation c.operationID = none := by
  obtain ⟨-, -, db₁, journaled, -, quarantined⟩ := h
  obtain ⟨new, grown, free⟩ := journaled.sub
  refine ⟨new, ?_, free⟩
  rw [quarantined.tables.2, (insertFence_tables db₁ _).2.2, grown]

theorem Sealed.journals (h : Sealed operationID row db db') : db'.Journals row.migrationID operationID := by
  obtain ⟨-, -, db₁, journaled, -, quarantined⟩ := h
  exact journaled.journals.of_table (quarantined.tables.2.trans (insertFence_tables db₁ _).2.2)

theorem Sealed.one_operation (h : Sealed operationID row db db') (one : db.OneOperation) : db'.OneOperation := by
  obtain ⟨-, -, db₁, journaled, -, quarantined⟩ := h
  refine OneOperation.of_table (quarantined.tables.2.trans (insertFence_tables db₁ _).2.2) ?_
  cases journaled with
  | prior journal found same => exact one
  | fresh _ absent added =>
    obtain ⟨free, rfl⟩ := insertContainment_ok added
    have apart : ∀ c ∈ db.containment, c.migrationID ≠ row.migrationID ∧ c.operationID ≠ operationID := by
      intro c hc
      constructor
      · simpa using List.find?_eq_none.mp absent c hc
      · simpa using List.find?_eq_none.mp free c hc
    intro c hc c' hc' same
    rcases List.mem_append.mp hc with old | new
    · rcases List.mem_append.mp hc' with old' | new'
      · exact one c old c' old' same
      · rw [List.mem_singleton.mp new'] at same
        exact absurd same (not_or.mpr (apart c old))
    · rcases List.mem_append.mp hc' with old' | new'
      · rw [List.mem_singleton.mp new] at same
        exact absurd (same.imp Eq.symm Eq.symm) (not_or.mpr (apart c' old'))
      · rw [List.mem_singleton.mp new, List.mem_singleton.mp new']

theorem Sealed.operation (h : Sealed operationID row db db') {id op : Text} (j : db.Journals id op) :
    db'.operation op = db.operation op := by
  obtain ⟨new, grown, -⟩ := h.containment
  obtain ⟨c, found, -⟩ := operation_of_journals j
  rw [found]
  unfold Database.operation at found ⊢
  rw [grown, List.find?_append, found]
  rfl

theorem Sealed.verified (h : Sealed operationID row db db') (op : Text) :
    phaseOf db' op = some .verified ↔ phaseOf db op = some .verified := by
  obtain ⟨-, -, db₁, journaled, -, quarantined⟩ := h
  have table := quarantined.tables.2.trans (insertFence_tables db₁ _).2.2
  cases journaled with
  | prior journal found same => rw [phaseOf, phaseOf, Database.operation, Database.operation, table]
  | fresh _ absent added =>
    obtain ⟨free, rfl⟩ := insertContainment_ok added
    unfold phaseOf Database.operation at *
    rw [table, List.find?_append]
    cases found : db.containment.find? (fun c => c.operationID = op) with
    | some c => rfl
    | none =>
      -- a new row is PENDING
      simp only [Option.none_or, List.find?_singleton, Option.map_none]
      split <;> simp

theorem marked_verified {op : Text} {phase : Phase}
    (after : phaseOf (db.updatePhase operationID phase) op = some .verified)
    (before : phaseOf db op ≠ some .verified) : operationID = op ∧ phase = .verified := by
  rw [phaseOf, operation_updatePhase] at after
  rw [phaseOf] at before
  cases found : db.operation op with
  | none =>
    rw [found] at after
    cases after
  | some c =>
    have mine : c.operationID = op := by simpa using List.find?_some found
    rw [found] at after before
    simp only [Option.map_some, Option.some.injEq, ne_eq, marked] at after before
    split at after
    · rename_i hit
      simp only [Database.marks, Bool.and_eq_true, decide_eq_true_eq] at hit
      exact ⟨hit.1.symm.trans mine, after⟩
    · exact absurd after before

theorem marked_unknown {id op : Text} (j : (db.updatePhase op .unknown).Journals id op) :
    phaseOf (db.updatePhase op .unknown) op = some .unknown := by
  obtain ⟨c', found', -⟩ := operation_of_journals j
  rw [phaseOf, found']
  rw [operation_updatePhase] at found'
  obtain ⟨c, found, rfl⟩ := Option.map_eq_some_iff.mp found'
  have mine : c.operationID = op := by simpa using List.find?_some found
  simp [marked, Database.marks, mine]

section Kills

variable {sys : System ports Database Failure} {e : Entry sys} {subject other : ExternalSubject}

theorem Kills.not_stored (h : Kills e subject) : ¬ StoreLog e.start e.finish := by
  rintro ⟨D, eq, only⟩
  rcases h with ⟨a, asked⟩ | ⟨a, asked⟩
  · have last :=
      only ⟨Query.disableIdentity subject, a⟩ (by rw [List.append_cancel_left (eq.symm.trans asked)]; simp)
    cases last
  · have last :=
      only ⟨Query.revokeSessions subject, a⟩ (by rw [List.append_cancel_left (eq.symm.trans asked)]; simp)
    cases last

theorem Kills.unique (h : Kills e subject) (h' : Kills e other) : subject = other := by
  rcases h with ⟨a, asked⟩ | ⟨a, asked⟩ <;> rcases h' with ⟨b, asked'⟩ | ⟨b, asked'⟩ <;>
    cases List.append_cancel_left (asked.symm.trans asked') <;> rfl

end Kills

end NativeContainment

namespace PostgresStore

open Database

variable {d : Driver} {init : Database} {T T' : Trace (system d init)} {e : Entry (system d init)}

inductive JournalStep (T : Trace (system d init)) (e : Entry (system d init)) : Prop
  | keeps (same : e.after.containment = e.before.containment)
  | seals (configured : Bool) (row : Record) (operationID : Text)
      (call : e.call = .contain configured row.migrationID operationID) (done : Sealed operationID row e.before e.after)
  | marks (configured : Bool) (row : Record) (operationID : Text) (phase : Phase)
      (call : e.call = .contain configured row.migrationID operationID) (begun : Begun operationID row T e.thread)
      (write : e.after = e.before.updatePhase operationID phase) (proof : phase = .verified → Proven row e.start)

theorem Step.journal (h : Step d T e) : JournalStep T e := by
  cases h with
  | service policy c call step => exact .keeps (service_tables step).2
  | put r call step =>
    rcases step with same | put
    · exact .keeps (by rw [same])
    · exact .keeps (Puts_tables put).2
  | contain configured migrationID operationID call step =>
    cases step with
    | reads same stored => exact .keeps (by rw [same])
    | seals row named done stored =>
      subst named
      exact .seals configured row operationID call done
    | kills row named begun same call => exact .keeps (by rw [same])
    | marks row named begun phase write proof stored =>
      subst named
      exact .marks configured row operationID phase call begun write proof
  | rollback migrationID call step => exact .keeps (service_tables step).2

theorem JournalStep.journals (h : JournalStep T e) {id op : Text} (j : e.before.Journals id op) :
    e.after.Journals id op := by
  cases h with
  | keeps same => exact j.of_table same
  | seals configured row operationID call done =>
    obtain ⟨new, grown, -⟩ := done.containment
    obtain ⟨c, hc, named⟩ := j
    exact ⟨c, by rw [grown]; exact List.mem_append_left _ hc, named⟩
  | marks configured row operationID phase call begun write proof =>
    rw [write]
    exact j.updatePhase operationID phase

theorem JournalStep.one_operation (h : JournalStep T e) (one : e.before.OneOperation) : e.after.OneOperation := by
  cases h with
  | keeps same => exact one.of_table same
  | seals configured row operationID call done => exact done.one_operation one
  | marks configured row operationID phase call begun write proof =>
    rw [write]
    exact one.updatePhase operationID phase

theorem journals_stay (valid : Valid (Step d) T') (sub : T <+: T') {id op : Text} (j : (last T).Journals id op) :
    (last T').Journals id op := by
  refine valid.evolves (R := fun s s' => s.Journals id op → s'.Journals id op) ?_ ?_ ?_ sub j
  · exact fun s h => h
  · exact fun s t u first second h => second (first h)
  · exact fun T e _ _ step j => step.journal.journals j

theorem one_operation {T : Trace (system d {})} (valid : Valid (Step d) T) : (last T).OneOperation := by
  apply valid.invariant (P := fun T => (last T).OneOperation)
  · intro c hc
    cases hc
  · intro T e _ one from_last step
    rw [last_append]
    rw [← from_last] at one
    exact step.journal.one_operation one

structure SealedFor (db : Database) (operationID : Text) (y : Record) : Prop where
  row : db.find y.migrationID = some y
  fence : db.fence y.migrationID = some (fenceFor y)
  journal : db.Journals y.migrationID operationID

/-- A row that keeps its identity and target is fenced, read back and denied as before. -/
theorem same_subject {x y : Record} (identity : y.identity = x.identity) (target : y.target = x.target) :
    y.migrationID = x.migrationID ∧ fenceFor y = fenceFor x ∧ sourceOf y = sourceOf x ∧
      targetOf y = targetOf x ∧ y.canonicalIdentityID = x.canonicalIdentityID := by
  simp only [Record.identity, RowIdentity.mk.injEq] at identity
  obtain ⟨id, -, canonical, source, -⟩ := identity
  exact ⟨id, by simp [fenceFor, id, source, target], by simp [sourceOf, source],
    by simp [targetOf, target], canonical⟩

theorem proven_same_row {x y : Record} {L : Log ports} (h : Proven x L) (source : sourceOf y = sourceOf x)
    (target : targetOf y = targetOf x) (canonical : y.canonicalIdentityID = x.canonicalIdentityID) : Proven y L := by
  obtain ⟨disabled, silent, denied⟩ := h
  rw [← target] at disabled silent denied
  rw [← source, ← canonical] at denied
  exact ⟨disabled, silent, denied⟩

theorem begun_sealed (valid : Valid (Step d) T) {operationID : Text} {row : Record} {i : Nat}
    (begun : Begun operationID row T i) :
    ∃ y, y.migrationID = row.migrationID ∧ SealedFor (last T) operationID y ∧ targetOf y = targetOf row ∧
      (∀ L, Proven row L → Proven y L) ∧
      ∃ g ∈ T, ∃ x, g.after.find y.migrationID = some x ∧ x.migrationState = .quarantined := by
  obtain ⟨g, hg, -, done⟩ := begun
  obtain ⟨U, sub, -, from_last, -⟩ := valid.mem hg
  have before : U <+: T := (List.prefix_append U [g]).trans sub
  have found := done.found
  rw [from_last] at found
  obtain ⟨y, now, identity, bound⟩ := row_keeps valid before found
  have full : row.target ≠ {} := by
    intro empty
    exact done.target.1 (by rw [empty])
  obtain ⟨id, fence, source, target, canonical⟩ := same_subject identity (bound full)
  refine ⟨y, id, ⟨?_, ?_, ?_⟩, target, fun L h => proven_same_row h source target canonical, g, hg, ?_⟩
  · rw [id]
    exact now
  · rw [id, fence]
    exact fence_stays valid sub (by rw [last_append]; exact done.fence)
  · rw [id]
    exact journals_stay valid sub (by rw [last_append]; exact done.journals)
  · rw [id]
    exact done.state

theorem phase_stays {T D : Trace (system d {})} (valid : Valid (Step d) (T ++ D)) {id op : Text}
    (j : (last T).Journals id op) (alone : ∀ e ∈ D, ∀ configured op', e.call ≠ .contain configured id op') :
    phaseOf (last (T ++ D)) op = phaseOf (last T) op := by
  induction D using List.reverseRecOn with
  | nil => simp
  | append_singleton D e ih =>
    rw [← List.append_assoc] at valid ⊢
    obtain ⟨valid', from_last, step⟩ := valid.snoc_inv
    rw [← ih valid' (fun e he => alone e (by simp [he])), last_append, ← from_last]
    have j' : e.before.Journals id op := by
      rw [from_last]
      exact journals_stay valid' (List.prefix_append _ _) j
    cases step.journal with
    | keeps same => rw [phaseOf, phaseOf, Database.operation, Database.operation, same]
    | seals configured row operationID call done => rw [phaseOf, phaseOf, done.operation j']
    | marks configured row operationID phase call begun write proof =>
      -- the other call's operation is that of another migration
      obtain ⟨y, named, sealed, -⟩ := begun_sealed valid' begun
      have theirs := sealed.journal
      rw [named, ← from_last] at theirs
      have other : operationID ≠ op := by
        rintro rfl
        have one := one_operation valid'
        rw [← from_last] at one
        have same := one.migration theirs j'
        rw [same] at call
        exact alone e (by simp) configured operationID call
      rw [phaseOf, phaseOf, write, operation_updatePhase]
      cases found : e.before.operation op with
      | none => rfl
      | some c =>
        have mine : c.operationID = op := by simpa using List.find?_some found
        simp [marked, Database.marks, mine, Ne.symm other]

def Contains (id : Text) (e : Entry (system d init)) : Prop := ∃ configured op, e.call = .contain configured id op

structure ContainmentHolds (cfg : Config (system d {})) : Prop where
  /-- Before the provider is touched, the journal has the one operation of the migration, the
  fence names the exact source and target, and the row has been in quarantine. -/
  ahead : ∀ (A : Trace (system d {})) (e : Entry (system d {})) D, cfg.trace = A ++ e :: D →
    ∀ configured id op, e.call = .contain configured id op →
    ∀ subject, Kills e subject → ∃ y, y.migrationID = id ∧ SealedFor e.before op y ∧ subject = targetOf y ∧
      (∀ op', e.before.Journals id op' → op' = op) ∧
      ∃ g ∈ A, ∃ x, g.after.find id = some x ∧ x.migrationState = .quarantined
  /-- A fence never changes. -/
  fenced : ∀ U V : Trace (system d {}), U <+: V → V <+: cfg.trace →
    ∀ id f, (last U).fence id = some f → (last V).fence id = some f
  /-- A phase becomes VERIFIED only by a call with its own readbacks. -/
  verified : ∀ e ∈ cfg.trace, ∀ op, phaseOf e.after op = some .verified →
    phaseOf e.before op ≠ some .verified →
    ∃ configured y, e.call = .contain configured y.migrationID op ∧ SealedFor e.before op y ∧ Proven y e.start
  /-- A receipt is VERIFIED, and its call has made the readbacks itself. -/
  receipts : ∀ (i : Nat) configured id op L receipt,
    cfg.threads[i]? = some ⟨.contain configured id op, L, .ret receipt⟩ →
    receipt.phase = .verified ∧ ∃ y, y.migrationID = id ∧ SealedFor cfg.store op y ∧
      receipt.target = targetOf y ∧ Proven y L
  /-- A call that fails after its begin transaction, alone on its migration and with the
  database reachable, leaves the phase UNKNOWN exactly if it was configured or did not
  find the phase VERIFIED. -/
  failures : ∀ (i : Nat) configured id op L err,
    cfg.threads[i]? = some ⟨.contain configured id op, L, .fail err⟩ → Heard L .commit .done →
    ∃ A g D, cfg.trace = A ++ g :: D ∧ g.thread = i ∧
      (∃ row, row.migrationID = id ∧ Sealed op row g.before g.after) ∧
      (¬ Refused L → (∀ e ∈ D, e.thread ≠ i → ¬ Contains id e) →
        (phaseOf cfg.store op = some .unknown ↔ configured = true ∨ phaseOf g.before op ≠ some .verified))

section Parts

variable {T : Trace (system d {})} {e : Entry (system d {})}

variable {op id : Text} {configured : Bool}

theorem step_ahead (valid : Valid (Step d) T) (from_last : e.before = last T) (step : Step d T e)
    (call : e.call = .contain configured id op) {subject : ExternalSubject} (kills : Kills e subject) :
    ∃ y, y.migrationID = id ∧ SealedFor e.before op y ∧ subject = targetOf y ∧
      (∀ op', e.before.Journals id op' → op' = op) ∧
      ∃ g ∈ T, ∃ x, g.after.find id = some x ∧ x.migrationState = .quarantined := by
  -- a transaction of the database asks the database only
  have unstored := kills.not_stored
  cases step with
  | service _ _ call' => cases call.symm.trans call'
  | put _ call' => cases call.symm.trans call'
  | rollback _ call' => cases call.symm.trans call'
  | contain _ _ _ call' step =>
    cases call.symm.trans call'
    cases step with
    | reads same stored => exact absurd stored unstored
    | seals row named done stored => exact absurd stored unstored
    | marks row named begun phase write proof stored => exact absurd stored unstored
    | kills row named begun same killed =>
      obtain ⟨y, same', sealed, target, -, quarantined⟩ := begun_sealed valid begun
      have here := same'.trans named
      have one := one_operation valid
      rw [← from_last] at sealed one
      rw [here] at quarantined
      refine ⟨y, here, sealed, (kills.unique killed).trans target.symm, ?_, quarantined⟩
      intro op' j
      have journal := sealed.journal
      rw [here] at journal
      exact one.operation j journal

theorem step_verified (valid : Valid (Step d) T) (from_last : e.before = last T) (step : Step d T e)
    (after : phaseOf e.after op = some .verified) (before : phaseOf e.before op ≠ some .verified) :
    ∃ configured y, e.call = .contain configured y.migrationID op ∧ SealedFor e.before op y ∧
      Proven y e.start := by
  cases step.journal with
  | keeps same =>
    rw [phaseOf, Database.operation, same] at after
    exact absurd after before
  | seals configured row operationID call done => exact absurd ((done.verified op).mp after) before
  | marks configured row operationID phase call begun write proof =>
    rw [write] at after
    obtain ⟨rfl, rfl⟩ := marked_verified after before
    obtain ⟨y, named, sealed, -, proven, -⟩ := begun_sealed valid begun
    rw [← from_last] at sealed
    exact ⟨configured, y, by rw [named]; exact call, sealed, proven _ (proof rfl)⟩

/-- What a failed call leaves when no other containment of its migration has run since it
began: the last part of the trace is of other calls. -/
theorem failed_phase {L : Log ports} {i : Nat} {A D C : Trace (system d {})}
    {g : Entry (system d {})} {row : Record} (valid : Valid (Step d) (A ++ g :: D ++ C)) (named : row.migrationID = id)
    (done : Sealed op row g.before g.after) (left : LeftJournal configured op (A ++ g :: D) L i g D)
    (reachable : ¬ Refused L) (alone : ∀ e ∈ C, ¬ Contains id e) :
    phaseOf (last (A ++ g :: D ++ C)) op = some .unknown ↔ configured = true ∨
      phaseOf g.before op ≠ some .verified := by
  have sub : A ++ [g] <+: A ++ g :: D := ⟨D, by simp⟩
  have journal : (last (A ++ g :: D)).Journals id op := by
    apply journals_stay valid.of_append sub
    rw [last_append, ← named]
    exact done.journals
  rw [phase_stays valid journal (fun e he configured op' call => alone e he ⟨configured, op', call⟩)]
  rcases left with ⟨bare, verified, rfl⟩ | ⟨ready, refused | ⟨B, m, eq, -, write⟩⟩
  · have before := (done.verified op).mp verified
    rw [last_append, verified, before, bare]
    simp
  · exact absurd refused reachable
  · rw [(done.verified op).ne] at ready
    rw [eq, last_append] at journal ⊢
    rw [write] at journal ⊢
    rw [marked_unknown journal]
    simp [ready]

end Parts

theorem containment_of_every_run (d : Driver) (schedule : List (Action (system d {}))) :
    ContainmentHolds (exec (system d {}) schedule) := by
  have sound := exec_steps d schedule
  have valid := sound.valid
  have store := sound.store
  constructor
  · intro A e D trace configured id op call subject kills
    rw [trace] at valid
    have sub : A ++ [e] <+: A ++ e :: D := ⟨D, by simp⟩
    obtain ⟨validA, from_last, step⟩ := (valid.restrict sub).snoc_inv
    exact step_ahead validA from_last step call kills
  · intro U V sub whole id f fence
    exact fence_stays (valid.restrict whole) sub fence
  · intro e he op after before
    obtain ⟨U, sub, validU, from_last, step⟩ := valid.mem he
    exact step_verified validU from_last step after before
  · intro i configured id op L receipt ended
    obtain ⟨T, ⟨C, trace, -⟩, post⟩ := sound.calls i _ ended
    obtain ⟨phase, -, row, named, target, begun, proven⟩ := post.1 receipt rfl
    have begun' : Begun op row (exec (system d {}) schedule).trace i := begun.mono ⟨C, trace.symm⟩
    obtain ⟨y, same, sealed, target', proven', -⟩ := begun_sealed valid begun'
    rw [← store] at sealed
    exact ⟨phase, y, same.trans named, sealed, target.trans target'.symm, proven' L proven⟩
  · intro i configured id op L err ended heard
    obtain ⟨T, ⟨C, trace, others⟩, post⟩ := sound.calls i _ ended
    obtain ⟨row, A, g, D, rfl, mine, named, done, left⟩ := post.2 err rfl (not_not.mpr heard)
    rw [trace] at valid store ⊢
    refine ⟨A, g, D ++ C, by simp, mine, ⟨row, named, done⟩, ?_⟩
    intro reachable alone
    rw [store]
    apply failed_phase valid named done left reachable
    exact fun e he => alone e (List.mem_append_right D he) (others e he)

def atRevision (revision : Nat) (state : MigrationState) (target : ProviderBinding) : Record :=
  { Record.sample state with revision := revision, target := target }

/-- A row is provisioned and contained, and the same operation is asked for again without
a provider. -/
def containedTwice : List (Action (system .plain {})) :=
  [.begin (.put (atRevision 0 .discovered {})), .step 0 calm,
   .begin (.put (atRevision 1 .validated {})), .step 1 calm,
   .begin (.put (atRevision 2 .ready {})), .step 2 calm,
   .begin (.put (atRevision 3 .provisioning {})), .step 3 calm,
   .begin (.put (atRevision 4 .provisioning (Record.sample .provisioning).target)), .step 4 calm,
   .begin (.contain true "m" "operation-000001")] ++ List.replicate 11 (.step 5 calm) ++
  [.begin (.contain false "m" "operation-000001"), .step 6 calm]

/-- The second call fails after its begin transaction, its last transaction is
acknowledged, no other call is running, and the phase stays VERIFIED. -/
theorem failure_leaves_verified : ∃ L err,
    (exec _ containedTwice).threads[6]? = some ⟨.contain false "m" "operation-000001", L, .fail err⟩ ∧
    Heard L .commit .done ∧ ¬ Refused L ∧
    phaseOf (exec _ containedTwice).store "operation-000001" = some .verified := by
  refine ⟨List.replicate 6 ⟨Query.statement, none⟩ ++ [⟨Query.commit, Commit.done⟩], _, rfl,
    .last _ _ _, ?_, by decide +kernel⟩
  rintro ⟨A, q, a, eq, refused⟩
  obtain ⟨-, same⟩ := List.append_inj' eq rfl
  cases same
  cases refused

end PostgresStore

end Migration
