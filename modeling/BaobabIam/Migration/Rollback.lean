import BaobabIam.Migration.LedgerRuns

/-! A rollback checks for a deny fence once, before it reads the row and asks for its
witness. A fence that is sealed after the check puts the row in quarantine, and only a
review takes it out again; so a rollback commits over a fence exactly when both happen
between its check and its commit. -/
namespace Migration.PostgresStore

open Interleaving NativeContainment

variable {d : Driver} {init : Database}

def RollsBack (id : Text) (e : Entry (system d init)) : Prop :=
  ∃ x y, e.before.find id = some x ∧ canTransition x.migrationState .rolledBack = true ∧
    e.after.find id = some y ∧ y.migrationState = .rolledBack

def Fences (id : Text) (e : Entry (system d init)) : Prop :=
  (∃ configured operationID, e.call = .contain configured id operationID) ∧ e.before.fence id = none ∧
    e.after.fence id ≠ none

def Reviews (id : Text) (e : Entry (system d init)) : Prop :=
  ∃ x y, e.before.find id = some x ∧ x.migrationState = .quarantined ∧
    e.after.find id = some y ∧ y.migrationState = .failedManualReview

def FencedAndReviewed (id : Text) (B : Trace (system d init)) : Prop :=
  ∃ B₁ f B₂ r B₃, B = B₁ ++ f :: B₂ ++ r :: B₃ ∧ Fences id f ∧ Reviews id r

variable {T T' : Trace (system d init)} {id : Text} {i : Nat}

theorem JustPut.rolls_back (valid : Valid (Step d) T') {T₁ : Trace (system d init)} {read moved : Record}
    {n : Time} (reads : JustRead (lawful d) T₁ i id read) (step : read.transition .rolledBack = .ok moved)
    (put : JustPut (lawful d) T₁ T' i (moved.stamp n .rolledBack)) :
    ∃ A g, T₁ <+: A ∧ T' = A ++ [g] ∧ g.thread = i ∧ g.before = last A ∧ RollsBack id g := by
  obtain ⟨A, g, sub, rfl, mine, from_last, written⟩ := put
  have validA := valid.restrict (List.prefix_append A [g])
  obtain ⟨x, found, equal⟩ := reads.row
  obtain ⟨legal, -, rfl, -⟩ := Record.transition_ok step
  have named := reads.own.id_eq
  have idle : ∀ y, g.before.find id = some y → y.revision = read.revision → y = x := by
    intro y found' same
    rw [from_last] at found'
    exact row_unchanged validA sub found found' (same.trans (Record.utc_revision equal).symm)
  refine ⟨A, g, sub, rfl, mine, from_last, ?_⟩
  rcases written with puts | ⟨-, y, found', same⟩
  · cases puts with
    | insert fresh write =>
      have first : MigrationState.rolledBack = .discovered := write.begins rfl
      cases first
    | update row current same write =>
      have target : (updated row ((read.moved .rolledBack).stamp n .rolledBack)).migrationID = id :=
        ((immutableN05_fields same).1).trans named
      have found' := write.found
      rw [target] at found'
      have eq := idle row found' current
      subst eq
      have after := write.written.find_self write.found
      rw [target] at after
      refine ⟨row, _, found', ?_, after, ?_⟩
      · rw [Record.utc_state equal]
        exact legal
      · simp [updated]
  · -- the record was found written: then it is the row that was read, which is in another state
    exfalso
    simp only [Record.stamp_id, Record.moved_id, named] at found'
    have revision : y.revision = read.revision := by
      rw [Record.utc_revision same]
      simp
    have eq := idle y found' revision
    subst eq
    have state : read.migrationState = .rolledBack := by
      rw [← Record.utc_state equal, Record.utc_state same]
      simp
    exact canTransition_ne legal state

theorem fenced_and_reviewed (valid : Valid (Step d) T') (sub : T <+: T') (absent : (last T).fence id = none)
    (fenced : (last T').fence id ≠ none)
    (released : ∀ x, (last T').find id = some x → x.migrationState ≠ .quarantined) :
    ∃ D, T' = T ++ D ∧ FencedAndReviewed id D := by
  obtain ⟨U, f, D, rfl, subU, from_last, step, none_before, some_after⟩ :=
    valid.crossing (P := fun s => s.fence id ≠ none) sub (by simpa using absent) fenced
  have absent' : f.before.fence id = none := by simpa using none_before
  rcases step.fence id with same | ⟨-, configured, operationID, row, call, named, done⟩
  · rw [same] at some_after
    exact absurd absent' some_after
  obtain ⟨x, found, state⟩ := done.state
  rw [named] at found
  have sub' : U ++ [f] <+: U ++ f :: D := ⟨D, by simp⟩
  obtain ⟨V, r, E, eq, subV, from_last', step', held, out⟩ :=
    valid.crossing (P := fun s => ¬ ∃ x, s.find id = some x ∧ x.migrationState = .quarantined) sub'
      (by rw [last_append]; exact fun h => h ⟨x, found, state⟩)
      (fun ⟨x, found, state⟩ => released x found state)
  obtain ⟨y, found', quarantined⟩ := not_not.mp held
  have review : Reviews id r := by
    rcases step'.row found' with same | ⟨new, mine, change⟩
    · exact absurd ⟨y, same, quarantined⟩ out
    · have after := change.find_self
      rw [mine] at after
      refine ⟨y, new, found', quarantined, after, ?_⟩
      rcases change.legal y rfl with stays | edge
      · exact absurd ⟨new, after, stays.trans quarantined⟩ out
      · rw [quarantined] at edge
        exact canTransition_quarantined edge
  obtain ⟨B₁, rfl⟩ := subU
  obtain ⟨B₂, rfl⟩ := subV
  refine ⟨B₁ ++ f :: B₂ ++ r :: E, ?_, B₁, f, B₂, r, E, rfl,
    ⟨⟨configured, operationID, call⟩, absent', some_after⟩, review⟩
  rw [eq]
  simp

/-- In every run, a rollback that succeeds commits over a fence exactly when a containment
sealed it after the rollback's check and a review released the row before its commit. -/
theorem rollback_over_fence (d : Driver) (init : Database) (schedule : List (Action (system d init))) (i : Nat)
    (id : Text) (L : Log ports) (out : Record)
    (ended : (exec (system d init) schedule).threads[i]? = some ⟨.rollback id, L, .ret out⟩) :
    ∃ A check B commit C, (exec (system d init) schedule).trace = A ++ check :: (B ++ commit :: C) ∧
      check.thread = i ∧ check.before.fence id = none ∧ commit.thread = i ∧ RollsBack id commit ∧
      (commit.before.fence id ≠ none ↔ FencedAndReviewed id B) := by
  have sound := exec_steps d schedule
  obtain ⟨T, ⟨C, trace, -⟩, post⟩ := sound.calls i _ ended
  have valid := sound.valid
  rw [trace] at valid ⊢
  have validT := valid.of_append
  obtain ⟨A, check, T₁, read, moved, n, mine, unchanged, absent, sub₁, reads, step, put⟩ := post out rfl
  obtain ⟨U, commit, sub₂, rfl, mine', from_last, rolled⟩ := JustPut.rolls_back validT reads step put
  have sub := sub₁.trans sub₂
  have validU := validT.restrict (List.prefix_append U [commit])
  have absent' : (last (A ++ [check])).fence id = none := by
    rw [last_append, unchanged]
    exact absent
  -- a row that can be rolled back is not in quarantine
  have released : ∀ x, (last U).find id = some x → x.migrationState ≠ .quarantined := by
    intro x found quarantined
    obtain ⟨y, -, found', edge, -⟩ := rolled
    rw [from_last, found] at found'
    cases found'
    rw [quarantined] at edge
    cases canTransition_quarantined edge
  have sealed_after : commit.before.fence id ≠ none → ∃ D, U = A ++ [check] ++ D ∧ FencedAndReviewed id D := by
    intro fenced
    rw [from_last] at fenced
    exact fenced_and_reviewed validU sub absent' fenced released
  obtain ⟨B, rfl⟩ := sub
  refine ⟨A, check, B, commit, C, by simp, mine, absent, mine', rolled, ?_, ?_⟩
  · intro fenced
    obtain ⟨D, eq, pair⟩ := sealed_after fenced
    rw [List.append_cancel_left eq]
    exact pair
  · rintro ⟨B₁, f, B₂, r, B₃, rfl, ⟨-, -, fenced⟩, -⟩
    obtain ⟨g, hg⟩ := Option.ne_none_iff_exists'.mp fenced
    have before : A ++ [check] ++ B₁ ++ [f] <+: A ++ [check] ++ (B₁ ++ f :: B₂ ++ r :: B₃) :=
      ⟨B₂ ++ r :: B₃, by simp⟩
    rw [from_last, fence_stays validU before (by rw [last_append]; exact hg)]
    simp

/-- A rollback checks, the row becomes PROVISIONED, and the rollback goes on. -/
def undisturbed : List (Action (system .plain { records := [.sample .provisioning] })) :=
  [.begin (.rollback "m"), .begin (.service .phaseC (.applyTransition "m" .provisioned)), .step 0 calm] ++
    List.replicate 3 (.step 1 calm) ++ List.replicate 5 (.step 0 calm)

theorem undisturbed_rollback : ∃ L out, (exec _ undisturbed).threads[0]? = some ⟨.rollback "m", L, .ret out⟩ ∧
    (exec _ undisturbed).trace.map (fun e => (e.thread, (e.after.find "m").map Record.migrationState)) =
      [(0, some .provisioning), (1, some .provisioning), (1, some .provisioned), (0, some .provisioned),
        (0, some .provisioned), (0, some .rolledBack)] ∧
    ∃ A check B commit C, (exec _ undisturbed).trace = A ++ check :: (B ++ commit :: C) ∧
      check.thread = 0 ∧ check.before.fence "m" = none ∧ commit.thread = 0 ∧ RollsBack "m" commit ∧
      (commit.before.fence "m" ≠ none ↔ FencedAndReviewed "m" B) :=
  ⟨_, _, rfl, by decide +kernel, rollback_over_fence _ _ undisturbed 0 "m" _ _ rfl⟩

/-- A rollback checks; a containment seals the fence; a review takes the row out of
quarantine; the rollback goes on. -/
def overtaken : List (Action (system .plain { records := [.sample .provisioned] })) :=
  [.begin (.rollback "m"), .begin (.contain true "m" "operation-000001"),
   .begin (.service .phaseC (.applyTransition "m" .failedManualReview)),
   .step 0 calm, .step 1 calm, .step 2 calm, .step 2 calm, .step 2 calm,
   .step 0 calm, .step 0 calm, .step 0 calm, .step 0 calm, .step 0 calm]

/-- The overtaken rollback succeeds, and it commits while the fence is there. -/
theorem overtaken_rollback : ∃ L out, (exec _ overtaken).threads[0]? = some ⟨.rollback "m", L, .ret out⟩ ∧
    ∃ e ∈ (exec _ overtaken).trace, e.thread = 0 ∧ RollsBack "m" e ∧ e.before.fence "m" ≠ none := by
  refine ⟨_, _, rfl, ?_⟩
  have committed : ((0 : Nat), some MigrationState.failedManualReview, some MigrationState.rolledBack, true) ∈
      (exec _ overtaken).trace.map (fun e => (e.thread, (e.before.find "m").map Record.migrationState,
        (e.after.find "m").map Record.migrationState, (e.before.fence "m").isSome)) := by decide +kernel
  obtain ⟨e, he, same⟩ := List.mem_map.mp committed
  simp only [Prod.mk.injEq, Option.map_eq_some_iff] at same
  obtain ⟨mine, ⟨x, before, review⟩, ⟨y, after, rolled⟩, fenced⟩ := same
  refine ⟨e, he, mine, ⟨x, y, before, ?_, after, rolled⟩, ?_⟩
  · rw [review]
    rfl
  · intro absent
    rw [absent] at fenced
    cases fenced

end Migration.PostgresStore
