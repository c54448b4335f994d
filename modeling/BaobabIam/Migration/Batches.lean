import BaobabIam.Migration.Calls

/-! Batch registration as one pass over the discovered bindings. A binding is refused, is
kept (its row is there and agrees with it) or gets a new row. The pass depends on the
ledger only through the rows without their creation times; a second pass over bindings
that a first one accepted keeps them all, exactly if each new row has the class that the
repeat check expects for its canonical identity. -/
namespace Migration

open Interleaving Text

def Record.undated (r : Record) : Record := { r with createdAt := ⟨0, 0⟩ }

abbrev Rows := Text → Option Record

def MemoryStore.rows (s : MemoryStore) : Rows := fun id => (s.byID id).map Record.undated

def Rows.insert (rows : Rows) (r : Record) : Rows := fun id => if id = r.migrationID then some r else rows id

section Pass

/- The request as the loop uses it, and what the resolver answers. -/
variable (req : BatchRegisterRequest) (resolver : ProviderBinding → Except Failure Text)

def BatchRegisterRequest.idOf (b : SourceBinding) : Text := batchMigrationID req.batchID b.source

def resolved (b : SourceBinding) : Option (Text × IdentityClass) :=
  match resolver b.source with
  | .ok canonical => some (canonical, b.classFor req)
  | .error e => if e.is .noCanonicalMapping then some ([], req.orphanClass) else none

inductive Decision where
  | refused
  | kept
  | added (r : Record)

def repeats (b : SourceBinding) (row : Record) (canonical : Text) : Bool :=
  (repeatChecks req b (req.idOf b) row).1 && (sameCanonical row canonical (req.idOf b)).1

def accepts (r : Record) : Bool :=
  match r.validateStructural with
  | .ok _ => true
  | .error _ => false

def decision (b : SourceBinding) (row : Option Record) : Decision :=
  if b.source.provider ≠ [] && b.source.issuer ≠ [] && b.source.subject ≠ [] then
    match row, resolved req resolver b with
    | _, none => .refused
    | some row, some (canonical, _) => if repeats req b row canonical then .kept else .refused
    | none, some (canonical, identityClass) =>
      if accepts (req.newRecord b canonical identityClass) then .added (req.newRecord b canonical identityClass)
      else .refused
  else .refused

def orphanCount (b : SourceBinding) : Nat :=
  match resolver b.source with
  | .ok _ => 0
  | .error _ => 1

def pass : Rows → List SourceBinding → Option (Rows × List SourceBinding)
  | rows, [] => some (rows, [])
  | rows, b :: rest =>
    match decision req resolver b (rows (req.idOf b)) with
    | .refused => none
    | .kept => pass rows rest
    | .added r => (pass (rows.insert r) rest).map (fun p => (p.1, b :: p.2))

def BatchRegisterResult.grown (result : BatchRegisterResult) (kept : Nat) (new : List SourceBinding) :
    BatchRegisterResult :=
  { result with
    registered := result.registered + new.length
    orphans := result.orphans + (new.map (orphanCount resolver)).sum
    skippedExists := result.skippedExists + kept
    migrationIDs := result.migrationIDs ++ new.map req.idOf }

/-- A new row of the binding would be found as the repeat check expects it. -/
def Settled (b : SourceBinding) : Prop :=
  ∀ canonical identityClass, resolved req resolver b = some (canonical, identityClass) →
    (identityClass = .orphanCandidate ↔ canonical = [])

def FirstsSettled (rows : Rows) (bindings : List SourceBinding) : Prop :=
  ∀ A b B, bindings = A ++ b :: B → rows (req.idOf b) = none → (∀ a ∈ A, req.idOf a ≠ req.idOf b) →
    Settled req resolver b

end Pass

section Algebra

variable {req : BatchRegisterRequest} {resolver : ProviderBinding → Except Failure Text} {b : SourceBinding}
  {rows rows' : Rows} {A B new : List SourceBinding}

theorem decision_row {row : Option Record} (h : decision req resolver b row = .kept) :
    ∃ x, row = some x := by
  cases row with
  | some x => exact ⟨x, rfl⟩
  | none =>
    exfalso
    unfold decision at h
    split at h
    · split at h
      · cases h
      · rename_i absent _
        cases absent
      · split at h <;> cases h
    · cases h

theorem decision_added {row : Option Record} {r : Record} (h : decision req resolver b row = .added r) :
    row = none ∧ ∃ canonical identityClass, resolved req resolver b = some (canonical, identityClass) ∧
      r = req.newRecord b canonical identityClass := by
  unfold decision at h
  split at h
  · split at h
    · cases h
    · split at h <;> cases h
    · rename_i canonical identityClass found
      split at h
      · cases h
        exact ⟨rfl, canonical, identityClass, found, rfl⟩
      · cases h
  · cases h

/-- A new row is kept by a second pass exactly if its class suits its canonical identity. -/
theorem decision_again {r : Record} (h : decision req resolver b none = .added r) :
    decision req resolver b (some r) = .kept ↔ Settled req resolver b := by
  obtain ⟨-, canonical, identityClass, found, rfl⟩ := decision_added h
  have complete : (b.source.provider ≠ [] && b.source.issuer ≠ [] && b.source.subject ≠ []) = true := by
    unfold decision at h
    split at h
    · assumption
    · cases h
  have same : repeats req b (req.newRecord b canonical identityClass) canonical = true ↔
      (identityClass = .orphanCandidate ↔ canonical = []) := by
    simp only [repeats, repeatChecks, sameCanonical, BatchRegisterRequest.newRecord, decide_true, Bool.and_self,
      Bool.true_and, beq_iff_eq]
    exact decide_eq_decide
  have choice : decision req resolver b (some (req.newRecord b canonical identityClass)) =
      if repeats req b (req.newRecord b canonical identityClass) canonical then .kept else .refused := by
    unfold decision
    rw [if_pos complete, found]
  rw [choice]
  constructor
  · intro kept c k found'
    cases found.symm.trans found'
    apply same.mp
    split at kept
    · assumption
    · cases kept
  · intro settled
    rw [if_pos (same.mpr (settled _ _ found))]

theorem Rows.insert_self (rows : Rows) (r : Record) : rows.insert r r.migrationID = some r := if_pos rfl

theorem Rows.insert_other (rows : Rows) (r : Record) {id : Text} (other : id ≠ r.migrationID) :
    rows.insert r id = rows id := if_neg other

theorem decision_present {x : Record} (other : decision req resolver b (some x) ≠ .kept) :
    decision req resolver b (some x) = .refused := by
  cases h : decision req resolver b (some x) with
  | refused => rfl
  | kept => exact absurd h other
  | added r => cases (decision_added h).1

section Steps

variable {result : Rows × List SourceBinding}

theorem pass_cons (h : pass req resolver rows (b :: A) = some result) :
    (decision req resolver b (rows (req.idOf b)) = .kept ∧ pass req resolver rows A = some result) ∨
      ∃ r new, decision req resolver b (rows (req.idOf b)) = .added r ∧ r.migrationID = req.idOf b ∧
        rows (req.idOf b) = none ∧ pass req resolver (rows.insert r) A = some (result.1, new) ∧
          result.2 = b :: new := by
  simp only [pass] at h
  split at h
  · cases h
  · rename_i kept
    exact .inl ⟨kept, h⟩
  · rename_i r new
    obtain ⟨⟨rows', new'⟩, rest, rfl⟩ := Option.map_eq_some_iff.mp h
    obtain ⟨absent, canonical, identityClass, -, rfl⟩ := decision_added new
    exact .inr ⟨_, new', new, rfl, absent, rest, rfl⟩

end Steps

theorem pass_append : pass req resolver rows (A ++ B) =
    (pass req resolver rows A).bind (fun p => (pass req resolver p.1 B).map (fun q => (q.1, p.2 ++ q.2))) := by
  induction A generalizing rows with
  | nil => simp [pass]
  | cons b A ih =>
    simp only [List.cons_append, pass]
    split
    · rfl
    · exact ih
    · rw [ih]
      cases pass req resolver _ A with
      | none => rfl
      | some p => simp [Function.comp_def]

theorem pass_keeps (h : pass req resolver rows A = some (rows', new)) {id : Text} {x : Record}
    (found : rows id = some x) : rows' id = some x := by
  induction A generalizing rows new with
  | nil =>
    cases h
    exact found
  | cons b A ih =>
    rcases pass_cons h with ⟨-, rest⟩ | ⟨r, new', -, named, absent, rest, -⟩
    · exact ih rest found
    · apply ih rest
      rw [Rows.insert_other]
      · exact found
      · rintro rfl
        rw [named, absent] at found
        cases found

theorem pass_seen (h : pass req resolver rows A = some (rows', new)) :
    ∀ b ∈ A, ∃ x, rows' (req.idOf b) = some x := by
  induction A generalizing rows new with
  | nil => simp
  | cons b A ih =>
    rcases pass_cons h with ⟨kept, rest⟩ | ⟨r, new', -, named, absent, rest, -⟩
    · obtain ⟨x, found⟩ := decision_row kept
      intro a ha
      rcases List.mem_cons.mp ha with rfl | ha
      · exact ⟨x, pass_keeps rest found⟩
      · exact ih rest a ha
    · intro a ha
      rcases List.mem_cons.mp ha with rfl | ha
      · exact ⟨r, pass_keeps rest (by rw [← named]; exact rows.insert_self r)⟩
      · exact ih rest a ha

theorem pass_source (h : pass req resolver rows A = some (rows', new)) {id : Text} (absent : rows id = none)
    (other : ∀ b ∈ A, req.idOf b ≠ id) : rows' id = none := by
  induction A generalizing rows new with
  | nil =>
    cases h
    exact absent
  | cons b A ih =>
    have later : ∀ b ∈ A, req.idOf b ≠ id := fun a ha => other a (List.mem_cons_of_mem b ha)
    rcases pass_cons h with ⟨-, rest⟩ | ⟨r, new', -, named, -, rest, -⟩
    · exact ih rest absent later
    · apply ih rest _ later
      rw [Rows.insert_other]
      · exact absent
      · rw [named]
        exact (other b (by simp)).symm

theorem pass_new (h : pass req resolver rows A = some (rows', new)) :
    (∀ b ∈ new, rows (req.idOf b) = none) ∧ (∀ b ∈ new, b ∈ A) ∧ (new = [] → rows' = rows) := by
  induction A generalizing rows new with
  | nil =>
    cases h
    simp
  | cons b A ih =>
    rcases pass_cons h with ⟨-, rest⟩ | ⟨r, new', -, named, absent, rest, eq⟩
    · obtain ⟨fresh, sub, same⟩ := ih rest
      exact ⟨fresh, fun a ha => List.mem_cons_of_mem b (sub a ha), same⟩
    · obtain ⟨fresh, sub, -⟩ := ih rest
      have eq : new = b :: new' := eq
      subst eq
      refine ⟨?_, ?_, by simp⟩
      · intro a ha
        rcases List.mem_cons.mp ha with rfl | ha
        · exact absent
        · have still := fresh a ha
          unfold Rows.insert at still
          split at still
          · cases still
          · exact still
      · intro a ha
        rcases List.mem_cons.mp ha with rfl | ha
        · simp
        · exact List.mem_cons_of_mem b (sub a ha)

theorem FirstsSettled.kept {x : Record} (found : rows (req.idOf b) = some x) :
    FirstsSettled req resolver rows (b :: A) ↔ FirstsSettled req resolver rows A := by
  constructor
  · rintro h A' a B rfl absent first
    apply h (b :: A') a B rfl absent
    intro c hc
    rcases List.mem_cons.mp hc with rfl | hc
    · intro same
      rw [same, absent] at found
      cases found
    · exact first c hc
  · rintro h A' a B eq absent first
    cases A' with
    | nil =>
      cases eq
      rw [absent] at found
      cases found
    | cons c A' =>
      cases eq
      exact h A' a B rfl absent (fun c hc => first c (List.mem_cons_of_mem _ hc))

theorem FirstsSettled.added {r : Record} (named : r.migrationID = req.idOf b) (absent : rows (req.idOf b) = none) :
    FirstsSettled req resolver rows (b :: A) ↔
      Settled req resolver b ∧ FirstsSettled req resolver (rows.insert r) A := by
  constructor
  · intro h
    refine ⟨h [] b A rfl absent (by simp), ?_⟩
    rintro A' a B rfl gone first
    have apart : req.idOf a ≠ r.migrationID := by
      intro same
      rw [same, Rows.insert_self] at gone
      cases gone
    rw [Rows.insert_other _ _ apart] at gone
    apply h (b :: A') a B rfl gone
    intro c hc
    rcases List.mem_cons.mp hc with rfl | hc
    · rw [← named]
      exact apart.symm
    · exact first c hc
  · rintro ⟨settled, h⟩ A' a B eq gone first
    cases A' with
    | nil =>
      cases eq
      exact settled
    | cons c A' =>
      cases eq
      apply h A' a B rfl
      · rw [Rows.insert_other]
        · exact gone
        · rw [named]
          exact (first b (by simp)).symm
      · exact fun c hc => first c (List.mem_cons_of_mem _ hc)

/-- A second look at the bindings of a pass keeps them all exactly if the new rows are settled. -/
theorem pass_again (h : pass req resolver rows A = some (rows', new)) :
    (∀ b ∈ A, decision req resolver b (rows' (req.idOf b)) = .kept) ↔ FirstsSettled req resolver rows A := by
  induction A generalizing rows new with
  | nil => simp [FirstsSettled]
  | cons b A ih =>
    rw [List.forall_mem_cons]
    rcases pass_cons h with ⟨kept, rest⟩ | ⟨r, new', added, named, absent, rest, -⟩
    · obtain ⟨x, found⟩ := decision_row kept
      rw [found] at kept
      rw [ih rest, FirstsSettled.kept found, pass_keeps rest found]
      exact and_iff_right kept
    · have found : rows' (req.idOf b) = some r := pass_keeps rest (by rw [← named]; exact rows.insert_self r)
      rw [absent] at added
      rw [ih rest, FirstsSettled.added named absent, found, decision_again added]

variable (resolver) in
/-- A pass over bindings that all have rows keeps them all or is refused. -/
theorem pass_present (present : ∀ b ∈ A, ∃ x, rows (req.idOf b) = some x) :
    (∀ b ∈ A, decision req resolver b (rows (req.idOf b)) = .kept) ∧
    pass req resolver rows A = some (rows, []) ∨
      (¬ ∀ b ∈ A, decision req resolver b (rows (req.idOf b)) = .kept) ∧ pass req resolver rows A = none := by
  induction A with
  | nil => exact .inl ⟨by simp, rfl⟩
  | cons b A ih =>
    obtain ⟨x, found⟩ := present b (by simp)
    rw [List.forall_mem_cons]
    simp only [pass]
    by_cases kept : decision req resolver b (rows (req.idOf b)) = .kept
    · simp only [kept, true_and]
      exact ih (fun a ha => present a (List.mem_cons_of_mem b ha))
    · have refused : decision req resolver b (rows (req.idOf b)) = .refused := by
        rw [found] at kept ⊢
        exact decision_present kept
      right
      simp [refused]

end Algebra

end Migration
