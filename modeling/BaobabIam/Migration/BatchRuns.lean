import BaobabIam.Migration.Batches

/-! Batch registration on the in-process store, with failures of the store and the
resolver at any binding. A run that stops has made the pass over the bindings before the
one at which it stopped; so running it again completes the pass, exactly if the rows that
the first run registered are settled. -/
namespace Migration

open Interleaving Text

/-- The discovery gives these bindings and the resolver answers by source. With faults,
a call of either, or of the store, may also fail; a store that fails does not say that
a row is missing, and a resolver that fails does not say that there is no mapping. -/
def batchAnswer (batchID : Text) (bindings : List SourceBinding) (resolver : ProviderBinding → Except Failure Text)
    (faults : Bool) : (q : Query) → q.Answer → Prop
  | .listSourceBindings id, a => id = batchID → a = .ok bindings ∨ (faults = true ∧ ∃ e, a = .error e)
  | .resolveCanonical source, a => a = resolver source ∨
      (faults = true ∧ ∃ e, a = .error e ∧ e.is .noCanonicalMapping = false)
  | .memory, a => a = none ∨ (faults = true ∧ ∃ e, a = some e ∧ e.is .notFound = false)
  | _, _ => True

section Runs

variable {policy : Policy} {init : MemoryStore} {c : ServiceCall} {req : BatchRegisterRequest}
  {bindings : List SourceBinding} {resolver : ProviderBinding → Except Failure Text} {faults : Bool}

def registrar (policy : Policy) (init : MemoryStore) (c : ServiceCall) (batchID : Text) (bindings : List SourceBinding)
    (resolver : ProviderBinding → Except Failure Text) (faults : Bool) : Setting (MemoryStore.system policy init) :=
  alone (fun _ q a => batchAnswer batchID bindings resolver faults q a) 0 c

variable {T : Trace (MemoryStore.system policy init)} {L : Log ports} {batchID : Text}

variable {Q : Post (MemoryStore.system policy init) Record}

theorem wp_memory_get {id : Text}
    (failed : ∀ T' L' e, last T' = last T → faults = true → e.is .notFound = false → Q T' L' (.error e))
    (absent : ∀ T' L', last T' = last T → (last T).byID id = none → Q T' L' (.error .notFound))
    (found : ∀ T' L' r, last T' = last T → (last T).byID id = some r → Q T' L' (.ok r)) :
    wp (registrar policy init c batchID bindings resolver faults) (MemoryStore.store.get id) T L Q := by
  intro T' same
  cases same
  apply (Tx.wp_bind _ _ _).mpr
  apply (Tx.wp_bind _ _ _).mpr
  intro answer allowed
  rcases allowed with rfl | ⟨with_, e, rfl, other⟩
  · apply Tx.wp_read_then
    cases row : (last T).byID id with
    | none => exact ⟨trivial, absent _ _ (by simp) row⟩
    | some r => exact ⟨trivial, found _ _ r (by simp) row⟩
  · exact ⟨trivial, failed _ _ e (by simp) with_ other⟩

theorem wp_memory_put {r : Record} (valid : r.validateStructural = .ok ())
    (failed : ∀ T' L' e, last T' = last T → faults = true → Q T' L' (.error e))
    (done : ∀ T' L', last T' = (last T).insert r → Q T' L' (.ok r)) :
    wp (registrar policy init c batchID bindings resolver faults) (MemoryStore.store.put r) T L Q := by
  change wp _ (MemoryStore.put r) T L Q
  unfold MemoryStore.put
  apply wp_then
  apply (wp_ofExcept _).mpr
  rw [valid]
  intro T' same
  cases same
  apply (Tx.wp_bind _ _ _).mpr
  apply (Tx.wp_bind _ _ _).mpr
  intro answer allowed
  rcases allowed with rfl | ⟨with_, e, rfl, other⟩
  · exact ⟨trivial, done _ _ (by simp)⟩
  · exact ⟨trivial, failed _ _ e (by simp) with_⟩

section NewRow

variable (req : BatchRegisterRequest) (b : SourceBinding) (canonical : Text) (identityClass : IdentityClass)
  (created : Time)

theorem newRecord_defaulted : (req.newRecord b canonical identityClass).defaulted created =
    { req.newRecord b canonical identityClass with createdAt := created } := by
  simp [Record.defaulted, BatchRegisterRequest.newRecord, Time.isZero]

theorem insert_newRecord (s : MemoryStore) :
    (s.insert { req.newRecord b canonical identityClass with createdAt := created }).rows =
      s.rows.insert (req.newRecord b canonical identityClass) := by
  funext id
  by_cases mine : id = (req.newRecord b canonical identityClass).migrationID
  · subst mine
    rw [Rows.insert_self]
    exact congrArg (Option.map Record.undated) (MemoryStore.insert_self s _)
  · rw [Rows.insert_other _ _ mine]
    exact congrArg (Option.map Record.undated) (MemoryStore.insert_other s _ mine)

end NewRow

theorem accepts_iff {r : Record} : accepts r = true ↔ r.validateStructural = .ok () := by
  unfold accepts
  split <;> simp [*]

theorem wp_register_new {b : SourceBinding} {canonical : Text} {identityClass : IdentityClass}
    {Q : Post (MemoryStore.system policy init) Record} (absent : (last T).byID (req.idOf b) = none)
    (failed : ∀ T' L' e, last T' = last T →
      (faults = true ∨ accepts (req.newRecord b canonical identityClass) = false) → Q T' L' (.error e))
    (done : ∀ T' L' r, (last T').rows = (last T).rows.insert (req.newRecord b canonical identityClass) →
      accepts (req.newRecord b canonical identityClass) = true → Q T' L' (.ok r)) :
    wp (registrar policy init c batchID bindings resolver faults)
      (register MemoryStore.store (req.newRecord b canonical identityClass)) T L Q := by
  have row : ∀ created L', wp (registrar policy init c batchID bindings resolver faults)
      (registerRow MemoryStore.store ((req.newRecord b canonical identityClass).defaulted created)) T L' Q := by
    intro created L'
    rw [newRecord_defaulted]
    have same : ({ req.newRecord b canonical identityClass with createdAt := created } : Record).validateStructural =
        (req.newRecord b canonical identityClass).validateStructural := rfl
    unfold registerRow
    apply wp_then
    apply (wp_ofExcept _).mpr
    rw [same]
    cases valid : (req.newRecord b canonical identityClass).validateStructural with
    | error e => exact failed T L' e rfl (.inr (by simp [accepts, valid]))
    | ok _ =>
      apply (andThen_ok _ _ _ _ _ _).mpr
      apply wp_then
      apply (wp_attempt _).mpr
      apply wp_memory_get
      · intro T₁ L₁ e still with_ other
        simp only [andThen_ok, other, Bool.false_eq_true, if_false]
        exact failed T₁ L₁ _ still (.inl with_)
      · intro T₁ L₁ still _
        simp only [andThen_ok]
        apply wp_memory_put (same.trans valid)
        · exact fun T₂ L₂ e still' with_ => failed T₂ L₂ e (still'.trans still) (.inl with_)
        · intro T₂ L₂ stored
          apply done _ _ _ _ (accepts_iff.mpr valid)
          rw [stored, still, insert_newRecord]
      · intro T₁ L₁ r _ found
        cases absent.symm.trans found
  unfold register
  split
  · apply wp_then
    intro created _
    exact row _ _
  · exact row _ _

section Binding

variable {b : SourceBinding}

section Decisions

theorem decision_incomplete {row : Option Record}
    (missing : (b.source.provider ≠ [] && b.source.issuer ≠ [] && b.source.subject ≠ []) = false) :
    decision req resolver b row = .refused := by
  unfold decision
  rw [missing]
  rfl

theorem decision_unresolved {row : Option Record} (unknown : resolved req resolver b = none) :
    decision req resolver b row = .refused := by
  unfold decision
  rw [unknown]
  cases row <;> simp

theorem decision_drift {row : Record} (drifts : (repeatChecks req b (req.idOf b) row).1 = false) :
    decision req resolver b (some row) = .refused := by
  cases known : resolved req resolver b with
  | none => exact decision_unresolved known
  | some p =>
    unfold decision
    simp [known, repeats, drifts]

variable {result : BatchRegisterResult} {Q : Post (MemoryStore.system policy init) BatchRegisterResult}
  (complete : (b.source.provider ≠ [] && b.source.issuer ≠ [] && b.source.subject ≠ []) = true)
  {canonical : Text} {identityClass : IdentityClass} (known : resolved req resolver b = some (canonical, identityClass))

include complete known

theorem decision_some {row : Record} :
    decision req resolver b (some row) = if repeats req b row canonical then .kept else .refused := by
  unfold decision
  rw [if_pos complete, known]

theorem decision_none : decision req resolver b none =
    if accepts (req.newRecord b canonical identityClass) then .added (req.newRecord b canonical identityClass)
    else .refused := by
  unfold decision
  rw [if_pos complete, known]

/-- A row that is there, compared with the canonical identity that the resolver gave. -/
theorem wp_repeat {existing : Record}
    (drifts : (repeatChecks req b (req.idOf b) existing).1 = true)
    (refused : ∀ e, decision req resolver b (some existing.undated) = .refused → Q T L (.error e))
    (kept : decision req resolver b (some existing.undated) = .kept → Q T L (.ok (result.grown req resolver 1 []))) :
    wp (registrar policy init c batchID bindings resolver faults) (do
      Prog.ofExcept (firstFailure [sameCanonical existing canonical (req.idOf b)])
      return { result with skippedExists := result.skippedExists + 1 }) T L Q := by
  have choice : decision req resolver b (some existing.undated) =
      if repeats req b existing.undated canonical then .kept else .refused := decision_some complete known
  have same : repeats req b existing.undated canonical = (sameCanonical existing canonical (req.idOf b)).1 := by
    unfold repeats
    rw [show (repeatChecks req b (req.idOf b) existing.undated).1 = true from drifts, Bool.true_and]
    rfl
  rw [same] at choice
  apply wp_then
  apply (wp_ofExcept _).mpr
  cases check : sameCanonical existing canonical (req.idOf b) with
  | mk passed e =>
    rw [check] at choice
    cases passed with
    | true =>
      have ends := kept choice
      simp only [BatchRegisterResult.grown, List.length_nil, Nat.add_zero, List.map_nil, List.sum_nil, List.append_nil]
        at ends
      exact ends
    | false => exact refused e choice

/-- A new row, with the canonical identity and the class that it gets. -/
theorem wp_new_row {result' : BatchRegisterResult} {wrap : Failure → Failure}
    (absent : (last T).byID (req.idOf b) = none)
    (refused : ∀ T' L' e, last T' = last T →
      (faults = true ∨ decision req resolver b none = .refused) → Q T' L' (.error e))
    (added : ∀ T' L' r, (last T').rows = (last T).rows.insert r →
      decision req resolver b none = .added r → Q T' L' (.ok result')) :
    wp (registrar policy init c batchID bindings resolver faults) (do
      let stored ← (register MemoryStore.store (req.newRecord b canonical identityClass)).attempt
      let _ ← Prog.ofExcept (stored.mapError wrap)
      return result') T L Q := by
  have choice := decision_none complete known
  apply wp_then
  apply (wp_attempt _).mpr
  apply wp_register_new absent
  · intro T₁ L₁ e still why
    apply refused T₁ L₁ _ still
    refine why.imp_right fun invalid => ?_
    rw [choice, invalid]
    rfl
  · intro T₁ L₁ r stored valid
    apply added T₁ L₁ _ stored
    rw [choice, if_pos valid]

end Decisions

variable {index : Nat} {result : BatchRegisterResult} {Q : Post (MemoryStore.system policy init) BatchRegisterResult}

/-- The ways in which a question to the resolver goes on. -/
theorem wp_resolve {f : Text → Op MemoryStore BatchRegisterResult} {g : Op MemoryStore BatchRegisterResult}
    {wrap : Failure → Failure}
    (mapped : ∀ L' canonical, resolved req resolver b = some (canonical, b.classFor req) →
      orphanCount resolver b = 0 → wp (registrar policy init c batchID bindings resolver faults) (f canonical) T L' Q)
    (unmapped : ∀ L', resolved req resolver b = some ([], req.orphanClass) → orphanCount resolver b = 1 →
      wp (registrar policy init c batchID bindings resolver faults) g T L' Q)
    (failed : ∀ L' e, faults = true ∨ resolved req resolver b = none → Q T L' (.error e)) :
    wp (registrar policy init c batchID bindings resolver faults) (do
      let answer ← Prog.question (I := ports) (.resolveCanonical b.source)
      match answer with
      | .ok canonical => f canonical
      | .error e => if e.is .noCanonicalMapping then g else .fail (wrap e)) T L Q := by
  apply wp_question_then
  intro answer allowed
  rcases allowed with rfl | ⟨with_, e, rfl, other⟩
  · cases answered : resolver b.source with
    | ok canonical =>
      exact mapped _ canonical (by simp only [resolved, answered]) (by simp only [orphanCount, answered])
    | error e =>
      cases none : e.is .noCanonicalMapping with
      | true =>
        simp only [none, if_true]
        exact unmapped _ (by simp only [resolved, answered, none, if_true]) (by simp only [orphanCount, answered])
      | false =>
        simp only [none, Bool.false_eq_true, if_false]
        exact failed _ _ (.inr (by simp [resolved, answered, none]))
  · simp only [other, Bool.false_eq_true, if_false]
    exact failed _ _ (.inl with_)

theorem wp_binding_alone
    (refused : ∀ T' L' e, last T' = last T →
      (faults = true ∨ decision req resolver b ((last T).rows (req.idOf b)) = .refused) → Q T' L' (.error e))
    (kept : ∀ T' L', last T' = last T → decision req resolver b ((last T).rows (req.idOf b)) = .kept →
      Q T' L' (.ok (result.grown req resolver 1 [])))
    (added : ∀ T' L' r, (last T').rows = (last T).rows.insert r →
      decision req resolver b ((last T).rows (req.idOf b)) = .added r →
        Q T' L' (.ok (result.grown req resolver 0 [b]))) :
    wp (registrar policy init c batchID bindings resolver faults)
      (registerBinding MemoryStore.store req index b result) T L Q := by
  unfold registerBinding
  apply wp_then
  apply (wp_require _ _).mpr
  refine ⟨?_, fun missing => refused T L _ rfl (.inr (decision_incomplete missing))⟩
  intro complete
  apply wp_then
  apply (wp_attempt _).mpr
  apply wp_memory_get
  · intro T₁ L₁ e still with_ other
    simp only [andThen_ok, other, Bool.false_eq_true, if_false]
    exact refused T₁ L₁ _ still (.inl with_)
  · intro T₁ L₁ still absent
    have row : (last T).rows (req.idOf b) = none := by
      rw [MemoryStore.rows, BatchRegisterRequest.idOf, absent]
      rfl
    rw [row, ← still] at refused added
    rw [← still] at absent
    simp only [andThen_ok, Failure.is, decide_true, if_true]
    apply wp_resolve
    · intro L' canonical known none
      apply wp_new_row complete known absent refused
      simpa [BatchRegisterResult.grown, none, BatchRegisterRequest.idOf] using added
    · intro L' known one
      apply wp_new_row complete known absent refused
      simpa [BatchRegisterResult.grown, one, BatchRegisterRequest.idOf] using added
    · exact fun L' e why => refused T₁ L' _ rfl (why.imp_right decision_unresolved)
  · intro T₁ L₁ existing still found
    have row : (last T).rows (req.idOf b) = some existing.undated := by
      rw [MemoryStore.rows, BatchRegisterRequest.idOf, found]
      rfl
    rw [row] at refused kept
    simp only [andThen_ok]
    apply wp_then
    apply (wp_ofExcept _).mpr
    cases check : repeatChecks req b (req.idOf b) existing with
    | mk passed drift =>
      have outcome := congrArg Prod.fst check
      rw [BatchRegisterRequest.idOf] at check
      rw [check]
      cases passed with
      | false => exact refused T₁ L₁ drift still (.inr (decision_drift outcome))
      | true =>
        change wp _ _ T₁ L₁ Q
        have again : ∀ {L'}, ∀ e, decision req resolver b (some existing.undated) = .refused →
            Q T₁ L' (.error e) :=
          fun e no => refused T₁ _ e still (.inr no)
        apply wp_resolve
        · exact fun L' canonical known _ => wp_repeat complete known outcome again (kept T₁ L' still)
        · exact fun L' known _ => wp_repeat complete known outcome again (kept T₁ L' still)
        · exact fun L' e why => refused T₁ L' _ still (why.imp_right decision_unresolved)

end Binding

theorem grown_grown (result : BatchRegisterResult) (k k' : Nat) (new new' : List SourceBinding) :
    (result.grown req resolver k new).grown req resolver k' new' = result.grown req resolver (k + k')
    (new ++ new') := by
  simp [BatchRegisterResult.grown, Nat.add_assoc]

section Loop

variable {Q : Post (MemoryStore.system policy init) BatchRegisterResult}

theorem wp_bindings_alone {rest : List SourceBinding} {index : Nat} {result : BatchRegisterResult}
    (done : ∀ T' L' kept new, pass req resolver (last T).rows rest = some ((last T').rows, new) →
      kept + new.length = rest.length → (new = [] → last T' = last T) →
      Q T' L' (.ok (result.grown req resolver kept new)))
    (stopped : ∀ T' L' e A B new, rest = A ++ B → pass req resolver (last T).rows A = some ((last T').rows, new) →
      (faults = true ∨ pass req resolver (last T).rows rest = none) → Q T' L' (.error e)) :
    wp (registrar policy init c batchID bindings resolver faults)
      (registerBindings MemoryStore.store req index rest result) T L Q := by
  induction rest generalizing T L index result with
  | nil =>
    have ends := done T L 0 [] rfl rfl (fun _ => rfl)
    simp only [BatchRegisterResult.grown, List.length_nil, Nat.add_zero, List.map_nil,
      List.sum_nil, List.append_nil] at ends
    exact ends
  | cons b rest ih =>
    apply wp_then
    apply wp_binding_alone
    · intro T₁ L₁ e still why
      apply stopped T₁ L₁ e [] (b :: rest) [] rfl (by rw [still]; rfl)
      exact why.imp_right (fun refused => by simp only [pass, refused])
    · intro T₁ L₁ still kept
      apply ih
      · intro T₂ L₂ k new passed count same
        rw [grown_grown, List.nil_append]
        apply done
        · simp only [pass, kept]
          rw [← still]
          exact passed
        · simp only [List.length_cons]
          omega
        · exact fun none => (same none).trans still
      · intro T₂ L₂ e A B new eq passed why
        rw [still] at passed why
        apply stopped T₂ L₂ e (b :: A) B new (by rw [eq]; rfl)
        · simp only [pass, kept]
          exact passed
        · exact why.imp_right (fun refused => by simp only [pass, kept, refused])
    · intro T₁ L₁ r stored added
      apply ih
      · intro T₂ L₂ k new passed count _
        rw [grown_grown, Nat.zero_add]
        rw [stored] at passed
        apply done
        · simp only [pass, added, passed]
          rfl
        · simp only [List.length_cons, List.length_append, List.length_nil]
          omega
        · intro none
          cases none
      · intro T₂ L₂ e A B new eq passed why
        rw [stored] at passed why
        apply stopped T₂ L₂ e (b :: A) B (b :: new) (by rw [eq]; rfl)
        · simp only [pass, added, passed]
          rfl
        · exact why.imp_right (fun refused => by simp only [pass, added, refused]; rfl)

end Loop

structure BatchEnd (req : BatchRegisterRequest) (bindings : List SourceBinding)
    (resolver : ProviderBinding → Except Failure Text) (faults : Bool) (s s' : MemoryStore)
    (r : Except Failure BatchRegisterResult) : Prop where
  /-- It has made the pass over the first bindings, over all of them in case of success. -/
  passed : ∃ A B new, bindings = A ++ B ∧ pass req resolver s.rows A = some (s'.rows, new) ∧
    (r.toBool = true → B = [])
  success : ∀ res, r = .ok res → firstFailure req.checks = .ok () ∧ ∃ kept new,
    pass req resolver s.rows bindings = some (s'.rows, new) ∧ kept + new.length = bindings.length ∧
      res = ({ batchID := req.batchID } : BatchRegisterResult).grown req resolver kept new ∧ (new = [] → s' = s)
  /-- Without faults, only a request or a binding that is refused ends it. -/
  failure : ∀ e, r = .error e → faults = true ∨ firstFailure req.checks ≠ .ok () ∨
    pass req resolver s.rows bindings = none

theorem wp_batch_alone : wp (registrar policy init c req.trimmed.batchID bindings resolver faults)
    (registerBatch MemoryStore.store req) T L
    (fun T' _ r => BatchEnd req.trimmed bindings resolver faults (last T) (last T') r) := by
  have nothing : ∀ e, (faults = true ∨ firstFailure req.trimmed.checks ≠ .ok ()) →
      BatchEnd req.trimmed bindings resolver faults (last T) (last T) (.error e) := by
    intro e why
    refine ⟨⟨[], bindings, [], rfl, rfl, ?_⟩, ?_, ?_⟩
    · rintro ⟨⟩
    · rintro res ⟨⟩
    · exact fun _ _ => why.imp_right .inl
  unfold registerBatch
  apply wp_then
  apply (wp_ofExcept _).mpr
  cases checked : firstFailure req.trimmed.checks with
  | error e => exact nothing e (.inr (by rw [checked]; simp))
  | ok _ =>
    apply (andThen_ok _ _ _ _ _ _).mpr
    apply wp_question_then
    intro answer allowed
    apply wp_then
    apply (wp_ofExcept _).mpr
    rcases allowed rfl with rfl | ⟨with_, e, rfl⟩
    · apply (andThen_ok _ _ _ _ _ _).mpr
      apply wp_bindings_alone
      · intro T' L' kept new passed count same
        refine ⟨⟨bindings, [], new, by simp, passed, fun _ => rfl⟩, ?_, ?_⟩
        · rintro res ⟨⟩
          exact ⟨checked, kept, new, passed, count, rfl, same⟩
        · rintro e ⟨⟩
      · intro T' L' e A B new eq passed why
        refine ⟨⟨A, B, new, eq, passed, ?_⟩, ?_, ?_⟩
        · rintro ⟨⟩
        · rintro res ⟨⟩
        · exact fun _ _ => why.imp_right .inr
    · exact nothing e (.inl with_)

def Answers (req : BatchRegisterRequest) (bindings : List SourceBinding)
    (resolver : ProviderBinding → Except Failure Text) (faults : Bool) (oracle : Oracle ports) : Prop :=
  ∀ L (q : Query), batchAnswer req.trimmed.batchID bindings resolver faults q (oracle L q)

def BatchCompletes (policy : Policy) (s : MemoryStore) (req : BatchRegisterRequest) (oracle : Oracle ports)
    (r : Except Failure BatchRegisterResult) (s' : MemoryStore) : Prop :=
  Completes (MemoryStore.system policy s) (.registerBatch req) oracle r s'

variable (policy) in
theorem batch_completes (s : MemoryStore) {oracle : Oracle ports}
    (answers : Answers req bindings resolver faults oracle) :
    ∃ r s', BatchCompletes policy s req oracle r s' ∧ BatchEnd req.trimmed bindings resolver faults s s' r := by
  have code : wp (registrar policy s (.registerBatch req) req.trimmed.batchID bindings resolver faults)
      (registerBatch MemoryStore.store req) [] []
      (fun T' _ r => BatchEnd req.trimmed bindings resolver faults s (last T') r) := wp_batch_alone
  obtain ⟨r, T, L, ended, post⟩ := completes_of_wp (fun _ _ _ _ => rfl) answers code
  exact ⟨r, last T, ended, post⟩

variable {s s₁ s' : MemoryStore} {oracle : Oracle ports} {r : Except Failure BatchRegisterResult}

theorem BatchCompletes.ends (ended : BatchCompletes policy s req oracle r s')
    (answers : Answers req bindings resolver faults oracle) : BatchEnd req.trimmed bindings resolver faults s s' r := by
  obtain ⟨r', s'', ended', post⟩ := batch_completes policy s answers
  obtain ⟨rfl, rfl⟩ := Completes.unique ended ended'
  exact post

def RegisteredSettled (req : BatchRegisterRequest) (bindings : List SourceBinding)
    (resolver : ProviderBinding → Except Failure Text) (s s₁ : MemoryStore) : Prop :=
  ∀ A b B, bindings = A ++ b :: B → s.byID (req.idOf b) = none → s₁.byID (req.idOf b) ≠ none →
    (∀ a ∈ A, req.idOf a ≠ req.idOf b) → Settled req resolver b

theorem rows_none (s : MemoryStore) (id : Text) : s.rows id = none ↔ s.byID id = none := by
  simp [MemoryStore.rows]

theorem registered_settled_iff {A B new : List SourceBinding}
    (part : pass req resolver s.rows A = some (s₁.rows, new)) :
    RegisteredSettled req (A ++ B) resolver s s₁ ↔ FirstsSettled req resolver s.rows A := by
  constructor
  · rintro h A' b B' rfl absent first
    obtain ⟨x, found⟩ := pass_seen part b (by simp)
    apply h A' b (B' ++ B) (by simp) ((rows_none _ _).mp absent) _ first
    intro gone
    rw [← rows_none, found] at gone
    cases gone
  · intro h A' b B' split absent present first
    have among : ∃ a ∈ A, req.idOf a = req.idOf b := by
      by_contra none
      have other : ∀ a ∈ A, req.idOf a ≠ req.idOf b := fun a ha same => none ⟨a, ha, same⟩
      exact present ((rows_none _ _).mp (pass_source part ((rows_none _ _).mpr absent) other))
    obtain ⟨a, ha, same⟩ := among
    rcases List.append_eq_append_iff.mp split with ⟨C, rfl, -⟩ | ⟨C, rfl, rest⟩
    · exact absurd same (first a (List.mem_append_left C ha))
    · cases C with
      | nil =>
        rw [List.append_nil] at ha
        exact absurd same (first a ha)
      | cons b' C =>
        cases rest
        exact h A' b C rfl ((rows_none _ _).mpr absent) first

/-- The second run, from the store that the first one left, completes what a single run
would have done. -/
structure Converges (policy : Policy) (req : BatchRegisterRequest) (bindings : List SourceBinding)
    (second : Oracle ports)
    (r₁ : Except Failure BatchRegisterResult) (s₁ : MemoryStore) (res : BatchRegisterResult) (s : MemoryStore)
    (res₂ : BatchRegisterResult) (s₂ : MemoryStore) : Prop where
  succeeds : BatchCompletes policy s₁ req second (.ok res₂) s₂
  /-- The rows are those of the single run, up to creation times. -/
  rows : s₂.rows = s.rows
  /-- The new rows are exactly those that the first run had not registered. -/
  registers : res₂.migrationIDs = res.migrationIDs.filter (fun id => s₁.byID id = none) ∧
    res₂.registered = res₂.migrationIDs.length ∧ res₂.skippedExists + res₂.registered = bindings.length
  /-- After a success, nothing is left to do. -/
  repeats : ∀ res₁, r₁ = .ok res₁ →
    res₂ = { batchID := req.trimmed.batchID, skippedExists := bindings.length } ∧ s₂ = s₁

/-- A single run that succeeds, a first run with failures at any binding and a second run
without failures after it: the second run completes the first exactly if every binding
that the first one registered is settled. -/
theorem batch_registration_converges (policy : Policy) (init : MemoryStore) (req : BatchRegisterRequest)
    (bindings : List SourceBinding) (resolver : ProviderBinding → Except Failure Text)
    (single first second : Oracle ports)
    (steady : Answers req bindings resolver false single) (faulty : Answers req bindings resolver true first)
    (steady' : Answers req bindings resolver false second) (res : BatchRegisterResult) (s : MemoryStore)
    (whole : BatchCompletes policy init req single (.ok res) s) (r₁ : Except Failure BatchRegisterResult)
    (s₁ : MemoryStore) (interrupted : BatchCompletes policy init req first r₁ s₁) :
    (∃ res₂ s₂, Converges policy req bindings second r₁ s₁ res s res₂ s₂) ↔
      RegisteredSettled req.trimmed bindings resolver init s₁ := by
  obtain ⟨checked, k, all, passed, -, total, -⟩ := (whole.ends steady).success res rfl
  obtain ⟨A, B, new₁, rfl, part, complete⟩ := (interrupted.ends faulty).passed
  -- the rest of the single run is a pass from where the first run stopped
  obtain ⟨new₂, rest, eq⟩ : ∃ new₂, pass req.trimmed resolver s₁.rows B = some (s.rows, new₂) ∧
    all = new₁ ++ new₂ := by
    rw [pass_append, part, Option.bind_some] at passed
    obtain ⟨⟨rows', new₂⟩, rest, eq⟩ := Option.map_eq_some_iff.mp passed
    cases eq
    exact ⟨new₂, rest, rfl⟩
  have present := pass_present resolver (pass_seen part)
  rw [registered_settled_iff part, ← pass_again part]
  constructor
  · rintro ⟨res₂, s₂, conv⟩
    obtain ⟨-, kept, new, passed₂, -⟩ := (conv.succeeds.ends steady').success res₂ rfl
    rcases present with ⟨keeps, -⟩ | ⟨-, refused⟩
    · exact keeps
    · rw [pass_append, refused] at passed₂
      cases passed₂
  · intro keeps
    have again : pass req.trimmed resolver s₁.rows (A ++ B) = some (s.rows, new₂) := by
      rcases present with ⟨-, kept⟩ | ⟨no, -⟩
      · rw [pass_append, kept, Option.bind_some, rest]
        rfl
      · exact absurd keeps no
    obtain ⟨r₂, s₂, ended, ends⟩ := batch_completes policy s₁ steady'
    cases r₂ with
    | error e =>
      rcases ends.failure e rfl with impossible | unchecked | refused
      · cases impossible
      · exact absurd checked unchecked
      · rw [again] at refused
        cases refused
    | ok res₂ =>
      obtain ⟨-, kept, new, passed₂, count, result, same⟩ := ends.success res₂ rfl
      rw [again] at passed₂
      obtain ⟨rows₂, rfl⟩ := Prod.mk.inj (Option.some.inj passed₂)
      refine ⟨res₂, s₂, ended, rows₂.symm, ⟨?_, ?_, ?_⟩, ?_⟩
      · have old : ∀ id ∈ new₁.map req.trimmed.idOf, ¬ decide (s₁.byID id = none) = true := by
          intro id hid
          obtain ⟨b, hb, rfl⟩ := List.mem_map.mp hid
          obtain ⟨x, found⟩ := pass_seen part b ((pass_new part).2.1 b hb)
          have present : s₁.byID (req.trimmed.idOf b) ≠ none := by
            rw [Ne, ← rows_none, found]
            simp
          simpa using present
        have fresh : ∀ id ∈ new₂.map req.trimmed.idOf, decide (s₁.byID id = none) = true := by
          intro id hid
          obtain ⟨b, hb, rfl⟩ := List.mem_map.mp hid
          simpa [rows_none] using (pass_new rest).1 b hb
        have ids : res.migrationIDs = new₁.map req.trimmed.idOf ++ new₂.map req.trimmed.idOf := by
          simp [total, BatchRegisterResult.grown, eq]
        rw [ids, List.filter_append, List.filter_eq_nil_iff.mpr old, List.filter_eq_self.mpr fresh]
        simp [result, BatchRegisterResult.grown]
      · simp [result, BatchRegisterResult.grown]
      · simpa [result, BatchRegisterResult.grown] using count
      · rintro res₁ rfl
        cases complete rfl
        obtain ⟨-, none⟩ := Prod.mk.inj (Option.some.inj rest)
        subst none
        rw [List.length_nil, Nat.add_zero] at count
        subst count
        exact ⟨by simp [result, BatchRegisterResult.grown], same rfl⟩

end Runs

def discovering (bindings : List SourceBinding) : Oracle ports := fun L q =>
  match q with
  | .listSourceBindings _ => .ok bindings
  | q => calm L q

theorem discovering_answers (req : BatchRegisterRequest) (bindings : List SourceBinding) (faults : Bool) :
    Answers req bindings (fun _ => .ok "canonical") faults (discovering bindings) := by
  intro L q
  cases q with
  | listSourceBindings id => exact fun _ => .inl rfl
  | resolveCanonical source => exact .inl rfl
  | memory => exact .inl rfl
  | _ => trivial

def cohort : BatchRegisterRequest := { batchID := "batch" }

def discovered (suggestedClass : IdentityClass) : SourceBinding :=
  ⟨"keycloak", "https://old", "s", suggestedClass, "snapshot"⟩

theorem cohort_registers (bindings : List SourceBinding)
    (passes : (pass cohort.trimmed (fun _ => .ok "canonical") MemoryStore.empty.rows bindings).isSome) :
    ∃ res s new, BatchCompletes .phaseC .empty cohort (discovering bindings) (.ok res) s ∧
      pass cohort.trimmed (fun _ => .ok "canonical") MemoryStore.empty.rows bindings = some (s.rows, new) := by
  obtain ⟨r, s, ended, ends⟩ := batch_completes .phaseC .empty (discovering_answers cohort bindings false)
  cases r with
  | ok res =>
    obtain ⟨-, -, new, passed, -⟩ := ends.success res rfl
    exact ⟨res, s, new, ended, passed⟩
  | error e =>
    rcases ends.failure e rfl with impossible | unchecked | refused
    · cases impossible
    · exact absurd (by decide +kernel) unchecked
    · rw [refused] at passes
      cases passes

def humans : List SourceBinding := [discovered .human, { discovered .human with subject := "t" }]

/-- The resolver cannot be reached for the second user. -/
def interrupting : Oracle ports := fun L q =>
  match q with
  | .resolveCanonical source => if source.subject = "t" then .error (.errorf "timeout" []) else .ok "canonical"
  | q => discovering humans L q

theorem interrupting_answers : Answers cohort humans (fun _ => .ok "canonical") true interrupting := by
  intro L q
  cases q with
  | resolveCanonical source =>
    by_cases second : source.subject = "t"
    · exact .inr ⟨rfl, _, if_pos second, rfl⟩
    · exact .inl (if_neg second)
  | listSourceBindings id => exact fun _ => .inl rfl
  | memory => exact .inl rfl
  | _ => trivial

def failedBatch (t : Thread (MemoryStore.system .phaseC .empty)) : Bool :=
  match t with
  | ⟨.registerBatch req, _, .fail _⟩ => req = cohort
  | _ => false

theorem failedBatch_eq {t : Thread (MemoryStore.system .phaseC .empty)} (h : failedBatch t = true) :
    ∃ L e, t = ⟨.registerBatch cohort, L, Prog.ofExcept (.error e)⟩ := by
  unfold failedBatch at h
  split at h
  · rename_i req L e
    cases of_decide_eq_true h
    exact ⟨L, e, rfl⟩
  · cases h

/-- The first run fails between the two users, and the second completes it. -/
theorem human_cohort_converges : ∃ res s e s₁ res₂ s₂,
    BatchCompletes .phaseC .empty cohort (discovering humans) (.ok res) s ∧
    BatchCompletes .phaseC .empty cohort interrupting (.error e) s₁ ∧
    humans.map (fun b => (s₁.byID (cohort.idOf b)).isSome) = [true, false] ∧
    Converges .phaseC cohort humans (discovering humans) (.error e) s₁ res s res₂ s₂ := by
  obtain ⟨res, s, -, whole, -⟩ := cohort_registers humans (by decide +kernel)
  let cfg := exec (MemoryStore.system .phaseC .empty) (thenAlone [] (.registerBatch cohort) 8 interrupting)
  have stopped : cfg.threads[0]?.any failedBatch = true := by decide +kernel
  have between : humans.map (fun b => (cfg.store.byID (cohort.idOf b)).isSome) = [true, false] := by decide +kernel
  obtain ⟨t, found, failed⟩ := (Option.any_eq_true ..).mp stopped
  obtain ⟨L, e, rfl⟩ := failedBatch_eq failed
  have interrupted : BatchCompletes .phaseC .empty cohort interrupting (.error e) cfg.store := ⟨8, L, found, rfl⟩
  have settled : RegisteredSettled cohort.trimmed humans (fun _ => .ok "canonical") .empty cfg.store := by
    intro A b B split _ _ _ canonical identityClass known
    have among : b ∈ humans := by rw [split]; simp
    simp only [humans, List.mem_cons, List.not_mem_nil, or_false] at among
    rcases among with rfl | rfl <;> cases known <;> decide
  obtain ⟨res₂, s₂, converges⟩ := (batch_registration_converges .phaseC .empty cohort humans _ _ _ _
    (discovering_answers cohort humans false) interrupting_answers (discovering_answers cohort humans false) res s whole
    (.error e) cfg.store interrupted).mpr settled
  exact ⟨res, s, e, cfg.store, res₂, s₂, whole, interrupted, between, converges⟩

/-- A user that is suggested as an orphan but has a canonical identity is registered, and
the same registration then fails for ever. -/
theorem orphan_cohort_fails_again : ∃ res s,
    BatchCompletes .phaseC .empty cohort (discovering [discovered .orphanCandidate]) (.ok res) s ∧
    ∀ res₂ s₂, ¬ BatchCompletes .phaseC s cohort (discovering [discovered .orphanCandidate])
      (.ok res₂) s₂ := by
  obtain ⟨res, s, new, whole, passed⟩ := cohort_registers [discovered .orphanCandidate] (by decide +kernel)
  refine ⟨res, s, whole, ?_⟩
  intro res₂ s₂ second
  obtain ⟨-, -, new₂, passed₂, -⟩ :=
    (second.ends (discovering_answers cohort [discovered .orphanCandidate] false)).success res₂ rfl
  rcases pass_present (fun _ => .ok "canonical") (pass_seen passed) with ⟨kept, -⟩ | ⟨-, refused⟩
  · have settled := (pass_again passed).mp kept [] (discovered .orphanCandidate) [] rfl rfl (by simp) "canonical"
      .orphanCandidate rfl
    cases settled.mp rfl
  · rw [refused] at passed₂
    cases passed₂

end Migration
