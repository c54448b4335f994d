import BaobabIam.Migration.DurableLedger

/-! Whether a row that is verified had a ready credential. The only edge into
verification that does not leave CREDENTIAL_READY is the recovery from FAILED_RETRYABLE:
a row is verified without a credential exactly when a run takes that edge before the
credential was ready. The in-process store also lets a worker write over a state it has
not read; there this holds of the runs in which none does. -/
namespace Migration

open Interleaving

def pastCredential : MigrationState → Bool
  | .verificationPending | .verified | .cutoverReady => true
  | _ => false

section History

variable {S : Type} {sys : System ports S Failure} (state : S → Option MigrationState)

def EntersProvisioned (e : Entry sys) : Prop :=
  state e.after = some .provisioned ∧ state e.before ≠ some .provisioned

/-- The row was in CREDENTIAL_READY at some point after it last entered PROVISIONED. -/
def ReadySince (T : Trace sys) : Prop :=
  Since (fun s => state s = some .credentialReady) (EntersProvisioned state) T

def HadCredential (T : Trace sys) : Prop :=
  ∀ s, state (last T) = some s → pastCredential s = true → ReadySince state T

/-- The transaction takes the row from a retryable failure into verification. -/
def Resumes (e : Entry sys) : Prop :=
  state e.before = some .failedRetryable ∧ state e.after = some .verificationPending

instance (e : Entry sys) : Decidable (Resumes state e) := inferInstanceAs (Decidable (_ ∧ _))

/-- The transaction leaves the state of the row as it is, begins the row, or takes an edge. -/
inductive MovesAlong (e : Entry sys) : Prop
  | stays (same : state e.after = state e.before)
  | begins (first : state e.after = some .discovered)
  | moves (s s' : MigrationState) (source : state e.before = some s) (next : state e.after = some s')
      (edge : canTransition s s' = true)

def AlwaysHadCredential (T : Trace sys) : Prop := ∀ U, U <+: T → HadCredential state U

def NeverResumesEarly (T : Trace sys) : Prop :=
  ∀ A e B, T = A ++ e :: B → Resumes state e → ReadySince state A

/-- The state of the row when the call made its last transaction. -/
def lastSeen (T : Trace sys) (i : Nat) : Option MigrationState :=
  (T.reverse.find? (fun g => g.thread = i)).bind (fun g => state g.before)

/-- The transaction replaces a state that its call has not seen. -/
def Stale (T : Trace sys) (e : Entry sys) : Prop :=
  state e.after ≠ state e.before ∧ lastSeen state T e.thread ≠ state e.before

instance (T : Trace sys) (e : Entry sys) : Decidable (Stale state T e) := inferInstanceAs (Decidable (_ ∧ _))

def NoStaleWrite (T : Trace sys) : Prop := ∀ A e B, T = A ++ e :: B → ¬ Stale state A e

/-- The transaction leaves the state of the row, or takes an edge from the state its call saw. -/
def MovesFromSeen (T : Trace sys) (e : Entry sys) : Prop :=
  state e.after = state e.before ∨
    ∃ s s', lastSeen state T e.thread = some s ∧ state e.after = some s' ∧ canTransition s s' = true

variable {state} {T T' : Trace sys} {e : Entry sys}

theorem lastSeen_of_others {A : Trace sys} {g : Entry sys} {i : Nat} (mine : g.thread = i)
    (others : Others i (A ++ [g]) T) : lastSeen state T i = state g.before := by
  obtain ⟨D, rfl, others⟩ := others
  have none : D.reverse.find? (fun g => decide (g.thread = i)) = none := by simpa using others
  simp [lastSeen, List.find?_append, none, mine]

theorem MovesFromSeen.along (h : MovesFromSeen state T e) (current : ¬ Stale state T e) : MovesAlong state e := by
  by_cases same : state e.after = state e.before
  · exact .stays same
  have seen : lastSeen state T e.thread = state e.before := by
    by_contra other
    exact current ⟨same, other⟩
  rcases h with same' | ⟨s, s', source, next, edge⟩
  · exact absurd same' same
  · exact .moves s s' (seen ▸ source) next edge

theorem noStaleWrite_of_take (each : ∀ n < T.length, ∀ e ∈ T[n]?, ¬ Stale state (T.take n) e) :
    NoStaleWrite state T := by
  rintro A e B rfl
  simpa using each A.length (by simp) e (by simp)

theorem HadCredential.start (first : state sys.init = none ∨ state sys.init = some .discovered) :
    HadCredential state ([] : Trace sys) := by
  intro s now past
  rw [last_nil] at now
  rcases first with absent | first
  · cases absent.symm.trans now
  · cases first.symm.trans now
    cases past

theorem HadCredential.step (h : HadCredential state T) (from_last : e.before = last T) (moves : MovesAlong state e)
    (resumes : Resumes state e → ReadySince state T) : HadCredential state (T ++ [e]) := by
  intro s now past
  rw [last_append] at now
  have other : ¬ EntersProvisioned state e := by
    rintro ⟨entered, -⟩
    cases now.symm.trans entered
    cases past
  -- it is enough that the row had been ready before this transaction
  suffices ready : ReadySince state T from ready.snoc other
  cases moves with
  | stays same =>
    rw [same, from_last] at now
    exact h s now past
  | begins first =>
    cases first.symm.trans now
    cases past
  | moves s₀ s' source next edge =>
    cases next.symm.trans now
    have was : state (last T) = some s₀ := from_last ▸ source
    cases s with
    | verificationPending =>
      rcases canTransition_verificationPending edge with rfl | rfl
      · exact Since.here was
      · exact resumes ⟨source, now⟩
    | verified =>
      cases canTransition_verified edge
      exact h _ was rfl
    | cutoverReady =>
      cases canTransition_cutoverReady edge
      exact h _ was rfl
    | _ => cases past

theorem NeverResumesEarly.before {U : Trace sys} (h : NeverResumesEarly state T) (sub : U <+: T) :
    NeverResumesEarly state U := by
  rintro A e B rfl
  obtain ⟨D, rfl⟩ := sub
  exact h A e (B ++ D) (by simp)

theorem had_credential_iff (valid : Valid (fun _ e => MovesAlong state e) T)
    (first : state sys.init = none ∨ state sys.init = some .discovered) :
    AlwaysHadCredential state T ↔ NeverResumesEarly state T := by
  constructor
  · rintro had A e B rfl resumes
    have sub : A ++ [e] <+: A ++ e :: B := ⟨B, by simp⟩
    have ready := had _ sub .verificationPending (by rw [last_append]; exact resumes.2) rfl
    apply ready.before
    rw [resumes.2]
    simp
  · intro ready U sub
    refine (valid.restrict sub).invariant (P := fun U => NeverResumesEarly state U → HadCredential state U) ?_ ?_
      (ready.before sub)
    · exact fun _ => .start first
    · intro U e _ ih from_last meets ready
      exact (ih (ready.before (List.prefix_append U [e]))).step from_last meets (ready U e [] rfl)

end History

def staged : ServiceCall → Bool
  | .applyTransition _ _ | .credentialApply _ | .credentialMarkReady _ | .verificationApply _
  | .verificationMarkVerified _ => true
  | _ => false

section Stages

variable {S : Type} {store : RecordStore S} (laws : Lawful store) {policy : Policy} {init : S}

def stateOf (id : Text) (s : S) : Option MigrationState := (laws.row s id).map Record.migrationState

def Staged (T : Trace (service store policy init)) (e : Entry (service store policy init)) : Prop :=
  staged e.call = true → ∀ id, MovesFromSeen (stateOf laws id) T e

def stager (policy : Policy) (init : S) (i : Nat) (c : ServiceCall) : Setting (service store policy init) :=
  safe (Staged laws) i c

theorem stager_moves (i : Nat) (c : ServiceCall) (T : Trace (service store policy init)) (id : Text)
    (next : MigrationState) : MayMove laws (stager laws policy init i c) policy T id next := by
  intro T₁ T' r r' n _ read others _ step L L' s _ put _ id'
  obtain ⟨legal, -, rfl, -⟩ := Record.transition_ok step
  have named := read.own.id_eq
  obtain ⟨A, g, rfl, thread, -, x, found, equal⟩ := read
  by_cases mine : id' = id
  · subst mine
    obtain ⟨y, found', state, -⟩ := laws.puts_row put
    simp only [Record.stamp_id, Record.moved_id, named] at found'
    refine .inr ⟨r.migrationState, next, ?_, ?_, legal⟩
    · have seen : lastSeen (stateOf laws id') T' i = stateOf laws id' g.before := lastSeen_of_others thread others
      refine seen.trans ?_
      rw [← Record.utc_state equal]
      exact congrArg (Option.map Record.migrationState) found
    · have after : y.migrationState = next := by simpa using state
      rw [← after]
      exact congrArg (Option.map Record.migrationState) found'
  · left
    exact congrArg (Option.map Record.migrationState) (laws.puts_other put (by simpa [named] using mine))

theorem stager_idle (i : Nat) (c : ServiceCall) (T : Trace (service store policy init)) (L L' : Log ports)
    (_ : StoreLog L L') : (stager laws policy init i c).spec T (leaves (stager laws policy init i c) T (last T) L L') :=
  fun _ _ => .inl rfl

theorem wp_staged (i : Nat) (c : ServiceCall) (T : Trace (service store policy init)) :
    wp (stager laws policy init i c) (c.code store policy) T [] (fun _ _ _ => True) := by
  have grows : ∀ T T', (stager laws policy init i c).others T T' → T <+: T' := fun _ _ others => others.sub
  have idle : ∀ T L L', StoreLog L L' →
      (stager laws policy init i c).spec T (leaves (stager laws policy init i c) T (last T) L L') := stager_idle laws
      i c
  have may : ∀ id next, MayMove laws (stager laws policy init i c) policy T id next := stager_moves laws i c T
  cases c with
  | applyTransition id next =>
    exact wp_applyTransition_left laws grows idle (may _ _) (fun _ _ _ _ => trivial) (fun _ _ _ _ _ _ _ => trivial)
  | credentialApply id =>
    exact wp_credentialApply laws grows idle (may _ _) (may _ _) (fun _ _ _ _ => trivial) (fun _ _ _ _ => trivial)
  | credentialMarkReady id =>
    exact wp_credentialMarkReady laws grows idle (may _ _) (fun _ _ _ _ => trivial) (fun _ _ _ _ => trivial)
  | verificationApply id =>
    exact wp_verificationApply laws grows idle (may _ _) (fun _ _ _ _ => trivial) (fun _ _ _ _ => trivial)
  | verificationMarkVerified id =>
    exact wp_verificationMarkVerified laws grows idle (may _ _) (fun _ _ _ _ => trivial) (fun _ _ _ _ => trivial)
  | register | registerBatch | setTargetBinding | provision =>
    -- nothing is said of the other operations
    refine wp_of_forall ?_ _ T []
    intro T e same stage
    rw [same] at stage
    cases stage

def NewRows (s : S) : Prop := ∀ id x, laws.row s id = some x → x.migrationState = .discovered

theorem NewRows.first {s : S} (h : NewRows laws s) (id : Text) :
    stateOf laws id s = none ∨ stateOf laws id s = some .discovered := by
  unfold stateOf
  cases found : laws.row s id with
  | none => exact .inl rfl
  | some x =>
    rw [Option.map_some, h id x found]
    exact .inr rfl

/-- A run of stages without stale writes moves every row along the edges. -/
theorem exec_along {schedule : List (Action (service store policy init))} {id : Text}
    (stages : ∀ t ∈ (exec _ schedule).threads, staged t.call = true)
    (current : NoStaleWrite (stateOf laws id) (exec _ schedule).trace) :
    Valid (fun _ e => MovesAlong (stateOf laws id) e) (exec _ schedule).trace := by
  have sound : Sound (Staged laws) (fun _ _ _ _ _ => True) (exec _ schedule) := by
    apply exec_sound
    exact fun i c T _ => wp_staged laws i c T
  refine sound.valid.mono_at ?_
  intro A e B split moves
  obtain ⟨t, found, same, -⟩ := exec_entries schedule e (by rw [split]; simp)
  have stage : staged e.call = true := same ▸ stages t (List.mem_of_getElem? found)
  exact (moves stage id).along (current A e B split)

end Stages

theorem PostgresStore.Step.along {d : Driver} {init : Database} {T : Trace (PostgresStore.system d init)}
    {e : Entry (PostgresStore.system d init)} (h : PostgresStore.Step d T e) (id : Text) :
    MovesAlong (stateOf (PostgresStore.lawful d) id) e := by
  cases found : e.before.find id with
  | none =>
    cases found' : e.after.find id with
    | none => exact .stays (by simp [stateOf, PostgresStore.lawful, found, found'])
    | some y => exact .begins (by simp [stateOf, PostgresStore.lawful, found', (h.begins found found').1])
  | some x =>
    obtain ⟨y, found', -, legal, -⟩ := h.moves found
    have before : stateOf (PostgresStore.lawful d) id e.before = some x.migrationState :=
      congrArg (Option.map Record.migrationState) found
    have after : stateOf (PostgresStore.lawful d) id e.after = some y.migrationState :=
      congrArg (Option.map Record.migrationState) found'
    rcases legal with same | edge
    · exact .stays (by rw [before, after, same])
    · exact .moves _ _ before after edge

/-- From new rows, a row past the credential has been ready at every point of a run exactly
if the run never resumes the verification of a row before its credential was ready. The
runs are any interleaving of the stages on the in-process store in which no write is
stale, and anything that workers do at the same time on the durable ledger. -/
theorem verified_rows_had_ready_credentials (id : Text) (memory : MemoryStore)
    (stages : List (Action (MemoryStore.system .phaseC memory))) (d : Driver) (database : Database)
    (schedule : List (Action (PostgresStore.system d database))) :
    (NewRows MemoryStore.lawful memory → (∀ t ∈ (exec _ stages).threads, staged t.call = true) →
      NoStaleWrite (stateOf MemoryStore.lawful id) (exec _ stages).trace →
      (AlwaysHadCredential (stateOf MemoryStore.lawful id) (exec _ stages).trace ↔
        NeverResumesEarly (stateOf MemoryStore.lawful id) (exec _ stages).trace)) ∧
    (NewRows (PostgresStore.lawful d) database →
      (AlwaysHadCredential (stateOf (PostgresStore.lawful d) id) (exec _ schedule).trace ↔
        NeverResumesEarly (stateOf (PostgresStore.lawful d) id) (exec _ schedule).trace)) := by
  constructor
  · intro new staged current
    exact had_credential_iff (exec_along MemoryStore.lawful staged current) (new.first _ id)
  · intro new
    have valid := (PostgresStore.exec_steps d schedule).valid
    exact had_credential_iff (valid.mono (fun T e step => step.along id)) (new.first _ id)

def stages (states : List MigrationState) : List (ServiceCall × List (Oracle ports)) :=
  states.map (fun s => (.applyTransition "m" s, List.replicate 3 calm))

theorem new_sample : NewRows MemoryStore.lawful (MemoryStore.sample .discovered) := by
  intro id x found
  change (MemoryStore.empty.insert (.sample .discovered)).byID id = some x at found
  by_cases mine : id = (Record.sample .discovered).migrationID
  · rw [mine, MemoryStore.insert_self] at found
    cases found
    rfl
  · rw [MemoryStore.insert_other _ _ mine] at found
    cases found

/-- A second worker looks for a credential while the first is moving the row; it writes
nothing, and the row goes on to its verification. -/
def happyRun : List (Action (MemoryStore.system .phaseC (.sample .discovered))) :=
  [.begin (.applyTransition "m" .validated), .begin (.credentialApply "m"), .step 0 calm, .step 1 calm] ++
    List.replicate 2 (.step 0 calm) ++
    turnsFrom 2 (stages [.ready, .provisioning, .provisioned, .credentialReady, .verificationPending, .verified])

/-- On the happy path nothing is resumed, so the verified row had a ready credential. -/
theorem happy_row_had_ready_credential :
    stateOf MemoryStore.lawful "m" (last (exec _ happyRun).trace) = some .verified ∧
      ReadySince (stateOf MemoryStore.lawful "m") (exec _ happyRun).trace := by
  have verified : stateOf MemoryStore.lawful "m" (last (exec _ happyRun).trace) = some .verified := by decide
  have none : ∀ e ∈ (exec _ happyRun).trace, ¬ Resumes (stateOf MemoryStore.lawful "m") e := by decide
  have current : NoStaleWrite (stateOf MemoryStore.lawful "m") (exec _ happyRun).trace :=
    noStaleWrite_of_take (by decide)
  have iff := (verified_rows_had_ready_credentials "m" (.sample .discovered) happyRun .plain {} []).1 new_sample
    (by decide) current
  have had := iff.mpr (fun A e B eq resumes => absurd resumes (none e (by rw [eq]; simp)))
  exact ⟨verified, had _ (List.prefix_refl _) _ verified rfl⟩

def stageTrace (states : List MigrationState) : List (Entry (MemoryStore.system .phaseC (.sample .discovered))) :=
  (exec (MemoryStore.system .phaseC (.sample .discovered)) (inTurn (stages states))).trace

def resumingStages : List MigrationState :=
  [.validated, .ready, .provisioning, .provisioned, .failedRetryable, .verificationPending, .verified]

/-- A row that was only provisioned is verified by way of a retryable failure. -/
theorem resumed_row_verified :
    stateOf MemoryStore.lawful "m" (last (stageTrace resumingStages)) = some .verified ∧
      ¬ ReadySince (stateOf MemoryStore.lawful "m") (stageTrace resumingStages) := by
  constructor
  · decide
  · rintro ⟨A, B, eq, ready, -⟩
    have never : ∀ e ∈ stageTrace resumingStages, stateOf MemoryStore.lawful "m" e.after ≠
        some .credentialReady := by
      decide
    rcases List.eq_nil_or_concat A with rfl | ⟨A, e, rfl⟩
    · cases ready
    · rw [List.concat_eq_append, last_append] at ready
      exact never e (by rw [eq]; simp) ready

end Migration
