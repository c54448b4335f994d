import BaobabIam.Base.Once
import BaobabIam.Migration.ServiceRuns

/-! Runs of a service with the default policy over the in-process store. What the
policy promises of every row depends on what callers register: a registration takes
the state that the caller's record names. -/
namespace Migration.MemoryStore

open Interleaving

def heldStates : List MigrationState := [.discovered, .blocked, .failedManualReview, .quarantined]

structure Allowed (r : Record) : Prop where
  uncut : r.migrationState ≠ .cutover ∧ r.migrationState ≠ .legacyRetired
  held : r.canonicalIdentityID = [] ∨ r.identityClass = .orphanCandidate → r.migrationState ∈ heldStates

structure PolicyHolds (T : Trace (system .phaseC empty)) : Prop where
  enters : ∀ e ∈ T, ∀ id x, e.before.byID id = none → e.after.byID id = some x →
    x.migrationState = .discovered
  allowed : ∀ e ∈ T, ∀ id x, e.after.byID id = some x → Allowed x

def RegistersDiscovered (c : ServiceCall) : Prop :=
  ∀ r, c = .register r → r.migrationState = .other [] ∨ r.migrationState = .discovered

theorem Allowed.utc {x r : Record} (h : Allowed x) (same : x.utc = r.utc) : Allowed r := by
  obtain ⟨uncut, held⟩ := h
  rw [Record.utc_state same] at uncut held
  rw [Record.utc_canonical same, Record.utc_class same] at held
  exact ⟨uncut, held⟩

theorem allowed_discovered {r : Record} (h : r.migrationState = .discovered) : Allowed r := by
  refine ⟨?_, ?_⟩
  · simp [h]
  · simp [h, heldStates]

theorem Allowed.moved {r r' : Record} {next : MigrationState} {n : Time} (permitted : Permits .phaseC next)
    (step : r.transition next = .ok r') : Allowed (r'.stamp n next) := by
  obtain ⟨-, control, rfl, -⟩ := Record.transition_ok step
  constructor
  · simpa using permitted rfl
  · intro unresolved
    have controlled : Record.controlState next = true := by
      apply control
      simp only [Record.stamp_canonical, Record.moved_canonical, Record.stamp_class, Record.moved_class] at unresolved
      simp only [Record.unresolved, Bool.or_eq_true, decide_eq_true_eq]
      exact unresolved.symm
    rw [Record.stamp_state, Record.moved_state]
    cases next <;> simp [Record.controlState, heldStates] at controlled ⊢

section Run

abbrev Step (T : Trace (system .phaseC empty)) (e : Entry (system .phaseC empty)) : Prop :=
  ServiceStep lawful e.call .phaseC T e

theorem exec_steps (schedule : List (Action (system .phaseC empty))) :
    Valid Step (exec (system .phaseC empty) schedule).trace := by
  have code_ok : ∀ i c T, (∀ e ∈ T, e.thread ≠ i) → wp (safe Step i c) ((system .phaseC empty).code c) T []
      (Provisioned lawful i c) := ?_
  · exact (exec_sound code_ok schedule).valid
  intro i c T _
  apply wp_service lawful c (fun _ _ more => Others.sub more)
  intro T e _ same step
  change ServiceStep lawful e.call .phaseC T e
  rw [same]
  exact step

variable {T T' : Trace (system .phaseC empty)} {e : Entry (system .phaseC empty)}

theorem row_stays (valid : Valid Step T') (sub : T <+: T') {id : Text} (there : (last T).byID id ≠ none) :
    (last T').byID id ≠ none := by
  refine valid.evolves (R := fun s s' => s.byID id ≠ none → s'.byID id ≠ none) ?_ ?_ ?_ sub there
  · exact fun s h => h
  · exact fun s t u first second h => second (first h)
  intro T e _ _ step there
  cases step with
  | asks same => rwa [same]
  | puts r write origin started =>
    rw [show e.after = e.before.insert r from write]
    by_cases mine : id = r.migrationID
    · subst mine
      simp
    · rwa [insert_other _ _ mine]

theorem OwnRead.there (valid : Valid Step T) {i : Nat} {id : Text} {r : Record} (read : OwnRead lawful T i id r) :
    (last T).byID r.migrationID ≠ none := by
  have named := read.id_eq
  obtain ⟨g, hg, -, x, found, -⟩ := read
  obtain ⟨U, sub, -, from_last, -⟩ := valid.mem hg
  apply row_stays valid ((List.prefix_append U [g]).trans sub)
  rw [named, ← from_last, show g.before.byID id = some x from found]
  simp

/-- Every record that a call writes is allowed, and a new row is DISCOVERED. -/
theorem Origin.allowed {c : ServiceCall} {i : Nat} {r : Record} (valid : Valid Step T)
    (rows : ∀ g ∈ T, ∀ id x, g.before.byID id = some x → Allowed x) (discovers : RegistersDiscovered c)
    (origin : Origin lawful c .phaseC T i r) :
    Allowed r ∧ ((last T).byID r.migrationID = none → r.migrationState = .discovered) := by
  have kept : ∀ {id : Text} {r : Record}, OwnRead lawful T i id r →
      Allowed r ∧ ((last T).byID r.migrationID = none → r.migrationState = .discovered) := by
    intro id r read
    refine ⟨?_, fun absent => absurd absent (OwnRead.there valid read)⟩
    obtain ⟨g, hg, -, x, found, same⟩ := read
    exact (rows g hg id x found).utc same
  cases origin with
  | @registered given created named _ =>
    have first : (given.defaulted created).migrationState = .discovered := by
      cases c with
      | register r =>
        cases named
        rcases discovers _ rfl with h | h <;> simp [Record.defaulted, h]
      | registerBatch req =>
        obtain ⟨b, canonical, identityClass, rfl⟩ := named
        rfl
      | _ => cases named
    exact ⟨allowed_discovered first, fun _ => first⟩
  | @moved id r r' next n named permitted read step =>
    refine ⟨Allowed.moved permitted step, ?_⟩
    intro absent
    obtain ⟨-, -, rfl, -⟩ := Record.transition_ok step
    simp only [Record.stamp_id, Record.moved_id] at absent
    exact absurd absent (OwnRead.there valid read)
  | @bound id r target named read | @coded id r code named read =>
    obtain ⟨⟨uncut, held⟩, first⟩ := kept read
    exact ⟨⟨uncut, held⟩, first⟩

theorem step_allowed (valid : Valid Step T) (from_last : e.before = last T) (step : Step T e)
    (rows : ∀ g ∈ T, ∀ id x, g.before.byID id = some x → Allowed x)
    (now : ∀ id x, (last T).byID id = some x → Allowed x)
    (discovers : RegistersDiscovered e.call) :
    (∀ id x, e.after.byID id = some x → Allowed x) ∧
      ∀ id x, e.before.byID id = none → e.after.byID id = some x → x.migrationState = .discovered := by
  cases step with
  | asks same =>
    rw [same, from_last]
    refine ⟨now, ?_⟩
    intro id x absent found
    rw [absent] at found
    cases found
  | puts r write origin started =>
    obtain ⟨good, first⟩ := Origin.allowed valid rows discovers origin
    rw [show e.after = e.before.insert r from write, from_last]
    refine ⟨?_, ?_⟩
    · intro id x found
      by_cases mine : id = r.migrationID
      · subst mine
        rw [insert_self] at found
        cases found
        exact good
      · rw [insert_other _ _ mine] at found
        exact now id x found
    · intro id x absent found
      by_cases mine : id = r.migrationID
      · subst mine
        rw [insert_self] at found
        cases found
        exact first absent
      · rw [insert_other _ _ mine, absent] at found
        cases found

theorem Valid.policy_holds (valid : Valid Step T) (discovers : ∀ e ∈ T, RegistersDiscovered e.call) :
    PolicyHolds T ∧ (∀ e ∈ T, ∀ id x, e.before.byID id = some x → Allowed x) ∧
      ∀ id x, (last T).byID id = some x → Allowed x := by
  induction valid with
  | nil => exact ⟨⟨by simp, by simp⟩, by simp, by rintro id x ⟨⟩⟩
  | @snoc T e valid from_last step ih =>
    obtain ⟨holds, before, now⟩ := ih (fun g hg => discovers g (List.mem_append_left _ hg))
    obtain ⟨after, enters⟩ := step_allowed valid from_last step before now (discovers e (by simp))
    refine ⟨⟨?_, ?_⟩, ?_, ?_⟩
    · intro g hg
      rcases List.mem_append.mp hg with hg | hg
      · exact holds.enters g hg
      · rw [List.mem_singleton.mp hg]
        exact enters
    · intro g hg
      rcases List.mem_append.mp hg with hg | hg
      · exact holds.allowed g hg
      · rw [List.mem_singleton.mp hg]
        exact after
    · intro g hg
      rcases List.mem_append.mp hg with hg | hg
      · exact before g hg
      · rw [List.mem_singleton.mp hg, from_last]
        exact now
    · rw [last_append]
      exact after

end Run

/-- When every caller leaves the first state to the service, the policy holds in every run. -/
theorem default_policy_on_every_run (schedule : List (Action (system .phaseC empty)))
    (discovers : ∀ t ∈ (exec (system .phaseC empty) schedule).threads, RegistersDiscovered t.call) :
    PolicyHolds (exec (system .phaseC empty) schedule).trace := by
  apply (Valid.policy_holds (exec_steps schedule) _).1
  intro e he
  obtain ⟨t, found, same, -⟩ := exec_entries schedule e he
  rw [← same]
  exact discovers t (List.mem_of_getElem? found)

def registration (state : MigrationState) : List (Action (system .phaseC empty)) :=
  [.begin (.register (Record.sample state)), .step 0 calm, .step 0 calm]

/-- A row is registered and goes on to READY. -/
def readied : List (Action (system .phaseC empty)) :=
  registration (.other []) ++ .begin (.applyTransition "m" .validated) :: List.replicate 3 (.step 1 calm) ++
    .begin (.applyTransition "m" .ready) :: List.replicate 3 (.step 2 calm)

theorem policy_of_registration : PolicyHolds (exec _ readied).trace ∧
    (exec _ readied).trace.map (fun e => (e.after.byID "m").map Record.migrationState) =
      [none, some .discovered, some .discovered, some .validated, some .validated, some .ready] := by
  constructor
  · apply default_policy_on_every_run
    intro t ht r same
    have calls : (exec _ readied).threads.map Thread.call =
        [.register (Record.sample (.other [])), .applyTransition "m" .validated, .applyTransition "m" .ready] := rfl
    have mem := List.mem_map_of_mem (f := Thread.call) ht
    rw [calls, same] at mem
    rcases List.mem_cons.mp mem with first | mem
    · cases first
      exact .inl rfl
    · rcases List.mem_cons.mp mem with second | third
      · cases second
      · cases List.mem_singleton.mp third
  · decide

/-- One registration puts a row of an empty ledger straight into LEGACY_RETIRED. -/
theorem register_enters_retired : ¬ ∀ schedule, PolicyHolds (exec (system .phaseC empty) schedule).trace := by
  intro all
  have rows : (exec (system .phaseC empty) (registration .legacyRetired)).trace.map (fun e => e.after.byID "m") =
      [none, some (Record.sample .legacyRetired)] := by decide
  have entered : some (Record.sample .legacyRetired) ∈ [none, some (Record.sample .legacyRetired)] := by simp
  rw [← rows] at entered
  obtain ⟨e, he, found⟩ := List.mem_map.mp entered
  exact ((all _).allowed e he _ _ found).uncut.2 rfl

end Migration.MemoryStore
