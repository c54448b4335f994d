import BaobabIam.Migration.LedgerRuns

/-! Several workers provision one row. The one that succeeds leaves it PROVISIONED with
its target. A worker that was on its way at that moment can still undo it: it fails to
bind its own target, and its failure handler reads the row again and moves it from
PROVISIONED to a failure state. No other step can, and no worker that had ended or has not
read the row yet. -/
namespace Migration.PostgresStore

open Interleaving

variable {d : Driver} {init : Database}

def Holds (id : Text) (r : Record) (db : Database) : Prop :=
  ∃ x, db.find id = some x ∧ x.migrationState = r.migrationState ∧ x.target = r.target

def Undoes (id : Text) (e : Entry (system d init)) : Prop :=
  ∃ x y, e.before.find id = some x ∧ ProvisionBridge.already x.migrationState = true ∧
    e.after.find id = some y ∧ (y.migrationState = .failedRetryable ∨ y.migrationState = .failedManualReview)

def Provisions (id : Text) (e : Entry (system d init)) : Prop :=
  ∃ policy b, e.call = .service policy (.provision b id)

variable {T T' : Trace (system d init)} {e : Entry (system d init)} {id : Text} {r : Record} {i : Nat}

theorem OwnRead.current (valid : Valid (Step d) T) (read : OwnRead (lawful d) T i id r) {row : Record}
    (found : (last T).find id = some row) (same : row.revision = r.revision) : row.utc = r.utc := by
  obtain ⟨g, hg, -, x, found', equal⟩ := read
  obtain ⟨U, sub, -, from_last, -⟩ := valid.mem hg
  have before : U <+: T := (List.prefix_append U [g]).trans sub
  change g.before.find id = some x at found'
  rw [from_last] at found'
  rw [row_unchanged valid before found' found (same.trans (Record.utc_revision equal).symm)]
  exact equal

/-- From a provisioned row a provisioning can only go to a failure state. -/
theorem canTransition_already {s next : MigrationState} (provisioned : ProvisionBridge.already s = true)
    (named : next ∈ [MigrationState.validated, .ready, .provisioning, .provisioned] ∨ next = .failedRetryable ∨
      next = .failedManualReview) (edge : canTransition s next = true) :
    next = .failedRetryable ∨ next = .failedManualReview := by
  rcases named with path | failure
  · exfalso
    simp only [List.mem_cons, List.not_mem_nil, or_false] at path
    rcases path with rfl | rfl | rfl | rfl <;> cases s <;>
      simp [ProvisionBridge.already, canTransition, allowedTransitions] at provisioned edge
  · exact failure

/-- One step of a provisioning keeps a provisioned row, or undoes it; then its call had
found the row not yet provisioned. -/
theorem provision_step (valid : Valid (Step d) T) (from_last : e.before = last T) (step : Step d T e)
    (provisions : Provisions id e) (holds : Holds id r e.before)
    (provisioned : ProvisionBridge.already r.migrationState = true) :
    Holds id r e.after ∨ (Undoes id e ∧
      ∃ r', OwnRead (lawful d) T e.thread id r' ∧ ProvisionBridge.already r'.migrationState = false) := by
  obtain ⟨policy, b, mine⟩ := provisions
  obtain ⟨x, found, state, target⟩ := holds
  have found' : (last T).find id = some x := from_last ▸ found
  cases step with
  | put _ call => cases mine.symm.trans call
  | contain _ _ _ call => cases mine.symm.trans call
  | rollback _ call => cases mine.symm.trans call
  | service policy' c call step =>
    cases mine.symm.trans call
    cases step with
    | asks same => exact .inl ⟨x, by rw [same]; exact found, state, target⟩
    | puts rec write origin started =>
      -- the write goes to the row it was made from, and leaves another state or target there
      have settles : ∀ read, OwnRead (lawful d) T e.thread id read → rec.migrationID = read.migrationID →
          rec.revision = read.revision → x.utc = read.utc ∧ ∃ y, e.after.find id = some y ∧
            y.migrationState = rec.migrationState ∧ y.target = x.target := by
        intro read own named revision
        have at_ : rec.migrationID = id := named.trans own.id_eq
        cases write with
        | insert fresh write =>
          have absent := write.found
          rw [show (inserted rec).migrationID = id from at_, found] at absent
          cases absent
        | update row current same write =>
          have there := write.found
          have key : (updated row rec).migrationID = id := ((immutableN05_fields same).1).trans at_
          rw [key, found] at there
          cases there
          refine ⟨OwnRead.current valid own found' (current.trans revision), updated x rec, ?_, rfl, ?_⟩
          · have after := write.written.find_self write.found
            rwa [key] at after
          · rcases write.target x rfl with same | ⟨-, -, open_, -⟩
            · exact same
            · rw [state] at open_
              rw [open_] at provisioned
              cases provisioned
      cases origin with
      | registered created named valid => cases named
      | @moved id' read moved next n named permitted own step =>
        obtain ⟨rfl, path⟩ := named
        obtain ⟨edge, -, rfl, -⟩ := Record.transition_ok step
        obtain ⟨equal, y, after, state', target'⟩ := settles read own (by simp) (by simp)
        rw [← Record.utc_state equal, state] at edge
        have failure := canTransition_already provisioned path edge
        refine .inr ⟨⟨x, y, found, by rw [state]; exact provisioned, after, ?_⟩, started b id' rfl⟩
        rw [state']
        simpa using failure
      | @bound id' read bound named own | @coded id' read code named own =>
        cases named
        obtain ⟨equal, y, after, state', target'⟩ := settles read own rfl rfl
        refine .inl ⟨y, after, ?_, target'.trans target⟩
        rw [state', ← state]
        exact (Record.utc_state equal).symm

/-- A provisioned row stays, or a first transaction undoes it. -/
theorem kept_or_undone {D : Trace (system d init)} (valid : Valid (Step d) (T ++ D))
    (provisions : ∀ e ∈ D, Provisions id e) (holds : Holds id r (last T))
    (provisioned : ProvisionBridge.already r.migrationState = true) :
    (∀ D₁, D₁ <+: D → Holds id r (last (T ++ D₁))) ∨
      ∃ D₁ e D₂, D = D₁ ++ e :: D₂ ∧ (∀ D₀, D₀ <+: D₁ → Holds id r (last (T ++ D₀))) ∧
        Undoes id e ∧
        ∃ r', OwnRead (lawful d) (T ++ D₁) e.thread id r' ∧
          ProvisionBridge.already r'.migrationState = false := by
  induction D using List.reverseRecOn with
  | nil =>
    left
    intro D₁ sub
    rw [List.prefix_nil.mp sub, List.append_nil]
    exact holds
  | append_singleton D e ih =>
    rw [← List.append_assoc] at valid
    obtain ⟨valid', from_last, step⟩ := valid.snoc_inv
    rcases ih valid' (fun e he => provisions e (by simp [he])) with kept | ⟨D₁, f, D₂, rfl, kept, undone⟩
    · have before : Holds id r e.before := by
        rw [from_last]
        exact kept D (List.prefix_refl D)
      rcases provision_step valid' from_last step (provisions e (by simp)) before provisioned with after | undone
      · left
        intro D₁ sub
        rcases List.prefix_concat_iff.mp sub with rfl | sub
        · rw [← List.append_assoc, last_append]
          exact after
        · exact kept D₁ sub
      · exact .inr ⟨D, e, [], rfl, kept, undone⟩
    · exact .inr ⟨D₁, f, D₂ ++ [e], by simp, kept, undone⟩

/-- A call that has found the row not yet provisioned had begun before it was. -/
theorem OwnRead.earlier {A D : Trace (system d init)} {g : Entry (system d init)} {j : Nat} {r' : Record}
    (valid : Valid (Step d) (A ++ [g] ++ D)) (kept : ∀ D₀, D₀ <+: D → Holds id r (last (A ++ [g] ++ D₀)))
    (provisioned : ProvisionBridge.already r.migrationState = true)
    (own : OwnRead (lawful d) (A ++ [g] ++ D) j id r') (fresh : ProvisionBridge.already r'.migrationState = false) :
    ∃ h ∈ A ++ [g], h.thread = j := by
  obtain ⟨h, mem, mine, x, found, equal⟩ := own
  change h.before.find id = some x at found
  rcases List.mem_append.mp mem with mem | mem
  · exact ⟨h, mem, mine⟩
  exfalso
  obtain ⟨D₁, D₂, rfl⟩ := List.append_of_mem mem
  have prior : A ++ [g] ++ D₁ ++ [h] <+: A ++ [g] ++ (D₁ ++ h :: D₂) := ⟨D₂, by simp⟩
  obtain ⟨-, from_last, -⟩ := (valid.restrict prior).snoc_inv
  obtain ⟨y, found', state, -⟩ := kept D₁ (List.prefix_append D₁ (h :: D₂))
  rw [← from_last, found] at found'
  cases found'
  rw [← Record.utc_state equal, state, provisioned] at fresh
  cases fresh

/-- Calls for one row run, and `schedule` ends with the last transaction of one that
succeeds. The row stays as that call left it in every continuation, unless another call
is on its way at that point; then only such a call undoes it. -/
theorem provisioning_stays (d : Driver) (init : Database) (id : Text) (schedule later : List (Action (system d init)))
    (only : ∀ t ∈ (exec _ (schedule ++ later)).threads, ∃ policy b, t.call = .service policy (.provision b id))
    (i : Nat) (policy : Policy) (b : ProvisionBridge) (L : Log ports) (res : ProvisionResult)
    (ended : (exec _ (schedule ++ later)).threads[i]? = some ⟨.service policy (.provision b id), L, .ret res⟩)
    (success : (exec _ schedule).trace.getLast?.map Entry.thread = some i)
    (final : Others i (exec _ schedule).trace (exec _ (schedule ++ later)).trace) :
    res.Settled ∧ Holds id res.record (exec _ schedule).store ∧
      ((∀ j ≠ i, ¬ InFlight (exec _ schedule) j) → Holds id res.record (exec _ (schedule ++ later)).store) ∧
      (Holds id res.record (exec _ (schedule ++ later)).store ∨
        ∃ e ∈ (exec _ (schedule ++ later)).trace, Undoes id e ∧ e.thread ≠ i ∧
          InFlight (exec _ schedule) e.thread) := by
  have sound := exec_steps d (schedule ++ later)
  obtain ⟨T, others, post⟩ := sound.calls i _ ended
  obtain ⟨⟨A, g, rfl, mine, x, found, state, target⟩, named, settled⟩ := post res rfl
  change g.after.find res.record.migrationID = some x at found
  rw [named] at found
  have split : A ++ [g] = (exec _ schedule).trace := others.unique final (by simp [mine]) success
  obtain ⟨D, trace, others⟩ := others
  have valid : Valid (Step d) (A ++ [g] ++ D) := trace ▸ sound.valid
  have stored : (exec _ schedule).store = g.after := by
    rw [(exec_steps d schedule).store, ← split, last_append]
  have holds : Holds id res.record (last (A ++ [g])) := by
    rw [last_append]
    exact ⟨x, found, state, target⟩
  have provisions : ∀ e ∈ D, Provisions id e := by
    intro e he
    have mem : e ∈ (exec _ (schedule ++ later)).trace := by
      rw [trace]
      exact List.mem_append_right _ he
    obtain ⟨t, found, same, -⟩ := exec_entries (schedule ++ later) e mem
    obtain ⟨policy, b, call⟩ := only t (List.mem_of_getElem? found)
    exact ⟨policy, b, same.symm.trans call⟩
  have outcome : Holds id res.record (exec _ (schedule ++ later)).store ∨
      ∃ e ∈ (exec _ (schedule ++ later)).trace, Undoes id e ∧ e.thread ≠ i ∧
        InFlight (exec _ schedule) e.thread := by
    rcases kept_or_undone valid provisions holds settled.1 with kept | ⟨D₁, e, D₂, rfl,
      kept, undone, r', own, fresh⟩
    · left
      rw [sound.store, trace]
      exact kept D (List.prefix_refl D)
    · right
      have mem : e ∈ D₁ ++ e :: D₂ := by simp
      obtain ⟨h, before, same⟩ := OwnRead.earlier (valid.restrict ⟨e :: D₂, by simp⟩) kept settled.1 own fresh
      rw [split] at before trace
      refine ⟨e, ?_, undone, others e mem, inFlight_of_later trace mem before same⟩
      rw [trace]
      exact List.mem_append_right _ mem
  refine ⟨settled, ?_, ?_, outcome⟩
  · rw [stored]
    simpa using holds
  · intro free
    rcases outcome with kept | ⟨e, -, -, other, flying⟩
    · exact kept
    · exact absurd flying (free _ other)

def otherSubject : Oracle ports := fun L q =>
  match q with
  | .provisionIdentity _ => .ok (some ⟨"ory", "https://new", "other", .active⟩)
  | q => calm L q

def waiting : Database := { records := [{ Record.sample .provisioning with target := {} }] }

def lostConnection : Oracle ports := fun L q =>
  match q with
  | .statement => some (.other "08006")
  | q => calm L q

/-- One worker cannot read the row and gives up, one provisions it, and one has begun but
not read it yet. -/
def relay : List (Action (system .plain waiting)) :=
  List.replicate 3 (.begin (.service .phaseC (.provision humanBridge "m"))) ++
    [.step 0 lostConnection] ++ List.replicate 12 (.step 1 calm)

def late : List (Action (system .plain waiting)) := [.step 2 otherSubject]

theorem relay_stays : ∃ L res,
    (exec _ (relay ++ late)).threads[1]? = some ⟨.service .phaseC (.provision humanBridge "m"), L, .ret res⟩ ∧
    res.Settled ∧ (∀ j ≠ 1, ¬ InFlight (exec _ relay) j) ∧
    (∃ e ∈ (exec _ (relay ++ late)).trace, e.thread = 2) ∧
    Holds "m" res.record (exec _ (relay ++ late)).store := by
  have calls : (exec _ (relay ++ late)).threads.map Thread.call =
      List.replicate 3 (.service .phaseC (.provision humanBridge "m")) := rfl
  have only : ∀ t ∈ (exec _ (relay ++ late)).threads, ∃ policy b, t.call =
      .service policy (.provision b "m") := by
    intro t ht
    have mem := List.mem_map_of_mem (f := Thread.call) ht
    rw [calls] at mem
    exact ⟨_, _, List.eq_of_mem_replicate mem⟩
  have threads : (exec _ relay).trace.map Entry.thread = 0 :: List.replicate 10 1 := by decide +kernel
  have free : ∀ j ≠ 1, ¬ InFlight (exec _ relay) j := by
    rintro j other ⟨⟨h, mem, rfl⟩, flying⟩
    have among := List.mem_map_of_mem (f := Entry.thread) mem
    rw [threads, List.mem_cons] at among
    rcases among with first | second
    · rw [first] at flying
      exact flying _ _ (.error _) rfl
    · exact other (List.eq_of_mem_replicate second)
  have stays := provisioning_stays _ _ "m" relay late only 1 _ _ _ _ rfl (by decide +kernel)
    ⟨_, rfl, by decide +kernel⟩
  exact ⟨_, _, rfl, stays.1, free, by decide +kernel, stays.2.2.1 free⟩
/-- Two workers have each made a target; the first binds its own and succeeds, then the
second goes on to bind its own. -/
def racing (second : Oracle ports) : List (Action (system .plain waiting)) :=
  List.replicate 2 (.begin (.service .phaseC (.provision humanBridge "m"))) ++
    List.replicate 7 (.step 0 calm) ++ List.replicate 7 (.step 1 second) ++
    List.replicate 5 (.step 0 calm) ++ List.replicate 6 (.step 1 second)

def race : List (Action (system .plain waiting)) := racing otherSubject

/-- The first worker has succeeded, and the second has moved its row to FAILED_RETRYABLE. -/
theorem race_undone : ∃ L res,
    (exec _ race).threads[0]? = some ⟨.service .phaseC (.provision humanBridge "m"), L, .ret res⟩ ∧
    res.record.migrationState = .provisioned ∧ res.alreadyProvisioned = false ∧
    ((exec _ race).store.find "m").map Record.migrationState = some .failedRetryable :=
  ⟨_, _, rfl, rfl, rfl, by decide +kernel⟩

-- a worker on its way need not undo the success: here its target is the same
example : ((exec _ (racing calm)).store.find "m").map Record.migrationState = some .provisioned := by decide +kernel

end Migration.PostgresStore
