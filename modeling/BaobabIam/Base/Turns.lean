import BaobabIam.Base.Runs

/-! Calls that run in turn: each takes its steps before the next one begins, and may
stop anywhere. Between two of its transactions the store does not change. -/
namespace Interleaving

variable {I : Interface} {S ε : Type} {sys : System I S ε}

def inOrder (spec : Spec sys) (i : Nat) (c : sys.Call) : Setting sys where
  thread := i
  call := c
  rule L q a := ∃ logs, sys.admits logs L q a = true
  others T T' := T' = T
  spec := spec

theorem inOrder_grows (spec : Spec sys) (i : Nat) (c : sys.Call)
    (T T' : Trace sys) (more : (inOrder spec i c).others T T') : T <+: T' := by
  cases more
  exact List.prefix_refl T

/-- Every call with the answers it gets, step by step; call number `i` is thread `i`. -/
def turnsFrom (i : Nat) : List (sys.Call × List (Oracle I)) → List (Action sys)
  | [] => []
  | (c, oracles) :: rest => .begin c :: oracles.map (.step i) ++ turnsFrom (i + 1) rest

def inTurn (calls : List (sys.Call × List (Oracle I))) : List (Action sys) := turnsFrom 0 calls

variable {spec : Spec sys} {cfg : Config sys}

structure Turn (spec : Spec sys) (i : Nat) (cfg : Config sys) : Prop where
  valid : Valid spec cfg.trace
  store : cfg.store = last cfg.trace
  length : cfg.threads.length = i + 1
  earlier : ∀ e ∈ cfg.trace, e.thread ≤ i
  running : ∃ (t : Thread sys) (Q : Post sys (sys.Result t.call)), cfg.threads[i]? = some t ∧
    wp (inOrder spec i t.call) t.prog cfg.trace t.log Q

theorem Turn.step {i : Nat} (h : Turn spec i cfg) (oracle : Oracle I) : Turn spec i (cfg.stepThread i oracle) := by
  obtain ⟨valid, store, length, earlier, ⟨c, L, prog⟩, Q, found, hw⟩ := h
  have inside : i < cfg.threads.length := by omega
  unfold Config.stepThread
  simp only [found]
  cases prog with
  | ret a => exact ⟨valid, store, length, earlier, _, Q, found, hw⟩
  | fail e => exact ⟨valid, store, length, earlier, _, Q, found, hw⟩
  | ask q k =>
    simp only
    split
    · rename_i admitted
      exact ⟨valid, store, by simpa using length, earlier,
        ⟨c, L ++ [⟨q, oracle L q⟩], k (oracle L q)⟩, Q, List.getElem?_set_self inside, hw _ ⟨_, admitted⟩⟩
    · exact ⟨valid, store, length, earlier, _, Q, found, hw⟩
  | atomic tx k =>
    simp only
    split
    · exact ⟨valid, store, length, earlier, _, Q, found, hw⟩
    · rename_i r log ran
      have meets := Dialogue.run_of_wp (fun L q a ha => ⟨_, ha⟩) (hw cfg.trace rfl) (by rw [← store]; exact ran)
      have here : (inOrder spec i c).entry cfg.trace L log r =
          ⟨i, c, cfg.store, committed cfg.store r, L, log⟩ := by
        rw [store]; rfl
      rw [here] at meets
      refine ⟨valid.snoc store meets.1, by simp, by simpa using length, ?_, ⟨c, log, k (outcome r)⟩, Q,
        List.getElem?_set_self inside, meets.2⟩
      intro e he
      rcases List.mem_append.mp he with he | he
      · exact earlier e he
      · exact Nat.le_of_eq (congrArg Entry.thread (List.mem_singleton.mp he))

theorem Turn.steps {i : Nat} (oracles : List (Oracle I)) (h : Turn spec i cfg) :
    Turn spec i ((oracles.map (Action.step i)).foldl Config.act cfg) := by
  induction oracles generalizing cfg with
  | nil => exact h
  | cons oracle oracles ih => exact ih (h.step oracle)

theorem exec_inTurn {calls : List (sys.Call × List (Oracle I))}
    (code_ok : ∀ i c oracles T, calls[i]? = some (c, oracles) → (∀ e ∈ T, e.thread < i) →
      ∃ Q : Post sys (sys.Result c), wp (inOrder spec i c) (sys.code c) T [] Q) :
    Valid spec (exec sys (inTurn calls)).trace ∧
      (exec sys (inTurn calls)).store = last (exec sys (inTurn calls)).trace := by
  suffices h : ∀ (rest past : List (sys.Call × List (Oracle I))) (cfg : Config sys), calls = past ++ rest →
      Valid spec cfg.trace → cfg.store = last cfg.trace →
      cfg.threads.length = past.length → (∀ e ∈ cfg.trace, e.thread < past.length) →
      Valid spec ((turnsFrom past.length rest).foldl Config.act cfg).trace ∧
        ((turnsFrom past.length rest).foldl Config.act cfg).store =
          last ((turnsFrom past.length rest).foldl Config.act cfg).trace from
    h calls [] _ rfl .nil rfl rfl (by simp [Config.initial])
  intro rest
  induction rest with
  | nil => exact fun past cfg _ valid store _ _ => ⟨valid, store⟩
  | cons call rest ih =>
    obtain ⟨c, oracles⟩ := call
    intro past cfg split valid store length earlier
    obtain ⟨Q, hw⟩ := code_ok past.length c oracles cfg.trace (by simp [split]) earlier
    have begun : Turn spec past.length (cfg.act (.begin c)) := by
      refine ⟨valid, store, by simp [Config.act, length], fun e he => Nat.le_of_lt (earlier e he),
        ⟨c, [], sys.code c⟩, Q, ?_, hw⟩
      rw [← length]
      exact List.getElem?_concat_length
    have ended := begun.steps oracles
    have next := ih (past ++ [(c, oracles)]) _ (by simp [split]) ended.valid ended.store (by simpa using ended.length)
      (fun e he => by simpa using Nat.lt_succ_of_le (ended.earlier e he))
    simpa only [turnsFrom, List.cons_append, List.foldl_cons, List.foldl_append, List.length_append,
      List.length_singleton] using next

section Completes

variable {c : sys.Call} {oracle : Oracle I} {rule : Rule I}

/-- The call, alone and with these answers, ends with this result and leaves this store. -/
def Completes (sys : System I S ε) (c : sys.Call) (oracle : Oracle I) (r : Except ε (sys.Result c)) (s : S) : Prop :=
  ∃ n L, (exec sys (thenAlone [] c n oracle)).threads[0]? = some ⟨c, L, Prog.ofExcept r⟩ ∧
    (exec sys (thenAlone [] c n oracle)).store = s

variable {r : Except ε (sys.Result c)} {L : Log I} {s : S} {Q : Post sys (sys.Result c)}

theorem ended_stays {schedule : List (Action sys)} {j : Nat}
    (ended : (exec sys schedule).threads[j]? = some ⟨c, L, Prog.ofExcept r⟩) (later : List (Action sys)) :
    (exec sys (schedule ++ later)).threads[j]? = some ⟨c, L, Prog.ofExcept r⟩ ∧
      Others j (exec sys schedule).trace (exec sys (schedule ++ later)).trace := by
  induction later using List.reverseRecOn with
  | nil =>
    rw [List.append_nil]
    exact ⟨ended, Others.refl _ _⟩
  | append_singleton later a ih =>
    obtain ⟨still, others⟩ := act_ended ih.1 a
    rw [← List.append_assoc, exec_append]
    exact ⟨still, ih.2.trans others⟩

/-- The call has made a transaction and has not ended. -/
def InFlight (cfg : Config sys) (j : Nat) : Prop :=
  (∃ h ∈ cfg.trace, h.thread = j) ∧ ∀ c L r, cfg.threads[j]? ≠ some ⟨c, L, Prog.ofExcept r⟩

theorem inFlight_of_later {schedule later : List (Action sys)} {D : Trace sys} {h e : Entry sys}
    (trace : (exec sys (schedule ++ later)).trace = (exec sys schedule).trace ++ D) (mem : e ∈ D)
    (before : h ∈ (exec sys schedule).trace)
    (same : h.thread = e.thread) : InFlight (exec sys schedule) e.thread := by
  refine ⟨⟨h, before, same⟩, ?_⟩
  intro c L r ended
  obtain ⟨D', split, others⟩ := (ended_stays ended later).2
  rw [trace] at split
  rw [List.append_cancel_left split] at mem
  exact others e mem rfl

theorem thenAlone_ended {n m : Nat} (later : n ≤ m)
    (ended : (exec sys (thenAlone [] c n oracle)).threads[0]? = some ⟨c, L, Prog.ofExcept r⟩) :
    exec sys (thenAlone [] c m oracle) = exec sys (thenAlone [] c n oracle) := by
  induction later with
  | refl => rfl
  | @step m _ ih =>
    rw [thenAlone_succ, exec_append, ih]
    exact stepThread_ended ended

theorem Completes.unique {r' : Except ε (sys.Result c)} {s' : S} (h : Completes sys c oracle r s)
    (h' : Completes sys c oracle r' s') : r = r' ∧ s = s' := by
  obtain ⟨n, L, ended, rfl⟩ := h
  obtain ⟨m, L', ended', rfl⟩ := h'
  have same : exec sys (thenAlone [] c n oracle) = exec sys (thenAlone [] c m oracle) := by
    rcases Nat.le_total n m with later | later
    · exact (thenAlone_ended later ended).symm
    · exact thenAlone_ended later ended'
  rw [same, ended'] at ended
  refine ⟨?_, by rw [same]⟩
  cases r <;> cases r' <;> cases ended <;> rfl

/-- A call alone ends, and meets the postcondition that its code has for such answers. -/
theorem completes_of_wp (open_ : ∀ logs L q a, sys.admits logs L q a = true)
    (obeys : ∀ L q, rule L q (oracle L q)) (h : wp (alone rule 0 c) (sys.code c) [] [] Q) :
    ∃ r T L, Completes sys c oracle r (last T) ∧ Q T L r := by
  obtain ⟨n, L, r, ended, -, post⟩ := solo_call (fun L q _ => obeys L q) [] (fun _ _ _ _ _ _ => open_ _ _ _ _) c Q h
  exact ⟨r, _, L, ⟨n, L, by rw [ended]; rfl, exec_store _⟩, post⟩

theorem Completes.post (open_ : ∀ logs L q a, sys.admits logs L q a = true) (obeys : ∀ L q, rule L q (oracle L q))
    (h : wp (alone rule 0 c) (sys.code c) [] [] Q)
    (ended : Completes sys c oracle r s) : ∃ T L, s = last T ∧ Q T L r := by
  obtain ⟨r', T, L, ended', post⟩ := completes_of_wp open_ obeys h
  obtain ⟨rfl, rfl⟩ := ended.unique ended'
  exact ⟨T, L, rfl, post⟩

end Completes

end Interleaving
