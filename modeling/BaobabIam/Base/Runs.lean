import BaobabIam.Base.Schedule
import Mathlib.Data.List.Induction

/-! From one call to every run. `exec_sound` turns the guarantee of each call
into a valid trace for every schedule, `Valid.evolves` is the rule for facts that
every transaction keeps, and `solo_run` is the rule for a call that runs without
interference. -/
namespace Interleaving

variable {I : Interface} {S ε : Type} {sys : System I S ε}

/-- Every transaction started from the store the trace had reached and met the
specification there. -/
inductive Valid (spec : Spec sys) : Trace sys → Prop
  | nil : Valid spec []
  | snoc {T : Trace sys} {e : Entry sys} (valid : Valid spec T) (from_last : e.before = last T)
      (meets : spec T e) : Valid spec (T ++ [e])

/-- Any admitted answer, transactions of other calls at every step. -/
def safe (spec : Spec sys) (i : Nat) (c : sys.Call) : Setting sys where
  thread := i
  call := c
  rule L q a := ∃ logs, sys.admits logs L q a = true
  others := Others i
  spec := spec

structure Sound (spec : Spec sys)
    (post : (c : sys.Call) → Nat → Post sys (sys.Result c)) (cfg : Config sys) : Prop where
  valid : Valid spec cfg.trace
  store : cfg.store = last cfg.trace
  threads : ∀ e ∈ cfg.trace, e.thread < cfg.threads.length
  calls : ∀ i t, cfg.threads[i]? = some t →
    ∃ T, Others i T cfg.trace ∧ wp (safe spec i t.call) t.prog T t.log (post t.call i)

section Soundness

variable {spec : Spec sys}
  {post : (c : sys.Call) → Nat → Post sys (sys.Result c)} {cfg : Config sys}

theorem Sound.begin (h : Sound spec post cfg) (c : sys.Call)
    (code_ok : ∀ i c T, (∀ e ∈ T, e.thread ≠ i) → wp (safe spec i c) (sys.code c) T [] (post c i)) :
    Sound spec post (cfg.act (.begin c)) where
  valid := h.valid
  store := h.store
  threads e he := by
    have := h.threads e he
    simp only [Config.act, List.length_append, List.length_singleton]
    omega
  calls i t ht := by
    simp only [Config.act] at ht ⊢
    rcases Nat.lt_trichotomy i cfg.threads.length with old | new | none
    · rw [List.getElem?_append_left old] at ht
      exact h.calls i t ht
    · subst new
      simp only [List.getElem?_concat_length, Option.some.injEq] at ht
      subst ht
      refine ⟨cfg.trace, Others.refl _ _, code_ok _ c _ ?_⟩
      intro e he same
      have := h.threads e he
      omega
    · rw [List.getElem?_eq_none (by simp; omega)] at ht
      cases ht

/-- The other threads keep their guarantee when thread `i` takes a step. -/
theorem Sound.frame (h : Sound spec post cfg) {i : Nat} {t : Thread sys} {D : Trace sys}
    (own : ∀ e ∈ D, e.thread = i)
    (here : ∃ T, Others i T (cfg.trace ++ D) ∧ wp (safe spec i t.call) t.prog T t.log (post t.call i)) :
    ∀ j u, (cfg.threads.set i t)[j]? = some u →
      ∃ T, Others j T (cfg.trace ++ D) ∧ wp (safe spec j u.call) u.prog T u.log (post u.call j) := by
  intro j u hu
  rw [List.getElem?_set] at hu
  split at hu
  · rename_i same
    subst same
    split at hu
    · cases hu
      exact here
    · cases hu
  · rename_i other
    obtain ⟨T, hT, hw⟩ := h.calls j u hu
    refine ⟨T, hT.trans ⟨D, rfl, ?_⟩, hw⟩
    intro e he
    rw [own e he]
    exact other

theorem Sound.stepThread (h : Sound spec post cfg) (i : Nat) (oracle : Oracle I) :
    Sound spec post (cfg.stepThread i oracle) := by
  unfold Config.stepThread
  cases found : cfg.threads[i]? with
  | none => exact h
  | some t =>
    obtain ⟨T, hT, hw⟩ := h.calls i t found
    obtain ⟨c, L, prog⟩ := t
    cases prog with
    | ret a => exact h
    | fail e => exact h
    | ask q k =>
      simp only
      split
      · rename_i ok
        refine ⟨h.valid, h.store, by simpa using h.threads, ?_⟩
        have framed := h.frame (i := i) (D := []) (t := ⟨c, L ++ [⟨q, oracle L q⟩], k (oracle L q)⟩)
          (by simp) ⟨T, by simpa using hT, hw _ ⟨_, ok⟩⟩
        simpa using framed
      · exact h
    | atomic tx k =>
      simp only
      split
      · exact h
      · rename_i r log ran
        have meets := Dialogue.run_of_wp (fun L q a ha => ⟨_, ha⟩) (hw cfg.trace hT)
          (by rw [← h.store]; exact ran)
        have here : (safe spec i c).entry cfg.trace L log r =
            ⟨i, c, cfg.store, committed cfg.store r, L, log⟩ := by
          rw [h.store]; rfl
        rw [here] at meets
        refine ⟨h.valid.snoc h.store meets.1, by simp, ?_, ?_⟩
        · intro e he
          simp only [List.length_set]
          rcases List.mem_append.mp he with he | he
          · exact h.threads e he
          · rw [List.mem_singleton.mp he]
            exact (List.getElem?_eq_some_iff.mp found).1
        · refine h.frame (i := i) (t := ⟨c, log, k (outcome r)⟩) ?_ ⟨_, Others.refl _ _, meets.2⟩
          intro e he
          rw [List.mem_singleton.mp he]

theorem exec_sound
    (code_ok : ∀ i c T, (∀ e ∈ T, e.thread ≠ i) → wp (safe spec i c) (sys.code c) T [] (post c i))
    (schedule : List (Action sys)) : Sound spec post (exec sys schedule) := by
  suffices h : ∀ cfg, Sound spec post cfg → Sound spec post (schedule.foldl Config.act cfg) by
    refine h _ ⟨Valid.nil, rfl, by simp [Config.initial], ?_⟩
    intro i t ht
    simp [Config.initial] at ht
  induction schedule with
  | nil => exact fun _ h => h
  | cons a schedule ih =>
    intro cfg h
    refine ih _ ?_
    cases a with
    | begin c => exact h.begin c code_ok
    | step i oracle => exact h.stepThread i oracle

end Soundness

section Traces

variable {spec : Spec sys} {T T' : Trace sys}

theorem Valid.of_append {D : Trace sys} (h : Valid spec (T ++ D)) : Valid spec T := by
  induction D using List.reverseRecOn with
  | nil => simpa using h
  | append_singleton D e ih =>
    apply ih
    rw [← List.append_assoc] at h
    generalize T ++ D = U at h
    generalize hx : U ++ [e] = V at h
    cases h with
    | nil => simp at hx
    | snoc valid from_last meets =>
      obtain ⟨rfl, -⟩ := List.append_inj' hx rfl
      exact valid

theorem Valid.restrict (h : Valid spec T') (sub : T <+: T') : Valid spec T := by
  obtain ⟨D, rfl⟩ := sub
  exact h.of_append

theorem Valid.mono_at {spec' : Spec sys} (h : Valid spec T)
    (imp : ∀ A e B, T = A ++ e :: B → spec A e → spec' A e) : Valid spec' T := by
  induction h with
  | nil => exact .nil
  | snoc valid from_last meets ih =>
    rename_i U f
    refine .snoc (ih ?_) from_last (imp U f [] rfl meets)
    rintro A e B rfl
    exact imp A e (B ++ [f]) (by simp)

theorem Valid.mono {spec' : Spec sys} (h : Valid spec T)
    (imp : ∀ T e, spec T e → spec' T e) : Valid spec' T :=
  h.mono_at (fun A e _ _ => imp A e)

theorem Valid.snoc_inv {e : Entry sys} (h : Valid spec (T ++ [e])) :
    Valid spec T ∧ e.before = last T ∧ spec T e := by
  generalize hx : T ++ [e] = V at h
  cases h with
  | nil => simp at hx
  | snoc valid from_last meets =>
    obtain ⟨rfl, same⟩ := List.append_inj' hx rfl
    cases same
    exact ⟨valid, from_last, meets⟩

theorem Valid.mem {e : Entry sys} (h : Valid spec T) (he : e ∈ T) :
    ∃ U, U ++ [e] <+: T ∧ Valid spec U ∧ e.before = last U ∧ spec U e := by
  obtain ⟨U, D, rfl⟩ := List.append_of_mem he
  have sub : U ++ [e] <+: U ++ e :: D := ⟨D, by simp⟩
  exact ⟨U, sub, (h.restrict sub).snoc_inv⟩

/-- What every transaction keeps holds between any two points of a trace. -/
theorem Valid.evolves {R : S → S → Prop} (refl : ∀ s, R s s) (trans : ∀ s t u, R s t → R t u → R s u)
    (step : ∀ T e, Valid spec T → e.before = last T → spec T e → R e.before e.after)
    (h : Valid spec T') (sub : T <+: T') : R (last T) (last T') := by
  obtain ⟨D, rfl⟩ := sub
  induction D using List.reverseRecOn with
  | nil => simpa using refl _
  | append_singleton D e ih =>
    rw [← List.append_assoc] at h ⊢
    obtain ⟨valid, from_last, meets⟩ := h.snoc_inv
    have one := step _ e valid from_last meets
    rw [from_last] at one
    rw [last_append]
    exact trans _ _ _ (ih valid) one

theorem Valid.invariant {P : Trace sys → Prop} (start : P [])
    (step : ∀ T e, Valid spec T → P T → e.before = last T → spec T e → P (T ++ [e]))
    (h : Valid spec T) : P T := by
  induction h with
  | nil => exact start
  | snoc valid from_last meets ih => exact step _ _ valid ih from_last meets

/-- What fails at one point of a trace and holds at a later one begins to hold in some
transaction between them. -/
theorem Valid.crossing {P : S → Prop} (h : Valid spec T') (sub : T <+: T') (before : ¬ P (last T))
    (after : P (last T')) :
    ∃ U e D, T' = U ++ e :: D ∧ T <+: U ∧ e.before = last U ∧ spec U e ∧ ¬ P e.before ∧ P e.after := by
  obtain ⟨D, rfl⟩ := sub
  induction D using List.reverseRecOn with
  | nil => exact absurd (by simpa using after) before
  | append_singleton D e ih =>
    rw [← List.append_assoc] at h after ⊢
    obtain ⟨valid, from_last, meets⟩ := h.snoc_inv
    by_cases earlier : P (last (T ++ D))
    · obtain ⟨U, g, D', eq, rest⟩ := ih valid earlier
      exact ⟨U, g, D' ++ [e], by rw [eq]; simp, rest⟩
    · rw [last_append] at after
      exact ⟨T ++ D, e, [], rfl, List.prefix_append _ _, from_last, meets, by rwa [from_last], after⟩

/-- The store met `P` at some point, and no transaction since then was an `R`. -/
def Since (P : S → Prop) (R : Entry sys → Prop) (T : Trace sys) : Prop :=
  ∃ A B, T = A ++ B ∧ P (last A) ∧ ∀ e ∈ B, ¬ R e

variable {P : S → Prop} {R : Entry sys → Prop} {e : Entry sys}

theorem Since.here (h : P (last T)) : Since P R T := ⟨T, [], by simp, h, by simp⟩

theorem Since.snoc (h : Since P R T) (other : ¬ R e) : Since P R (T ++ [e]) := by
  obtain ⟨A, B, rfl, met, none⟩ := h
  refine ⟨A, B ++ [e], by simp, met, ?_⟩
  intro f hf
  rcases List.mem_append.mp hf with hf | hf
  · exact none f hf
  · rw [List.mem_singleton.mp hf]
    exact other

theorem Since.before (h : Since P R (T ++ [e])) (unmet : ¬ P e.after) : Since P R T := by
  obtain ⟨A, B, eq, met, none⟩ := h
  rcases List.eq_nil_or_concat B with rfl | ⟨B, f, rfl⟩
  · rw [List.append_nil] at eq
    rw [← eq, last_append] at met
    exact absurd met unmet
  · rw [List.concat_eq_append, ← List.append_assoc] at eq
    obtain ⟨rfl, -⟩ := List.append_inj' eq rfl
    exact ⟨A, B, rfl, met, fun f hf => none f (by simp [hf])⟩

end Traces

variable {spec : Spec sys} {a b : List (Action sys)} {e : Entry sys}

theorem Sound.ended {post : (c : sys.Call) → Nat → Post sys (sys.Result c)}
    {cfg : Config sys} (h : Sound spec post cfg) {i : Nat} {c : sys.Call} {L : Log I} {r : Except ε (sys.Result c)}
    (found : cfg.threads[i]? = some ⟨c, L, Prog.ofExcept r⟩) : ∃ T, Others i T cfg.trace ∧ post c i T L r := by
  obtain ⟨T, others, reached⟩ := h.calls i _ found
  exact ⟨T, others, (wp_ofExcept r).mp reached⟩

theorem exec_append (a b : List (Action sys)) :
    exec sys (a ++ b) = b.foldl Config.act (exec sys a) := by
  simp [exec]

theorem begin_threads (schedule : List (Action sys)) (c : sys.Call) :
    (exec sys (schedule ++ [.begin c])).threads = (exec sys schedule).threads ++ [⟨c, [], sys.code c⟩] := by
  rw [exec_append]
  rfl

theorem begun_thread (schedule : List (Action sys)) (c : sys.Call) :
    (exec sys (schedule ++ [.begin c])).threads[(exec sys schedule).threads.length]? =
      some ⟨c, [], sys.code c⟩ := by
  rw [begin_threads, List.getElem?_concat_length]

theorem begin_trace (schedule : List (Action sys)) (c : sys.Call) :
    (exec sys (schedule ++ [.begin c])).trace = (exec sys schedule).trace := by
  rw [exec_append]
  rfl

section Steps

variable {cfg : Config sys} {i j : Nat} {c : sys.Call} {L : Log I} {r : Except ε (sys.Result c)} {t : Thread sys}

theorem stepThread_trace (cfg : Config sys) (i : Nat) (oracle : Oracle I) :
    ∃ D, (cfg.stepThread i oracle).trace = cfg.trace ++ D ∧ ∀ e ∈ D, e.thread = i := by
  have none : ∃ D, cfg.trace = cfg.trace ++ D ∧ ∀ e ∈ D, e.thread = i := ⟨[], by simp⟩
  unfold Config.stepThread
  split
  · exact none
  · split
    · exact none
    · exact none
    · split <;> exact none
    · split
      · exact none
      · exact ⟨_, rfl, by simp⟩

theorem stepThread_other (oracle : Oracle I) (ne : j ≠ i) :
    (cfg.stepThread i oracle).threads[j]? = cfg.threads[j]? := by
  unfold Config.stepThread
  split
  · rfl
  · split
    · rfl
    · rfl
    · split
      · exact List.getElem?_set_ne (Ne.symm ne)
      · rfl
    · split
      · rfl
      · exact List.getElem?_set_ne (Ne.symm ne)

theorem begin_other (found : cfg.threads[j]? = some t) :
    (cfg.act (.begin c)).threads[j]? = some t :=
  (List.getElem?_append_left (List.getElem?_eq_some_iff.mp found).1).trans found

theorem stepThread_ended {oracle : Oracle I} (ended : cfg.threads[i]? = some ⟨c, L, Prog.ofExcept r⟩) :
    cfg.stepThread i oracle = cfg := by
  unfold Config.stepThread
  cases r <;> simp only [ended, Prog.ofExcept]

theorem act_ended (ended : cfg.threads[j]? = some ⟨c, L, Prog.ofExcept r⟩) (a : Action sys) :
    (cfg.act a).threads[j]? = some ⟨c, L, Prog.ofExcept r⟩ ∧ Others j cfg.trace (cfg.act a).trace := by
  cases a with
  | begin c' => exact ⟨begin_other ended, Others.refl _ _⟩
  | step i oracle =>
    change (cfg.stepThread i oracle).threads[j]? = _ ∧ Others j cfg.trace (cfg.stepThread i oracle).trace
    by_cases same : j = i
    · subst same
      rw [stepThread_ended ended]
      exact ⟨ended, Others.refl _ _⟩
    · obtain ⟨D, trace, own⟩ := stepThread_trace cfg i oracle
      refine ⟨(stepThread_other oracle same).trans ended, D, trace, ?_⟩
      intro e he
      rw [own e he]
      exact Ne.symm same

end Steps

theorem act_trace (cfg : Config sys) (a : Action sys) : cfg.trace <+: (cfg.act a).trace := by
  cases a with
  | begin c => exact List.prefix_refl _
  | step i oracle =>
    obtain ⟨D, trace, -⟩ := stepThread_trace cfg i oracle
    exact ⟨D, trace.symm⟩

theorem exec_trace (a b : List (Action sys)) : (exec sys a).trace <+: (exec sys (a ++ b)).trace := by
  rw [exec_append]
  generalize exec sys a = cfg
  induction b generalizing cfg with
  | nil => exact List.prefix_refl _
  | cons x b ih => exact (act_trace cfg x).trans (ih _)

theorem act_threads (cfg : Config sys) (a : Action sys) : cfg.threads.length ≤ (cfg.act a).threads.length := by
  cases a with
  | begin c => simp [Config.act]
  | step i oracle =>
    simp only [Config.act, Config.stepThread]
    split
    · exact Nat.le_refl _
    · split
      · exact Nat.le_refl _
      · exact Nat.le_refl _
      · split <;> simp
      · split <;> simp

theorem foldl_threads (later : List (Action sys)) (cfg : Config sys) :
    cfg.threads.length ≤ (later.foldl Config.act cfg).threads.length := by
  induction later generalizing cfg with
  | nil => exact Nat.le_refl _
  | cons a later ih => exact Nat.le_trans (act_threads cfg a) (ih _)

theorem exec_threads (a b : List (Action sys)) :
    (exec sys a).threads.length ≤ (exec sys (a ++ b)).threads.length := by
  rw [exec_append]
  exact foldl_threads b _

theorem Sound.precedes {post : (c : sys.Call) → Nat → Post sys (sys.Result c)}
    (start : Sound spec post (exec sys a)) {U C : Trace sys}
    (trace : (exec sys (a ++ b)).trace = U ++ e :: C) (new : (exec sys a).threads.length ≤ e.thread) :
    (exec sys a).trace <+: U := by
  have grown := exec_trace a b
  rw [trace] at grown
  have point : U ++ [e] <+: U ++ e :: C := ⟨C, by simp⟩
  have old : e ∉ (exec sys a).trace := fun he => absurd (start.threads e he) (Nat.not_lt.mpr new)
  rcases List.prefix_or_prefix_of_prefix grown point with before | after
  · rcases List.prefix_concat_iff.mp before with same | before
    · exact absurd (by rw [same]; simp) old
    · exact before
  · exact absurd (after.subset (by simp)) old

theorem Sound.later {post : (c : sys.Call) → Nat → Post sys (sys.Result c)} (start : Sound spec post (exec sys a))
    (h : Sound spec post (exec sys (a ++ b))) (he : e ∈ (exec sys (a ++ b)).trace)
    (new : (exec sys a).threads.length ≤ e.thread) :
    ∃ U, (exec sys a).trace <+: U ∧ Valid spec U ∧ e.before = last U ∧ spec U e := by
  obtain ⟨U, C, trace⟩ := List.append_of_mem he
  have sub : U ++ [e] <+: (exec sys (a ++ b)).trace := ⟨C, by rw [trace]; simp⟩
  exact ⟨U, start.precedes trace new, (h.valid.restrict sub).snoc_inv⟩

section Solo

/-- Answers that obey `rule`, no transaction of another call. -/
def alone (rule : Rule I) (i : Nat) (c : sys.Call) : Setting sys where
  thread := i
  call := c
  rule := rule
  others T T' := T' = T
  spec _ _ := True

variable {rule : Rule I} {oracle : Oracle I}

theorem Dialogue.wp_of_forall {α : Type} {d : Dialogue I α} {L : Log I} {Q : α → Log I → Prop}
    (h : ∀ a L, Q a L) : d.wp rule L Q := by
  induction d generalizing L with
  | done a => exact h a L
  | ask q k ih => exact fun a _ => ih a

theorem wp_of_forall {α : Type} {v : Setting sys} (spec : ∀ T e, e.call = v.call → v.spec T e) (p : Prog I S ε α)
    (T : Trace sys) (L : Log I) : wp v p T L (fun _ _ _ => True) := by
  induction p generalizing T L with
  | ret a => trivial
  | fail e => trivial
  | ask q k ih => exact fun a _ => ih a T _
  | atomic tx k ih =>
    intro T' _
    apply Dialogue.wp_of_forall
    intro r L'
    exact ⟨spec _ _ rfl, ih _ _ _⟩

theorem wp_alone_grows {α : Type} {i : Nat} {c : sys.Call} (p : Prog I S ε α) (T : Trace sys) (L : Log I) :
    wp (alone rule i c) p T L (fun T' _ _ => T <+: T') := by
  apply wp_grow
  · rintro _ _ rfl
    exact List.prefix_refl _
  · exact wp_mono (wp_of_forall (fun _ _ _ => trivial) p T L) (fun _ _ _ _ sub _ => sub)

inductive AnsweredBy (oracle : Oracle I) : Log I → Prop
  | nil : AnsweredBy oracle []
  | snoc {L : Log I} (answered : AnsweredBy oracle L) (q : I.Query) :
      AnsweredBy oracle (L ++ [⟨q, oracle L q⟩])

variable {α : Type} {i : Nat} {cfg : Config sys}

theorem run_total (allowed : Log I → (q : I.Query) → I.Answer q → Bool)
    (obeys : ∀ L q, AnsweredBy oracle L → rule L q (oracle L q))
    (d : Dialogue I α) (L : Log I) (Q : α → Log I → Prop) (answered : AnsweredBy oracle L)
    (admitted : ∀ L' q, L <+: L' → AnsweredBy oracle L' → allowed L' q (oracle L' q) = true)
    (h : d.wp rule L Q) :
    ∃ a L', d.run allowed oracle L = some (a, L') ∧ AnsweredBy oracle L' ∧ Q a L' := by
  induction d generalizing L with
  | done a => exact ⟨a, L, rfl, answered, h⟩
  | ask q k ih =>
    have here := admitted L q (List.prefix_refl L) answered
    obtain ⟨a, L', ran, answered', hQ⟩ := ih (oracle L q) _ (answered.snoc q)
      (fun L' q sub => admitted L' q ((List.prefix_append _ _).trans sub)) (h _ (obeys L q answered))
    exact ⟨a, L', by simp only [Dialogue.run, here, if_true, ran], answered', hQ⟩

/-- The oracle's answers are admitted to call `i`, given the logs of the others. -/
def Admits (sys : System I S ε) (oracle : Oracle I) (i : Nat) (logs : List (Log I)) : Prop :=
  ∀ L₀ L q, AnsweredBy oracle L₀ → L₀ <+: L → AnsweredBy oracle L →
    sys.admits (logs.set i L₀) L q (oracle L q) = true

theorem set_found {α : Type*} {l : List α} {a : α} (h : l[i]? = some a) : l = l.set i a := by
  obtain ⟨inside, rfl⟩ := List.getElem?_eq_some_iff.mp h
  exact (List.set_getElem_self inside).symm

theorem Config.logs_own {t : Thread sys} (found : cfg.threads[i]? = some t) :
    cfg.logs = cfg.logs.set i t.log := by
  apply set_found
  rw [Config.logs, List.getElem?_map, found]
  rfl

theorem Admits.kept (h : Admits sys oracle i cfg.logs) (t : Thread sys) (s : S)
    (T : Trace sys) : Admits sys oracle i (⟨s, cfg.threads.set i t, T⟩ : Config sys).logs := by
  intro L₀ L q
  rw [Config.logs, List.map_set, List.set_set]
  exact h L₀ L q

/-- A call that runs alone, with answers that obey the rule, finishes and meets its
postcondition; the other calls stay where they are. -/
theorem solo_run (obeys : ∀ L q, AnsweredBy oracle L → rule L q (oracle L q)) (i : Nat) (c : sys.Call)
    (p : Prog I S ε (sys.Result c)) (cfg : Config sys) (L : Log I) (Q : Post sys (sys.Result c))
    (admitted : Admits sys oracle i cfg.logs) (answered : AnsweredBy oracle L) (store : cfg.store = last cfg.trace)
    (found : cfg.threads[i]? = some ⟨c, L, p⟩) (h : wp (alone rule i c) p cfg.trace L Q) :
    ∃ n L' r, ((List.replicate n (Action.step i oracle)).foldl Config.act cfg).threads =
        cfg.threads.set i ⟨c, L', Prog.ofExcept r⟩ ∧ AnsweredBy oracle L' ∧
      Q ((List.replicate n (Action.step i oracle)).foldl Config.act cfg).trace L' r := by
  have bound := (List.getElem?_eq_some_iff.mp found).1
  induction p generalizing cfg L with
  | ret a => exact ⟨0, L, .ok a, set_found found, answered, h⟩
  | fail e => exact ⟨0, L, .error e, set_found found, answered, h⟩
  | ask q k ih =>
    have here := admitted L L q answered (List.prefix_refl L) answered
    rw [← Config.logs_own found] at here
    have next := Config.stepThread_ask found here
    obtain ⟨n, L', r, threads, rest⟩ := ih (oracle L q) (cfg.stepThread i oracle) (L ++ [⟨q, oracle L q⟩])
      (by rw [next]; exact admitted.kept _ _ _) (answered.snoc q) (by rw [next]; exact store)
      (by rw [next]; exact List.getElem?_set_self bound)
      (by rw [next]; exact h _ (obeys L q answered)) (by rw [next]; simpa using bound)
    rw [next, List.set_set, ← next] at threads
    exact ⟨n + 1, L', r, threads, rest⟩
  | atomic tx k ih =>
    have body := h cfg.trace rfl
    rw [← store] at body
    have during : ∀ L' q, L <+: L' → AnsweredBy oracle L' → sys.admits cfg.logs L' q (oracle L' q) = true := by
      intro L' q sub answered'
      rw [Config.logs_own found]
      exact admitted L L' q answered sub answered'
    obtain ⟨r, L', ran, answered', -, hk⟩ := run_total (sys.admits cfg.logs) obeys _ _ _ answered during body
    have here : (alone rule i c).entry cfg.trace L L' r =
        ⟨i, c, cfg.store, committed cfg.store r, L, L'⟩ := by
      rw [store]; rfl
    rw [here] at hk
    have next := Config.stepThread_atomic found ran
    obtain ⟨n, L'', r', threads, rest⟩ := ih (outcome r) (cfg.stepThread i oracle) L'
      (by rw [next]; exact admitted.kept _ _ _) answered'
      (by rw [next]; simp) (by rw [next]; exact List.getElem?_set_self bound)
      (by rw [next]; exact hk) (by rw [next]; simpa using bound)
    rw [next, List.set_set, ← next] at threads
    exact ⟨n + 1, L'', r', threads, rest⟩

theorem act_store (cfg : Config sys) (a : Action sys) (h : cfg.store = last cfg.trace) :
    (cfg.act a).store = last (cfg.act a).trace := by
  cases a with
  | begin c => exact h
  | step i oracle =>
    simp only [Config.act, Config.stepThread]
    split
    · exact h
    · split
      · exact h
      · exact h
      · split <;> exact h
      · split
        · exact h
        · simp

theorem exec_store (schedule : List (Action sys)) :
    (exec sys schedule).store = last (exec sys schedule).trace := by
  induction schedule using List.reverseRecOn with
  | nil => rfl
  | append_singleton schedule a ih =>
    rw [exec_append]
    exact act_store _ a ih

def thenAlone (schedule : List (Action sys)) (c : sys.Call) (n : Nat) (oracle : Oracle I) :
    List (Action sys) :=
  schedule ++ .begin c :: List.replicate n (.step (exec sys schedule).threads.length oracle)

theorem thenAlone_later (schedule : List (Action sys)) (c : sys.Call) (n : Nat) (oracle : Oracle I) :
    ∃ later, thenAlone schedule c n oracle = schedule ++ later := ⟨_, rfl⟩

theorem solo_call (obeys : ∀ L q, AnsweredBy oracle L → rule L q (oracle L q)) (schedule : List (Action sys))
    (admitted : Admits sys oracle (exec sys schedule).threads.length ((exec sys schedule).logs ++ [[]]))
    (c : sys.Call) (Q : Post sys (sys.Result c))
    (h : wp (alone rule (exec sys schedule).threads.length c) (sys.code c) (exec sys schedule).trace [] Q) :
    ∃ n L' r, (exec sys (thenAlone schedule c n oracle)).threads =
        (exec sys schedule).threads ++ [⟨c, L', Prog.ofExcept r⟩] ∧ AnsweredBy oracle L' ∧
      Q (exec sys (thenAlone schedule c n oracle)).trace L' r := by
  have logs : (exec sys (schedule ++ [.begin c])).logs = (exec sys schedule).logs ++ [[]] := by
    rw [Config.logs, begin_threads, List.map_append]
    rfl
  obtain ⟨n, L', r, threads, answered, post⟩ := solo_run obeys _ c _ (exec sys (schedule ++ [.begin c])) [] Q
    (logs ▸ admitted) .nil (exec_store _) (begun_thread schedule c) (begin_trace schedule c ▸ h)
  have whole : exec sys (thenAlone schedule c n oracle) = (List.replicate n _).foldl Config.act _ :=
    (congrArg (exec sys) (List.append_cons ..)).trans (exec_append _ _)
  rw [← whole] at threads post
  refine ⟨n, L', r, ?_, answered, post⟩
  rw [threads, begin_threads, List.set_append_right _ _ (Nat.le_refl _), Nat.sub_self]
  rfl

def Prog.returned : Prog I S ε α → Bool
  | .ret _ => true
  | _ => false

theorem step_call (cfg : Config sys) (i : Nat) (oracle : Oracle I) :
    (cfg.stepThread i oracle).threads.map Thread.call = cfg.threads.map Thread.call := by
  unfold Config.stepThread
  split
  · rfl
  · rename_i t found
    have kept : ∀ L p, (cfg.threads.set i ⟨t.call, L, p⟩).map Thread.call = cfg.threads.map Thread.call := by
      intro L p
      rw [List.map_set]
      exact (set_found (by rw [List.getElem?_map, found]; rfl)).symm
    split
    · rfl
    · rfl
    · split
      · exact kept _ _
      · rfl
    · split
      · rfl
      · exact kept _ _

theorem thenAlone_succ (c : sys.Call) (n : Nat) :
    thenAlone [] c (n + 1) oracle = thenAlone [] c n oracle ++ [Action.step 0 oracle] := by
  simp [thenAlone, List.replicate_succ', exec, Config.initial]

/-- Whether a call that ran alone has returned is seen from its program. -/
theorem thenAlone_returns {c : sys.Call} {n : Nat}
    (h : (exec sys (thenAlone [] c n oracle)).threads[0]?.any (fun t => t.prog.returned) = true) :
    ∃ L a, (exec sys (thenAlone [] c n oracle)).threads[0]? = some ⟨c, L, .ret a⟩ := by
  have call : (exec sys (thenAlone [] c n oracle)).threads.map Thread.call = [c] := by
    clear h
    induction n with
    | zero => rfl
    | succ n ih =>
      rw [thenAlone_succ, exec_append]
      exact (step_call _ 0 oracle).trans ih
  generalize (exec sys (thenAlone [] c n oracle)).threads = threads at h call ⊢
  obtain ⟨⟨_, L, p⟩, rfl, rfl⟩ := List.map_eq_singleton_iff.mp call
  cases p with
  | ret a => exact ⟨L, a, rfl⟩
  | _ => cases h

end Solo

end Interleaving
