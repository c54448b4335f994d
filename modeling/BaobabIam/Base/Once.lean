import BaobabIam.Base.Runs

/-! Things that happen once in a run. A slot of the store is created, spent and
dropped; when it is created at most once it is spent at most once, whatever drops
it and whenever. Values that the surroundings draw are never drawn twice, so what
is created under a drawn name is created once. -/
namespace Interleaving

variable {I : Interface} {S ε : Type} {sys : System I S ε}

def AtMostOnce (P : Entry sys → Prop) (T : Trace sys) : Prop := T.Pairwise (fun a b => P a → ¬ P b)

section Once

variable {P : Entry sys → Prop} {T : Trace sys}

theorem AtMostOnce.eq (h : AtMostOnce P T) {a b : Entry sys} (ha : a ∈ T) (hb : b ∈ T) (pa : P a) (pb : P b) :
    a = b := by
  induction T with
  | nil => cases ha
  | cons e T ih =>
    obtain ⟨first, rest⟩ := List.pairwise_cons.mp h
    rcases List.mem_cons.mp ha with rfl | inside
    · rcases List.mem_cons.mp hb with rfl | hb
      · rfl
      · exact absurd pb (first b hb pa)
    · rcases List.mem_cons.mp hb with rfl | hb
      · exact absurd pa (first a inside pb)
      · exact ih rest inside hb

theorem AtMostOnce.snoc {e : Entry sys} (h : AtMostOnce P T) (new : P e → ∀ a ∈ T, ¬ P a) :
    AtMostOnce P (T ++ [e]) := by
  apply List.pairwise_append.mpr
  refine ⟨h, List.pairwise_singleton _ _, ?_⟩
  intro a ha b hb pa pb
  rw [List.mem_singleton.mp hb] at pb
  exact new pb a ha pa

theorem AtMostOnce.restrict {T' : Trace sys} (h : AtMostOnce P T') (sub : T <+: T') : AtMostOnce P T :=
  List.Pairwise.sublist sub.sublist h

theorem AtMostOnce.last {e a : Entry sys} (h : AtMostOnce P (T ++ [e])) (ha : a ∈ T) (pa : P a) : ¬ P e :=
  (List.pairwise_append.mp h).2.2 a ha e (List.mem_singleton.mpr rfl) pa

end Once

section Own

variable {i : Nat} {P : Entry sys → Prop} {T T' : Trace sys}

def Own (i : Nat) (P : Entry sys → Prop) (T : Trace sys) : Prop := ∀ e ∈ T, e.thread = i → P e

theorem Own.start (clean : ∀ e ∈ T, e.thread ≠ i) : Own i P T :=
  fun e he mine => absurd mine (clean e he)

theorem Own.others (h : Own i P T) (others : Others i T T') : Own i P T' := by
  obtain ⟨D, rfl, foreign⟩ := others
  intro e he mine
  rcases List.mem_append.mp he with he | he
  · exact h e he mine
  · exact absurd mine (foreign e he)

theorem Own.snoc {e : Entry sys} (h : Own i P T) (here : P e) : Own i P (T ++ [e]) := by
  intro a ha mine
  rcases List.mem_append.mp ha with ha | ha
  · exact h a ha mine
  · rw [List.mem_singleton.mp ha]
    exact here

end Own

section Lifecycle

variable {spec : Spec sys} {T : Trace sys}

/-- A slot that is live from its creation until it is spent or dropped. -/
structure Lifecycle (spec : Spec sys) (live : S → Prop)
    (created spent : Entry sys → Prop) : Prop where
  start : ¬ live sys.init
  spends : ∀ T e, spec T e → spent e → live e.before ∧ ¬ live e.after
  appears : ∀ T e, spec T e → live e.after → live e.before ∨ created e

variable {live : S → Prop} {created spent : Entry sys → Prop}

/-- What is live was created, and what was spent does not come back. -/
theorem Lifecycle.history (h : Lifecycle spec live created spent) (valid : Valid spec T)
    (once : AtMostOnce created T) :
    AtMostOnce spent T ∧ (live (last T) → ∃ e ∈ T, created e) ∧
    ((∃ e ∈ T, spent e) → ¬ live (last T) ∧ ∃ e ∈ T, created e) := by
  induction valid with
  | nil => exact ⟨List.Pairwise.nil, fun alive => absurd alive h.start, by simp⟩
  | @snoc T e valid from_last meets ih =>
    obtain ⟨unique, born, ended⟩ := ih (once.restrict (List.prefix_append T [e]))
    have bornAfter : live (last T) ∨ created e → ∃ a ∈ T ++ [e], created a := by
      rintro (alive | here)
      · obtain ⟨a, ha, made⟩ := born alive
        exact ⟨a, List.mem_append_left _ ha, made⟩
      · exact ⟨e, by simp, here⟩
    rw [last_append]
    refine ⟨unique.snoc ?_, ?_, ?_⟩
    · intro here a ha gone
      have alive := (h.spends T e meets here).1
      rw [from_last] at alive
      exact (ended ⟨a, ha, gone⟩).1 alive
    · intro alive
      apply bornAfter
      rw [← from_last]
      exact h.appears T e meets alive
    · rintro ⟨a, ha, gone⟩
      rcases List.mem_append.mp ha with ha | ha
      · obtain ⟨dead, b, hb, made⟩ := ended ⟨a, ha, gone⟩
        refine ⟨?_, b, List.mem_append_left _ hb, made⟩
        intro alive
        rcases h.appears T e meets alive with alive | here
        · rw [from_last] at alive
          exact dead alive
        · exact once.last hb made here
      · rw [List.mem_singleton.mp ha] at gone
        obtain ⟨alive, dead⟩ := h.spends T e meets gone
        rw [from_last] at alive
        exact ⟨dead, bornAfter (.inl alive)⟩

theorem Lifecycle.once (h : Lifecycle spec live created spent) (valid : Valid spec T)
    (once : AtMostOnce created T) : AtMostOnce spent T := (h.history valid once).1

/-- What a call may do only after it has done something that happens once, and
does at most once itself, happens once. -/
theorem once_after {first second : Entry sys → Prop} (valid : Valid spec T)
    (needs : ∀ T e, spec T e → second e → ∃ a ∈ T, a.thread = e.thread ∧ first a)
    (own : ∀ T e, spec T e → second e → ∀ a ∈ T, a.thread = e.thread → ¬ second a)
    (once : AtMostOnce first T) : AtMostOnce second T := by
  induction valid with
  | nil => exact List.Pairwise.nil
  | @snoc T e valid from_last meets ih =>
    apply (ih (once.restrict (List.prefix_append T [e]))).snoc
    intro here a ha there
    obtain ⟨U, sub, -, -, met⟩ := valid.mem ha
    obtain ⟨b, hb, byA, didA⟩ := needs U a met there
    obtain ⟨c, hc, byE, didE⟩ := needs T e meets here
    have hb' : b ∈ T := ((List.prefix_append U [a]).trans sub).subset hb
    have same : b = c := once.eq (List.mem_append_left _ hb') (List.mem_append_left _ hc) didA didE
    apply own T e meets here a ha _ there
    rw [← byA, ← byE, same]

end Lifecycle

section Marks

variable {spec : Spec sys} {T : Trace sys} {mark : S → Prop} {P : Entry sys → Prop}

theorem once_marked (valid : Valid spec T) (sets : ∀ T e, spec T e → P e → ¬ mark e.before ∧ mark e.after)
    (stays : ∀ T e, spec T e → mark e.before → mark e.after) : AtMostOnce P T := by
  suffices h : AtMostOnce P T ∧ ∀ a ∈ T, P a → mark (last T) from h.1
  induction valid with
  | nil => exact ⟨List.Pairwise.nil, by simp⟩
  | @snoc T e valid from_last meets ih =>
    obtain ⟨once, marked⟩ := ih
    constructor
    · apply once.snoc
      intro here a ha there
      apply (sets T e meets here).1
      rw [from_last]
      exact marked a ha there
    · intro a ha there
      rw [last_append]
      rcases List.mem_append.mp ha with ha | ha
      · apply stays T e meets
        rw [from_last]
        exact marked a ha there
      · rw [List.mem_singleton.mp ha] at there
        exact (sets T e meets there).2

end Marks

section Draws

def draws {κ : Type} (key : (Σ q : I.Query, I.Answer q) → Option κ) (L : Log I) : List κ := L.filterMap key

variable {κ : Type} {key : (Σ q : I.Query, I.Answer q) → Option κ}

theorem draws_mono {L L' : Log I} (h : L <+: L') {k : κ} (hk : k ∈ draws key L) : k ∈ draws key L' := by
  obtain ⟨D, rfl⟩ := h
  unfold draws
  rw [List.filterMap_append]
  exact List.mem_append_left _ hk

theorem draws_snoc (L : Log I) (a : Σ q : I.Query, I.Answer q) :
    draws key (L ++ [a]) = draws key L ++ (key a).toList := by
  unfold draws
  rw [List.filterMap_append]
  cases drawn : key a <;> simp [drawn]

def FreshDraws (sys : System I S ε) (key : (Σ q : I.Query, I.Answer q) → Option κ) : Prop :=
  ∀ logs L q a, sys.admits logs L q a = true → ∀ k ∈ key ⟨q, a⟩, ∀ L' ∈ logs, k ∉ draws key L'

theorem run_draws {α : Type} {logs : List (Log I)} {oracle : Oracle I} (fresh : FreshDraws sys key)
    (d : Dialogue I α) {L L' : Log I} {a : α} (ran : d.run (sys.admits logs) oracle L = some (a, L')) :
    L <+: L' ∧ ∀ k ∈ draws key L', k ∈ draws key L ∨ ∀ other ∈ logs, k ∉ draws key other := by
  induction d generalizing L with
  | done b =>
    simp only [Dialogue.run, Option.some.injEq, Prod.mk.injEq] at ran
    rw [← ran.2]
    exact ⟨List.prefix_refl L, fun k hk => .inl hk⟩
  | ask q f ih =>
    unfold Dialogue.run at ran
    split at ran
    · rename_i admitted
      obtain ⟨grown, drawn⟩ := ih _ ran
      refine ⟨(List.prefix_append _ _).trans grown, ?_⟩
      intro k hk
      rcases drawn k hk with here | there
      · unfold draws at here ⊢
        rw [List.filterMap_append] at here
        rcases List.mem_append.mp here with old | new
        · exact .inl old
        · obtain ⟨answer, member, found⟩ := List.mem_filterMap.mp new
          rw [List.mem_singleton.mp member] at found
          exact .inr (fresh logs L q _ admitted k found)
      · exact .inr there
    · cases ran

/-- Every transaction belongs to the log of its call, and no value was drawn by
two calls. -/
structure Drawn (key : (Σ q : I.Query, I.Answer q) → Option κ) (cfg : Config sys) : Prop where
  logs : ∀ e ∈ cfg.trace, ∃ t, cfg.threads[e.thread]? = some t ∧ t.call = e.call ∧ e.start <+: e.finish ∧
    e.finish <+: t.log
  once : ∀ (i j : Nat) (t u : Thread sys), cfg.threads[i]? = some t → cfg.threads[j]? = some u →
    ∀ k ∈ draws key t.log, k ∈ draws key u.log → i = j

theorem Drawn.grow {cfg : Config sys} (h : Drawn key cfg) {i : Nat} {t w : Thread sys} {D : Trace sys}
    (found : cfg.threads[i]? = some t) (call : w.call = t.call) (grown : t.log <+: w.log)
    (drawn : ∀ k ∈ draws key w.log, k ∈ draws key t.log ∨ ∀ L ∈ cfg.logs, k ∉ draws key L)
    (own : ∀ e ∈ D, e.thread = i ∧ w.call = e.call ∧ e.start <+: e.finish ∧ e.finish <+: w.log) (s : S) :
    Drawn key (⟨s, cfg.threads.set i w, cfg.trace ++ D⟩ : Config sys) := by
  have bound := (List.getElem?_eq_some_iff.mp found).1
  have known : ∀ (j : Nat) (u : Thread sys), cfg.threads[j]? = some u → u.log ∈ cfg.logs := by
    intro j u hu
    exact List.mem_map.mpr ⟨u, List.mem_of_getElem? hu, rfl⟩
  have cases_ : ∀ (j : Nat) (u : Thread sys), (cfg.threads.set i w)[j]? = some u →
      (j = i ∧ u = w) ∨ (j ≠ i ∧ cfg.threads[j]? = some u) := by
    intro j u hu
    by_cases same : j = i
    · subst same
      rw [List.getElem?_set_self bound] at hu
      exact .inl ⟨rfl, (Option.some.inj hu).symm⟩
    · rw [List.getElem?_set_ne (Ne.symm same)] at hu
      exact .inr ⟨same, hu⟩
  constructor
  · intro e he
    rcases List.mem_append.mp he with he | he
    · obtain ⟨u, at_, same, started, finished⟩ := h.logs e he
      by_cases mine : e.thread = i
      · rw [mine, found] at at_
        cases at_
        exact ⟨w, by rw [mine]; exact List.getElem?_set_self bound, call.trans same, started, finished.trans grown⟩
      · exact ⟨u, by rw [List.getElem?_set_ne (Ne.symm mine)]; exact at_, same, started, finished⟩
    · obtain ⟨mine, same, started, finished⟩ := own e he
      exact ⟨w, by rw [mine]; exact List.getElem?_set_self bound, same, started, finished⟩
  · intro j l u v hu hv k hk hk'
    rcases cases_ j u hu with ⟨rfl, rfl⟩ | ⟨-, mine⟩
    · rcases cases_ l v hv with ⟨rfl, rfl⟩ | ⟨-, theirs⟩
      · rfl
      · rcases drawn k hk with old | new
        · exact h.once j l t v found theirs k old hk'
        · exact absurd hk' (new _ (known l v theirs))
    · rcases cases_ l v hv with ⟨rfl, rfl⟩ | ⟨-, theirs⟩
      · rcases drawn k hk' with old | new
        · exact h.once j l u t mine found k hk old
        · exact absurd hk (new _ (known j u mine))
      · exact h.once j l u v mine theirs k hk hk'

theorem exec_drawn (fresh : FreshDraws sys key) (schedule : List (Action sys)) : Drawn key (exec sys schedule) := by
  induction schedule using List.reverseRecOn with
  | nil => exact ⟨by simp [exec, Config.initial], by simp [exec, Config.initial]⟩
  | append_singleton schedule a ih =>
    rw [exec_append]
    generalize exec sys schedule = cfg at ih
    change Drawn key (cfg.act a)
    cases a with
    | begin c =>
      have cases_ : ∀ (j : Nat) (u : Thread sys),
          (cfg.threads ++ [(⟨c, [], sys.code c⟩ : Thread sys)])[j]? = some u →
          cfg.threads[j]? = some u ∨ u.log = [] := by
        intro j u hu
        by_cases inside : j < cfg.threads.length
        · rw [List.getElem?_append_left inside] at hu
          exact .inl hu
        · rw [List.getElem?_append_right (by omega)] at hu
          exact .inr (by rw [List.mem_singleton.mp (List.mem_of_getElem? hu)])
      constructor
      · intro e he
        obtain ⟨t, found, rest⟩ := ih.logs e he
        have bound := (List.getElem?_eq_some_iff.mp found).1
        exact ⟨t, (List.getElem?_append_left bound).trans found, rest⟩
      · intro i j t u ht hu k hk hk'
        rcases cases_ i t ht with ht | none
        · rcases cases_ j u hu with hu | none
          · exact ih.once i j t u ht hu k hk hk'
          · rw [none] at hk'
            cases hk'
        · rw [none] at hk
          cases hk
    | step i oracle =>
      change Drawn key (cfg.stepThread i oracle)
      unfold Config.stepThread
      cases found : cfg.threads[i]? with
      | none => exact ih
      | some t =>
        obtain ⟨c, L, prog⟩ := t
        cases prog with
        | ret b => exact ih
        | fail e => exact ih
        | ask q f =>
          simp only
          split
          · rename_i admitted
            have grown := ih.grow (w := ⟨c, L ++ [⟨q, oracle L q⟩], f (oracle L q)⟩) (D := []) found rfl
              (List.prefix_append _ _) ?_ (by simp) cfg.store
            · simpa using grown
            · intro k hk
              unfold draws at hk ⊢
              rw [List.filterMap_append] at hk
              rcases List.mem_append.mp hk with old | new
              · exact .inl old
              · obtain ⟨answer, member, drawn⟩ := List.mem_filterMap.mp new
                rw [List.mem_singleton.mp member] at drawn
                exact .inr (fresh cfg.logs L q _ admitted k drawn)
          · exact ih
        | atomic tx f =>
          simp only
          split
          · exact ih
          · rename_i r log ran
            obtain ⟨grown, drawn⟩ := run_draws fresh _ ran
            apply ih.grow (w := ⟨c, log, f (outcome r)⟩) found rfl grown drawn
            intro e he
            rw [List.mem_singleton.mp he]
            exact ⟨rfl, rfl, grown, List.prefix_refl _⟩

theorem Drawn.same_thread {cfg : Config sys} (h : Drawn key cfg) {a e : Entry sys} (ha : a ∈ cfg.trace)
    (he : e ∈ cfg.trace) {k : κ} (mine : k ∈ draws key a.start) (theirs : k ∈ draws key e.start) :
    a.thread = e.thread := by
  obtain ⟨t, found, -, started, finished⟩ := h.logs a ha
  obtain ⟨u, found', -, started', finished'⟩ := h.logs e he
  exact h.once _ _ t u found found' k (draws_mono (started.trans finished) mine)
    (draws_mono (started'.trans finished') theirs)

/-- What only the call that has drawn `k` does, and only once, happens once. -/
theorem Drawn.happens_once {cfg : Config sys} (h : Drawn key cfg) {spec : Spec sys} (valid : Valid spec cfg.trace)
    {P : Entry sys → Prop} {k : κ} (owns : ∀ U e, spec U e → P e → k ∈ draws key e.start ∧
      ∀ a ∈ U, a.thread = e.thread → P a → k ∉ draws key a.start) : AtMostOnce P cfg.trace := by
  suffices all : ∀ {T}, Valid spec T → T ⊆ cfg.trace → AtMostOnce P T from all valid (fun _ => id)
  intro T valid sub
  induction valid with
  | nil => exact List.Pairwise.nil
  | @snoc T e valid from_last meets ih =>
    apply (ih (fun a ha => sub (List.mem_append_left _ ha))).snoc
    intro here a ha there
    obtain ⟨mine, first⟩ := owns T e meets here
    obtain ⟨U, -, -, -, met⟩ := valid.mem ha
    have theirs := (owns U a met there).1
    have same := h.same_thread (sub (List.mem_append_left _ ha)) (sub List.mem_concat_self) theirs mine
    exact first a ha same there theirs

/-- The call of a transaction has begun, and what it was answered stays in its log. -/
theorem exec_entries (schedule : List (Action sys)) : ∀ e ∈ (exec sys schedule).trace,
    ∃ t, (exec sys schedule).threads[e.thread]? = some t ∧ t.call = e.call ∧ e.start <+: e.finish ∧
      e.finish <+: t.log := by
  have fresh : FreshDraws sys (fun _ => (none : Option Unit)) := by
    rintro logs L q a - k ⟨⟩
  exact (exec_drawn fresh schedule).logs

end Draws

end Interleaving
