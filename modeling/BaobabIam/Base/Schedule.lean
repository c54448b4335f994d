import BaobabIam.Base.Program

/-! Runs of any number of calls on one store. A schedule is a list of actions:
a call begins, or one call takes its next step, which is one answer or one whole
transaction. The trace of a run is the list of its transactions. `wp` says what
one call guarantees about each of its transactions, given the trace so far, and
about its result; `run_sound` carries that to every run. -/
namespace Interleaving

variable {I : Interface} {S ε : Type}

structure System (I : Interface) (S ε : Type) where
  Call : Type
  Result : Call → Type
  code : (c : Call) → Prog I S ε (Result c)
  init : S
  /-- The answers a call may get, given the logs of all calls and its own. -/
  admits : List (Log I) → Log I → (q : I.Query) → I.Answer q → Bool

/-- A transaction that ran, with the log of its call before and after it. -/
structure Entry (sys : System I S ε) where
  thread : Nat
  call : sys.Call
  before : S
  after : S
  start : Log I
  finish : Log I

abbrev Trace (sys : System I S ε) := List (Entry sys)

/-- What an entry may be, given the trace before it. -/
abbrev Spec (sys : System I S ε) := Trace sys → Entry sys → Prop

structure Thread (sys : System I S ε) where
  call : sys.Call
  log : Log I
  prog : Prog I S ε (sys.Result call)

structure Config (sys : System I S ε) where
  store : S
  threads : List (Thread sys)
  trace : Trace sys

abbrev Oracle (I : Interface) := Log I → (q : I.Query) → I.Answer q

inductive Action (sys : System I S ε) where
  | begin (c : sys.Call)
  | step (i : Nat) (oracle : Oracle I)

/-- What a transaction hands to its program, and the store it leaves. -/
def outcome {β : Type} : Except ε (β × S) → Except ε β
  | .ok p => .ok p.1
  | .error e => .error e

def committed {β : Type} (s : S) : Except ε (β × S) → S
  | .ok p => p.2
  | .error _ => s

@[simp] theorem committed_ok {β : Type} (s : S) (p : β × S) :
    committed s (.ok p : Except ε (β × S)) = p.2 := rfl
@[simp] theorem committed_error {β : Type} (s : S) (e : ε) :
    committed s (.error e : Except ε (β × S)) = s := rfl

variable {sys : System I S ε}

namespace Config

def initial (sys : System I S ε) : Config sys := ⟨sys.init, [], []⟩

def logs (cfg : Config sys) : List (Log I) := cfg.threads.map Thread.log

/-- One step of thread `i`; nothing happens when an answer is not admitted. -/
def stepThread (cfg : Config sys) (i : Nat) (oracle : Oracle I) : Config sys :=
  match cfg.threads[i]? with
  | none => cfg
  | some t =>
    match t.prog with
    | .ret _ => cfg
    | .fail _ => cfg
    | .ask q k =>
      if sys.admits cfg.logs t.log q (oracle t.log q) then
        { cfg with threads :=
            cfg.threads.set i ⟨t.call, t.log ++ [⟨q, oracle t.log q⟩], k (oracle t.log q)⟩ }
      else cfg
    | .atomic tx k =>
      match (tx cfg.store).run (sys.admits cfg.logs) oracle t.log with
      | none => cfg
      | some (r, log) =>
        { store := committed cfg.store r
          threads := cfg.threads.set i ⟨t.call, log, k (outcome r)⟩
          trace := cfg.trace ++ [⟨i, t.call, cfg.store, committed cfg.store r, t.log, log⟩] }

variable {cfg : Config sys} {i : Nat} {oracle : Oracle I} {c : sys.Call} {L : Log I}

theorem stepThread_ask
    {q : I.Query} {k : I.Answer q → Prog I S ε (sys.Result c)}
    (found : cfg.threads[i]? = some ⟨c, L, .ask q k⟩)
    (admitted : sys.admits cfg.logs L q (oracle L q) = true) :
    cfg.stepThread i oracle =
      { cfg with threads := cfg.threads.set i ⟨c, L ++ [⟨q, oracle L q⟩], k (oracle L q)⟩ } := by
  simp only [stepThread, found, admitted, if_true]

theorem stepThread_atomic
    {β : Type} {tx : Tx I S ε β} {k : Except ε β → Prog I S ε (sys.Result c)}
    {r : Except ε (β × S)} {log : Log I} (found : cfg.threads[i]? = some ⟨c, L, .atomic tx k⟩)
    (ran : (tx cfg.store).run (sys.admits cfg.logs) oracle L = some (r, log)) :
    cfg.stepThread i oracle =
      { store := committed cfg.store r
        threads := cfg.threads.set i ⟨c, log, k (outcome r)⟩
        trace := cfg.trace ++ [⟨i, c, cfg.store, committed cfg.store r, L, log⟩] } := by
  simp only [stepThread, found, ran]

def act (cfg : Config sys) : Action sys → Config sys
  | .begin c => { cfg with threads := cfg.threads ++ [⟨c, [], sys.code c⟩] }
  | .step i oracle => cfg.stepThread i oracle

end Config

def exec (sys : System I S ε) (schedule : List (Action sys)) : Config sys :=
  schedule.foldl Config.act (Config.initial sys)

def last (trace : Trace sys) : S :=
  match trace.getLast? with
  | some e => e.after
  | none => sys.init

@[simp] theorem last_nil : last ([] : Trace sys) = sys.init := rfl
@[simp] theorem last_append (T : Trace sys) (e : Entry sys) : last (T ++ [e]) = e.after := by
  simp [last]

def Others (i : Nat) (T T' : Trace sys) : Prop := ∃ D, T' = T ++ D ∧ ∀ e ∈ D, e.thread ≠ i

theorem Others.refl (i : Nat) (T : Trace sys) : Others i T T := ⟨[], by simp⟩

variable {i : Nat} {T T' : Trace sys}

theorem Others.trans {T'' : Trace sys} (h : Others i T T')
    (h' : Others i T' T'') : Others i T T'' := by
  obtain ⟨D, rfl, hD⟩ := h
  obtain ⟨D', rfl, hD'⟩ := h'
  refine ⟨D ++ D', by simp, ?_⟩
  intro e he
  rcases List.mem_append.mp he with he | he
  · exact hD e he
  · exact hD' e he

theorem Others.sub (h : Others i T T') : T <+: T' := by
  obtain ⟨D, rfl, -⟩ := h
  exact List.prefix_append T D

theorem Others.mem (h : Others i T T') {e : Entry sys}
    (he : e ∈ T) : e ∈ T' := h.sub.subset he

/-- A call's last transaction is at one place. -/
theorem Others.unique {X : Trace sys} (h : Others i T X) (h' : Others i T' X)
    (mine : T.getLast?.map Entry.thread = some i) (mine' : T'.getLast?.map Entry.thread = some i) : T = T' := by
  have shorter : ∀ {T T' : Trace sys}, Others i T X → T' <+: X → T'.getLast?.map Entry.thread = some i →
      T <+: T' → T = T' := by
    rintro T T' ⟨D, rfl, others⟩ sub mine ⟨E, rfl⟩
    rw [List.prefix_append_right_inj] at sub
    rcases List.eq_nil_or_concat E with rfl | ⟨E, e, rfl⟩
    · simp
    · rw [List.concat_eq_append, ← List.append_assoc, List.getLast?_concat] at mine
      exact absurd (Option.some.inj mine) (others e (sub.subset (by simp)))
  rcases List.prefix_or_prefix_of_prefix h.sub h'.sub with sub | sub
  · exact shorter h h'.sub mine' sub
  · exact (shorter h' h.sub mine sub).symm

/-- What a call relies on, and what each of its transactions has to satisfy. -/
structure Setting (sys : System I S ε) where
  thread : Nat
  call : sys.Call
  rule : Rule I
  others : Trace sys → Trace sys → Prop
  spec : Spec sys

variable {α β : Type}

abbrev Post (sys : System I S ε) (α : Type) := Trace sys → Log I → Except ε α → Prop

def Setting.entry (v : Setting sys) (T : Trace sys) (L L' : Log I) (r : Except ε (β × S)) :
    Entry sys := ⟨v.thread, v.call, last T, committed (last T) r, L, L'⟩

@[simp] theorem Setting.entry_after (v : Setting sys) (T : Trace sys) (L L' : Log I)
    (r : Except ε (β × S)) : (v.entry T L L' r).after = committed (last T) r := rfl

def wp (v : Setting sys) : Prog I S ε α → Trace sys → Log I → Post sys α → Prop
  | .ret a, T, L, Q => Q T L (.ok a)
  | .fail e, T, L, Q => Q T L (.error e)
  | .ask q k, T, L, Q => ∀ a, v.rule L q a → wp v (k a) T (L ++ [⟨q, a⟩]) Q
  | .atomic tx k, T, L, Q => ∀ T', v.others T T' →
      tx.wp v.rule (last T') L (fun r L' =>
        v.spec T' (v.entry T' L L' r) ∧ wp v (k (outcome r)) (T' ++ [v.entry T' L L' r]) L' Q)

/-- The postcondition of the first part of a program, errors handed on. -/
def andThen (v : Setting sys) (f : α → Prog I S ε β) (Q : Post sys β) : Post sys α := fun T L r =>
  match r with
  | .ok a => wp v (f a) T L Q
  | .error e => Q T L (.error e)

@[simp] theorem andThen_ok (v : Setting sys) (f : α → Prog I S ε β) (Q : Post sys β)
    (T : Trace sys) (L : Log I) (a : α) :
    andThen v f Q T L (.ok a) ↔ wp v (f a) T L Q := Iff.rfl

section Rules

variable {v : Setting sys} {T : Trace sys} {L : Log I} {Q R : Post sys α}

variable {p : Prog I S ε α}

theorem wp_mono (h : wp v p T L Q) (imp : ∀ T L r, Q T L r → R T L r) :
    wp v p T L R := by
  induction p generalizing T L with
  | ret a => exact imp _ _ _ h
  | fail e => exact imp _ _ _ h
  | ask q k ih => exact fun a ha => ih a (h a ha)
  | atomic tx k ih =>
    intro T' hT'
    exact Tx.wp_mono (h T' hT') (fun r L' hr => ⟨hr.1, ih _ hr.2⟩)

theorem wp_grow (grows : ∀ T T', v.others T T' → T <+: T')
    (h : wp v p T L (fun T' L' r => T <+: T' → L <+: L' → Q T' L' r)) : wp v p T L Q := by
  induction p generalizing T L with
  | ret a => exact h (List.prefix_refl T) (List.prefix_refl L)
  | fail e => exact h (List.prefix_refl T) (List.prefix_refl L)
  | ask q k ih =>
    intro a ha
    refine ih a (wp_mono (h a ha) ?_)
    intro T' L' r imp hT hL
    exact imp hT ((List.prefix_append _ _).trans hL)
  | atomic tx k ih =>
    intro T' hT'
    refine Dialogue.wp_grow (Dialogue.wp_mono (h T' hT') ?_)
    intro r L' hr hL
    refine ⟨hr.1, ih _ (wp_mono hr.2 ?_)⟩
    intro T'' L'' x imp hT'' hL''
    exact imp (((grows T T' hT').trans (List.prefix_append _ _)).trans hT'') (hL.trans hL'')

/-- A program meets what follows from the specification that its transactions meet. -/
theorem wp_respec {spec : Spec sys}
    (imp : ∀ T e, e.call = v.call → v.spec T e → spec T e)
    (h : wp v p T L Q) : wp { v with spec := spec } p T L Q := by
  induction p generalizing T L with
  | ret a => exact h
  | fail e => exact h
  | ask q k ih => exact fun a ha => ih a (h a ha)
  | atomic tx k ih =>
    intro T' hT'
    exact Tx.wp_mono (h T' hT') (fun r L' hr => ⟨imp T' _ rfl hr.1, ih _ hr.2⟩)

theorem wp_answers {P : (Σ q : I.Query, I.Answer q) → Prop} (each : ∀ L q a, v.rule L q a → P ⟨q, a⟩)
    (start : ∀ x ∈ L, P x) (h : wp v p T L Q) : wp v p T L (fun T L r => Q T L r ∧ ∀ x ∈ L, P x) := by
  induction p generalizing T L with
  | ret a => exact ⟨h, start⟩
  | fail e => exact ⟨h, start⟩
  | ask q k ih =>
    intro a ha
    apply ih a _ (h a ha)
    intro x hx
    rcases List.mem_append.mp hx with hx | hx
    · exact start x hx
    · rw [List.mem_singleton.mp hx]
      exact each L q a ha
  | atomic tx k ih =>
    intro T' hT'
    apply Dialogue.wp_mono (Dialogue.wp_answers each start (h T' hT'))
    rintro r L' ⟨⟨meets, rest⟩, all⟩
    exact ⟨meets, ih _ all rest⟩

theorem wp_bind {Q : Post sys β} (p : Prog I S ε α) (f : α → Prog I S ε β) :
    wp v (p >>= f) T L Q ↔ wp v p T L (andThen v f Q) := by
  change wp v (p.bind f) T L Q ↔ _
  induction p generalizing T L with
  | ret a => exact Iff.rfl
  | fail e => exact Iff.rfl
  | ask q k ih => exact forall_congr' (fun a => imp_congr_right (fun _ => ih a))
  | atomic tx k ih =>
    constructor
    · intro h T' hT'
      exact Tx.wp_mono (h T' hT') (fun r L' hr => ⟨hr.1, (ih _).mp hr.2⟩)
    · intro h T' hT'
      exact Tx.wp_mono (h T' hT') (fun r L' hr => ⟨hr.1, (ih _).mpr hr.2⟩)

theorem wp_attempt {Q : Post sys (Except ε α)} (p : Prog I S ε α) :
    wp v p.attempt T L Q ↔ wp v p T L (fun T L r => Q T L (.ok r)) := by
  induction p generalizing T L with
  | ret a => exact Iff.rfl
  | fail e => exact Iff.rfl
  | ask q k ih => exact forall_congr' (fun a => imp_congr_right (fun _ => ih a))
  | atomic tx k ih =>
    constructor
    · intro h T' hT'
      exact Tx.wp_mono (h T' hT') (fun r L' hr => ⟨hr.1, (ih _).mp hr.2⟩)
    · intro h T' hT'
      exact Tx.wp_mono (h T' hT') (fun r L' hr => ⟨hr.1, (ih _).mpr hr.2⟩)

@[simp] theorem wp_pure (a : α) : wp v (pure a) T L Q ↔ Q T L (.ok a) := Iff.rfl
@[simp] theorem wp_fail (e : ε) : wp v (.fail e) T L Q ↔ Q T L (.error e) := Iff.rfl

theorem wp_require {Q : Post sys Unit} (c : Bool) (e : ε) :
    wp v (Prog.require c e) T L Q ↔
      (c = true → Q T L (.ok ())) ∧ (c = false → Q T L (.error e)) := by
  cases c
  · simp [Prog.require]
  · simp [Prog.require, wp]

theorem wp_when {Q : Post sys Unit} (c : Bool) (p : Prog I S ε Unit) :
    wp v (Prog.when c p) T L Q ↔ (c = true → wp v p T L Q) ∧ (c = false → Q T L (.ok ())) := by
  cases c
  · simp [Prog.when, wp]
  · simp [Prog.when]

theorem wp_ofExcept (r : Except ε α) : wp v (Prog.ofExcept r) T L Q ↔ Q T L r := by
  cases r <;> exact Iff.rfl

end Rules

def Quiet (Q : Post sys α) : Prop := ∀ T L e, Q T L (.error e)

section QuietRules

/- Rules for the first step of a program whose failures need no attention. -/
variable {v : Setting sys} {T : Trace sys} {L : Log I} {Q : Post sys β}

variable {f : α → Prog I S ε β} {c : Bool} {e : ε} {r : Except ε α}

theorem Quiet.andThen (quiet : Quiet Q) : Quiet (andThen v f Q) :=
  fun T L e => quiet T L e

theorem wp_then {p : Prog I S ε α} (h : wp v p T L (andThen v f Q)) :
    wp v (p >>= f) T L Q := (wp_bind p f).mpr h

theorem wp_require_then {f : Unit → Prog I S ε β} (quiet : Quiet Q)
    (h : c = true → wp v (f ()) T L Q) : wp v (Prog.require c e >>= f) T L Q :=
  wp_then ((wp_require c e).mpr ⟨h, fun _ => quiet _ _ _⟩)

theorem wp_require_pass {f : Unit → Prog I S ε β} (holds : c = true)
    (h : wp v (f ()) T L Q) : wp v (Prog.require c e >>= f) T L Q := by
  subst holds
  exact h

theorem wp_question_then {q : I.Query} {f : I.Answer q → Prog I S ε β}
    (h : ∀ a, v.rule L q a → wp v (f a) T (L ++ [⟨q, a⟩]) Q) :
    wp v (Prog.question q >>= f) T L Q := wp_then h

theorem wp_ofExcept_then (quiet : Quiet Q)
    (h : ∀ a, r = .ok a → wp v (f a) T L Q) : wp v (Prog.ofExcept r >>= f) T L Q := by
  refine wp_then ((wp_ofExcept r).mpr ?_)
  cases r with
  | ok a => exact h a rfl
  | error e => exact quiet _ _ _

theorem wp_ofExcept_pass {a : α} (holds : r = .ok a) (h : wp v (f a) T L Q) :
    wp v (Prog.ofExcept r >>= f) T L Q := by
  subst holds
  exact h

theorem wp_mapError_then {ε' : Type} {g : ε' → ε} {r : Except ε' α} (quiet : Quiet Q)
    (h : ∀ a, r = .ok a → wp v (f a) T L Q) : wp v (Prog.ofExcept (r.mapError g) >>= f) T L Q :=
  wp_ofExcept_then quiet fun a eq => h a (mapError_eq_ok eq)

theorem wp_mapError_pass {ε' : Type} {g : ε' → ε} {r : Except ε' α} {a : α} (holds : r = .ok a)
    (h : wp v (f a) T L Q) : wp v (Prog.ofExcept (r.mapError g) >>= f) T L Q :=
  wp_ofExcept_pass (by rw [holds]; rfl) h

theorem wp_when_then {p : Prog I S ε Unit} {f : Unit → Prog I S ε β}
    (yes : c = true → wp v p T L (andThen v f Q)) (no : c = false → wp v (f ()) T L Q) :
    wp v (Prog.when c p >>= f) T L Q := wp_then ((wp_when c p).mpr ⟨yes, no⟩)

end QuietRules

section KeptRules

/- Rules for programs that may stop anywhere, as long as something is kept. -/
variable {K : Trace sys → Log I → Prop} {v : Setting sys} {T : Trace sys} {L : Log I}
  {Q : Post sys β}

/-- A postcondition that every failure meets while `K` holds. -/
def Stops (K : Trace sys → Log I → Prop) (Q : Post sys α) : Prop := ∀ T L e, K T L → Q T L (.error e)

theorem Stops.andThen {f : α → Prog I S ε β} (stops : Stops K Q) : Stops K (andThen v f Q) :=
  fun T L e kept => stops T L e kept

theorem wp_require_kept {c : Bool} {e : ε} {f : Unit → Prog I S ε β} (stops : Stops K Q) (kept : K T L)
    (h : c = true → wp v (f ()) T L Q) : wp v (Prog.require c e >>= f) T L Q :=
  wp_then ((wp_require c e).mpr ⟨h, fun _ => stops _ _ _ kept⟩)

theorem wp_ofExcept_kept {r : Except ε α} {f : α → Prog I S ε β} (stops : Stops K Q) (kept : K T L)
    (h : ∀ a, r = .ok a → wp v (f a) T L Q) : wp v (Prog.ofExcept r >>= f) T L Q := by
  apply wp_then
  apply (wp_ofExcept r).mpr
  cases r with
  | ok a => exact h a rfl
  | error e => exact stops _ _ _ kept

end KeptRules

end Interleaving
