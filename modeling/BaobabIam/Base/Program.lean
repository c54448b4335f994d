import Mathlib.Data.List.Basic

/-! Programs that share one store. A program asks its surroundings questions
(clock readings, answers of other services) and runs transactions on the store;
a transaction may ask as well, and leaves no trace when it fails. Programs are
trees, so every question and every transaction is a place where other programs
may run. The predicate transformers say what holds whatever the answers are. -/
namespace Interleaving

/-- The questions that can be asked, each with the type of its answers. -/
structure Interface where
  Query : Type
  Answer : Query → Type

/-- The answers that one call received, the oldest first. -/
abbrev Log (I : Interface) := List (Σ q : I.Query, I.Answer q)

abbrev Rule (I : Interface) := Log I → (q : I.Query) → I.Answer q → Prop

inductive Dialogue (I : Interface) (α : Type) where
  | done (a : α)
  | ask (q : I.Query) (k : I.Answer q → Dialogue I α)

variable {I : Interface} {S ε α β : Type}

theorem mapError_eq_ok {ε' : Type} {f : ε → ε'} {r : Except ε α} {a : α}
    (h : r.mapError f = .ok a) : r = .ok a := by
  cases r with
  | ok b => cases h; rfl
  | error e => cases h

theorem elim_eq_ok {o : Option α} {e : ε} {a : α} (h : o.elim (Except.error e) Except.ok = .ok a) : o = some a := by
  cases o with
  | none => cases h
  | some b => cases h; rfl

namespace Dialogue

def bind : Dialogue I α → (α → Dialogue I β) → Dialogue I β
  | .done a, f => f a
  | .ask q k, f => .ask q (fun a => (k a).bind f)

def wp (rule : Rule I) : Dialogue I α → Log I → (α → Log I → Prop) → Prop
  | .done a, L, Q => Q a L
  | .ask q k, L, Q => ∀ a, rule L q a → (k a).wp rule (L ++ [⟨q, a⟩]) Q

theorem wp_bind (rule : Rule I) (d : Dialogue I α) (f : α → Dialogue I β) (L : Log I)
    (Q : β → Log I → Prop) :
    (d.bind f).wp rule L Q ↔ d.wp rule L (fun a L => (f a).wp rule L Q) := by
  induction d generalizing L with
  | done a => exact Iff.rfl
  | ask q k ih =>
    simp only [bind, wp]
    exact forall_congr' (fun a => imp_congr_right (fun _ => ih a _))

variable {d : Dialogue I α} {L L' : Log I} {rule : Rule I} {Q : α → Log I → Prop}
    {allowed : Log I → (q : I.Query) → I.Answer q → Bool} {oracle : Log I → (q : I.Query) → I.Answer q}
    {a : α}

theorem wp_mono {R : α → Log I → Prop}
    (h : d.wp rule L Q) (imp : ∀ a L, Q a L → R a L) : d.wp rule L R := by
  induction d generalizing L with
  | done a => exact imp a L h
  | ask q k ih => exact fun a ha => ih a (h a ha)

theorem wp_grow
    (h : d.wp rule L (fun a L' => L <+: L' → Q a L')) : d.wp rule L Q := by
  induction d generalizing L with
  | done a => exact h (List.prefix_refl L)
  | ask q k ih =>
    intro a ha
    refine ih a (wp_mono (h a ha) ?_)
    intro b L' imp sub
    exact imp ((List.prefix_append _ _).trans sub)

theorem wp_answers {P : (Σ q : I.Query, I.Answer q) → Prop} (each : ∀ L q a, rule L q a → P ⟨q, a⟩)
    (start : ∀ x ∈ L, P x) (h : d.wp rule L Q) : d.wp rule L (fun a L' => Q a L' ∧ ∀ x ∈ L', P x) := by
  induction d generalizing L with
  | done a => exact ⟨h, start⟩
  | ask q k ih =>
    intro a ha
    apply ih a _ (h a ha)
    intro x hx
    rcases List.mem_append.mp hx with hx | hx
    · exact start x hx
    · rw [List.mem_singleton.mp hx]
      exact each L q a ha

/-- Answer every question from an oracle; none when an answer is not allowed. -/
def run (allowed : Log I → (q : I.Query) → I.Answer q → Bool)
    (oracle : Log I → (q : I.Query) → I.Answer q) : Dialogue I α → Log I → Option (α × Log I)
  | .done a, L => some (a, L)
  | .ask q k, L =>
    if allowed L q (oracle L q) then (k (oracle L q)).run allowed oracle (L ++ [⟨q, oracle L q⟩])
    else none

theorem run_grows
    (ran : d.run allowed oracle L = some (a, L')) : L <+: L' := by
  induction d generalizing L with
  | done b =>
    simp only [run, Option.some.injEq, Prod.mk.injEq] at ran
    exact ran.2 ▸ List.prefix_refl L
  | ask q k ih =>
    unfold run at ran
    split at ran
    · exact (List.prefix_append _ _).trans (ih _ ran)
    · cases ran

theorem run_of_wp
    (sound : ∀ L q a, allowed L q a = true → rule L q a) (h : d.wp rule L Q)
    (ran : d.run allowed oracle L = some (a, L')) :
    Q a L' := by
  induction d generalizing L with
  | done b =>
    simp only [run, Option.some.injEq, Prod.mk.injEq] at ran
    rw [← ran.1, ← ran.2]
    exact h
  | ask q k ih =>
    unfold run at ran
    split at ran
    · rename_i ok
      exact ih _ (h _ (sound L q _ ok)) ran
    · cases ran

end Dialogue

/-- A transaction: an error discards the store it had reached. -/
def Tx (I : Interface) (S ε α : Type) := S → Dialogue I (Except ε (α × S))

namespace Tx

def pure (a : α) : Tx I S ε α := fun s => .done (.ok (a, s))

def bind (t : Tx I S ε α) (f : α → Tx I S ε β) : Tx I S ε β := fun s =>
  (t s).bind (fun r =>
    match r with
    | .ok p => f p.1 p.2
    | .error e => .done (.error e))

instance : Monad (Tx I S ε) where
  pure := Tx.pure
  bind := Tx.bind

def fail (e : ε) : Tx I S ε α := fun _ => .done (.error e)
def ask (q : I.Query) : Tx I S ε (I.Answer q) := fun s => .ask q (fun a => .done (.ok (a, s)))
def read (f : S → β) : Tx I S ε β := fun s => .done (.ok (f s, s))
def write (f : S → S) : Tx I S ε Unit := fun s => .done (.ok ((), f s))

def require (c : Bool) (e : ε) : Tx I S ε Unit := if c then Tx.pure () else Tx.fail e

def when (c : Bool) (t : Tx I S ε Unit) : Tx I S ε Unit := if c then t else Tx.pure ()

def wp (rule : Rule I) (t : Tx I S ε α) (s : S) (L : Log I) (Q : Except ε (α × S) → Log I → Prop) :
    Prop := (t s).wp rule L Q

variable {rule : Rule I} {s : S} {L : Log I}

@[simp] theorem wp_pure (a : α) (Q : Except ε (α × S) → Log I → Prop) :
    (Pure.pure a : Tx I S ε α).wp rule s L Q ↔ Q (.ok (a, s)) L := Iff.rfl

@[simp] theorem wp_bind (t : Tx I S ε α) (f : α → Tx I S ε β) (Q : Except ε (β × S) → Log I → Prop) :
    (t >>= f).wp rule s L Q ↔ t.wp rule s L (fun r L =>
      match r with
      | .ok p => (f p.1).wp rule p.2 L Q
      | .error e => Q (.error e) L) := by
  change ((t s).bind _).wp rule L Q ↔ _
  rw [Dialogue.wp_bind]
  have step : ∀ (r : Except ε (α × S)) (L : Log I),
      (match r with
        | .ok p => f p.1 p.2
        | .error e => .done (.error e) : Dialogue I (Except ε (β × S))).wp rule L Q ↔
      (match r with
        | .ok p => (f p.1).wp rule p.2 L Q
        | .error e => Q (.error e) L) := by
    intro r L
    cases r <;> exact Iff.rfl
  constructor
  · exact fun h => Dialogue.wp_mono h (fun r L hr => (step r L).mp hr)
  · exact fun h => Dialogue.wp_mono h (fun r L hr => (step r L).mpr hr)

@[simp] theorem wp_fail (e : ε) (Q : Except ε (α × S) → Log I → Prop) :
    (Tx.fail e : Tx I S ε α).wp rule s L Q ↔ Q (.error e) L := Iff.rfl

@[simp] theorem wp_read (f : S → β) (Q : Except ε (β × S) → Log I → Prop) :
    (Tx.read f : Tx I S ε β).wp rule s L Q ↔ Q (.ok (f s, s)) L := Iff.rfl

@[simp] theorem wp_write (f : S → S) (Q : Except ε (Unit × S) → Log I → Prop) :
    (Tx.write f : Tx I S ε Unit).wp rule s L Q ↔ Q (.ok ((), f s)) L := Iff.rfl

@[simp] theorem wp_require (c : Bool) (e : ε) (Q : Except ε (Unit × S) → Log I → Prop) :
    (Tx.require c e : Tx I S ε Unit).wp rule s L Q ↔
      (c = true → Q (.ok ((), s)) L) ∧ (c = false → Q (.error e) L) := by
  cases c
  · simp [require]
  · simp [require, wp, Tx.pure, Dialogue.wp]

@[simp] theorem wp_when (c : Bool) (t : Tx I S ε Unit) (Q : Except ε (Unit × S) → Log I → Prop) :
    (Tx.when c t).wp rule s L Q ↔
      (c = true → t.wp rule s L Q) ∧ (c = false → Q (.ok ((), s)) L) := by
  cases c
  · simp [when, wp, Tx.pure, Dialogue.wp]
  · simp [when]

theorem wp_mono {t : Tx I S ε α} {Q R : Except ε (α × S) → Log I → Prop}
    (h : t.wp rule s L Q) (imp : ∀ r L, Q r L → R r L) : t.wp rule s L R :=
  Dialogue.wp_mono h imp

/-- A postcondition of a transaction that says nothing about failures. -/
def Quiet (Q : Except ε (α × S) → Log I → Prop) : Prop := ∀ e L, Q (.error e) L

theorem quiet_ok (P : α → S → Log I → Prop) :
    Quiet (fun (r : Except ε (α × S)) L => ∀ a s, r = .ok (a, s) → P a s L) := by
  rintro e L a s ⟨⟩

section QuietRules

variable {Q : Except ε (β × S) → Log I → Prop}

variable {f : Unit → Tx I S ε β} {c : Bool} {e : ε}

theorem wp_require_then (quiet : Quiet Q)
    (h : c = true → (f ()).wp rule s L Q) : (Tx.require c e >>= f).wp rule s L Q :=
  (wp_bind _ _ _).mpr ((wp_require c e _).mpr ⟨h, fun _ => quiet _ _⟩)

theorem wp_require_else (failed : Q (.error e) L)
    (h : c = true → (f ()).wp rule s L Q) : (Tx.require c e >>= f).wp rule s L Q :=
  (wp_bind _ _ _).mpr ((wp_require c e _).mpr ⟨h, fun _ => failed⟩)

theorem wp_require_pass (holds : c = true)
    (h : (f ()).wp rule s L Q) : (Tx.require c e >>= f).wp rule s L Q := by
  subst holds
  exact (wp_bind _ _ _).mpr h

theorem wp_ask_then {q : I.Query} {f : I.Answer q → Tx I S ε β}
    (h : ∀ a, rule L q a → (f a).wp rule s (L ++ [⟨q, a⟩]) Q) : (Tx.ask q >>= f).wp rule s L Q :=
  (wp_bind _ _ _).mpr h

theorem wp_read_then {g : S → α} {f : α → Tx I S ε β} (h : (f (g s)).wp rule s L Q) :
    (Tx.read g >>= f).wp rule s L Q := (wp_bind _ _ _).mpr h

theorem wp_write_then {g : S → S} (h : (f ()).wp rule (g s) L Q) :
    (Tx.write g >>= f).wp rule s L Q := (wp_bind _ _ _).mpr h

theorem wp_then {t : Tx I S ε α} {f : α → Tx I S ε β} (quiet : Quiet Q)
    (h : t.wp rule s L (fun r L => ∀ a s', r = .ok (a, s') → (f a).wp rule s' L Q)) :
    (t >>= f).wp rule s L Q := by
  refine (wp_bind _ _ _).mpr (wp_mono h ?_)
  intro r L hr
  cases r with
  | ok p => exact hr p.1 p.2 rfl
  | error e => exact quiet e L

end QuietRules

end Tx

/-- A program. A failed transaction hands its error to the continuation. -/
inductive Prog (I : Interface) (S ε α : Type) : Type 1 where
  | ret (a : α)
  | fail (e : ε)
  | ask (q : I.Query) (k : I.Answer q → Prog I S ε α)
  | atomic {β : Type} (t : Tx I S ε β) (k : Except ε β → Prog I S ε α)

namespace Prog

def bind : Prog I S ε α → (α → Prog I S ε β) → Prog I S ε β
  | .ret a, f => f a
  | .fail e, _ => .fail e
  | .ask q k, f => .ask q (fun a => (k a).bind f)
  | .atomic t k, f => .atomic t (fun r => (k r).bind f)

instance : Monad (Prog I S ε) where
  pure := Prog.ret
  bind := Prog.bind

theorem bind_ret (p : Prog I S ε α) : p.bind .ret = p := by
  induction p with
  | ret a => rfl
  | fail e => rfl
  | ask q k ih => exact congrArg (Prog.ask q) (funext ih)
  | atomic t k ih => exact congrArg (Prog.atomic t) (funext ih)

theorem bind_bind {γ : Type} (p : Prog I S ε α) (f : α → Prog I S ε β) (g : β → Prog I S ε γ) :
    (p.bind f).bind g = p.bind (fun a => (f a).bind g) := by
  induction p with
  | ret a => rfl
  | fail e => rfl
  | ask q k ih => exact congrArg (Prog.ask q) (funext ih)
  | atomic t k ih => exact congrArg (Prog.atomic t) (funext ih)

instance : LawfulMonad (Prog I S ε) :=
  LawfulMonad.mk' _ (fun p => bind_ret p) (fun _ _ => rfl) (fun p f g => bind_bind p f g)

def question (q : I.Query) : Prog I S ε (I.Answer q) := .ask q .ret

/-- A question whose place among the transactions matters: it is in the trace,
with the store at that moment. -/
def effect (q : I.Query) : Prog I S ε (I.Answer q) :=
  .atomic (Tx.ask q) (fun r =>
    match r with
    | .ok a => .ret a
    | .error e => .fail e)

def require (c : Bool) (e : ε) : Prog I S ε Unit := if c then .ret () else .fail e

def when (c : Bool) (p : Prog I S ε Unit) : Prog I S ε Unit := if c then p else .ret ()

def attempt : Prog I S ε α → Prog I S ε (Except ε α)
  | .ret a => .ret (.ok a)
  | .fail e => .ret (.error e)
  | .ask q k => .ask q (fun a => (k a).attempt)
  | .atomic t k => .atomic t (fun r => (k r).attempt)

def ofExcept : Except ε α → Prog I S ε α
  | .ok a => .ret a
  | .error e => .fail e

end Prog

end Interleaving
