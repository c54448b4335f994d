import BaobabIam.Base.Once
import Mathlib.Logic.Relation

/-! Programs all of whose transactions are of one kind. The rules are a simp set, so that
a program is checked by computing over its text. One kind are transactions that move the
store: what they commit is reached from what they found by moves of a given relation. -/
namespace Interleaving

open Relation

variable {I : Interface} {S ε α β : Type} {sys : System I S ε}

/-- Every transaction is a `P`, and every result a `Q`. -/
def Prog.Every (P : {β : Type} → Tx I S ε β → Prop) : Prog I S ε α → (α → Prop) → Prop
  | .ret a, Q => Q a
  | .fail _, _ => True
  | .ask _ k, Q => ∀ a, (k a).Every P Q
  | .atomic t k, Q => P t ∧ ∀ r, (k r).Every P Q

section Every

variable {P : {β : Type} → Tx I S ε β → Prop} {p : Prog I S ε α} {f : α → Prog I S ε β} {Q : α → Prop}

theorem Prog.every_mono {R : α → Prop} (h : p.Every P Q) (imp : ∀ a, Q a → R a) : p.Every P R := by
  induction p with
  | ret a => exact imp a h
  | fail e => trivial
  | ask q k ih => exact fun a => ih a (h a)
  | atomic t k ih => exact ⟨h.1, fun r => ih r (h.2 r)⟩

@[simp] theorem Prog.every_fail {e : ε} : (.fail e : Prog I S ε α).Every P Q := trivial

@[simp] theorem Prog.every_bind {Q : β → Prop} : (p >>= f).Every P Q ↔ p.Every P (fun a => (f a).Every P Q) := by
  change (p.bind f).Every P Q ↔ _
  induction p with
  | ret a => exact Iff.rfl
  | fail e => exact Iff.rfl
  | ask q k ih => exact forall_congr' ih
  | atomic t k ih => exact and_congr_right fun _ => forall_congr' ih

@[simp] theorem Prog.every_map {g : α → β} {Q : β → Prop} :
    (g <$> p).Every P Q ↔ p.Every P (fun a => Q (g a)) := by
  rw [← bind_pure_comp, every_bind]
  rfl

@[simp] theorem Prog.every_attempt : p.attempt.Every P (fun _ => True) ↔ p.Every P (fun _ => True) := by
  induction p with
  | ret a => exact Iff.rfl
  | fail e => exact Iff.rfl
  | ask q k ih => exact forall_congr' ih
  | atomic t k ih => exact and_congr_right fun _ => forall_congr' ih

@[simp] theorem Prog.every_require {c : Bool} {e : ε} {Q : Unit → Prop} :
    (Prog.require c e : Prog I S ε Unit).Every P Q ↔ (c = true → Q ()) := by
  cases c <;> simp [Prog.require, Prog.Every]

@[simp] theorem Prog.every_ofExcept {r : Except ε α} :
    (Prog.ofExcept r : Prog I S ε α).Every P Q ↔ ∀ a, r = .ok a → Q a := by
  cases r <;> simp [Prog.ofExcept, Prog.Every]

@[simp] theorem Prog.every_effect {q : I.Query} {Q : I.Answer q → Prop} (h : P (Tx.ask q)) :
    (Prog.effect q : Prog I S ε _).Every P Q ↔ ∀ a, Q a := by
  refine ⟨fun every a => every.2 (.ok a), fun all => ⟨h, ?_⟩⟩
  intro r
  cases r with
  | ok a => exact all a
  | error e => trivial

theorem wp_every {v : Setting sys} {K : Trace sys → Prop} {T : Trace sys} {L : Log I} {R : Post sys α}
    (h : p.Every P Q) (start : K T)
    (run : ∀ {β : Type} (t : Tx I S ε β) T T' L, P t → K T → v.others T T' →
      t.wp v.rule (last T') L (fun r L' => v.spec T' (v.entry T' L L' r) ∧ K (T' ++ [v.entry T' L L' r])))
    (ends : ∀ T' L' r, K T' → R T' L' r) : wp v p T L R := by
  induction p generalizing T L with
  | ret a => exact ends T L _ start
  | fail e => exact ends T L _ start
  | ask q k ih => exact fun a _ => ih a (h a) start
  | atomic t k ih =>
    intro T' others
    apply Tx.wp_mono (run t T T' L h.1 start others)
    intro r L' kept
    exact ⟨kept.1, ih _ (h.2 _) kept.2⟩

end Every

section Moves

variable {move : S → S → Prop}

def Tx.Moves (move : S → S → Prop) (t : Tx I S ε α) : Prop :=
  ∀ rule s L, t.wp rule s L (fun r _ => ∀ a s', r = .ok (a, s') → ReflTransGen move s s')

@[simp] theorem Tx.moves_ask (q : I.Query) : (Tx.ask q : Tx I S ε (I.Answer q)).Moves move := by
  rintro rule s L a - b s' ⟨⟩
  exact .refl

theorem Tx.Moves.bind {t : Tx I S ε α} {f : α → Tx I S ε β} (h : t.Moves move) (rest : ∀ a, (f a).Moves move) :
    (t >>= f).Moves move := by
  intro rule s L
  apply Tx.wp_then (Tx.quiet_ok _)
  apply Tx.wp_mono (h rule s L)
  intro r L' first a s' done
  apply Tx.wp_mono (rest a rule s' L')
  intro r' _ second b s'' done'
  exact (first a s' done).trans (second b s'' done')

def Moved (move : S → S → Prop) (e : Entry sys) : Prop := ReflTransGen move e.before e.after

variable {spec : Spec sys} {i : Nat} {c : sys.Call} {T : Trace sys} {L : Log I}
  {p : Prog I S ε α} {f : α → Prog I S ε β} {Q : α → Prop}

theorem wp_moves {R : Post sys α} (step : ∀ T e, Moved move e → spec T e) (h : p.Every (Tx.Moves move) Q)
    (own : Own i (Moved move) T) (ends : ∀ T' L' r, Own i (Moved move) T' → R T' L' r) :
    wp (safe spec i c) p T L R := by
  apply wp_every h own _ ends
  intro β t T T' L moves own others
  apply Tx.wp_mono (moves _ _ _)
  intro r L' reached
  have moved : Moved move ((safe spec i c).entry T' L L' r) := by
    cases r with
    | ok b => exact reached b.1 b.2 rfl
    | error e => exact .refl
  exact ⟨step T' _ moved, (own.others others).snoc moved⟩

theorem wp_moves_then {R : Post sys β} (quiet : Quiet R) (step : ∀ T e, Moved move e → spec T e)
    (h : p.Every (Tx.Moves move) Q) (own : Own i (Moved move) T)
    (rest : ∀ a T' L', Own i (Moved move) T' → wp (safe spec i c) (f a) T' L' R) :
    wp (safe spec i c) (p >>= f) T L R := by
  apply wp_then
  apply wp_moves step h own
  intro T' L' r own'
  cases r with
  | ok a => exact rest a T' L' own'
  | error e => exact quiet T' L' e

end Moves

end Interleaving
