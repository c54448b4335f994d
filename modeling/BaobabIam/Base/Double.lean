import Mathlib.Data.Rat.Cast.Order
import Mathlib.Data.Set.Finite.Lemmas
import Mathlib.Data.Finite.Prod
import Mathlib.Order.Interval.Finset.Defs
import Mathlib.Data.Int.Interval
import Mathlib.Tactic.Linarith

/-! Doubles as rational numbers, and rounding to the nearest one. Which of two nearest
doubles is taken, and from where on a value counts as out of range, is left open. -/
namespace Double

/-- A mantissa of 53 bits and an exponent within the format. -/
def IsDouble (q : ℚ) : Prop :=
  ∃ m e : ℤ, |m| < 2 ^ 53 ∧ -1074 ≤ e ∧ e ≤ 971 ∧ q = m * 2 ^ e

/-- A result of rounding `v`: a nearest double, or a range error, which needs a value
beyond every double. -/
def Rounded (v : ℚ) : Option ℚ → Prop
  | some d => IsDouble d ∧ ∀ x, IsDouble x → |d - v| ≤ |x - v|
  | none => ∀ x, IsDouble x → |x| < |v|

theorem isDouble_natCast {n : Nat} (small : n < 2 ^ 53) : IsDouble n := by
  refine ⟨n, 0, ?_, by decide, by decide, by simp⟩
  rw [abs_of_nonneg (Int.natCast_nonneg n)]
  exact_mod_cast small

theorem finite_doubles : {q | IsDouble q}.Finite := by
  have box := (Set.finite_Icc (-2 ^ 53 : ℤ) (2 ^ 53)).prod (Set.finite_Icc (-1074 : ℤ) 971)
  apply (box.image (fun p : ℤ × ℤ => (p.1 : ℚ) * 2 ^ p.2)).subset
  rintro q ⟨m, e, mantissa, low, high, rfl⟩
  obtain ⟨below, above⟩ := abs_lt.mp mantissa
  exact ⟨(m, e), ⟨⟨below.le, above.le⟩, low, high⟩, rfl⟩

theorem exists_rounded (v : ℚ) : ∃ r, Rounded v r := by
  have zero : IsDouble ((0 : Nat) : ℚ) := isDouble_natCast (by decide)
  obtain ⟨d, double, nearest⟩ :=
    Set.exists_min_image {q | IsDouble q} (fun x => |x - v|) finite_doubles ⟨_, zero⟩
  exact ⟨some d, double, nearest⟩

theorem Rounded.exact {v : ℚ} (double : IsDouble v) {r : Option ℚ} (h : Rounded v r) : r = some v := by
  cases r with
  | none => exact absurd (h v double) (lt_irrefl _)
  | some d =>
    have near := h.2 v double
    rw [sub_self, abs_zero] at near
    rw [sub_eq_zero.mp (abs_nonpos_iff.mp near)]

end Double
