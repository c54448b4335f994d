import Mathlib.Data.List.Basic
import Mathlib.Logic.Function.Iterate
import Mathlib.Algebra.Order.Floor.Div

/-! Sweeping an ordered set of keys in batches. A batch starts after the key at which
the last one stopped, or at the first key, and what it finds due goes. Whatever the
cursor, every due key is gone after one batch more than the keys fill. -/
namespace Sweep

variable {κ : Type}

structure StrictOrder (lt : κ → κ → Bool) : Prop where
  irrefl : ∀ a, lt a a = false
  trans : ∀ {a b c}, lt a b = true → lt b c = true → lt a c = true
  total : ∀ a b, a = b ∨ lt a b = true ∨ lt b a = true

structure State (κ : Type) where
  keys : List κ
  cursor : Option κ

section Steps

variable (lt : κ → κ → Bool)

def ahead (keys : List κ) : Option κ → List κ
  | none => keys
  | some c => keys.filter (lt c)

def State.ahead (s : State κ) : List κ := Sweep.ahead lt s.keys s.cursor

def State.batch (limit : Nat) (s : State κ) : List κ := (s.ahead lt).take limit

def within [DecidableEq κ] (keys : List κ) (k : κ) : Bool := keys.contains k

def step [DecidableEq κ] (due : κ → Bool) (limit : Nat) (s : State κ) : State κ where
  keys := s.keys.filter (fun k => !(due k && within (s.batch lt limit) k))
  cursor := if (s.ahead lt).length ≤ limit then none else (s.batch lt limit).getLast?

end Steps

section Keys

variable {lt : κ → κ → Bool}

def Sorted (lt : κ → κ → Bool) (s : State κ) : Prop := s.keys.Pairwise (fun a b => lt a b = true)

theorem ahead_sublist (keys : List κ) (c : Option κ) : (ahead lt keys c).Sublist keys := by
  cases c with
  | none => exact List.Sublist.refl _
  | some c => exact List.filter_sublist

/-- The keys behind the last of a batch, where the batch starts behind `c`. -/
theorem filter_ahead (order : StrictOrder lt) {keys : List κ} {c : Option κ} {k : κ} (at_ : k ∈ ahead lt keys c) :
    (ahead lt keys c).filter (lt k) = keys.filter (lt k) := by
  cases c with
  | none => rfl
  | some c =>
    have before : lt c k = true := (List.mem_filter.mp at_).2
    unfold ahead
    rw [List.filter_filter]
    apply List.filter_congr
    intro a _
    by_cases behind : lt k a = true
    · rw [behind, order.trans before behind]
      rfl
    · rw [Bool.not_eq_true] at behind
      rw [behind]
      rfl

theorem batch_all {s : State κ} {limit : Nat} (few : (s.ahead lt).length ≤ limit) :
    s.batch lt limit = s.ahead lt := List.take_of_length_le few

theorem Sorted.ahead {s : State κ} (sorted : Sorted lt s) : (s.ahead lt).Pairwise (fun a b => lt a b = true) :=
  List.Pairwise.sublist (ahead_sublist s.keys s.cursor) sorted

theorem batch_split {s : State κ} {limit : Nat} (positive : 0 < limit) (more : limit < (s.ahead lt).length) :
    ∃ front last, s.batch lt limit = front ++ [last] := by
  have nonempty : s.batch lt limit ≠ [] := by
    intro none
    have empty := congrArg List.length none
    unfold State.batch at empty
    rw [List.length_take, List.length_nil] at empty
    omega
  exact ⟨_, _, (List.dropLast_append_getLast nonempty).symm⟩

end Keys

section Batches

variable [DecidableEq κ] {lt : κ → κ → Bool} {due : κ → Bool} {limit : Nat} {s : State κ}

theorem within_iff {keys : List κ} {k : κ} : within keys k = true ↔ k ∈ keys := List.contains_iff_mem

theorem within_nil (k : κ) : within [] k = false := rfl

theorem within_cons (a : κ) (keys : List κ) (k : κ) : within (a :: keys) k = (decide (k = a) || within keys k) := by
  rw [Bool.eq_iff_iff, Bool.or_eq_true, within_iff, within_iff, List.mem_cons, decide_eq_true_iff]

theorem step_keys_sublist (s : State κ) : (step lt due limit s).keys.Sublist s.keys := List.filter_sublist

theorem step_congr {due' : κ → Bool} (same : ∀ k ∈ s.keys, due' k = due k) :
    step lt due' limit s = step lt due limit s := by
  unfold step
  congr 1
  apply List.filter_congr
  intro k hk
  rw [same k hk]

theorem iterate_keys_sublist (n : Nat) (s : State κ) : ((step lt due limit)^[n] s).keys.Sublist s.keys := by
  induction n generalizing s with
  | zero => exact List.Sublist.refl _
  | succ n ih => exact (ih (step lt due limit s)).trans (step_keys_sublist s)

theorem Sorted.step (sorted : Sorted lt s) : Sorted lt (step lt due limit s) := sorted.sublist (step_keys_sublist s)

theorem Sorted.iterate (sorted : Sorted lt s) (n : Nat) : Sorted lt ((Sweep.step lt due limit)^[n] s) :=
  List.Pairwise.sublist (iterate_keys_sublist n s) sorted

theorem not_due_of_batch {k : κ} (scanned : k ∈ s.batch lt limit) (left : k ∈ (step lt due limit s).keys) :
    due k = false := by
  have kept := (List.mem_filter.mp left).2
  simpa [within, scanned] using kept

theorem cursor_wrapped (few : (s.ahead lt).length ≤ limit) : (step lt due limit s).cursor = none := by
  unfold step
  exact if_pos few

theorem cursor_stopped {front : List κ} {last : κ} (more : limit < (s.ahead lt).length)
    (split : s.batch lt limit = front ++ [last]) : (step lt due limit s).cursor = some last := by
  unfold step
  dsimp only
  rw [if_neg (Nat.not_le.mpr more), split]
  simp

theorem ahead_step (order : StrictOrder lt) (sorted : Sorted lt s) (positive : 0 < limit)
    (more : limit < (s.ahead lt).length) :
    (step lt due limit s).ahead lt = (s.ahead lt).drop limit := by
  obtain ⟨front, last, split⟩ := batch_split positive more
  have whole : s.ahead lt = front ++ [last] ++ (s.ahead lt).drop limit := by
    rw [← split]
    exact (List.take_append_drop limit _).symm
  have inside : last ∈ s.ahead lt := by
    rw [whole]
    simp
  have cursor : (step lt due limit s).cursor = some last := cursor_stopped more split
  have ordered := sorted.ahead
  rw [whole] at ordered
  obtain ⟨first, -, behind⟩ := List.pairwise_append.mp ordered
  have unreached : ∀ a ∈ front ++ [last], lt last a = false := by
    intro a ha
    rcases List.mem_append.mp ha with ha | ha
    · have below := (List.pairwise_append.mp first).2.2 a ha last List.mem_cons_self
      by_contra above
      have loop := order.trans below (Bool.not_eq_false _ ▸ above)
      rw [order.irrefl] at loop
      cases loop
    · rw [List.mem_singleton.mp ha]
      exact order.irrefl last
  have tail : (s.ahead lt).filter (lt last) = (s.ahead lt).drop limit := by
    conv_lhs => rw [whole]
    rw [List.filter_append, List.filter_eq_nil_iff.mpr, List.nil_append, List.filter_eq_self.mpr]
    · intro a ha
      exact behind last (List.mem_append_right _ List.mem_cons_self) a ha
    · intro a ha
      rw [unreached a ha]
      exact Bool.false_ne_true
  unfold State.ahead at tail ⊢
  rw [cursor, ← tail, filter_ahead order inside]
  change (s.keys.filter _).filter (lt last) = _
  rw [List.filter_filter]
  apply List.filter_congr
  intro a _
  -- a key behind the last of the batch is not in the batch
  by_cases far : lt last a = true
  · have missed : within (s.batch lt limit) a = false := by
      rw [← Bool.not_eq_true, within_iff, split]
      intro ha
      rw [unreached a ha] at far
      cases far
    rw [far, missed]
    simp
  · rw [Bool.not_eq_true] at far
    rw [far]
    rfl

end Batches

section Rounds

variable [DecidableEq κ] {lt : κ → κ → Bool} {due : κ → Bool} {limit : Nat} {s : State κ}

/-- The keys that meet `wanted` come first, and batches that can hold them scan them. -/
theorem wanted_clean (order : StrictOrder lt) (positive : 0 < limit) (wanted : κ → Bool)
    (first : ∀ a b, lt a b = true → wanted b = true → wanted a = true) (n : Nat) (sorted : Sorted lt s)
    (fit : ((s.ahead lt).filter wanted).length ≤ n * limit) :
    ∀ k ∈ ((step lt due limit)^[n] s).keys, k ∈ s.ahead lt → wanted k = true → due k = false := by
  induction n generalizing s with
  | zero =>
    intro k _ ahead want
    have none := List.eq_nil_of_length_eq_zero (Nat.le_zero.mp (Nat.zero_mul limit ▸ fit))
    have found := List.mem_filter.mpr ⟨ahead, want⟩
    rw [none] at found
    cases found
  | succ n ih =>
    intro k left ahead want
    have afterFirst : k ∈ (step lt due limit s).keys := (iterate_keys_sublist n _).mem left
    by_cases few : (s.ahead lt).length ≤ limit
    · apply not_due_of_batch _ afterFirst
      rwa [batch_all few]
    · have more := Nat.lt_of_not_le few
      have whole := List.take_append_drop limit (s.ahead lt)
      have rest : (step lt due limit s).ahead lt = (s.ahead lt).drop limit := ahead_step order sorted positive more
      rw [← whole] at ahead
      rcases List.mem_append.mp ahead with scanned | later
      · exact not_due_of_batch scanned afterFirst
      · refine ih sorted.step ?_ k left (by rwa [rest]) want
        have ordered := sorted.ahead
        rw [← whole] at ordered
        have across := (List.pairwise_append.mp ordered).2.2
        have all : (s.ahead lt).take limit = ((s.ahead lt).take limit).filter wanted :=
          (List.filter_eq_self.mpr (fun a ha => first a k (across a ha k later) want)).symm
        have size := congrArg List.length all
        rw [List.length_take, Nat.min_eq_left (Nat.le_of_lt more)] at size
        rw [← whole, List.filter_append, List.length_append] at fit
        rw [rest]
        rw [Nat.add_mul] at fit
        omega

/-- As many batches as the keys ahead fill bring the cursor back to the start. -/
theorem wraps (order : StrictOrder lt) (positive : 0 < limit) (n : Nat) (sorted : Sorted lt s)
    (fit : (s.ahead lt).length ≤ (n + 1) * limit) (full : n = 0 ∨ n * limit < (s.ahead lt).length) :
    ((step lt due limit)^[n + 1] s).cursor = none := by
  induction n generalizing s with
  | zero =>
    apply cursor_wrapped
    simpa using fit
  | succ n ih =>
    have filled := full.resolve_left (Nat.succ_ne_zero n)
    rw [Nat.add_mul, Nat.one_mul] at filled
    rw [Nat.add_mul, Nat.one_mul] at fit
    have rest : (step lt due limit s).ahead lt = (s.ahead lt).drop limit :=
      ahead_step order sorted positive (by omega)
    apply ih sorted.step
    · rw [rest, List.length_drop]
      omega
    · rw [rest, List.length_drop]
      right
      omega

theorem clean_later {n m : Nat} (le : n ≤ m) (clean : ∀ k ∈ ((step lt due limit)^[n] s).keys, due k = false) :
    ∀ k ∈ ((step lt due limit)^[m] s).keys, due k = false := by
  intro k left
  apply clean
  obtain ⟨d, rfl⟩ := Nat.exists_eq_add_of_le le
  rw [Nat.add_comm, Function.iterate_add_apply] at left
  exact (iterate_keys_sublist d _).mem left

theorem le_batches (positive : 0 < limit) (n : Nat) : n ≤ (n ⌈/⌉ limit) * limit := by
  rw [Nat.mul_comm]
  exact (ceilDiv_le_iff_le_mul positive).mp (le_refl _)

theorem batches_le {n m : Nat} (positive : 0 < limit) (fit : n ≤ m * limit) : n ⌈/⌉ limit ≤ m := by
  rw [Nat.mul_comm] at fit
  exact (ceilDiv_le_iff_le_mul positive).mpr fit

/-- The keys behind the cursor take some batches, those up to it the others, and one
batch may hold some of both. -/
theorem all_clean (order : StrictOrder lt) (positive : 0 < limit) (sorted : Sorted lt s) :
    ∀ k ∈ ((step lt due limit)^[(s.keys.length ⌈/⌉ limit) + 1] s).keys, due k = false := by
  cases start : s.cursor with
  | none =>
    have all : s.ahead lt = s.keys := by
      unfold State.ahead
      rw [start]
      rfl
    apply clean_later (Nat.le_succ _)
    intro k left
    apply wanted_clean order positive (fun _ => true) (fun _ _ _ _ => rfl) _ sorted _ k left _ rfl
    · rw [all]
      exact (List.length_filter_le _ _).trans (le_batches positive _)
    · rw [all]
      exact (iterate_keys_sublist _ s).mem left
  | some c =>
    have behind : s.ahead lt = s.keys.filter (lt c) := by
      unfold State.ahead
      rw [start]
      rfl
    have parts := List.length_eq_length_filter_add (l := s.keys) (lt c)
    generalize early_eq : (s.keys.filter (fun k => !lt c k)).length = early at parts
    obtain ⟨m, fit, full⟩ : ∃ m, (s.ahead lt).length ≤ (m + 1) * limit ∧
        (m = 0 ∨ m * limit < (s.ahead lt).length) := by
      refine ⟨((s.ahead lt).length ⌈/⌉ limit) - 1, ?_, ?_⟩
      · apply (le_batches positive _).trans
        exact Nat.mul_le_mul_right limit (by omega)
      · by_contra none
        obtain ⟨some, few⟩ := not_or.mp none
        have := batches_le positive (Nat.le_of_not_lt few)
        omega
    have first : ∀ k ∈ ((step lt due limit)^[m + 1] s).keys, lt c k = true → due k = false := by
      intro k left late
      refine wanted_clean order positive (fun _ => true) (fun _ _ _ _ => rfl) (m + 1) sorted
        ((List.length_filter_le _ _).trans fit) k left ?_ rfl
      rw [behind]
      exact List.mem_filter.mpr ⟨(iterate_keys_sublist _ s).mem left, late⟩
    have wrapped : ((step lt due limit)^[m + 1] s).ahead lt = ((step lt due limit)^[m + 1] s).keys := by
      unfold State.ahead
      rw [wraps order positive m sorted fit full]
      rfl
    -- from the start, the keys up to the old cursor come first
    have second : ∀ k ∈ ((step lt due limit)^[early ⌈/⌉ limit] ((step lt due limit)^[m + 1] s)).keys,
        lt c k = false → due k = false := by
      intro k left soon
      refine wanted_clean order positive (fun k => !lt c k) ?_ _ (sorted.iterate (m + 1)) ?_ k left ?_ (by simp [soon])
      · intro a b below upTo
        by_contra late
        rw [order.trans (by simpa using late) below] at upTo
        cases upTo
      · rw [wrapped]
        apply Nat.le_trans (((iterate_keys_sublist (m + 1) s).filter _).length_le)
        rw [early_eq]
        exact le_batches positive early
      · rw [wrapped]
        exact (iterate_keys_sublist _ _).mem left
    have enough : (early ⌈/⌉ limit) + (m + 1) ≤ (s.keys.length ⌈/⌉ limit) + 1 := by
      have total := le_batches positive s.keys.length
      rw [behind] at full
      rcases full with rfl | full
      · have := batches_le positive (n := early) (m := s.keys.length ⌈/⌉ limit) (by omega)
        omega
      · have below : m < s.keys.length ⌈/⌉ limit := by
          apply Nat.lt_of_mul_lt_mul_right (a := limit)
          omega
        have := batches_le positive (n := early) (m := (s.keys.length ⌈/⌉ limit) - m) (by
          rw [Nat.sub_mul]
          omega)
        omega
    apply clean_later enough
    intro k left
    rw [Function.iterate_add_apply] at left
    cases place : lt c k with
    | true => exact first k ((iterate_keys_sublist _ _).mem left) place
    | false => exact second k left place

end Rounds

end Sweep
