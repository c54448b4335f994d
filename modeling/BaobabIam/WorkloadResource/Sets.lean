import BaobabIam.Ory.Clients
import BaobabIam.TokenProfile.Issuance

/-! Lists of audiences and scopes are compared as sets: at the resource gate, where the
tokens are issued, and where the clients are read back. -/
namespace WorkloadResource

open Ory.Clients (equalStringSet_iff)

def distinctFrom : List Text → List Text → Bool
  | _, [] => true
  | seen, value :: values => !seen.contains value && distinctFrom (value :: seen) values

def distinct (values : List Text) : Bool := distinctFrom [] values

def sameSet (a b : List Text) : Bool :=
  if !distinct a || !distinct b || a.length != b.length then false else a.all (fun v => b.contains v)

variable {values a b : List Text}

theorem distinctFrom_iff {seen : List Text} :
    distinctFrom seen values = true ↔ values.Nodup ∧ ∀ v ∈ values, v ∉ seen := by
  induction values generalizing seen with
  | nil => simp [distinctFrom]
  | cons v values ih =>
    simp only [distinctFrom, Bool.and_eq_true, Bool.not_eq_true', ← Bool.not_eq_true, List.contains_iff_mem, ih,
      List.nodup_cons, List.forall_mem_cons]
    constructor
    · rintro ⟨new, nodup, rest⟩
      refine ⟨⟨?_, nodup⟩, new, ?_⟩
      · intro again
        exact rest v again List.mem_cons_self
      · intro w hw old
        exact rest w hw (List.mem_cons_of_mem _ old)
    · rintro ⟨⟨fresh, nodup⟩, new, rest⟩
      refine ⟨new, nodup, ?_⟩
      intro w hw old
      rcases List.mem_cons.mp old with rfl | old
      · exact fresh hw
      · exact rest w hw old

@[simp] theorem distinct_iff : distinct values = true ↔ values.Nodup := by
  simp [distinct, distinctFrom_iff]

/-- The second list need not be looked at for repetitions: it is as long as the first. -/
theorem sameSet_iff : sameSet a b = true ↔ a.Nodup ∧ a.Perm b := by
  have checks : sameSet a b = true ↔ (a.Nodup ∧ b.Nodup ∧ a.length = b.length) ∧ ∀ v ∈ a, v ∈ b := by
    unfold sameSet
    split
    · rename_i refused
      refine iff_of_false nofun ?_
      rintro ⟨⟨first, second, length⟩, -⟩
      rw [distinct_iff.mpr first, distinct_iff.mpr second, length] at refused
      simp at refused
    · rename_i passed
      simp only [Bool.or_eq_true, Bool.not_eq_true', bne_iff_ne, not_or,
        Bool.not_eq_false, distinct_iff, not_not] at passed
      simp only [List.all_eq_true, List.contains_iff_mem]
      exact (and_iff_right ⟨passed.1.1, passed.1.2, passed.2⟩).symm
  rw [checks]
  constructor
  · rintro ⟨⟨nodup, -, length⟩, known⟩
    exact ⟨nodup, (List.subperm_of_subset nodup known).perm_of_length_le length.ge⟩
  · rintro ⟨nodup, perm⟩
    exact ⟨⟨nodup, perm.nodup_iff.mp nodup, perm.length_eq⟩, fun v hv => perm.mem_iff.mp hv⟩

theorem tokenProfile_sameSet_iff : TokenProfile.sameSet a b = true ↔ a.Nodup ∧ a.Perm b :=
  ⟨TokenProfile.sameSet_perm, fun h => TokenProfile.sameSet_of_perm (h.2.nodup_iff.mp h.1) h.2⟩

/-- The issuer, the resource gate and the adapter mean the same set by a list. -/
theorem set_comparisons_agree (a b : List Text) :
    (TokenProfile.sameSet a b = true ↔ a.Nodup ∧ a.Perm b) ∧
    TokenProfile.sameSet a b = TokenProfile.sameSet b a ∧
    (∀ c, TokenProfile.sameSet a b = true → TokenProfile.sameSet b c = true → TokenProfile.sameSet a c = true) ∧
    TokenProfile.sameSet a b = sameSet a b ∧
    (Ory.Clients.equalStringSet a b = true ↔ a.Perm b) ∧
    (a.Nodup → TokenProfile.sameSet a b = Ory.Clients.equalStringSet a b ∧
      sameSet a b = Ory.Clients.equalStringSet a b) := by
  refine ⟨tokenProfile_sameSet_iff, ?_, ?_, ?_, equalStringSet_iff, ?_⟩
  · rw [Bool.eq_iff_iff, tokenProfile_sameSet_iff, tokenProfile_sameSet_iff]
    constructor
    · rintro ⟨nodup, perm⟩
      exact ⟨perm.nodup_iff.mp nodup, perm.symm⟩
    · rintro ⟨nodup, perm⟩
      exact ⟨perm.nodup_iff.mp nodup, perm.symm⟩
  · intro c first second
    rw [tokenProfile_sameSet_iff] at *
    exact ⟨first.1, first.2.trans second.2⟩
  · rw [Bool.eq_iff_iff, tokenProfile_sameSet_iff, sameSet_iff]
  · intro nodup
    constructor
    · rw [Bool.eq_iff_iff, tokenProfile_sameSet_iff, equalStringSet_iff, and_iff_right nodup]
    · rw [Bool.eq_iff_iff, sameSet_iff, equalStringSet_iff, and_iff_right nodup]

end WorkloadResource
