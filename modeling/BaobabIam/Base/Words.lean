import BaobabIam.Base.Bucket
import Mathlib.Data.List.DropRight

/-! Lists of words in one text: joined with a separator, split again, and sorted. -/
namespace Text

def fields (t : Text) : List Text := (t.splitOnP isSpace).filter (fun w => !w.isEmpty)

/-- `strings.Join`. -/
def join (sep : Char) (words : List Text) : Text := [sep].intercalate words

variable {w t : Text} {words : List Text} {sep : Char}

theorem fields_word (solid : ∀ c ∈ w, isSpace c = false) (ne : w ≠ []) : fields w = [w] := by
  unfold fields
  rw [List.splitOnP_eq_singleton solid]
  simp [ne]

theorem fields_cons (solid : ∀ c ∈ w, isSpace c = false) (ne : w ≠ []) (t : Text) :
    fields (w ++ ' ' :: t) = w :: fields t := by
  unfold fields
  rw [List.splitOnP_append_cons_of_forall_mem solid ' ' (by decide)]
  simp [ne]

theorem fields_join (solid : ∀ w ∈ words, w ≠ [] ∧ ∀ c ∈ w, isSpace c = false) :
    fields (join ' ' words) = words := by
  unfold join
  induction words with
  | nil => rfl
  | cons w words ih =>
    obtain ⟨ne, none⟩ := solid w List.mem_cons_self
    have rest := ih (fun w' h => solid w' (List.mem_cons_of_mem _ h))
    cases words with
    | nil =>
      rw [List.intercalate_singleton]
      exact fields_word none ne
    | cons w' words =>
      rw [List.intercalate_cons_cons, List.append_assoc, List.singleton_append, fields_cons none ne, rest]

theorem splitOnP_pieces {p : Char → Bool} (h : w ∈ t.splitOnP p) : ∀ c ∈ w, p c = false := by
  induction t generalizing w with
  | nil =>
    rw [List.splitOnP_nil, List.mem_singleton] at h
    subst h
    simp
  | cons x t ih =>
    rw [List.splitOnP_cons_eq_if_modifyHead] at h
    split at h
    · rcases List.mem_cons.mp h with rfl | later
      · simp
      · exact ih later
    · rename_i other
      cases pieces : t.splitOnP p with
      | nil => exact absurd pieces (List.splitOnP_ne_nil p t)
      | cons first rest =>
        rw [pieces, List.modifyHead_cons] at h
        rw [pieces] at ih
        rcases List.mem_cons.mp h with rfl | later
        · intro c hc
          rcases List.mem_cons.mp hc with rfl | hc
          · simpa using other
          · exact ih List.mem_cons_self c hc
        · exact ih (List.mem_cons_of_mem _ later)

theorem fields_solid (h : w ∈ fields t) : w ≠ [] ∧ ∀ c ∈ w, isSpace c = false := by
  obtain ⟨piece, nonempty⟩ := List.mem_filter.mp h
  exact ⟨by simpa using nonempty, splitOnP_pieces piece⟩

theorem fields_join_iff :
    fields (join ' ' words) = words ↔ ∀ w ∈ words, w ≠ [] ∧ ∀ c ∈ w, isSpace c = false := by
  constructor
  · intro same w hw
    rw [← same] at hw
    exact fields_solid hw
  · exact fields_join

theorem mem_join {c : Char} (h : c ∈ join sep words) : c = sep ∨ ∃ w ∈ words, c ∈ w := by
  unfold join at h
  induction words with
  | nil => cases h
  | cons w words ih =>
    cases words with
    | nil =>
      rw [List.intercalate_singleton] at h
      exact .inr ⟨w, List.mem_cons_self, h⟩
    | cons w' words =>
      rw [List.intercalate_cons_cons, List.append_assoc, List.mem_append, List.singleton_append, List.mem_cons] at h
      rcases h with here | rfl | later
      · exact .inr ⟨w, List.mem_cons_self, here⟩
      · exact .inl rfl
      · rcases ih later with sep | ⟨x, hx, hc⟩
        · exact .inl sep
        · exact .inr ⟨x, List.mem_cons_of_mem _ hx, hc⟩

/-- A joined text gives its words back, when the separator is in none of them. -/
theorem join_inj {xs ys : List Text} (hx : ∀ w ∈ xs, sep ∉ w) (hy : ∀ w ∈ ys, sep ∉ w) (nx : xs ≠ [])
    (ny : ys ≠ []) (same : join sep xs = join sep ys) : xs = ys := by
  have split := congrArg (List.splitOn sep) same
  unfold join at split
  rwa [List.splitOn_intercalate sep hx nx, List.splitOn_intercalate sep hy ny] at split

section Trimming

theorem trimSpace_prefix (t : Text) : trimSpace t <+: t.dropWhile isSpace := List.rdropWhile_prefix isSpace _

theorem trimSpace_trimSpace (t : Text) : trimSpace (trimSpace t) = trimSpace t := by
  have front : (trimSpace t).dropWhile isSpace = trimSpace t := by
    obtain ⟨rest, cut⟩ := trimSpace_prefix t
    have head := List.head?_dropWhile_not isSpace t
    rw [← cut] at head
    cases shape : trimSpace t with
    | nil => rfl
    | cons c s =>
      rw [shape] at head
      simp only [List.cons_append, List.head?_cons] at head
      exact List.dropWhile_cons_of_neg (by simp [head])
  calc trimSpace (trimSpace t)
      = ((trimSpace t).dropWhile isSpace).rdropWhile isSpace := rfl
    _ = (trimSpace t).rdropWhile isSpace := by rw [front]
    _ = trimSpace t := List.rdropWhile_idempotent isSpace (t.dropWhile isSpace)

end Trimming

section Ordering

def keyLe (s t : Text) : Bool := !keyLt t s

theorem keyLe_trans {r s t : Text} (h : keyLe r s = true) (k : keyLe s t = true) : keyLe r t = true := by
  unfold keyLe at h k ⊢
  rw [Bool.not_eq_true'] at h k ⊢
  cases below : keyLt t r with
  | false => rfl
  | true =>
    rcases keyLt_total r s with same | less | more
    · rw [← same, below] at k
      cases k
    · rw [keyLt_trans below less] at k
      cases k
    · rw [more] at h
      cases h

theorem keyLe_antisymm {s t : Text} (h : keyLe s t = true) (k : keyLe t s = true) : s = t := by
  unfold keyLe at h k
  rw [Bool.not_eq_true'] at h k
  rcases keyLt_total s t with same | less | more
  · exact same
  · rw [less] at k
    cases k
  · rw [more] at h
    cases h

theorem keyLe_total (s t : Text) : (keyLe s t || keyLe t s) = true := by
  unfold keyLe
  cases h : keyLt t s with
  | false => rfl
  | true =>
    cases k : keyLt s t with
    | false => rfl
    | true =>
      have loop := keyLt_trans h k
      rw [keyLt_irrefl] at loop
      cases loop

/-- `slices.Sort`. -/
def sorted (words : List Text) : List Text := words.mergeSort keyLe

theorem sorted_perm (words : List Text) : (sorted words).Perm words := List.mergeSort_perm words keyLe

theorem sorted_eq {xs ys : List Text} (h : xs.Perm ys) : sorted xs = sorted ys := by
  have order : ∀ words : List Text, (sorted words).Pairwise (fun a b => keyLe a b = true) := by
    intro words
    exact List.pairwise_mergeSort (fun a b c (h : keyLe a b = true) k => keyLe_trans h k) keyLe_total words
  apply List.Perm.eq_of_pairwise (fun _ _ _ _ => keyLe_antisymm) (order xs) (order ys)
  exact ((sorted_perm xs).trans h).trans (sorted_perm ys).symm

end Ordering

end Text
