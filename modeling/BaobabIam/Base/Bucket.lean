import BaobabIam.Base.Text
import Mathlib.Data.List.Nodup
import Mathlib.Data.List.Perm.Subperm

/-! A bucket of a key-value store: a finite map from texts, iterated in the order
of the keys' bytes. UTF-8 keeps the order of code points, so keys are compared
character by character. -/

def keyLt : Text → Text → Bool
  | _, [] => false
  | [], _ :: _ => true
  | a :: s, b :: t => if a.toNat = b.toNat then keyLt s t else decide (a.toNat < b.toNat)

theorem keyLt_irrefl (s : Text) : keyLt s s = false := by
  induction s with
  | nil => rfl
  | cons a s ih => simp [keyLt, ih]

theorem keyLt_trans {r s t : Text} (h : keyLt r s = true) (k : keyLt s t = true) :
    keyLt r t = true := by
  induction r generalizing s t with
  | nil =>
    cases t with
    | nil => cases s <;> cases k
    | cons c t => rfl
  | cons a r ih =>
    cases s with
    | nil => cases h
    | cons b s =>
      cases t with
      | nil => cases k
      | cons c t =>
        unfold keyLt at h k ⊢
        by_cases ab : a.toNat = b.toNat
        · rw [if_pos ab] at h
          by_cases bc : b.toNat = c.toNat
          · rw [if_pos bc] at k
            rw [if_pos (ab.trans bc)]
            exact ih h k
          · rw [if_neg bc] at k
            rw [if_neg (ab ▸ bc), ab]
            exact k
        · rw [if_neg ab] at h
          have hab := of_decide_eq_true h
          by_cases bc : b.toNat = c.toNat
          · rw [if_neg (by omega)]
            exact decide_eq_true (by omega)
          · rw [if_neg bc] at k
            have hbc := of_decide_eq_true k
            rw [if_neg (by omega)]
            exact decide_eq_true (by omega)

theorem keyLt_total (s t : Text) : s = t ∨ keyLt s t = true ∨ keyLt t s = true := by
  induction s generalizing t with
  | nil =>
    cases t with
    | nil => exact Or.inl rfl
    | cons b t => exact Or.inr (Or.inl rfl)
  | cons a s ih =>
    cases t with
    | nil => exact Or.inr (Or.inr rfl)
    | cons b t =>
      unfold keyLt
      by_cases ab : a.toNat = b.toNat
      · have hc : a = b := by rw [← Char.ofNat_toNat a, ab, Char.ofNat_toNat]
        rw [if_pos ab, if_pos ab.symm]
        rcases ih t with h | h | h
        · exact Or.inl (by rw [hc, h])
        · exact Or.inr (Or.inl h)
        · exact Or.inr (Or.inr h)
      · rw [if_neg ab, if_neg (Ne.symm ab)]
        rcases Nat.lt_or_gt_of_ne ab with h | h
        · exact Or.inr (Or.inl (decide_eq_true h))
        · exact Or.inr (Or.inr (decide_eq_true h))

structure Bucket where
  entries : List (Text × Text)
  sorted : entries.Pairwise (fun a b => keyLt a.1 b.1 = true)

namespace Bucket

def empty : Bucket := ⟨[], List.Pairwise.nil⟩

def find : List (Text × Text) → Text → Option Text
  | [], _ => none
  | e :: es, k => if e.1 = k then some e.2 else find es k

def get (b : Bucket) (k : Text) : Option Text := find b.entries k

def insert : List (Text × Text) → Text → Text → List (Text × Text)
  | [], k, v => [(k, v)]
  | e :: es, k, v =>
    if e.1 = k then (k, v) :: es
    else if keyLt k e.1 then (k, v) :: e :: es
    else e :: insert es k v

theorem insert_keys {es : List (Text × Text)} {k v : Text} {e : Text × Text}
    (h : e ∈ insert es k v) : e.1 = k ∨ e ∈ es := by
  induction es with
  | nil => simp only [insert, List.mem_singleton] at h; exact Or.inl (by rw [h])
  | cons d es ih =>
    unfold insert at h
    split at h
    · rcases List.mem_cons.mp h with h | h
      · exact Or.inl (by rw [h])
      · exact Or.inr (List.mem_cons_of_mem _ h)
    · split at h
      · rcases List.mem_cons.mp h with h | h
        · exact Or.inl (by rw [h])
        · exact Or.inr h
      · rcases List.mem_cons.mp h with h | h
        · exact Or.inr (by rw [h]; exact List.mem_cons_self)
        · rcases ih h with h | h
          · exact Or.inl h
          · exact Or.inr (List.mem_cons_of_mem _ h)

theorem insert_sorted (es : List (Text × Text)) (k v : Text)
    (h : es.Pairwise (fun a b => keyLt a.1 b.1 = true)) :
    (insert es k v).Pairwise (fun a b => keyLt a.1 b.1 = true) := by
  induction es with
  | nil => exact List.pairwise_singleton _ _
  | cons e es ih =>
    have first := (List.pairwise_cons.mp h).1
    have rest := (List.pairwise_cons.mp h).2
    unfold insert
    split
    · rename_i same
      exact List.pairwise_cons.mpr ⟨fun d hd => same ▸ first d hd, rest⟩
    · rename_i other
      split
      · rename_i below
        refine List.pairwise_cons.mpr ⟨?_, h⟩
        intro d hd
        rcases List.mem_cons.mp hd with hd | hd
        · rw [hd]; exact below
        · exact keyLt_trans below (first d hd)
      · rename_i notBelow
        have above : keyLt e.1 k = true := by
          rcases keyLt_total e.1 k with h | h | h
          · exact absurd h other
          · exact h
          · exact absurd h notBelow
        refine List.pairwise_cons.mpr ⟨?_, ih rest⟩
        intro d hd
        rcases insert_keys hd with hd | hd
        · rw [hd]; exact above
        · exact first d hd

def put (b : Bucket) (k v : Text) : Bucket := ⟨insert b.entries k v, insert_sorted b.entries k v b.sorted⟩

def delete (b : Bucket) (k : Text) : Bucket :=
  ⟨b.entries.filter (fun e => e.1 ≠ k), b.sorted.filter _⟩

def discard (b : Bucket) (p : Text → Bool) : Bucket := ⟨b.entries.filter (fun e => !p e.1), b.sorted.filter _⟩

/-- `Stats().KeyN`. -/
def keyN (b : Bucket) : Nat := b.entries.length

def keys (b : Bucket) : List Text := b.entries.map Prod.fst

theorem eq_of_entries {b c : Bucket} (h : b.entries = c.entries) : b = c := by
  cases b
  cases c
  subst h
  rfl

theorem delete_discard (b : Bucket) (k : Text) (p : Text → Bool) :
    (b.delete k).discard p = b.discard (fun k' => decide (k' = k) || p k') := by
  apply eq_of_entries
  change (b.entries.filter _).filter _ = _
  rw [List.filter_filter]
  apply List.filter_congr
  intro e _
  by_cases same : e.1 = k <;> simp [same]

theorem discard_congr {b : Bucket} {p q : Text → Bool} (same : ∀ k ∈ b.keys, p k = q k) :
    b.discard p = b.discard q := by
  apply eq_of_entries
  apply List.filter_congr
  intro e he
  rw [same e.1 (List.mem_map_of_mem he)]

theorem discard_none (b : Bucket) : b.discard (fun _ => false) = b :=
  eq_of_entries (List.filter_eq_self.mpr (fun _ _ => rfl))

theorem keys_discard (b : Bucket) (p : Text → Bool) : (b.discard p).keys = b.keys.filter (fun k => !p k) := by
  unfold discard keys
  rw [List.filter_map]
  rfl

theorem keys_sorted (b : Bucket) : b.keys.Pairwise (fun a b => keyLt a b = true) := List.pairwise_map.mpr b.sorted

theorem keys_nodup (b : Bucket) : b.keys.Nodup := by
  apply b.keys_sorted.imp
  rintro k k' below rfl
  rw [keyLt_irrefl] at below
  cases below

@[simp] theorem get_empty (k : Text) : empty.get k = none := rfl

theorem find_insert (es : List (Text × Text)) (k v k' : Text) :
    find (insert es k v) k' = if k' = k then some v else find es k' := by
  induction es with
  | nil => simp [insert, find, eq_comm]
  | cons e es ih =>
    unfold insert
    by_cases he : e.1 = k
    · rw [if_pos he]
      simp only [find, he]
      by_cases hk : k' = k
      · simp [hk]
      · simp [hk, Ne.symm hk]
    · rw [if_neg he]
      split
      · simp only [find]
        by_cases hk : k' = k
        · simp [hk]
        · simp [hk, Ne.symm hk]
      · simp only [find, ih]
        by_cases hk : k' = k
        · simp [hk, he]
        · simp [hk]

theorem get_put (b : Bucket) (k v k' : Text) :
    (b.put k v).get k' = if k' = k then some v else b.get k' := find_insert b.entries k v k'

@[simp] theorem get_put_self (b : Bucket) (k v : Text) : (b.put k v).get k = some v := by
  simp [get_put]

theorem get_put_ne (b : Bucket) {k k' : Text} (v : Text) (h : k' ≠ k) :
    (b.put k v).get k' = b.get k' := by
  simp [get_put, h]

theorem get_delete (b : Bucket) (k k' : Text) :
    (b.delete k).get k' = if k' = k then none else b.get k' := by
  unfold delete get
  dsimp only
  induction b.entries with
  | nil => simp [find]
  | cons e es ih =>
    by_cases he : e.1 = k
    · rw [List.filter_cons_of_neg (by simpa using he), ih]
      by_cases hk : k' = k
      · simp [hk]
      · simp [hk, find, he, Ne.symm hk]
    · rw [List.filter_cons_of_pos (by simpa using he)]
      simp only [find, ih]
      by_cases hk : k' = k
      · simp [hk, he]
      · simp [hk]

theorem find_mem (es : List (Text × Text)) (k v : Text) (h : find es k = some v) : (k, v) ∈ es := by
  induction es with
  | nil => cases h
  | cons e es ih =>
    unfold find at h
    split at h
    · rename_i he
      have hv := Option.some.inj h
      rw [← he, ← hv]
      exact List.mem_cons_self
    · exact List.mem_cons_of_mem _ (ih h)

theorem mem_entries (b : Bucket) (k v : Text) : (k, v) ∈ b.entries ↔ b.get k = some v := by
  refine ⟨?_, find_mem b.entries k v⟩
  obtain ⟨es, hs⟩ := b
  unfold get
  induction es with
  | nil => intro h; cases h
  | cons e es ih =>
    intro h
    have first := (List.pairwise_cons.mp hs).1
    unfold find
    rcases List.mem_cons.mp h with h | h
    · rw [← h, if_pos rfl]
    · have hne : e.1 ≠ k := by
        intro he
        have below := first (k, v) h
        rw [he, keyLt_irrefl] at below
        cases below
      rw [if_neg hne]
      exact ih (List.pairwise_cons.mp hs).2 h

theorem mem_keys {b : Bucket} {k : Text} : k ∈ b.keys ↔ ∃ v, b.get k = some v := by
  unfold keys
  simp only [List.mem_map, Prod.exists, mem_entries]
  constructor
  · rintro ⟨k', v, found, rfl⟩
    exact ⟨v, found⟩
  · rintro ⟨v, found⟩
    exact ⟨k, v, found, rfl⟩

theorem get_discard (b : Bucket) (p : Text → Bool) (k : Text) :
    (b.discard p).get k = if p k then none else b.get k := by
  apply Option.ext
  intro v
  rw [← mem_entries]
  unfold discard
  rw [List.mem_filter, mem_entries]
  by_cases gone : p k = true <;> simp [gone]

theorem keyN_le {b c : Bucket} (f : Text → Text) (into : ∀ k ∈ b.keys, f k ∈ c.keys)
    (distinct : ∀ k ∈ b.keys, ∀ k' ∈ b.keys, f k = f k' → k = k') : b.keyN ≤ c.keyN := by
  have nodup : (b.keys.map f).Nodup := List.Nodup.map_on distinct b.keys_nodup
  have inside : b.keys.map f ⊆ c.keys := by
    intro x hx
    obtain ⟨k, hk, rfl⟩ := List.mem_map.mp hx
    exact into k hk
  have length := (List.subperm_of_subset nodup inside).length_le
  unfold keys at length
  rwa [List.length_map, List.length_map, List.length_map] at length

theorem keyN_put_le (b : Bucket) {k w : Text} (v : Text) (found : b.get k = some w) : (b.put k v).keyN ≤ b.keyN := by
  refine keyN_le id (fun k' hk' => ?_) (fun _ _ _ _ same => same)
  obtain ⟨v', there⟩ := mem_keys.mp hk'
  rw [get_put] at there
  split at there
  · rename_i same
    exact mem_keys.mpr ⟨w, same ▸ found⟩
  · exact mem_keys.mpr ⟨v', there⟩

theorem keyN_put_succ (b : Bucket) (k v : Text) : (b.put k v).keyN ≤ b.keyN + 1 := by
  change (insert b.entries k v).length ≤ b.entries.length + 1
  generalize b.entries = es
  induction es with
  | nil => exact Nat.le_refl 1
  | cons e es ih =>
    unfold insert
    split
    · exact Nat.le_succ _
    · split
      · exact Nat.le_refl _
      · exact Nat.succ_le_succ ih

end Bucket
