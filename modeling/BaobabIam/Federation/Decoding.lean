import BaobabIam.Federation.Validate

/-! Strict decoding: duplicate, null and trailing values are refused, and so is a
record of more than 65536 bytes. What is stored within the limit is read back. -/
namespace Federation

open Wire

/- Duplicate member names and nulls are refused at every depth. -/
mutual
def uniqueJSON : Json → Bool
  | .null => false
  | .arr xs => uniqueElems xs
  | .obj ms => decide (ms.map Prod.fst).Nodup && uniqueMembers ms
  | _ => true
def uniqueElems : List Json → Bool
  | [] => true
  | x :: xs => uniqueJSON x && uniqueElems xs
def uniqueMembers : List (Text × Json) → Bool
  | [] => true
  | (_, x) :: ms => uniqueJSON x && uniqueMembers ms
end

mutual
theorem uniqueJSON_plain (j : Json) (h : Plain j) : uniqueJSON j = true := by
  match j with
  | .null => rw [Plain] at h; exact h.elim
  | .bool _ => simp [uniqueJSON]
  | .num _ => simp [uniqueJSON]
  | .str _ => simp [uniqueJSON]
  | .arr xs =>
    rw [Plain] at h
    rw [uniqueJSON]
    exact uniqueElems_plain xs h
  | .obj ms =>
    rw [Plain] at h
    rw [uniqueJSON, uniqueMembers_plain ms h.1]
    simp [h.2]
theorem uniqueElems_plain (xs : List Json) (h : PlainElems xs) : uniqueElems xs = true := by
  match xs with
  | [] => rw [uniqueElems]
  | x :: xs =>
    rw [PlainElems] at h
    rw [uniqueElems, uniqueJSON_plain x h.1, uniqueElems_plain xs h.2]
    rfl
theorem uniqueMembers_plain (ms : Members) (h : PlainMembers ms) : uniqueMembers ms = true := by
  match ms with
  | [] => rw [uniqueMembers]
  | (_, x) :: ms =>
    rw [PlainMembers] at h
    rw [uniqueMembers, uniqueJSON_plain x h.1, uniqueMembers_plain ms h.2]
    rfl
end

/-- A record of at most 65536 bytes; the text of a missing key is empty. -/
def decodeAuthority {α : Type} [Codec α] (data : Text) : Option α :=
  if data.isEmpty || 65536 < data.size then none
  else
    match parse data with
    | none => none
    | some j => if uniqueJSON j then Codec.decode j else none

/-- A value is read back exactly when it can be written within the limit. -/
def Storable {α : Type} [c : Codec α] (a : α) : Prop :=
  (c.encode a).isSome = true ∧ jsonSize a ≤ 65536

theorem decodeAuthority_nil {α : Type} [Codec α] : (decodeAuthority [] : Option α) = none := rfl

theorem decodeAuthority_marshal {α : Type} [c : Codec α] {a : α} (h : Storable a) :
    decodeAuthority (marshal a) = some a := by
  obtain ⟨encodes, small⟩ := h
  obtain ⟨j, hj⟩ := Option.isSome_iff_exists.mp encodes
  have plain := Codec.plain_encode a j hj
  have fits := size_marshal a
  rw [marshal_encode hj] at fits ⊢
  have nonempty : (render j).isEmpty = false := by
    simpa using render_ne_nil j plain
  have limit : ¬ 65536 < (render j).size := by omega
  simp only [decodeAuthority, nonempty, decide_eq_false limit, parse_render j plain,
    uniqueJSON_plain j plain, Codec.decode_encode a j hj, Bool.or_false, if_true,
    Bool.false_eq_true, if_false]

theorem bind_of_getD {α : Type} [Codec α] {o : Option Text} {a : α} (h : decodeAuthority (o.getD []) = some a) :
    o.bind decodeAuthority = some a := by
  cases o with
  | none => cases h
  | some raw => exact h

theorem decodeAuthority_inv {α : Type} [c : Codec α] {a b : α}
    (h : decodeAuthority (marshal a) = some b) : b = a ∧ Storable a := by
  cases encodes : (c.encode a).isSome with
  | false =>
    rw [marshal_none encodes, decodeAuthority_nil] at h
    cases h
  | true =>
    by_cases small : jsonSize a ≤ 65536
    · have back := decodeAuthority_marshal (a := a) ⟨encodes, small⟩
      rw [back] at h
      cases h
      exact ⟨rfl, encodes, small⟩
    · have large : decide (65536 < (marshal a).size) = true := by
        rw [size_marshal]
        simpa using small
      simp [decodeAuthority, large] at h

end Federation
