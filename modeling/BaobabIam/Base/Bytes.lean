import BaobabIam.Base.Text

/-! The bytes of a text, and the text of any bytes: bytes that begin no character stand
for the replacement character, one each. -/
namespace Text

def bytes (t : Text) : List UInt8 := t.flatMap String.utf8EncodeChar

def runes : Nat → List UInt8 → Text
  | 0, _ => []
  | _, [] => []
  | n + 1, b :: bs =>
    match (b :: bs).toByteArray.utf8DecodeChar? 0 with
    | some c => c :: runes n ((b :: bs).drop c.utf8Size)
    | none => Char.ofNat 0xfffd :: runes n bs

def ofBytes (bs : List UInt8) : Text := runes bs.length bs

theorem length_bytes (t : Text) : (bytes t).length = t.size := by
  induction t with
  | nil => rfl
  | cons c t ih =>
    have rest : (List.flatMap String.utf8EncodeChar t).length = size t := ih
    rw [bytes, List.flatMap_cons, List.length_append, String.length_utf8EncodeChar, rest, size_cons]

theorem runes_cons (n : Nat) (c : Char) (bs : List UInt8) :
    runes (n + 1) (String.utf8EncodeChar c ++ bs) = c :: runes n bs := by
  have size : (String.utf8EncodeChar c).length = c.utf8Size := String.length_utf8EncodeChar c
  have decoded : (String.utf8EncodeChar c ++ bs).toByteArray.utf8DecodeChar? 0 = some c := by
    rw [List.toByteArray_append]
    exact ByteArray.utf8DecodeChar?_utf8EncodeChar_append
  have rest : (String.utf8EncodeChar c ++ bs).drop c.utf8Size = bs := by
    rw [← size, List.drop_left]
  cases encoded : String.utf8EncodeChar c ++ bs with
  | nil =>
    have positive := Char.utf8Size_pos c
    rw [← size, (List.append_eq_nil_iff.mp encoded).1] at positive
    cases positive
  | cons b tail =>
    rw [encoded] at decoded rest
    rw [runes, decoded]
    exact congrArg (fun r => c :: runes n r) rest

theorem ofBytes_bytes (t : Text) : ofBytes (bytes t) = t := by
  have enough : ∀ n, t.length ≤ n → runes n (bytes t) = t := by
    induction t with
    | nil =>
      intro n _
      cases n <;> rfl
    | cons c t ih =>
      intro n fuel
      obtain ⟨m, rfl⟩ : ∃ m, n = m + 1 := ⟨n - 1, by simp only [List.length_cons] at fuel; omega⟩
      have shape : bytes (c :: t) = String.utf8EncodeChar c ++ bytes t := List.flatMap_cons
      rw [shape, runes_cons, ih m (by simpa using fuel)]
  apply enough
  rw [length_bytes]
  exact length_le_size t

end Text
