import BaobabIam.Base.JsonText

/-! Documents on several lines: every element and member has a line of its own, further
in by its depth. The reader passes over the white space and finds the same value. -/
namespace Wire

section Writer

def line (w depth : Nat) : Text := '\n' :: List.replicate (w * depth) ' '

mutual
/-- A value at this depth, with `w` blanks for each level, followed by `k`. -/
def writeIndent (w : Nat) : Nat → Json → Text → Text
  | d, .arr (x :: xs), k => '[' :: (line w (d + 1) ++ writeIndent w (d + 1) x (writeIndentElems w d xs k))
  | d, .obj ((name, x) :: ms), k =>
    '{' :: (line w (d + 1) ++ '"' ::
      writeString name (':' :: ' ' :: writeIndent w (d + 1) x (writeIndentMembers w d ms k)))
  -- nothing is put inside an empty array or object
  | _, j, k => write j k
def writeIndentElems (w : Nat) : Nat → List Json → Text → Text
  | d, [], k => line w d ++ ']' :: k
  | d, x :: xs, k => ',' :: (line w (d + 1) ++ writeIndent w (d + 1) x (writeIndentElems w d xs k))
def writeIndentMembers (w : Nat) : Nat → List (Text × Json) → Text → Text
  | d, [], k => line w d ++ '}' :: k
  | d, (name, x) :: ms, k =>
    ',' :: (line w (d + 1) ++ '"' ::
      writeString name (':' :: ' ' :: writeIndent w (d + 1) x (writeIndentMembers w d ms k)))
end

end Writer

section Spaces

variable {s t : Text}

theorem skipSpace_blanks (n : Nat) (t : Text) : skipSpace (List.replicate n ' ' ++ t) = skipSpace t := by
  induction n with
  | zero => rfl
  | succ n ih =>
    rw [List.replicate_succ, List.cons_append, skipSpace, if_pos (by decide)]
    exact ih

theorem skipSpace_line (w d : Nat) (t : Text) : skipSpace (line w d ++ t) = skipSpace t := by
  rw [line, List.cons_append, skipSpace, if_pos (by decide)]
  exact skipSpace_blanks _ t

theorem readValue_skip (n : Nat) (same : skipSpace s = skipSpace t) : readValue n s = readValue n t := by
  cases n with
  | zero => rfl
  | succ n => rw [readValue, readValue, same]

theorem readElems_skip (n : Nat) (same : skipSpace s = skipSpace t) : readElems n s = readElems n t := by
  cases n with
  | zero => rfl
  | succ n => rw [readElems, readElems, same]

theorem readMember_skip (n : Nat) (same : skipSpace s = skipSpace t) : readMember n s = readMember n t := by
  cases n with
  | zero => rfl
  | succ n => rw [readMember, readMember, same]

theorem readMembers_skip (n : Nat) (same : skipSpace s = skipSpace t) : readMembers n s = readMembers n t := by
  cases n with
  | zero => rfl
  | succ n => rw [readMembers, readMembers, same]

theorem skipSpace_blank (t : Text) : skipSpace (' ' :: t) = skipSpace t := skipSpace_blanks 1 t

theorem stops_line (w d : Nat) (t : Text) : Stops (line w d ++ t) := by
  intro c r shape
  cases shape
  decide

end Spaces

section Reader

variable {w : Nat}

theorem writeIndent_starts (d : Nat) (j : Json) (k : Text) (plain : Plain j) :
    ∃ c t, writeIndent w d j k = c :: t ∧ isSpace c = false ∧ c ≠ ']' := by
  match j, plain with
  | .arr (x :: xs), _ => exact ⟨'[', _, by rw [writeIndent], by decide, by decide⟩
  | .obj ((name, x) :: ms), _ => exact ⟨'\x7b', _, by rw [writeIndent], by decide, by decide⟩
  | .arr [], plain => exact write_starts _ k plain
  | .obj [], plain => exact write_starts _ k plain
  | .bool b, plain => exact write_starts _ k plain
  | .num literal, plain => exact write_starts _ k plain
  | .str s, plain => exact write_starts _ k plain

theorem stops_indentElems (d : Nat) (xs : List Json) (k : Text) : Stops (writeIndentElems w d xs k) := by
  cases xs with
  | nil => exact stops_line w d _
  | cons x xs => exact stops_cons _ _ (by simp)

theorem stops_indentMembers (d : Nat) (ms : Members) (k : Text) : Stops (writeIndentMembers w d ms k) := by
  rcases ms with _ | ⟨⟨name, x⟩, ms⟩
  · exact stops_line w d _
  · exact stops_cons _ _ (by simp)

-- As for documents on one line, by the fuel; the lines are passed over by the skip rules.
mutual
theorem readValue_writeIndent (d : Nat) (j : Json) (n : Nat) (k : Text) (plain : Plain j) (fuel : need j ≤ n)
    (stop : Stops k) : readValue n (writeIndent w d j k) = some (j, k) := by
  match j, plain, fuel with
  | .arr (x :: xs), plain, fuel =>
    rw [Plain, PlainElems] at plain
    rw [need] at fuel
    obtain ⟨m, rfl⟩ : ∃ m, n = m + 1 := ⟨n - 1, by omega⟩
    have first := readValue_writeIndent (d + 1) x m (writeIndentElems w d xs k) plain.1 (by omega)
      (stops_indentElems d xs k)
    have rest := readElems_writeIndent d xs m k plain.2 (by have := need_pos x; omega)
    obtain ⟨c, t, hw, space, close⟩ := writeIndent_starts (w := w) (d + 1) x (writeIndentElems w d xs k) plain.1
    rw [hw] at first
    rw [writeIndent, hw, readValue, skipSpace_cons (by decide)]
    simp only [Char.reduceEq, if_true, if_false, skipSpace_line, skipSpace_cons space, if_neg close, first, rest,
      Option.map_some]
  | .obj ((name, x) :: ms), plain, fuel =>
    rw [Plain, PlainMembers] at plain
    rw [need] at fuel
    obtain ⟨m, rfl⟩ : ∃ m, n = m + 1 := ⟨n - 1, by omega⟩
    have members := readMember_writeIndent d name x ms m k plain.1.1 plain.1.2 (by omega)
    rw [writeIndent, readValue, skipSpace_cons (by decide)]
    simp only [Char.reduceEq, if_true, if_false, skipSpace_line, skipSpace_cons (show isSpace '"' = false by decide),
      members, Option.map_some]
  | .arr [], plain, fuel => exact readValue_write _ n k plain fuel stop
  | .obj [], plain, fuel => exact readValue_write _ n k plain fuel stop
  | .bool b, plain, fuel => exact readValue_write _ n k plain fuel stop
  | .num literal, plain, fuel => exact readValue_write _ n k plain fuel stop
  | .str s, plain, fuel => exact readValue_write _ n k plain fuel stop
termination_by n
theorem readElems_writeIndent (d : Nat) (xs : List Json) (n : Nat) (k : Text) (plain : PlainElems xs)
    (fuel : needElems xs ≤ n) : readElems n (writeIndentElems w d xs k) = some (xs, k) := by
  match xs, plain, fuel with
  | [], _, fuel =>
    rw [needElems] at fuel
    obtain ⟨m, rfl⟩ : ∃ m, n = m + 1 := ⟨n - 1, by omega⟩
    rw [writeIndentElems, readElems_skip _ (skipSpace_line w d _)]
    simp [readElems, skipSpace, isSpace]
  | x :: xs, plain, fuel =>
    rw [PlainElems] at plain
    rw [needElems] at fuel
    obtain ⟨m, rfl⟩ : ∃ m, n = m + 1 := ⟨n - 1, by omega⟩
    have first := readValue_writeIndent (d + 1) x m (writeIndentElems w d xs k) plain.1 (by omega)
      (stops_indentElems d xs k)
    have rest := readElems_writeIndent d xs m k plain.2 (by omega)
    rw [writeIndentElems, readElems, skipSpace_cons (by decide)]
    simp only [Char.reduceEq, if_true, if_false, readValue_skip _ (skipSpace_line w (d + 1) _), first, rest,
      Option.map_some]
termination_by n
theorem readMember_writeIndent (d : Nat) (name : Text) (x : Json) (ms : Members) (n : Nat) (k : Text)
    (plain : Plain x) (others : PlainMembers ms) (fuel : name.length + need x + needMembers ms + 2 ≤ n) :
    readMember n ('"' :: writeString name (':' :: ' ' :: writeIndent w (d + 1) x (writeIndentMembers w d ms k))) =
      some ((name, x) :: ms, k) := by
  obtain ⟨m, rfl⟩ : ∃ m, n = m + 1 := ⟨n - 1, by omega⟩
  have string := readString_write name (':' :: ' ' :: writeIndent w (d + 1) x (writeIndentMembers w d ms k))
    m (by omega)
  have value := readValue_writeIndent (d + 1) x m (writeIndentMembers w d ms k) plain (by omega)
    (stops_indentMembers d ms k)
  have rest := readMembers_writeIndent d ms m k others (by omega)
  rw [readMember, skipSpace_cons (by decide)]
  simp only [if_true, string, skipSpace_cons (show isSpace ':' = false by decide), readValue_skip _ (skipSpace_blank _),
    value, rest, Option.map_some]
termination_by n
theorem readMembers_writeIndent (d : Nat) (ms : Members) (n : Nat) (k : Text) (plain : PlainMembers ms)
    (fuel : needMembers ms ≤ n) : readMembers n (writeIndentMembers w d ms k) = some (ms, k) := by
  match ms, plain, fuel with
  | [], _, fuel =>
    rw [needMembers] at fuel
    obtain ⟨m, rfl⟩ : ∃ m, n = m + 1 := ⟨n - 1, by omega⟩
    rw [writeIndentMembers, readMembers_skip _ (skipSpace_line w d _)]
    simp [readMembers, skipSpace, isSpace]
  | (name, x) :: ms, plain, fuel =>
    rw [PlainMembers] at plain
    rw [needMembers] at fuel
    obtain ⟨m, rfl⟩ : ∃ m, n = m + 1 := ⟨n - 1, by omega⟩
    have member := readMember_writeIndent d name x ms m k plain.1 plain.2 (by omega)
    rw [writeIndentMembers, readMembers, skipSpace_cons (by decide)]
    simp only [Char.reduceEq, if_true, if_false, readMember_skip _ (skipSpace_line w (d + 1) _), member]
termination_by n
end

theorem writeString_mono (s : Text) {k l : Text} (h : k.length ≤ l.length) :
    (writeString s k).length ≤ (writeString s l).length := by
  induction s with
  | nil => simpa [writeString] using h
  | cons c s ih => simpa [writeString] using ih

-- The lines only add to the text on one line.
mutual
theorem write_le_writeIndent (d : Nat) (j : Json) {k l : Text} (h : k.length ≤ l.length) :
    (write j k).length ≤ (writeIndent w d j l).length := by
  match j with
  | .arr (x :: xs) =>
    have first := write_le_writeIndent (d + 1) x (writeElems_le_writeIndent d xs h)
    simp only [write, writeIndent, List.length_cons, List.length_append]
    omega
  | .obj ((name, x) :: ms) =>
    have first := write_le_writeIndent (d + 1) x (writeMembers_le_writeIndent d ms h)
    have string := writeString_mono name (k := ':' :: write x (writeMembers ms k))
      (l := ':' :: ' ' :: writeIndent w (d + 1) x (writeIndentMembers w d ms l))
      (by simp only [List.length_cons]; omega)
    simp only [write, writeIndent, List.length_cons, List.length_append]
    omega
  | .arr [] => simpa [write, writeIndent] using h
  | .obj [] => simpa [write, writeIndent] using h
  | .null => simpa [write, writeIndent] using h
  | .bool true => simpa [write, writeIndent] using h
  | .bool false => simpa [write, writeIndent] using h
  | .num literal => simpa [write, writeIndent] using h
  | .str s =>
    have string := writeString_mono s h
    simpa [write, writeIndent] using string
theorem writeElems_le_writeIndent (d : Nat) (xs : List Json) {k l : Text} (h : k.length ≤ l.length) :
    (writeElems xs k).length ≤ (writeIndentElems w d xs l).length := by
  match xs with
  | [] =>
    simp only [writeElems, writeIndentElems, List.length_cons, List.length_append]
    omega
  | x :: xs =>
    have first := write_le_writeIndent (d + 1) x (writeElems_le_writeIndent d xs h)
    simp only [writeElems, writeIndentElems, List.length_cons, List.length_append]
    omega
theorem writeMembers_le_writeIndent (d : Nat) (ms : Members) {k l : Text} (h : k.length ≤ l.length) :
    (writeMembers ms k).length ≤ (writeIndentMembers w d ms l).length := by
  match ms with
  | [] =>
    simp only [writeMembers, writeIndentMembers, List.length_cons, List.length_append]
    omega
  | (name, x) :: ms =>
    have first := write_le_writeIndent (d + 1) x (writeMembers_le_writeIndent d ms h)
    have string := writeString_mono name (k := ':' :: write x (writeMembers ms k))
      (l := ':' :: ' ' :: writeIndent w (d + 1) x (writeIndentMembers w d ms l))
      (by simp only [List.length_cons]; omega)
    simp only [writeMembers, writeIndentMembers, List.length_cons, List.length_append]
    omega
end

/-- A document on several lines, with a line break after it, is read back. -/
theorem parse_writeIndent (w : Nat) (j : Json) (plain : Plain j) : parse (writeIndent w 0 j ['\n']) = some j := by
  have enough := need_le_length j [] plain
  have longer := write_le_writeIndent (w := w) 0 j (k := []) (l := ['\n']) (Nat.zero_le _)
  have read := readValue_writeIndent (w := w) 0 j ((writeIndent w 0 j ['\n']).length + 1) ['\n'] plain
    (by simp only [List.length_nil] at enough; omega) (stops_line 0 0 [])
  rw [parse, read]
  rfl

end Reader

end Wire
