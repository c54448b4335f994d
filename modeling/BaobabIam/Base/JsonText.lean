import BaobabIam.Base.Json

/-! Reading back what was written. A plain document has no null, no repeated
member name and only natural numbers; the text of a plain document is read as
that document, whatever its strings contain. -/
namespace Wire

mutual
def Plain : Json → Prop
  | .null => False
  | .bool _ => True
  | .num literal => ∃ n, literal = Text.decimal n
  | .str _ => True
  | .arr xs => PlainElems xs
  | .obj ms => PlainMembers ms ∧ (ms.map Prod.fst).Nodup
def PlainElems : List Json → Prop
  | [] => True
  | x :: xs => Plain x ∧ PlainElems xs
def PlainMembers : List (Text × Json) → Prop
  | [] => True
  | (_, x) :: ms => Plain x ∧ PlainMembers ms
end

theorem plainMembers_iff (ms : Members) :
    PlainMembers ms ↔ ∀ m ∈ ms, Plain m.2 := by
  induction ms with
  | nil => simp [PlainMembers]
  | cons m ms ih => simp [PlainMembers, ih]

mutual
def need : Json → Nat
  | .str s => s.length + 2
  | .arr (x :: xs) => need x + needElems xs + 1
  | .obj ((name, x) :: ms) => name.length + need x + needMembers ms + 3
  | _ => 1
def needElems : List Json → Nat
  | [] => 1
  | x :: xs => need x + needElems xs + 1
def needMembers : List (Text × Json) → Nat
  | [] => 1
  | (name, x) :: ms => name.length + need x + needMembers ms + 3
end

theorem hex4_padded (n : Nat) (h : n < 65536) :
    ∃ a b c d, Text.padded 16 4 n = [a, b, c, d] ∧ hex4? a b c d = some n := by
  refine ⟨_, _, _, _, rfl, ?_⟩
  have hv := Text.numeral_padded (b := 16) (by decide) Text.hex_digits 4 n 0
  have hm : n % 16 ^ 4 = n := Nat.mod_eq_of_lt (by simpa using h)
  rw [hm, Nat.zero_mul, Nat.zero_add] at hv
  exact hv

theorem readChar_unicode (c : Char) (t : Text) (small : c.toNat < 0xD800) :
    readChar ('\\' :: 'u' :: (Text.padded 16 4 c.toNat ++ t)) = some (some c, t) := by
  obtain ⟨a, b, d, e, hp, hv⟩ := hex4_padded c.toNat (by omega)
  have outside : ¬ (0xD800 ≤ c.toNat ∧ c.toNat < 0xE000) := by omega
  rw [hp]
  simp only [List.cons_append, List.nil_append, readChar, Char.reduceEq, if_true, if_false, hv,
    if_neg outside, Char.ofNat_toNat]

theorem readChar_escape (c : Char) (t : Text) : readChar (escape c ++ t) = some (some c, t) := by
  have control : ∀ n, c.toNat = n → c = Char.ofNat n := by
    intro n h
    rw [← h, Char.ofNat_toNat]
  unfold escape
  split
  · rename_i h; subst h; rfl
  · rename_i quote
    split
    · rename_i h; subst h; rfl
    · rename_i slash
      split
      · rename_i h; rw [control _ h]; rfl
      · split
        · rename_i h; rw [control _ h]; rfl
        · split
          · rename_i h; rw [control _ h]; rfl
          · split
            · rename_i h; rw [control _ h]; rfl
            · split
              · rename_i h; rw [control _ h]; rfl
              · split
                · rename_i h
                  apply readChar_unicode
                  rcases h with h | rfl | rfl | rfl | h | h
                  · omega
                  · decide
                  · decide
                  · decide
                  · omega
                  · omega
                · rename_i h
                  have printable : ¬ c.toNat < 32 := fun hc => h (Or.inl hc)
                  simp only [List.cons_append, List.nil_append, readChar, if_neg quote, if_neg slash,
                    if_neg printable]

theorem readString_write (s k : Text) (n : Nat) (h : s.length < n) :
    readString n (writeString s k) = some (s, k) := by
  induction s generalizing n with
  | nil =>
    obtain ⟨m, rfl⟩ : ∃ m, n = m + 1 := ⟨n - 1, by simp only [List.length_nil] at h; omega⟩
    rfl
  | cons c s ih =>
    simp only [List.length_cons] at h
    obtain ⟨m, rfl⟩ : ∃ m, n = m + 1 := ⟨n - 1, by omega⟩
    have rest := ih m (by omega)
    simp only [writeString, readString, readChar_escape, rest, Option.map_some]

def Stops (k : Text) : Prop :=
  ∀ c t, k = c :: t → Text.isDigit c = false ∧ c ≠ '.' ∧ c ≠ 'e' ∧ c ≠ 'E'

theorem stops_nil : Stops [] := by
  intro c t h
  cases h

theorem stops_cons (c : Char) (t : Text) (h : c = ',' ∨ c = ']' ∨ c = '}') : Stops (c :: t) := by
  intro d r hd
  have hc := (List.cons.inj hd).1
  subst hc
  rcases h with rfl | rfl | rfl <;> decide

theorem stops_elems (xs : List Json) (k : Text) : Stops (writeElems xs k) := by
  cases xs with
  | nil => exact stops_cons _ _ (by simp)
  | cons x xs => exact stops_cons _ _ (by simp)

theorem stops_members (ms : Members) (k : Text) : Stops (writeMembers ms k) := by
  cases ms with
  | nil => exact stops_cons _ _ (by simp)
  | cons m ms => exact stops_cons _ _ (by simp)

theorem digits_then {ds k : Text} (digits : ∀ d ∈ ds, Text.isDigit d = true) (stop : Stops k) :
    (ds ++ k).takeWhile Text.isDigit = ds ∧ (ds ++ k).dropWhile Text.isDigit = k := by
  induction ds with
  | nil =>
    cases k with
    | nil => exact ⟨rfl, rfl⟩
    | cons c t =>
      have hc := (stop c t rfl).1
      simp [hc]
  | cons d ds ih =>
    have hd := digits d List.mem_cons_self
    have hs := ih (fun e he => digits e (List.mem_cons_of_mem _ he))
    simp [hd, hs.1, hs.2]

theorem digit_dispatch {c : Char} (h : Text.isDigit c = true) :
    isSpace c = false ∧ c ≠ '"' ∧ c ≠ '{' ∧ c ≠ '[' ∧ c ≠ 'n' ∧ c ≠ 't' ∧ c ≠ 'f' ∧
      c ≠ '-' ∧ c ≠ ']' := by
  have lo : 48 ≤ c.toNat ∧ c.toNat ≤ 57 := by simpa [Text.isDigit] using h
  have hc : c = Char.ofNat c.toNat := (Char.ofNat_toNat c).symm
  have all : ∀ n, n < 10 → let c := Char.ofNat (48 + n)
      isSpace c = false ∧ c ≠ '"' ∧ c ≠ '{' ∧ c ≠ '[' ∧ c ≠ 'n' ∧ c ≠ 't' ∧ c ≠ 'f' ∧
        c ≠ '-' ∧ c ≠ ']' := by decide
  have hn := all (c.toNat - 48) (by omega)
  rw [show 48 + (c.toNat - 48) = c.toNat by omega, ← hc] at hn
  exact hn

theorem readNumber_decimal (n : Nat) (k : Text) (stop : Stops k) :
    readNumber (Text.decimal n ++ k) = some (Text.decimal n, k) := by
  obtain ⟨c, r, shape, hc, hr, zero⟩ := Text.decimal_shape n
  have all : ∀ d ∈ c :: r, Text.isDigit d = true := by
    intro d hd
    rcases List.mem_cons.mp hd with rfl | hd
    · exact hc
    · exact hr d hd
  have cut := digits_then all stop
  have digits : readDigits (c :: r ++ k) = some (c :: r, k) := by
    simp only [readDigits, cut.1, cut.2]
  have whole : readInteger (c :: r ++ k) = some (c :: r, k) := by
    unfold readInteger
    rw [digits]
    split
    · rename_i he
      simp only [Option.some.injEq, Prod.mk.injEq, List.cons.injEq] at he
      have := zero he.1.1
      rw [this] at he
      cases he.1.2
    · rfl
  have fraction : readFraction k = some ([], k) := by
    unfold readFraction
    split
    · exact absurd rfl (stop _ _ rfl).2.1
    · rfl
  have exponent : readExponent k = some ([], k) := by
    cases k with
    | nil => rfl
    | cons e t =>
      have he := (stop e t rfl).2.2
      simp [readExponent, he.1, he.2]
  have sign : c ≠ '-' := (digit_dispatch hc).2.2.2.2.2.2.2.1
  rw [shape]
  unfold readNumber
  simp only [List.cons_append, Option.bind_eq_bind]
  rw [← List.cons_append]
  split
  · rename_i he
    exact absurd (List.cons.inj he).1 sign
  · simp only [whole, Option.bind_some, fraction, exponent, List.nil_append, List.append_nil]

theorem write_starts (j : Json) (k : Text) (plain : Plain j) :
    ∃ c t, write j k = c :: t ∧ isSpace c = false ∧ c ≠ ']' := by
  cases j with
  | null => exact absurd plain (by simp [Plain])
  | bool b =>
    cases b with
    | false => exact ⟨'f', _, by rw [write], by decide, by decide⟩
    | true => exact ⟨'t', _, by rw [write], by decide, by decide⟩
  | num literal =>
    rw [Plain] at plain
    obtain ⟨n, hn⟩ := plain
    obtain ⟨c, r, shape, hc, _, _⟩ := Text.decimal_shape n
    have hd := digit_dispatch hc
    exact ⟨c, r ++ k, by rw [write, hn, shape, List.cons_append], hd.1, hd.2.2.2.2.2.2.2.2⟩
  | str s => exact ⟨'"', _, by rw [write], by decide, by decide⟩
  | arr xs =>
    cases xs with
    | nil => exact ⟨'[', _, by rw [write], by decide, by decide⟩
    | cons x xs => exact ⟨'[', _, by rw [write], by decide, by decide⟩
  | obj ms =>
    rcases ms with _ | ⟨⟨name, x⟩, ms⟩
    · exact ⟨'\x7b', _, by rw [write], by decide, by decide⟩
    · exact ⟨'\x7b', _, by rw [write], by decide, by decide⟩

theorem skipSpace_cons {c : Char} (h : isSpace c = false) (t : Text) : skipSpace (c :: t) = c :: t := by
  simp [skipSpace, h]

theorem skipSpace_write (j : Json) (k : Text) (plain : Plain j) :
    skipSpace (write j k) = write j k := by
  obtain ⟨c, t, hw, hc, _⟩ := write_starts j k plain
  rw [hw, skipSpace_cons hc]

theorem need_pos (j : Json) : 0 < need j := by
  cases j with
  | arr xs => cases xs <;> simp [need]
  | obj ms => rcases ms with _ | ⟨⟨name, x⟩, ms⟩ <;> simp [need]
  | _ => simp [need]

mutual
theorem readValue_write (j : Json) (n : Nat) (k : Text) (plain : Plain j) (fuel : need j ≤ n)
    (stop : Stops k) : readValue n (write j k) = some (j, k) := by
  obtain ⟨m, rfl⟩ : ∃ m, n = m + 1 := ⟨n - 1, by have := need_pos j; omega⟩
  rw [readValue, skipSpace_write j k plain]
  match j, plain, fuel with
  | .null, plain, _ => exact absurd plain (by simp [Plain])
  | .bool true, _, _ => simp [write, expect]
  | .bool false, _, _ => simp [write, expect]
  | .num literal, plain, _ =>
    rw [Plain] at plain
    obtain ⟨n, hn⟩ := plain
    obtain ⟨c, r, shape, hc, _, _⟩ := Text.decimal_shape n
    have hd := digit_dispatch hc
    have number := readNumber_decimal n k stop
    rw [shape, List.cons_append] at number
    rw [write, hn, shape]
    simp only [List.cons_append, hd.2.1, hd.2.2.1, hd.2.2.2.1, hd.2.2.2.2.1, hd.2.2.2.2.2.1,
      hd.2.2.2.2.2.2.1, if_false, number, Option.map_some]
  | .str s, _, fuel =>
    rw [need] at fuel
    have string := readString_write s k m (by omega)
    rw [write]
    simp only [if_true, string, Option.map_some]
  | .arr [], _, _ => simp [write, skipSpace, isSpace]
  | .arr (x :: xs), plain, fuel =>
    rw [Plain, PlainElems] at plain
    rw [need] at fuel
    have first := readValue_write x m (writeElems xs k) plain.1 (by omega) (stops_elems xs k)
    have rest := readElems_write xs m k plain.2 (by have := need_pos x; omega)
    have space := skipSpace_write x (writeElems xs k) plain.1
    obtain ⟨c, t, hw, _, close⟩ := write_starts x (writeElems xs k) plain.1
    rw [write]
    simp only [Char.reduceEq, if_true, if_false, space]
    rw [hw] at first ⊢
    simp only [if_neg close, first, rest, Option.map_some]
  | .obj [], _, _ => simp [write, skipSpace, isSpace]
  | .obj ((name, x) :: ms), plain, fuel =>
    rw [Plain, PlainMembers] at plain
    rw [need] at fuel
    have members := readMember_write name x ms m k plain.1.1 plain.1.2 (by omega)
    have quote : skipSpace ('"' :: writeString name (':' :: write x (writeMembers ms k))) =
        '"' :: writeString name (':' :: write x (writeMembers ms k)) := skipSpace_cons (by decide) _
    rw [write]
    simp only [Char.reduceEq, if_true, if_false, quote, members, Option.map_some]
termination_by n
theorem readElems_write (xs : List Json) (n : Nat) (k : Text) (plain : PlainElems xs)
    (fuel : needElems xs ≤ n) : readElems n (writeElems xs k) = some (xs, k) := by
  match xs, plain, fuel with
  | [], _, fuel =>
    rw [needElems] at fuel
    obtain ⟨m, rfl⟩ : ∃ m, n = m + 1 := ⟨n - 1, by omega⟩
    simp [writeElems, readElems, skipSpace, isSpace]
  | x :: xs, plain, fuel =>
    rw [PlainElems] at plain
    rw [needElems] at fuel
    obtain ⟨m, rfl⟩ : ∃ m, n = m + 1 := ⟨n - 1, by omega⟩
    have first := readValue_write x m (writeElems xs k) plain.1 (by omega) (stops_elems xs k)
    have rest := readElems_write xs m k plain.2 (by omega)
    rw [writeElems, readElems, skipSpace_cons (by decide)]
    simp only [Char.reduceEq, if_true, if_false, first, rest, Option.map_some]
termination_by n
theorem readMember_write (name : Text) (x : Json) (ms : Members) (n : Nat) (k : Text)
    (plain : Plain x) (others : PlainMembers ms)
    (fuel : name.length + need x + needMembers ms + 2 ≤ n) :
    readMember n ('"' :: writeString name (':' :: write x (writeMembers ms k))) =
      some ((name, x) :: ms, k) := by
  obtain ⟨m, rfl⟩ : ∃ m, n = m + 1 := ⟨n - 1, by omega⟩
  have string := readString_write name (':' :: write x (writeMembers ms k)) m (by omega)
  have value := readValue_write x m (writeMembers ms k) plain (by omega) (stops_members ms k)
  have rest := readMembers_write ms m k others (by omega)
  rw [readMember, skipSpace_cons (by decide)]
  simp only [if_true, string, skipSpace_cons (show isSpace ':' = false by decide), value, rest,
    Option.map_some]
termination_by n
theorem readMembers_write (ms : Members) (n : Nat) (k : Text) (plain : PlainMembers ms)
    (fuel : needMembers ms ≤ n) : readMembers n (writeMembers ms k) = some (ms, k) := by
  match ms, plain, fuel with
  | [], _, fuel =>
    rw [needMembers] at fuel
    obtain ⟨m, rfl⟩ : ∃ m, n = m + 1 := ⟨n - 1, by omega⟩
    simp [writeMembers, readMembers, skipSpace, isSpace]
  | (name, x) :: ms, plain, fuel =>
    rw [PlainMembers] at plain
    rw [needMembers] at fuel
    obtain ⟨m, rfl⟩ : ∃ m, n = m + 1 := ⟨n - 1, by omega⟩
    have member := readMember_write name x ms m k plain.1 plain.2 (by omega)
    rw [writeMembers, readMembers, skipSpace_cons (by decide)]
    simp only [Char.reduceEq, if_true, if_false, member]
termination_by n
end

theorem length_writeString (s k : Text) : s.length + k.length < (writeString s k).length := by
  induction s with
  | nil => simp [writeString]
  | cons c s ih =>
    have one : 0 < (escape c).length := by
      unfold escape
      repeat' split
      all_goals simp
    simp only [writeString, List.length_append, List.length_cons]
    omega

mutual
theorem need_le_length (j : Json) (k : Text) (plain : Plain j) :
    need j + k.length ≤ (write j k).length := by
  match j, plain with
  | .null, plain => exact absurd plain (by simp [Plain])
  | .bool true, _ => simp [write, need]; omega
  | .bool false, _ => simp [write, need]; omega
  | .num literal, plain =>
    rw [Plain] at plain
    obtain ⟨n, hn⟩ := plain
    obtain ⟨c, r, shape, _⟩ := Text.decimal_shape n
    simp only [write, need, hn, shape, List.length_cons, List.length_append]
    omega
  | .str s, _ =>
    have h := length_writeString s k
    simp only [write, need, List.length_cons]
    omega
  | .arr [], _ => simp [write, need]; omega
  | .arr (x :: xs), plain =>
    rw [Plain, PlainElems] at plain
    have first := need_le_length x (writeElems xs k) plain.1
    have rest := needElems_le_length xs k plain.2
    simp only [write, need, List.length_cons]
    omega
  | .obj [], _ => simp [write, need]; omega
  | .obj ((name, x) :: ms), plain =>
    rw [Plain, PlainMembers] at plain
    have hn := length_writeString name (':' :: write x (writeMembers ms k))
    have first := need_le_length x (writeMembers ms k) plain.1.1
    have rest := needMembers_le_length ms k plain.1.2
    simp only [write, need, List.length_cons] at *
    omega
theorem needElems_le_length (xs : List Json) (k : Text) (plain : PlainElems xs) :
    needElems xs + k.length ≤ (writeElems xs k).length := by
  match xs, plain with
  | [], _ => simp [writeElems, needElems]; omega
  | x :: xs, plain =>
    rw [PlainElems] at plain
    have first := need_le_length x (writeElems xs k) plain.1
    have rest := needElems_le_length xs k plain.2
    simp only [writeElems, needElems, List.length_cons]
    omega
theorem needMembers_le_length (ms : Members) (k : Text) (plain : PlainMembers ms) :
    needMembers ms + k.length ≤ (writeMembers ms k).length := by
  match ms, plain with
  | [], _ => simp [writeMembers, needMembers]; omega
  | (name, x) :: ms, plain =>
    rw [PlainMembers] at plain
    have hn := length_writeString name (':' :: write x (writeMembers ms k))
    have first := need_le_length x (writeMembers ms k) plain.1
    have rest := needMembers_le_length ms k plain.2
    simp only [writeMembers, needMembers, List.length_cons] at *
    omega
end

theorem parse_render (j : Json) (plain : Plain j) : parse (render j) = some j := by
  have enough := need_le_length j [] plain
  have read := readValue_write j ((render j).length + 1) [] plain
    (by simp only [render, List.length_nil] at enough ⊢; omega) stops_nil
  unfold parse
  rw [show readValue ((render j).length + 1) (render j) = some (j, []) from read]
  simp [skipSpace]

theorem render_ne_nil (j : Json) (plain : Plain j) : render j ≠ [] := by
  obtain ⟨c, t, hw, _⟩ := write_starts j [] plain
  rw [render, hw]
  exact List.cons_ne_nil c t

def stringSize (s : Text) : Nat := (s.map (fun c => (escape c).size)).sum + 2

theorem escape_size_le (c : Char) : (escape c).size ≤ 6 * c.utf8Size := by
  have one := Char.utf8Size_pos c
  have quote : ∀ d : Char, d.utf8Size = 1 → Text.size ['\\', d] ≤ 6 * c.utf8Size := by
    intro d hd
    have hs : '\\'.utf8Size = 1 := by decide
    simp only [Text.size_cons, Text.size_nil, hd, hs]
    omega
  have letters : '"'.utf8Size = 1 ∧ '\\'.utf8Size = 1 ∧ 'b'.utf8Size = 1 ∧ 'f'.utf8Size = 1 ∧
      'n'.utf8Size = 1 ∧ 'r'.utf8Size = 1 ∧ 't'.utf8Size = 1 ∧ 'u'.utf8Size = 1 := by decide
  unfold escape
  repeat' split
  · exact quote _ letters.1
  · exact quote _ letters.2.1
  · exact quote _ letters.2.2.1
  · exact quote _ letters.2.2.2.1
  · exact quote _ letters.2.2.2.2.1
  · exact quote _ letters.2.2.2.2.2.1
  · exact quote _ letters.2.2.2.2.2.2.1
  · simp only [Text.size_cons, Text.padded_size (show 0 < 16 by decide) (show 16 ≤ 16 by decide),
      letters.2.1, letters.2.2.2.2.2.2.2]
    omega
  · simp only [Text.size_cons, Text.size_nil]
    omega

theorem stringSize_le (s : Text) : stringSize s ≤ 6 * s.size + 2 := by
  unfold stringSize
  induction s with
  | nil => simp
  | cons c s ih =>
    have hc := escape_size_le c
    simp only [List.map_cons, List.sum_cons, Text.size_cons] at ih ⊢
    omega

theorem size_writeString (s k : Text) : (writeString s k).size + 1 = stringSize s + k.size := by
  have quote : '"'.utf8Size = 1 := by decide
  unfold stringSize
  induction s with
  | nil => simp only [writeString, Text.size_cons, quote, List.map_nil, List.sum_nil]; omega
  | cons c s ih =>
    simp only [writeString, Text.size_append, List.map_cons, List.sum_cons] at ih ⊢
    omega

mutual
def textSize : Json → Nat
  | .null => 4
  | .bool b => if b then 4 else 5
  | .num literal => literal.size
  | .str s => stringSize s
  | .arr [] => 2
  | .arr (x :: xs) => 1 + textSize x + elemsSize xs
  | .obj [] => 2
  | .obj ((name, x) :: ms) => 2 + stringSize name + textSize x + membersSize ms
def elemsSize : List Json → Nat
  | [] => 1
  | x :: xs => 1 + textSize x + elemsSize xs
def membersSize : List (Text × Json) → Nat
  | [] => 1
  | (name, x) :: ms => 2 + stringSize name + textSize x + membersSize ms
end

theorem ascii_sizes : 'n'.utf8Size = 1 ∧ 'u'.utf8Size = 1 ∧ 'l'.utf8Size = 1 ∧ 't'.utf8Size = 1 ∧
    'r'.utf8Size = 1 ∧ 'e'.utf8Size = 1 ∧ 'f'.utf8Size = 1 ∧ 'a'.utf8Size = 1 ∧ 's'.utf8Size = 1 ∧
    '"'.utf8Size = 1 ∧ '['.utf8Size = 1 ∧ ']'.utf8Size = 1 ∧ ','.utf8Size = 1 ∧ ':'.utf8Size = 1 ∧
    '\x7b'.utf8Size = 1 ∧ '\x7d'.utf8Size = 1 := by decide

mutual
theorem size_write (j : Json) (k : Text) : (write j k).size = textSize j + k.size := by
  match j with
  | .null => simp [write, textSize, ascii_sizes]; omega
  | .bool true => simp [write, textSize, ascii_sizes]; omega
  | .bool false => simp [write, textSize, ascii_sizes]; omega
  | .num literal => simp [write, textSize]
  | .str s =>
    have h := size_writeString s k
    simp only [write, textSize, Text.size_cons, ascii_sizes]
    omega
  | .arr [] => simp [write, textSize, ascii_sizes]; omega
  | .arr (x :: xs) =>
    have first := size_write x (writeElems xs k)
    have rest := size_writeElems xs k
    simp only [write, textSize, Text.size_cons, ascii_sizes]
    omega
  | .obj [] => simp [write, textSize, ascii_sizes]; omega
  | .obj ((name, x) :: ms) =>
    have hn := size_writeString name (':' :: write x (writeMembers ms k))
    have first := size_write x (writeMembers ms k)
    have rest := size_writeMembers ms k
    simp only [write, textSize, Text.size_cons, ascii_sizes] at *
    omega
theorem size_writeElems (xs : List Json) (k : Text) :
    (writeElems xs k).size = elemsSize xs + k.size := by
  match xs with
  | [] => simp [writeElems, elemsSize, ascii_sizes]
  | x :: xs =>
    have first := size_write x (writeElems xs k)
    have rest := size_writeElems xs k
    simp only [writeElems, elemsSize, Text.size_cons, ascii_sizes]
    omega
theorem size_writeMembers (ms : Members) (k : Text) :
    (writeMembers ms k).size = membersSize ms + k.size := by
  match ms with
  | [] => simp [writeMembers, membersSize, ascii_sizes]
  | (name, x) :: ms =>
    have hn := size_writeString name (':' :: write x (writeMembers ms k))
    have first := size_write x (writeMembers ms k)
    have rest := size_writeMembers ms k
    simp only [writeMembers, membersSize, Text.size_cons, ascii_sizes] at *
    omega
end

theorem size_render (j : Json) : (render j).size = textSize j := by
  simp [render, size_write]

/-- How the text of a value begins, for the kinds that some reader tells apart. -/
def Begins (t rest : Text) : Json → Prop
  | .num literal => readNumber t = some (literal, rest)
  | .str _ => t.head? = some '"'
  | .obj _ => t.head? = some '\x7b'
  | _ => True

theorem readValue_begins {n : Nat} {t rest : Text} {j : Json} (h : readValue (n + 1) t = some (j, rest)) :
    Begins (skipSpace t) rest j := by
  rw [readValue] at h
  cases shape : skipSpace t with
  | nil => simp [shape] at h
  | cons c u =>
    simp only [shape] at h
    -- the branches of the reader in its order; only the last one reads a number
    split at h
    · rename_i quote
      obtain ⟨p, -, same⟩ := Option.map_eq_some_iff.mp h
      cases same
      rw [quote]
      rfl
    · split at h
      · rename_i brace
        split at h
        · cases h
        · split at h
          · cases h
            rw [brace]
            rfl
          · obtain ⟨p, -, same⟩ := Option.map_eq_some_iff.mp h
            cases same
            rw [brace]
            rfl
      · split at h
        · split at h
          · cases h
          · split at h
            · cases h
              exact True.intro
            · split at h
              · cases h
              · obtain ⟨p, -, same⟩ := Option.map_eq_some_iff.mp h
                cases same
                exact True.intro
        · split at h
          · obtain ⟨p, -, same⟩ := Option.map_eq_some_iff.mp h
            cases same
            exact True.intro
          · split at h
            · obtain ⟨p, -, same⟩ := Option.map_eq_some_iff.mp h
              cases same
              exact True.intro
            · split at h
              · obtain ⟨p, -, same⟩ := Option.map_eq_some_iff.mp h
                cases same
                exact True.intro
              · obtain ⟨p, read, same⟩ := Option.map_eq_some_iff.mp h
                cases same
                exact read

end Wire
