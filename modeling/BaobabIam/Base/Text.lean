import Mathlib.Data.Nat.Basic
import Mathlib.Data.List.Basic
import Mathlib.Tactic.Ring

/-! Texts are lists of characters, measured in the bytes of their UTF-8 form.
Decimal and hexadecimal numerals are written with a fixed number of digits and
read back by value; a numeral without leading zeros is cut from a padded one. -/

/-- A string of valid UTF-8, kept as its characters. -/
abbrev Text := List Char

namespace Text

instance : Coe String Text := ⟨String.toList⟩

-- Membership tests on texts all rest on this one proof.
instance : LawfulBEq Text := List.instLawfulBEq

def size (t : Text) : Nat := (t.map Char.utf8Size).sum

@[simp] theorem size_nil : size [] = 0 := rfl

@[simp] theorem size_cons (c : Char) (t : Text) : size (c :: t) = c.utf8Size + size t := by
  simp [size]

@[simp] theorem size_append (s t : Text) : size (s ++ t) = size s + size t := by
  simp [size]

theorem length_le_size (t : Text) : t.length ≤ size t := by
  induction t with
  | nil => rfl
  | cons c t ih =>
    have h := Char.utf8Size_pos c
    simp only [List.length_cons, size_cons]
    omega

def digitChar (d : Nat) : Char :=
  if d < 10 then Char.ofNat (48 + d) else Char.ofNat (87 + d)

def digitValue? (c : Char) : Option Nat :=
  if 48 ≤ c.toNat ∧ c.toNat ≤ 57 then some (c.toNat - 48) else none

def hexValue? (c : Char) : Option Nat :=
  if 48 ≤ c.toNat ∧ c.toNat ≤ 57 then some (c.toNat - 48)
  else if 97 ≤ c.toNat ∧ c.toNat ≤ 102 then some (c.toNat - 87)
  else if 65 ≤ c.toNat ∧ c.toNat ≤ 70 then some (c.toNat - 55)
  else none

def isDigit (c : Char) : Bool := 48 ≤ c.toNat && c.toNat ≤ 57

theorem digit_facts : ∀ d : Fin 16, hexValue? (digitChar d) = some d.val ∧
    (digitChar d).utf8Size = 1 ∧ 32 < (digitChar d).toNat ∧ (digitChar d).toNat < 128 := by
  decide

theorem decimal_facts : ∀ d : Fin 10, digitValue? (digitChar d) = some d.val ∧
    isDigit (digitChar d) = true ∧ (digitChar d = '0' ↔ d.val = 0) := by
  decide

def digits (b : Nat) : Nat → Nat → Text → Text
  | 0, _, acc => acc
  | w + 1, n, acc => digits b w (n / b) (digitChar (n % b) :: acc)

/-- Exactly `w` digits of `n` in base `b`, the most significant first. -/
def padded (b w n : Nat) : Text := digits b w n []

theorem digits_append (b w n : Nat) (acc : Text) : digits b w n acc = digits b w n [] ++ acc := by
  induction w generalizing n acc with
  | zero => rfl
  | succ w ih =>
    simp only [digits]
    rw [ih, ih _ [_], List.append_assoc]
    rfl

theorem padded_zero (b n : Nat) : padded b 0 n = [] := rfl

theorem padded_succ (b w n : Nat) : padded b (w + 1) n = padded b w (n / b) ++ [digitChar (n % b)] :=
  digits_append b w (n / b) [digitChar (n % b)]

@[simp] theorem padded_length (b w n : Nat) : (padded b w n).length = w := by
  induction w generalizing n with
  | zero => rfl
  | succ w ih => simp [padded_succ, ih]

variable {b n w : Nat} {c : Char} {value : Char → Option Nat}

theorem padded_mem (hb : 0 < b) (hb16 : b ≤ 16)
    (h : c ∈ padded b w n) : ∃ d : Fin 16, d.val < b ∧ c = digitChar d := by
  induction w generalizing n with
  | zero => cases h
  | succ w ih =>
    rw [padded_succ] at h
    rcases List.mem_append.mp h with h | h
    · exact ih h
    · have hd := Nat.mod_lt n hb
      exact ⟨⟨n % b, by omega⟩, hd, by simpa using h⟩

theorem padded_size (hb : 0 < b) (hb16 : b ≤ 16) (w n : Nat) :
    size (padded b w n) = w := by
  induction w generalizing n with
  | zero => rfl
  | succ w ih =>
    have hd : n % b < 16 := Nat.lt_of_lt_of_le (Nat.mod_lt n hb) hb16
    have hs := (digit_facts ⟨n % b, hd⟩).2.1
    simp only [padded_succ, size_append, ih, size_cons, size_nil, hs]

def numeral (b : Nat) (value : Char → Option Nat) : Nat → Text → Option Nat
  | acc, [] => some acc
  | acc, c :: t => (value c).bind (fun d => numeral b value (acc * b + d) t)

theorem numeral_append (b : Nat) (value : Char → Option Nat) (acc : Nat) (s t : Text) :
    numeral b value acc (s ++ t) = (numeral b value acc s).bind (fun a => numeral b value a t) := by
  induction s generalizing acc with
  | nil => rfl
  | cons c s ih =>
    simp only [List.cons_append, numeral]
    cases value c with
    | none => rfl
    | some d => exact ih _

theorem numeral_padded (hb : 0 < b)
    (values : ∀ d, d < b → value (digitChar d) = some d) (w n acc : Nat) :
    numeral b value acc (padded b w n) = some (acc * b ^ w + n % b ^ w) := by
  induction w generalizing n with
  | zero => simp [padded_zero, numeral, Nat.mod_one]
  | succ w ih =>
    have hd := values (n % b) (Nat.mod_lt n hb)
    have split : n % b ^ (w + 1) = n / b % b ^ w * b + n % b := by
      rw [Nat.pow_succ, Nat.mul_comm (b ^ w) b, Nat.mod_mul, Nat.mul_comm, Nat.add_comm]
    simp only [padded_succ, numeral_append, ih, Option.bind_some, numeral, hd, Option.some.injEq]
    rw [split, Nat.pow_succ]
    ring

theorem digitValue_lt {d : Nat} (h : digitValue? c = some d) : d < 10 := by
  unfold digitValue? at h
  split at h
  · cases h
    omega
  · cases h

theorem numeral_lt {t : Text} {acc : Nat} (h : numeral 10 digitValue? acc t = some n) :
    n < (acc + 1) * 10 ^ t.length := by
  induction t generalizing acc with
  | nil =>
    cases h
    simp
  | cons c t ih =>
    obtain ⟨d, hd, rest⟩ := Option.bind_eq_some_iff.mp h
    have small := digitValue_lt hd
    have bound := ih rest
    calc n < (acc * 10 + d + 1) * 10 ^ t.length := bound
      _ ≤ (acc + 1) * 10 * 10 ^ t.length := Nat.mul_le_mul_right _ (by omega)
      _ = (acc + 1) * 10 ^ (c :: t).length := by rw [List.length_cons, Nat.pow_succ]; ring

theorem decimal_digits : ∀ d, d < 10 → digitValue? (digitChar d) = some d :=
  fun d h => (decimal_facts ⟨d, h⟩).1

theorem hex_digits : ∀ d, d < 16 → hexValue? (digitChar d) = some d :=
  fun d h => (digit_facts ⟨d, h⟩).1

theorem padded_inj (hb : 0 < b)
    (values : ∀ d, d < b → value (digitChar d) = some d) {m : Nat}
    (hm : m < b ^ w) (hn : n < b ^ w) (same : padded b w m = padded b w n) : m = n := by
  have h := congrArg (numeral b value 0) same
  simpa [numeral_padded hb values, Nat.mod_eq_of_lt hm, Nat.mod_eq_of_lt hn] using h

def trimZeros (t : Text) : Text :=
  match t.dropWhile (· = '0') with
  | [] => ['0']
  | c :: t => c :: t

def decimal (n : Nat) : Text := trimZeros (padded 10 20 n)

theorem numeral_trimZeros (t : Text) :
    numeral 10 digitValue? 0 (trimZeros t) = numeral 10 digitValue? 0 t := by
  have zero : digitValue? '0' = some 0 := by decide
  have drop : ∀ t, numeral 10 digitValue? 0 (t.dropWhile (· = '0')) = numeral 10 digitValue? 0 t := by
    intro t
    induction t with
    | nil => rfl
    | cons c t ih =>
      by_cases hc : c = '0'
      · subst hc
        simp [ih, numeral, zero]
      · simp [hc]
  have full := drop t
  unfold trimZeros
  split
  · rename_i he
    rw [he] at full
    rw [← full]
    simp [numeral, zero]
  · rename_i he
    rw [← he]
    exact full

theorem numeral_decimal (h : n < 10 ^ 20) :
    numeral 10 digitValue? 0 (decimal n) = some n := by
  rw [decimal, numeral_trimZeros, numeral_padded (by decide) decimal_digits, Nat.mod_eq_of_lt h]
  simp

/-- A trimmed numeral has a digit, all its characters are digits, and it starts
with a zero only when it is the single digit zero. -/
theorem trimZeros_shape (t : Text) (digits : ∀ d ∈ t, isDigit d = true) :
    ∃ c r, trimZeros t = c :: r ∧ isDigit c = true ∧
      (∀ d ∈ r, isDigit d = true) ∧ (c = '0' → r = []) := by
  unfold trimZeros
  split
  · exact ⟨'0', [], rfl, by decide, by simp, fun _ => rfl⟩
  · rename_i c r he
    have sub : ∀ d ∈ c :: r, isDigit d = true := by
      intro d hd
      exact digits d ((List.dropWhile_suffix _).subset (he ▸ hd))
    have first : c ≠ '0' := by
      intro hc
      have hh := List.head?_dropWhile_not (fun x : Char => decide (x = '0')) t
      rw [he] at hh
      simp [hc] at hh
    exact ⟨c, r, rfl, sub c List.mem_cons_self, fun d hd => sub d (List.mem_cons_of_mem _ hd),
      fun hc => absurd hc first⟩

theorem decimal_shape (n : Nat) : ∃ c r, decimal n = c :: r ∧ isDigit c = true ∧
    (∀ d ∈ r, isDigit d = true) ∧ (c = '0' → r = []) := by
  apply trimZeros_shape
  intro d hd
  obtain ⟨k, hk, rfl⟩ := padded_mem (by decide) (by decide) hd
  exact (decimal_facts ⟨k.val, hk⟩).2.1

theorem trimZeros_size_le (t : Text) (h : t ≠ []) : size (trimZeros t) ≤ size t := by
  have cut : ∀ t : Text, size (t.dropWhile (· = '0')) ≤ size t := by
    intro t
    induction t with
    | nil => simp
    | cons c t ih =>
      rw [List.dropWhile_cons]
      split
      · simp only [size_cons]; omega
      · exact Nat.le_refl _
  have full := cut t
  unfold trimZeros
  split
  · have one : 1 ≤ t.length := by
      cases t with
      | nil => exact absurd rfl h
      | cons c t => simp
    have hs := length_le_size t
    have hz : size ['0'] = 1 := by decide
    omega
  · rename_i he
    rwa [he] at full

theorem decimal_size_le (n : Nat) : size (decimal n) ≤ 20 := by
  have ne : padded 10 20 n ≠ [] := by
    intro he
    have hl := padded_length 10 20 n
    rw [he] at hl
    cases hl
  have h := trimZeros_size_le _ ne
  rwa [padded_size (by decide) (by decide)] at h

def isSpace (c : Char) : Bool :=
  [0x09, 0x0A, 0x0B, 0x0C, 0x0D, 0x20, 0x85, 0xA0, 0x1680, 0x2028, 0x2029, 0x202F, 0x205F, 0x3000].contains
    c.toNat || (0x2000 ≤ c.toNat && c.toNat ≤ 0x200A)

def trimSpace (t : Text) : Text := ((t.dropWhile isSpace).reverse.dropWhile isSpace).reverse

@[simp] theorem trimSpace_nil : trimSpace [] = [] := rfl

end Text
