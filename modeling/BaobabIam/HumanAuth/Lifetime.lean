import BaobabIam.Base.Double
import BaobabIam.Base.JsonText
import BaobabIam.HumanAuth.Profile
import Mathlib.Data.List.TakeDrop
import Mathlib.Data.List.TakeWhile
import Mathlib.Data.Rat.Lemmas
import Mathlib.Tactic.Positivity
import Mathlib.Tactic.NormNum

/-! Token lifetimes are read exactly. One reader filters a literal through a double
before its exact arithmetic, the other does not; both accept the literals whose exact
value is an integer of seconds between a minute and a day. -/
namespace HumanAuth

open Wire Double

def IsNumber (t : Text) : Prop := readNumber t = some (t, [])

def unsignedValue (t : Text) : ℚ := (scaled t).1 * 10 ^ (scaled t).2

def literalValue : Text → ℚ
  | '-' :: t => -unsignedValue t
  | t => unsignedValue t

/-- Parsing of floating point numbers, assumed to round the exact value. -/
structure FloatParser where
  parseFloat : Text → Option ℚ
  rounded : ∀ t, IsNumber t → Rounded (literalValue t) (parseFloat t)
  empty : parseFloat [] = none

section Readers

def magnitude : Text → Nat × Int
  | '-' :: t => scaled t
  | t => scaled t

/-- Exact rationals, except that powers of ten beyond a million are refused. -/
def ratSetString (t : Text) : Option ℚ :=
  if t = [] then none
  else if (magnitude t).1 ≠ 0 ∧ 1000000 < (magnitude t).2.natAbs then none
  else some (literalValue t)

/-- A value decoded as a number keeps its literal. A null leaves the empty text, and a
string that holds a number is accepted. -/
def unmarshalNumber : Json → Option Text
  | .num literal => some literal
  | .null => some []
  | .str s => if readNumber s = some (s, []) then some s else none
  | _ => none

def integerLifetime (number : Text) : Option Nat :=
  match ratSetString number with
  | none => none
  | some rational =>
    if rational.den ≠ 1 ∨ rational.num < -2 ^ 63 ∨ 2 ^ 63 ≤ rational.num then none
    else if rational.num < 60 ∨ 86400 < rational.num then none
    else some rational.num.toNat

def numberOf (value : Text) : Option Text :=
  if value = [] ∨ value.head? = some '"' then none else (parse value).bind unmarshalNumber

def exactLifetimeText (floats : FloatParser) (value : Text) : Option Nat :=
  match numberOf value with
  | none => none
  | some number =>
    match floats.parseFloat number with
    | none => none
    | some magnitude => if magnitude < 60 ∨ 86400 < magnitude then none else integerLifetime number

def responseLifetime (value : Text) : Option Nat := (numberOf value).bind integerLifetime

end Readers

section Literals

variable {t rest ds literal : Text}

theorem readDigits_append (h : readDigits t = some (ds, rest)) :
    t = ds ++ rest ∧ ∃ d r, ds = d :: r ∧ Text.isDigit d = true := by
  unfold readDigits at h
  split at h
  · cases h
  · rename_i digits
    cases h
    refine ⟨List.takeWhile_append_dropWhile.symm, ?_⟩
    cases shape : t.takeWhile Text.isDigit with
    | nil => exact absurd shape digits
    | cons d r =>
      have member : d ∈ t.takeWhile Text.isDigit := by rw [shape]; exact List.mem_cons_self
      exact ⟨d, r, rfl, List.mem_takeWhile_imp member⟩

theorem readInteger_append (h : readInteger t = some (ds, rest)) :
    t = ds ++ rest ∧ ∃ d r, ds = d :: r ∧ Text.isDigit d = true := by
  unfold readInteger at h
  split at h
  · cases h
  · exact readDigits_append h

theorem readFraction_append {f : Text} (h : readFraction t = some (f, rest)) : t = f ++ rest := by
  unfold readFraction at h
  split at h
  · obtain ⟨⟨ds, r⟩, digits, same⟩ := Option.map_eq_some_iff.mp h
    cases same
    rw [(readDigits_append digits).1]
    rfl
  · cases h
    rfl

theorem readExponent_append {e : Text} (h : readExponent t = some (e, rest)) : t = e ++ rest := by
  unfold readExponent at h
  split at h
  · split at h
    · split at h
      all_goals
        obtain ⟨⟨ds, r⟩, digits, same⟩ := Option.map_eq_some_iff.mp h
        cases same
        rw [(readDigits_append digits).1]
        rfl
    · cases h
      rfl
  · cases h
    rfl

/-- A literal is cut from the front of the text, and begins with a digit or a minus. -/
theorem readNumber_append (h : readNumber t = some (literal, rest)) :
    t = literal ++ rest ∧ ∃ c r, literal = c :: r ∧ (Text.isDigit c = true ∨ c = '-') := by
  unfold readNumber at h
  split at h
  rename_i sign u signed
  simp only [Option.bind_eq_bind, Option.bind_eq_some_iff, Prod.exists] at h
  obtain ⟨whole, t₁, first, fraction, t₂, second, exponent, t₃, third, same⟩ := h
  cases same
  obtain ⟨cut, d, r, digits, digit⟩ := readInteger_append first
  have unsigned : u = whole ++ (fraction ++ (exponent ++ rest)) := by
    rw [cut, readFraction_append second, readExponent_append third]
  split at signed
  · cases signed
    exact ⟨by rw [unsigned]; simp, '-', whole ++ fraction ++ exponent, by simp, .inr rfl⟩
  · cases signed
    refine ⟨by rw [unsigned]; simp, d, r ++ fraction ++ exponent, by rw [digits]; simp, .inl digit⟩

/-- A text without white space around it, as a value is handed on by the decoder. -/
def Bare (t : Text) : Prop := skipSpace t = t ∧ skipSpace t.reverse = t.reverse

theorem skipSpace_eq_nil (h : skipSpace t = []) : ∀ c ∈ t, isSpace c = true := by
  induction t with
  | nil => simp
  | cons c t ih =>
    simp only [skipSpace] at h
    split at h
    · rename_i space
      intro d hd
      rcases List.mem_cons.mp hd with rfl | hd
      · exact space
      · exact ih h d hd
    · cases h

theorem Bare.no_rest (bare : Bare (literal ++ rest)) (blank : skipSpace rest = []) :
    rest = [] := by
  induction rest using List.reverseRecOn with
  | nil => rfl
  | append_singleton r c ih =>
    have space := skipSpace_eq_nil blank c (by simp)
    have tail := bare.2
    rw [← List.append_assoc, List.reverse_append, List.reverse_singleton, List.singleton_append] at tail
    simp only [skipSpace, space, if_true] at tail
    have shorter := congrArg List.length tail
    have bound : ∀ t : Text, (skipSpace t).length ≤ t.length := by
      intro t
      induction t with
      | nil => exact Nat.le_refl _
      | cons d t ih =>
        simp only [skipSpace]
        split
        · rw [List.length_cons]; omega
        · exact Nat.le_refl _
    have := bound (literal ++ r).reverse
    rw [List.length_cons] at shorter
    omega

theorem minus_dispatch : isSpace '-' = false ∧ '-' ≠ '"' ∧ '-' ≠ '\x7b' ∧ '-' ≠ '[' ∧ '-' ≠ 'n' ∧
    '-' ≠ 't' ∧ '-' ≠ 'f' := by decide

theorem number_dispatch {c : Char} (h : Text.isDigit c = true ∨ c = '-') :
    isSpace c = false ∧ c ≠ '"' ∧ c ≠ '\x7b' ∧ c ≠ '[' ∧ c ≠ 'n' ∧ c ≠ 't' ∧ c ≠ 'f' := by
  rcases h with digit | rfl
  · obtain ⟨h₁, h₂, h₃, h₄, h₅, h₆, h₇, _⟩ := digit_dispatch digit
    exact ⟨h₁, h₂, h₃, h₄, h₅, h₆, h₇⟩
  · exact minus_dispatch

theorem parse_number (number : IsNumber t) : parse t = some (.num t) := by
  obtain ⟨-, c, r, shape, first⟩ := readNumber_append number
  obtain ⟨space, quote, brace, bracket, n, t', f⟩ := number_dispatch first
  unfold IsNumber at number
  rw [shape] at number ⊢
  simp only [parse, readValue, skipSpace_cons space, if_neg quote, if_neg brace, if_neg bracket, if_neg n, if_neg t',
    if_neg f, number, Option.map_some]
  rfl

theorem parse_begins {j : Json} (bare : Bare t) (h : parse t = some j) :
    ∃ rest, skipSpace rest = [] ∧ Begins t rest j := by
  unfold parse at h
  split at h
  · rename_i j' rest read
    split at h
    · rename_i blank
      cases h
      have begins := readValue_begins read
      rw [bare.1] at begins
      exact ⟨rest, blank, begins⟩
    · cases h
  · cases h

theorem numberOf_cases {number : Text} (bare : Bare t) (h : numberOf t = some number) :
    (IsNumber t ∧ number = t) ∨ number = [] := by
  unfold numberOf at h
  split at h
  · cases h
  · rename_i unquoted
    obtain ⟨j, parsed, decoded⟩ := Option.bind_eq_some_iff.mp h
    obtain ⟨rest, blank, begins⟩ := parse_begins bare parsed
    cases j with
    | num literal =>
      cases decoded
      have cut := (readNumber_append begins).1
      have whole : rest = [] := Bare.no_rest (cut ▸ bare) blank
      rw [whole, List.append_nil] at cut
      refine .inl ⟨?_, cut.symm⟩
      unfold IsNumber
      rw [begins, whole, cut]
    | str s => exact absurd (.inr begins) unquoted
    | null =>
      cases decoded
      exact .inr rfl
    | bool b => cases decoded
    | arr xs => cases decoded
    | obj ms => cases decoded

theorem numberOf_number (number : IsNumber t) : numberOf t = some t := by
  obtain ⟨-, c, r, shape, first⟩ := readNumber_append number
  have quote := (number_dispatch first).2.1
  have plain : ¬ (t = [] ∨ t.head? = some '"') := by
    rw [shape]
    simpa using quote
  rw [numberOf, if_neg plain, parse_number number]
  rfl

end Literals

section Values

theorem digitsValue_lt (t : Text) : digitsValue t < 10 ^ t.length := by
  unfold digitsValue
  cases read : Text.numeral 10 Text.digitValue? 0 t with
  | none => exact Nat.pow_pos (by decide)
  | some n => simpa using Text.numeral_lt read

theorem scaled_digits_lt (t : Text) : (scaled t).1 < 10 ^ t.length := by
  have whole : t.length = (t.takeWhile Text.isDigit).length + (t.dropWhile Text.isDigit).length := by
    rw [← List.length_append, List.takeWhile_append_dropWhile]
  unfold scaled
  rw [List.span_eq_takeWhile_dropWhile]
  dsimp only
  apply Nat.lt_of_lt_of_le (digitsValue_lt _)
  apply Nat.pow_le_pow_right (by decide)
  rw [List.length_append, whole]
  apply Nat.add_le_add_left
  -- the digits of the fraction are part of what follows the integer
  split
  · rename_i u rest
    rw [List.span_eq_takeWhile_dropWhile, rest, List.length_cons]
    have part := ( List.takeWhile_prefix Text.isDigit (l := u)).length_le
    exact Nat.le_succ_of_le part
  · exact Nat.zero_le _

theorem power_bounds {t : Text} (low : 60 ≤ unsignedValue t) (high : unsignedValue t ≤ 86400) :
    -(t.length : ℤ) < (scaled t).2 ∧ (scaled t).2 ≤ 4 := by
  unfold unsignedValue at low high
  have digits := scaled_digits_lt t
  generalize (scaled t).1 = d at *
  generalize (scaled t).2 = p at *
  have scale : (0 : ℚ) < 10 ^ p := zpow_pos (by norm_num) p
  have some_digit : 1 ≤ d := by
    rcases Nat.eq_zero_or_pos d with rfl | positive
    · norm_num at low
    · exact positive
  constructor
  · by_contra small
    have exponent : p ≤ -(t.length : ℤ) := not_lt.mp small
    have scale_le : (10 : ℚ) ^ p ≤ 10 ^ (-(t.length : ℤ)) := zpow_le_zpow_right₀ (by norm_num) exponent
    have below : (d : ℚ) < 10 ^ t.length := by exact_mod_cast digits
    have one : (10 : ℚ) ^ t.length * 10 ^ (-(t.length : ℤ)) = 1 := by
      rw [← zpow_natCast, ← zpow_add₀ (by norm_num), add_neg_cancel, zpow_zero]
    have value : (d : ℚ) * 10 ^ p ≤ 1 := by
      calc (d : ℚ) * 10 ^ p ≤ 10 ^ t.length * 10 ^ (-(t.length : ℤ)) :=
            mul_le_mul below.le scale_le scale.le (by positivity)
        _ = 1 := one
    linarith
  · by_contra large
    have exponent : (5 : ℤ) ≤ p := by omega
    have scale_ge : (10 : ℚ) ^ (5 : ℤ) ≤ 10 ^ p := zpow_le_zpow_right₀ (by norm_num) exponent
    have one : (1 : ℚ) ≤ d := by exact_mod_cast some_digit
    have value : (10 : ℚ) ^ (5 : ℤ) ≤ d * 10 ^ p := by
      calc (10 : ℚ) ^ (5 : ℤ) ≤ 10 ^ p := scale_ge
        _ ≤ d * 10 ^ p := le_mul_of_one_le_left scale.le one
    norm_num at value
    linarith

theorem unsignedValue_nonneg (t : Text) : 0 ≤ unsignedValue t := by
  exact mul_nonneg (Nat.cast_nonneg _) (zpow_nonneg (by norm_num) _)

/-- Exact arithmetic refuses no literal of bounded length whose value is in range. -/
theorem ratSetString_in_range {t : Text} (present : t ≠ []) (small : t.length ≤ 65536)
    (low : 60 ≤ literalValue t) (high : literalValue t ≤ 86400) : ratSetString t = some (literalValue t) := by
  have power : (magnitude t).2.natAbs ≤ 1000000 := by
    unfold literalValue at low high
    unfold magnitude
    split at low
    · rename_i u
      have := unsignedValue_nonneg u
      linarith
    · rename_i unsigned
      split at high
      · exact absurd rfl (unsigned _)
      · have bounds := power_bounds low high
        omega
  rw [ratSetString, if_neg present, if_neg (by omega)]

theorem integerLifetime_iff {t : Text} (present : t ≠ []) (small : t.length ≤ 65536) (n : Nat) :
    integerLifetime t = some n ↔ literalValue t = n ∧ 60 ≤ n ∧ n ≤ 86400 := by
  constructor
  · intro h
    unfold integerLifetime at h
    split at h
    · cases h
    · rename_i rational read
      have value : literalValue t = rational := by
        unfold ratSetString at read
        split at read
        · cases read
        · split at read
          · cases read
          · exact Option.some.inj read
      split at h
      · cases h
      · rename_i integer
        split at h
        · cases h
        · rename_i range
          cases h
          have whole : rational.den = 1 := by
            by_contra other
            exact integer (.inl other)
          have sign : ((rational.num.toNat : ℕ) : ℤ) = rational.num := Int.toNat_of_nonneg (by omega)
          refine ⟨?_, by omega, by omega⟩
          rw [value, ← Rat.coe_int_num_of_den_eq_one whole]
          exact_mod_cast sign.symm
  · rintro ⟨value, low, high⟩
    have read := ratSetString_in_range present small (by rw [value]; exact_mod_cast low)
      (by rw [value]; exact_mod_cast high)
    rw [value] at read
    have num : ((n : ℕ) : ℚ).num = n := Rat.num_natCast n
    have den : ((n : ℕ) : ℚ).den = 1 := Rat.den_natCast n
    unfold integerLifetime
    rw [read]
    simp only [num, den]
    rw [if_neg (by omega), if_neg (by omega), Int.toNat_natCast]

theorem exactLifetime_iff (t : Text) (n : Nat) :
    exactLifetime (.num t) = some n ↔ literalValue t = n ∧ 60 ≤ n ∧ n ≤ 86400 := by
  by_cases minus : ∃ u, t = '-' :: u
  · obtain ⟨u, rfl⟩ := minus
    have sign := unsignedValue_nonneg u
    refine ⟨nofun, fun ⟨value, low, _⟩ => ?_⟩
    have large : (60 : ℚ) ≤ n := by exact_mod_cast low
    change -unsignedValue u = n at value
    linarith
  · have unsigned : literalValue t = unsignedValue t := by
      unfold literalValue
      split
      · exact absurd ⟨_, rfl⟩ minus
      · rfl
    rw [unsigned, unsignedValue]
    unfold exactLifetime
    split
    · rename_i same
      exact absurd ⟨_, Json.num.inj same⟩ minus
    · rename_i same
      cases same
      obtain ⟨d, p⟩ := scaled t
      dsimp only
      -- a power below zero divides, and the division has to be exact
      by_cases whole : 0 ≤ p
      · lift p to ℕ using whole
        have value : (d : ℚ) * 10 ^ (p : ℤ) = n ↔ d * 10 ^ p = n := by
          rw [zpow_natCast]
          exact_mod_cast Iff.rfl
        rw [value, if_pos (Int.natCast_nonneg p), Int.toNat_natCast]
        grind
      · obtain ⟨k, rfl⟩ : ∃ k : ℕ, p = -k := ⟨(-p).toNat, by omega⟩
        have scale : (0 : ℚ) < 10 ^ k := by positivity
        have value : (d : ℚ) * 10 ^ (-(k : ℤ)) = n ↔ d = n * 10 ^ k := by
          rw [zpow_neg, zpow_natCast, mul_inv_eq_iff_eq_mul₀ scale.ne']
          exact_mod_cast Iff.rfl
        rw [value, if_neg whole, neg_neg, Int.toNat_natCast]
        have exact : d = n * 10 ^ k ↔ d % 10 ^ k = 0 ∧ d / 10 ^ k = n := by
          rw [← Nat.dvd_iff_mod_eq_zero]
          constructor
          · rintro rfl
            exact ⟨Nat.dvd_mul_left _ _, Nat.mul_div_cancel _ (Nat.pow_pos (by decide))⟩
          · rintro ⟨divides, rfl⟩
            exact (Nat.div_mul_cancel divides).symm
        rw [exact]
        generalize d % 10 ^ k = r, d / 10 ^ k = q
        split <;> simp only [Option.some.injEq, reduceCtorEq, false_iff] <;> omega
    · rename_i other
      exact absurd rfl (other t)

end Values

section Exact

theorem responseLifetime_iff {t : Text} (bare : Bare t) (small : t.size ≤ 65536) (n : Nat) :
    responseLifetime t = some n ↔ IsNumber t ∧ literalValue t = n ∧ 60 ≤ n ∧ n ≤ 86400 := by
  have short : t.length ≤ 65536 := Nat.le_trans (Text.length_le_size t) small
  constructor
  · intro h
    obtain ⟨number, read, lifetime⟩ := Option.bind_eq_some_iff.mp h
    rcases numberOf_cases bare read with ⟨literal, rfl⟩ | rfl
    · have present : number ≠ [] := by
        rintro rfl
        cases lifetime
      exact ⟨literal, (integerLifetime_iff present short n).mp lifetime⟩
    · cases lifetime
  · rintro ⟨literal, value⟩
    have present : t ≠ [] := by
      rintro rfl
      cases literal
    rw [responseLifetime, numberOf_number literal]
    exact (integerLifetime_iff present short n).mpr value

/-- The filter through a double lets every literal pass that the exact check accepts. -/
theorem exactLifetimeText_number (floats : FloatParser) {t : Text} (literal : IsNumber t) (n : Nat) :
    integerLifetime t = some n → literalValue t = n → 60 ≤ n → n ≤ 86400 →
      exactLifetimeText floats t = some n := by
  intro lifetime value low high
  have double : IsDouble (literalValue t) := by
    rw [value]
    exact isDouble_natCast (by omega)
  have parsed := (floats.rounded t literal).exact double
  have inside : ¬ ((n : ℚ) < 60 ∨ 86400 < (n : ℚ)) := by
    rintro (below | above)
    · have : n < 60 := by exact_mod_cast below
      omega
    · have : 86400 < n := by exact_mod_cast above
      omega
  unfold exactLifetimeText
  rw [numberOf_number literal]
  simp only [parsed, value, if_neg inside, lifetime]

/-- A projected response reads its lifetime as a received one does. -/
theorem exactLifetime_eq (floats : FloatParser) {t : Text} (literal : IsNumber t) (small : t.size ≤ 65536) :
    exactLifetime (.num t) = exactLifetimeText floats t := by
  have short : t.length ≤ 65536 := Nat.le_trans (Text.length_le_size t) small
  have present : t ≠ [] := by
    rintro rfl
    cases literal
  apply Option.ext
  intro n
  rw [exactLifetime_iff, ← integerLifetime_iff present short]
  constructor
  · intro lifetime
    obtain ⟨value, low, high⟩ := (integerLifetime_iff present short n).mp lifetime
    exact exactLifetimeText_number floats literal n lifetime value low high
  · intro h
    unfold exactLifetimeText at h
    rw [numberOf_number literal] at h
    grind

theorem exactLifetimeText_eq (floats : FloatParser) {t : Text} (bare : Bare t) (small : t.size ≤ 65536) :
    exactLifetimeText floats t = responseLifetime t := by
  apply Option.ext
  intro n
  constructor
  · intro h
    unfold exactLifetimeText at h
    split at h
    · cases h
    · rename_i number read
      split at h
      · cases h
      · split at h
        · cases h
        · rw [responseLifetime, read]
          exact h
  · intro h
    obtain ⟨literal, value, low, high⟩ := (responseLifetime_iff bare small n).mp h
    rw [responseLifetime, numberOf_number literal] at h
    exact exactLifetimeText_number floats literal n h value low high

theorem lifetimes_read_exactly (floats : FloatParser) (t : Text) (bare : Bare t) (small : t.size ≤ 65536) (n : Nat) :
    (exactLifetimeText floats t = some n ↔ IsNumber t ∧ literalValue t = n ∧ 60 ≤ n ∧ n ≤ 86400) ∧
      (responseLifetime t = some n ↔ IsNumber t ∧ literalValue t = n ∧ 60 ≤ n ∧ n ≤ 86400) := by
  rw [exactLifetimeText_eq floats bare small]
  exact ⟨responseLifetime_iff bare small n, responseLifetime_iff bare small n⟩

noncomputable def nearestFloats : FloatParser where
  parseFloat t := if t = [] then none else (exists_rounded (literalValue t)).choose
  rounded t number := by
    have present : t ≠ [] := by
      rintro rfl
      cases number
    rw [if_neg present]
    exact (exists_rounded (literalValue t)).choose_spec
  empty := if_pos rfl

theorem exponent_lifetime_read : exactLifetimeText nearestFloats "0.6e2".toList = some 60 := by
  apply (lifetimes_read_exactly nearestFloats "0.6e2".toList ⟨rfl, rfl⟩ (by decide) 60).1.mpr
  refine ⟨rfl, ?_, by decide, by decide⟩
  have parts : scaled "0.6e2".toList = (6, 1) := by decide
  change unsignedValue "0.6e2".toList = _
  rw [unsignedValue, parts]
  norm_num

end Exact

end HumanAuth
