import BaobabIam.Base.Text
import Mathlib.Tactic.Linarith

/-! Wall clock times: an instant, counted in nanoseconds from the first moment
of year 1, with the zone it is written in. Comparisons look at the instant only.
The text is RFC 3339 with a trimmed fraction; a time that the text can hold is
read back exactly, zone included. -/

structure Time where
  ns : Int
  /-- Minutes east of UTC. -/
  zone : Int
  deriving DecidableEq, Repr

namespace Time

def before (a b : Time) : Bool := decide (a.ns < b.ns)
def after (a b : Time) : Bool := decide (b.ns < a.ns)
def equal (a b : Time) : Bool := decide (a.ns = b.ns)
def isZero (t : Time) : Bool := decide (t.ns = 0)
def utc (t : Time) : Time := { t with zone := 0 }
def add (t : Time) (d : Int) : Time := { t with ns := t.ns + d }
def sub (a b : Time) : Int := a.ns - b.ns

variable {a b t : Time}

@[simp] theorem before_iff : a.before b = true ↔ a.ns < b.ns := by simp [before]
@[simp] theorem before_false : a.before b = false ↔ b.ns ≤ a.ns := by simp [before]
@[simp] theorem after_iff : a.after b = true ↔ b.ns < a.ns := by simp [after]
@[simp] theorem after_false : a.after b = false ↔ a.ns ≤ b.ns := by simp [after]
@[simp] theorem equal_iff : a.equal b = true ↔ a.ns = b.ns := by simp [equal]
@[simp] theorem isZero_iff : t.isZero = true ↔ t.ns = 0 := by simp [isZero]
@[simp] theorem utc_ns (t : Time) : t.utc.ns = t.ns := rfl
@[simp] theorem add_ns (t : Time) (d : Int) : (t.add d).ns = t.ns + d := rfl

def second : Int := 1000000000
def minute : Int := 60 * second

def daysBeforeYear (y : Nat) : Nat := 365 * y + (y + 3) / 4 + (y + 399) / 400 - (y + 99) / 100

def isLeap (y : Nat) : Bool := y % 4 = 0 && (y % 100 ≠ 0 || y % 400 = 0)

def monthLengths (leap : Bool) : List Nat :=
  [31, if leap then 29 else 28, 31, 30, 31, 30, 31, 31, 30, 31, 30, 31]

def yearFrom : Nat → Nat → Nat → Nat
  | 0, y, _ => y
  | n + 1, y, d => if d < daysBeforeYear (y + 1) then y else yearFrom n (y + 1) d

def yearOf (d : Nat) : Nat := yearFrom 400 (d / 366) d

theorem yearFrom_spec (n y d : Nat) (lower : daysBeforeYear y ≤ d)
    (upper : d < daysBeforeYear (y + n + 1)) :
    daysBeforeYear (yearFrom n y d) ≤ d ∧ d < daysBeforeYear (yearFrom n y d + 1) := by
  induction n generalizing y with
  | zero => exact ⟨lower, upper⟩
  | succ n ih =>
    unfold yearFrom
    split
    · rename_i h
      exact ⟨lower, h⟩
    · rename_i h
      exact ih (y + 1) (by omega) (by rwa [show y + 1 + n + 1 = y + (n + 1) + 1 by omega])

theorem yearOf_spec (d : Nat) (h : d < 146097) :
    yearOf d < 400 ∧ daysBeforeYear (yearOf d) ≤ d ∧ d < daysBeforeYear (yearOf d + 1) := by
  have lower : daysBeforeYear (d / 366) ≤ d := by
    unfold daysBeforeYear
    omega
  have upper : d < daysBeforeYear (d / 366 + 400 + 1) := by
    unfold daysBeforeYear
    omega
  have hy := yearFrom_spec 400 (d / 366) d lower upper
  refine ⟨?_, hy⟩
  have below : daysBeforeYear (yearFrom 400 (d / 366) d) < 146097 := Nat.lt_of_le_of_lt hy.1 h
  unfold daysBeforeYear at below
  unfold yearOf
  omega

theorem ceil_succ (k y : Nat) (hk : 0 < k) :
    (y + 1 + (k - 1)) / k = (y + (k - 1)) / k + (if y % k = 0 then 1 else 0) := by
  have hy := Nat.div_add_mod y k
  have hlt := Nat.mod_lt y hk
  by_cases h : y % k = 0
  · rw [if_pos h, show y + 1 + (k - 1) = y + k by omega, Nat.add_div_right _ hk]
    have same : (y + (k - 1)) / k = y / k := by
      apply Nat.div_eq_of_lt_le
      · rw [Nat.mul_comm]; omega
      · rw [Nat.succ_mul, Nat.mul_comm]; omega
    omega
  · rw [if_neg h, show y + 1 + (k - 1) = y + k by omega, Nat.add_div_right _ hk]
    symm
    apply Nat.div_eq_of_lt_le
    · rw [Nat.succ_mul, Nat.mul_comm]; omega
    · rw [Nat.succ_mul, Nat.succ_mul, Nat.mul_comm]; omega

theorem year_length (y : Nat) :
    daysBeforeYear (y + 1) = daysBeforeYear y + (monthLengths (isLeap y)).sum := by
  have h4 := ceil_succ 4 y (by decide)
  have h100 := ceil_succ 100 y (by decide)
  have h400 := ceil_succ 400 y (by decide)
  have order : (y + 99) / 100 ≤ 365 * y + (y + 3) / 4 + (y + 399) / 400 := by omega
  simp only [Nat.reduceSub] at h4 h100 h400
  unfold daysBeforeYear isLeap monthLengths
  rw [h4, h100, h400]
  generalize (y + 3) / 4 = a, (y + 99) / 100 = b, (y + 399) / 400 = c at *
  by_cases d4 : y % 4 = 0
  · by_cases d100 : y % 100 = 0
    · by_cases d400 : y % 400 = 0
      · simp [d4, d100, d400]; omega
      · simp [d4, d100, d400]; omega
    · have d400 : y % 400 ≠ 0 := by omega
      simp [d4, d100, d400]; omega
  · have d100 : y % 100 ≠ 0 := by omega
    have d400 : y % 400 ≠ 0 := by omega
    simp [d4, d100, d400]; omega

theorem daysBeforeYear_era (e y : Nat) :
    daysBeforeYear (400 * e + y) = 146097 * e + daysBeforeYear y := by
  unfold daysBeforeYear
  omega

theorem isLeap_era (e y : Nat) : isLeap (400 * e + y) = isLeap y := by
  have h4 : (400 * e + y) % 4 = y % 4 := by omega
  have h100 : (400 * e + y) % 100 = y % 100 := by omega
  have h400 : (400 * e + y) % 400 = y % 400 := by omega
  simp only [isLeap, h4, h100, h400]

def monthDay : List Nat → Nat → Nat × Nat
  | [], r => (0, r)
  | l :: ls, r => if r < l then (0, r) else ((monthDay ls (r - l)).1 + 1, (monthDay ls (r - l)).2)

theorem monthDay_spec (ls : List Nat) (r : Nat) (h : r < ls.sum) :
    ∃ l, ls[(monthDay ls r).1]? = some l ∧ (monthDay ls r).2 < l ∧
      (ls.take (monthDay ls r).1).sum + (monthDay ls r).2 = r := by
  induction ls generalizing r with
  | nil => simp at h
  | cons l ls ih =>
    unfold monthDay
    by_cases hr : r < l
    · exact ⟨l, by simp [hr]⟩
    · simp only [List.sum_cons] at h
      obtain ⟨m, hm, hlt, hsum⟩ := ih (r - l) (by omega)
      refine ⟨m, ?_, ?_, ?_⟩
      · simpa [hr] using hm
      · simpa [hr] using hlt
      · simp only [hr, if_false, List.take_succ_cons, List.sum_cons]
        omega

structure Civil where
  year : Int
  month : Nat
  day : Nat
  /-- Nanoseconds since midnight. -/
  clock : Nat
  deriving DecidableEq

def dayLength : Int := 86400000000000

/-- Nanoseconds from the start of year 0 on the clock of the time's own zone. -/
def localNs (t : Time) : Int := t.ns + t.zone * minute + 366 * dayLength

def civil (t : Time) : Civil :=
  let days := t.localNs / dayLength
  let inEra := (days % 146097).toNat
  let y := yearOf inEra
  let md := monthDay (monthLengths (isLeap y)) (inEra - daysBeforeYear y)
  { year := 400 * (days / 146097) + y, month := md.1 + 1, day := md.2 + 1,
    clock := (t.localNs % dayLength).toNat }

/-- Years of more or fewer than four digits are written as they are. -/
def yearText (y : Int) : Text :=
  if y < 0 then '-' :: Text.padded 10 4 y.natAbs
  else if y < 10000 then Text.padded 10 4 y.toNat
  else Text.decimal y.toNat

def fractionText (n : Nat) : Text :=
  match ((Text.padded 10 9 n).reverse.dropWhile (· = '0')).reverse with
  | [] => []
  | ds => '.' :: ds

def zoneText (z : Int) : Text :=
  if z = 0 then ['Z']
  else (if z < 0 then '-' else '+') ::
    (Text.padded 10 2 (z.natAbs / 60) ++ ':' :: Text.padded 10 2 (z.natAbs % 60))

def dateText (c : Civil) : Text :=
  yearText c.year ++ '-' :: (Text.padded 10 2 c.month ++ '-' :: Text.padded 10 2 c.day)

def clockText (clock : Nat) : Text :=
  let s := clock / 1000000000
  Text.padded 10 2 (s / 3600) ++ ':' :: (Text.padded 10 2 (s / 60 % 60) ++
    ':' :: (Text.padded 10 2 (s % 60) ++ fractionText (clock % 1000000000)))

/-- `Format(time.RFC3339Nano)`. -/
def format (t : Time) : Text :=
  dateText t.civil ++ 'T' :: (clockText t.civil.clock ++ zoneText t.zone)

/-- RFC 3339 can hold the time: four digits of year, less than a day of zone. -/
def Representable (t : Time) : Prop :=
  0 ≤ t.civil.year ∧ t.civil.year ≤ 9999 ∧ t.zone.natAbs < 1440

instance (t : Time) : Decidable t.Representable := by
  unfold Representable
  infer_instance

def fixed (w : Nat) (t : Text) : Option (Nat × Text) :=
  if w ≤ t.length then (Text.numeral 10 Text.digitValue? 0 (t.take w)).map (fun n => (n, t.drop w))
  else none

def symbol (c : Char) : Text → Option Text
  | [] => none
  | d :: t => if d = c then some t else none

/-- Go's `getnum` where the layout does not fix the width: two digits, or one. -/
def hourOf (t : Text) : Option (Nat × Text) := fixed 2 t <|> fixed 1 t

/-- An optional fraction of a second, in nanoseconds, after a period or a comma;
further digits are cut. -/
def fraction : Text → Option (Nat × Text)
  | [] => some (0, [])
  | c :: t =>
    if c = '.' ∨ c = ',' then
      match t.takeWhile Text.isDigit with
      | [] => some (0, c :: t)
      | ds =>
        (Text.numeral 10 Text.digitValue? 0 ((ds ++ List.replicate 9 '0').take 9)).map
          (fun n => (n, t.dropWhile Text.isDigit))
    else some (0, c :: t)

def zoneOf : Text → Option Int
  | [] => none
  | c :: t =>
    if c = 'Z' then (if t = [] then some 0 else none)
    else if c = '+' ∨ c = '-' then do
      let (h, t) ← fixed 2 t
      let t ← symbol ':' t
      let (m, t) ← fixed 2 t
      -- an offset of 24 hours or 60 minutes is read, though it is never written
      if h ≤ 24 ∧ m ≤ 60 ∧ t = [] then
        some (if c = '-' then -((h * 60 + m : Nat) : Int) else ((h * 60 + m : Nat) : Int))
      else none
    else none

def dateOf (t : Text) : Option (Nat × Text) := do
  let (y, t) ← fixed 4 t
  let t ← symbol '-' t
  let (mo, t) ← fixed 2 t
  let t ← symbol '-' t
  let (d, t) ← fixed 2 t
  let lengths := monthLengths (isLeap y)
  if 1 ≤ mo ∧ mo ≤ 12 ∧ 1 ≤ d ∧ d ≤ lengths.getD (mo - 1) 0 then
    some (daysBeforeYear y + (lengths.take (mo - 1)).sum + (d - 1), t)
  else none

def clockOf (t : Text) : Option (Nat × Text) := do
  let (h, t) ← hourOf t
  let t ← symbol ':' t
  let (mi, t) ← fixed 2 t
  let t ← symbol ':' t
  let (s, t) ← fixed 2 t
  let (frac, t) ← fraction t
  if h < 24 ∧ mi < 60 ∧ s < 60 then some (((h * 60 + mi) * 60 + s) * 1000000000 + frac, t) else none

/-- `time.Parse(time.RFC3339Nano, _)`. -/
def parse (t : Text) : Option Time := do
  let (days, t) ← dateOf t
  let t ← symbol 'T' t
  let (clock, t) ← clockOf t
  let zone ← zoneOf t
  some { ns := (days : Int) * dayLength + clock - zone * minute - 366 * dayLength, zone := zone }

theorem fixed_padded (w n : Nat) (k : Text) (h : n < 10 ^ w) :
    fixed w (Text.padded 10 w n ++ k) = some (n, k) := by
  have hl := Text.padded_length 10 w n
  have ht : (Text.padded 10 w n ++ k).take w = Text.padded 10 w n := by
    rw [List.take_append_of_le_length (Nat.le_of_eq hl.symm), List.take_of_length_le (Nat.le_of_eq hl)]
  have hd : (Text.padded 10 w n ++ k).drop w = k := by
    rw [List.drop_append_of_le_length (Nat.le_of_eq hl.symm), List.drop_of_length_le (Nat.le_of_eq hl),
      List.nil_append]
  simp [fixed, ht, hd, Text.numeral_padded (show 0 < 10 by decide) Text.decimal_digits,
    Nat.mod_eq_of_lt h, hl]

theorem hour_padded (n : Nat) (k : Text) (h : n < 100) : hourOf (Text.padded 10 2 n ++ k) = some (n, k) := by
  rw [hourOf, fixed_padded 2 n k h]
  rfl

theorem symbol_self (c : Char) (t : Text) : symbol c (c :: t) = some t := by
  simp [symbol]

theorem trailing_zeros (p : Text) : ∃ k,
    p = (p.reverse.dropWhile (· = '0')).reverse ++ List.replicate k '0' := by
  refine ⟨(p.reverse.takeWhile (· = '0')).length, ?_⟩
  have split := congrArg List.reverse
    (List.takeWhile_append_dropWhile (p := fun c : Char => decide (c = '0')) (l := p.reverse))
  have zeros : p.reverse.takeWhile (· = '0') =
      List.replicate (p.reverse.takeWhile (· = '0')).length '0' := by
    apply List.eq_replicate_of_mem
    intro c hc
    exact of_decide_eq_true (List.all_eq_true.mp List.all_takeWhile c hc)
  rw [List.reverse_append, List.reverse_reverse] at split
  rw [zeros, List.reverse_replicate] at split
  exact split.symm

theorem zoneText_head (z : Int) : ∃ c t, zoneText z = c :: t ∧ Text.isDigit c = false ∧
    ¬ (c = '.' ∨ c = ',') := by
  unfold zoneText
  split
  · exact ⟨'Z', [], rfl, by decide, by decide⟩
  · split
    · exact ⟨'-', _, rfl, by decide, by decide⟩
    · exact ⟨'+', _, rfl, by decide, by decide⟩

theorem fraction_text (n : Nat) (z : Int) (h : n < 10 ^ 9) :
    fraction (fractionText n ++ zoneText z) = some (n, zoneText z) := by
  obtain ⟨c, t, hz, digit, dot⟩ := zoneText_head z
  obtain ⟨k, hk⟩ := trailing_zeros (Text.padded 10 9 n)
  have value := Text.numeral_padded (show 0 < 10 by decide) Text.decimal_digits 9 n 0
  rw [Nat.mod_eq_of_lt h, Nat.zero_mul, Nat.zero_add] at value
  have digits : ∀ d ∈ Text.padded 10 9 n, Text.isDigit d = true := by
    intro d hd
    obtain ⟨e, he, rfl⟩ := Text.padded_mem (by decide) (by decide) hd
    exact (Text.decimal_facts ⟨e.val, he⟩).2.1
  have len := Text.padded_length 10 9 n
  unfold fractionText
  generalize ((Text.padded 10 9 n).reverse.dropWhile (· = '0')).reverse = ds at *
  cases ds with
  | nil =>
    -- only zeros were written, so the fraction is zero
    have hn : n = 0 := by
      have hk9 : k = 9 := by
        rw [hk] at len
        simpa using len
      rw [hk, hk9] at value
      have zero : Text.numeral 10 Text.digitValue? 0 (List.replicate 9 '0') = some 0 := by decide
      rw [List.nil_append, zero] at value
      exact (Option.some.inj value).symm
    subst hn
    simp only [List.nil_append, hz, fraction, if_neg dot]
  | cons d ds =>
    have all : ∀ e ∈ d :: ds, Text.isDigit e = true := by
      intro e he
      exact digits e (by rw [hk]; exact List.mem_append_left _ he)
    have take : (d :: ds ++ zoneText z).takeWhile Text.isDigit = d :: ds := by
      rw [List.takeWhile_append_of_pos all, hz]
      simp [digit]
    have drop : (d :: ds ++ zoneText z).dropWhile Text.isDigit = zoneText z := by
      rw [List.dropWhile_append_of_pos all, hz]
      simp [digit]
    have pad : (d :: ds ++ List.replicate 9 '0').take 9 = Text.padded 10 9 n := by
      have hl : (d :: ds).length + k = 9 := by
        rw [hk, List.length_append, List.length_replicate] at len
        exact len
      rw [hk, List.take_append, List.take_of_length_le (by omega), List.take_replicate]
      congr 2
      omega
    rw [List.cons_append] at take drop
    simp only [List.cons_append, fraction, true_or, if_true, take, drop]
    rw [← List.cons_append, pad, value]
    rfl

theorem zone_text (z : Int) (h : z.natAbs < 1440) : zoneOf (zoneText z) = some z := by
  unfold zoneText
  by_cases hz : z = 0
  · subst hz
    rfl
  · have hours := fixed_padded 2 (z.natAbs / 60) (':' :: (Text.padded 10 2 (z.natAbs % 60) ++ []))
      (by omega)
    have minutes := fixed_padded 2 (z.natAbs % 60) [] (by omega)
    have small : z.natAbs / 60 ≤ 24 ∧ z.natAbs % 60 ≤ 60 := by omega
    rw [List.append_nil] at hours
    rw [List.append_nil] at minutes
    have split : z.natAbs / 60 * 60 + z.natAbs % 60 = z.natAbs := by omega
    by_cases neg : z < 0
    · have back : -((z.natAbs : Nat) : Int) = z := by omega
      simp only [if_neg hz, if_pos neg, zoneOf, hours, symbol_self, minutes, Option.bind_eq_bind,
        Option.bind_some, Char.reduceEq, if_false, or_true, if_true, small, and_self, split, back]
    · have back : ((z.natAbs : Nat) : Int) = z := by omega
      simp only [if_neg hz, if_neg neg, zoneOf, hours, symbol_self, minutes, Option.bind_eq_bind,
        Option.bind_some, Char.reduceEq, if_false, true_or, if_true, small, and_self, split, back]

theorem civil_days (t : Time) (low : 0 ≤ t.civil.year) :
    ∃ y l : Nat, t.civil.year = y ∧ (monthLengths (isLeap y))[t.civil.month - 1]? = some l ∧
      1 ≤ t.civil.month ∧ t.civil.month ≤ 12 ∧ 1 ≤ t.civil.day ∧ t.civil.day ≤ l ∧ l ≤ 31 ∧
      ((daysBeforeYear y + ((monthLengths (isLeap y)).take (t.civil.month - 1)).sum +
        (t.civil.day - 1) : Nat) : Int) = t.localNs / dayLength := by
  simp only [civil] at low ⊢
  generalize t.localNs / dayLength = days at *
  obtain ⟨hy, hlo, hhi⟩ := yearOf_spec (days % 146097).toNat (by omega)
  have back : ((days % 146097).toNat : Int) = days % 146097 := by omega
  have whole := Int.mul_ediv_add_emod days 146097
  generalize (days % 146097).toNat = r at *
  generalize hyear : yearOf r = y at *
  obtain ⟨e, he⟩ : ∃ e : Nat, days / 146097 = e := ⟨(days / 146097).toNat, by omega⟩
  have year := year_length y
  obtain ⟨l, hl, hday, hsum⟩ := monthDay_spec (monthLengths (isLeap y)) (r - daysBeforeYear y)
    (by omega)
  have hm : (monthDay (monthLengths (isLeap y)) (r - daysBeforeYear y)).1 < 12 := by
    have := (List.getElem?_eq_some_iff.mp hl).1
    simpa [monthLengths] using this
  have hl31 : l ≤ 31 := by
    have mem := List.mem_of_getElem? hl
    revert mem
    cases isLeap y <;> simp [monthLengths] <;> omega
  refine ⟨400 * e + y, l, ?_, ?_, ?_, ?_, ?_, ?_, hl31, ?_⟩
  · rw [he]; push_cast; ring
  · rw [isLeap_era]; exact hl
  · omega
  · omega
  · omega
  · omega
  · rw [isLeap_era, daysBeforeYear_era]
    simp only [Nat.add_sub_cancel]
    omega

theorem date_text (t : Time) (k : Text) (low : 0 ≤ t.civil.year) (high : t.civil.year ≤ 9999) :
    ∃ days : Nat, (days : Int) = t.localNs / dayLength ∧
      dateOf (dateText t.civil ++ k) = some (days, k) := by
  obtain ⟨y, l, hy, hl, hm1, hm12, hd1, hdl, hl31, days⟩ := civil_days t low
  have hyear : yearText t.civil.year = Text.padded 10 4 y := by
    rw [hy] at high ⊢
    unfold yearText
    rw [if_neg (by omega), if_pos (by omega), Int.toNat_natCast]
  have getD : (monthLengths (isLeap y)).getD (t.civil.month - 1) 0 = l := by
    rw [List.getD_eq_getElem?_getD, hl]
    rfl
  refine ⟨_, days, ?_⟩
  unfold dateText dateOf
  rw [hyear]
  generalize t.civil.month = mo at *
  generalize t.civil.day = d at *
  simp only [List.append_assoc, List.cons_append]
  rw [fixed_padded 4 y _ (by omega)]
  simp only [Option.bind_eq_bind, Option.bind_some, symbol_self]
  rw [fixed_padded 2 mo _ (by omega)]
  simp only [Option.bind_some, symbol_self]
  rw [fixed_padded 2 d _ (by omega), Option.bind_some]
  simp only [getD]
  rw [if_pos ⟨hm1, hm12, hd1, hdl⟩]

theorem clock_text (clock : Nat) (z : Int) (h : clock < 86400000000000) :
    clockOf (clockText clock ++ zoneText z) = some (clock, zoneText z) := by
  have sum : ((clock / 1000000000 / 3600 * 60 + clock / 1000000000 / 60 % 60) * 60 +
      clock / 1000000000 % 60) * 1000000000 + clock % 1000000000 = clock := by omega
  unfold clockText clockOf
  simp only [List.append_assoc, List.cons_append]
  rw [hour_padded _ _ (by omega)]
  simp only [Option.bind_eq_bind, Option.bind_some, symbol_self]
  rw [fixed_padded 2 _ _ (by omega)]
  simp only [Option.bind_some, symbol_self]
  rw [fixed_padded 2 _ _ (by omega), Option.bind_some, fraction_text _ z (by omega), Option.bind_some,
    if_pos ⟨by omega, by omega, by omega⟩, sum]

theorem parse_format (t : Time) (h : t.Representable) : parse (format t) = some t := by
  obtain ⟨low, high, hzone⟩ := h
  obtain ⟨days, hdays, date⟩ := date_text t ('T' :: (clockText t.civil.clock ++ zoneText t.zone)) low high
  have clockDef : t.civil.clock = (t.localNs % dayLength).toNat := rfl
  have clockBack : (t.civil.clock : Int) = t.localNs % dayLength := by
    rw [clockDef]
    unfold dayLength
    omega
  have clock := clock_text t.civil.clock t.zone (by rw [clockDef]; unfold dayLength; omega)
  have dayBack := Int.mul_ediv_add_emod t.localNs dayLength
  have nsBack : t.ns = t.localNs - t.zone * minute - 366 * dayLength := by
    unfold localNs
    ring
  unfold format parse
  rw [date]
  simp only [Option.bind_eq_bind, Option.bind_some, symbol_self, clock, zone_text t.zone hzone]
  congr 1
  cases t with
  | mk ns zone =>
    simp only [Time.mk.injEq, and_true] at nsBack ⊢
    rw [hdays, clockBack]
    linarith

theorem date_unreadable (t : Time) (k : Text) (out : t.civil.year < 0 ∨ 9999 < t.civil.year)
    (bound : t.civil.year < 10 ^ 20) : dateOf (dateText t.civil ++ k) = none := by
  have sign : Text.digitValue? '-' = none := by decide
  rcases out with low | high
  · have year : yearText t.civil.year = '-' :: Text.padded 10 4 t.civil.year.natAbs := if_pos low
    have head : fixed 4 (dateText t.civil ++ k) = none := by
      unfold dateText fixed
      rw [year]
      simp [Text.numeral, sign]
    unfold dateOf
    rw [head]
    rfl
  · have year : yearText t.civil.year = Text.decimal t.civil.year.toNat := by
      unfold yearText
      rw [if_neg (by omega), if_neg (by omega)]
    have value := Text.numeral_decimal (n := t.civil.year.toNat) (by omega)
    obtain ⟨c, r, shape, hc, hr, -⟩ := Text.decimal_shape t.civil.year.toNat
    rw [shape] at value
    have digits : ∀ d ∈ c :: r, Text.isDigit d = true := by
      intro d hd
      rcases List.mem_cons.mp hd with rfl | hd
      · exact hc
      · exact hr d hd
    have long : 4 < (c :: r).length := by
      have below := Text.numeral_lt value
      by_contra short
      have few : 10 ^ (c :: r).length ≤ 10 ^ 4 := Nat.pow_le_pow_right (by decide) (by omega)
      omega
    -- four digits are read, and the fifth stands where a dash should
    obtain ⟨a, d, s, cut, len⟩ : ∃ a d s, c :: r = a ++ d :: s ∧ a.length = 4 := by
      refine ⟨(c :: r).take 4, (c :: r).get ⟨4, long⟩, (c :: r).drop 5, ?_,
        by simp only [List.length_take]; omega⟩
      rw [List.get_eq_getElem, ← List.drop_eq_getElem_cons, List.take_append_drop]
    have dash : d ≠ '-' := by
      rintro rfl
      have bad := digits '-' (by rw [cut]; simp)
      revert bad
      decide
    unfold dateOf dateText fixed
    rw [year, shape, cut]
    simp only [List.append_assoc, List.cons_append, ← len, List.take_left, List.drop_left]
    split
    · cases Text.numeral 10 Text.digitValue? 0 a with
      | none => rfl
      | some n => simp [symbol, dash]
    · rfl

theorem parse_format_eq {u : Time} (zone : t.zone.natAbs < 1440) (bound : t.civil.year < 10 ^ 20)
    (h : parse (format t) = some u) : u = t := by
  by_cases inside : 0 ≤ t.civil.year ∧ t.civil.year ≤ 9999
  · rw [parse_format t ⟨inside.1, inside.2, zone⟩] at h
    exact (Option.some.inj h).symm
  · have none := date_unreadable t ('T' :: (clockText t.civil.clock ++ zoneText t.zone)) (by omega) bound
    unfold format parse at h
    rw [none] at h
    cases h

theorem year_days (low : 0 ≤ t.civil.year) : 365 * t.civil.year - 1 ≤ t.localNs / dayLength ∧
    t.localNs / dayLength ≤ 366 * t.civil.year + 500 := by
  obtain ⟨y, l, hy, hl, -, hm, -, hd, hl31, days⟩ := civil_days t low
  have months : ((monthLengths (isLeap y)).take (t.civil.month - 1)).sum ≤ 366 := by
    have part := congrArg List.sum (List.take_append_drop (t.civil.month - 1) (monthLengths (isLeap y)))
    rw [List.sum_append] at part
    have year : (monthLengths (isLeap y)).sum ≤ 366 := by cases isLeap y <;> decide
    omega
  rw [hy, ← days]
  unfold daysBeforeYear
  omega

/-- A time of at most a lifetime after a readable one has a year of few digits. -/
theorem year_bound {now : Time} (h : now.Representable) (zone : t.zone.natAbs < 1440)
    (near : t.ns ≤ now.ns + dayLength) : t.civil.year < 10 ^ 20 := by
  obtain ⟨low, high, hz⟩ := h
  by_contra far
  have early := (year_days low).2
  have late := (year_days (t := t) (by omega)).1
  have whole := Int.mul_ediv_add_emod now.localNs dayLength
  have whole' := Int.mul_ediv_add_emod t.localNs dayLength
  unfold localNs dayLength minute second at *
  omega

theorem fractionText_size_le (n : Nat) : (fractionText n).size ≤ 10 := by
  obtain ⟨k, hk⟩ := trailing_zeros (Text.padded 10 9 n)
  have total := Text.padded_size (show 0 < 10 by decide) (show 10 ≤ 16 by decide) 9 n
  rw [hk, Text.size_append] at total
  have dot : '.'.utf8Size = 1 := by decide
  unfold fractionText
  split
  · simp
  · simp only [Text.size_cons, dot]
    omega

theorem format_size_le (t : Time) (h : t.Representable) : (format t).size ≤ 35 := by
  obtain ⟨low, high, _⟩ := h
  have width : ∀ w n, Text.size (Text.padded 10 w n) = w :=
    fun w n => Text.padded_size (by decide) (by decide) w n
  have marks : '-'.utf8Size = 1 ∧ 'T'.utf8Size = 1 ∧ ':'.utf8Size = 1 ∧ 'Z'.utf8Size = 1 ∧
      '+'.utf8Size = 1 := by decide
  have year : (yearText t.civil.year).size = 4 := by
    unfold yearText
    rw [if_neg (by omega), if_pos (by omega), width]
  have zone : (zoneText t.zone).size ≤ 6 := by
    unfold zoneText
    split
    · simp [marks]
    · split <;> simp [marks, width]
  have frac := fractionText_size_le (t.civil.clock % 1000000000)
  simp only [format, dateText, clockText, Text.size_append, Text.size_cons, width, year, marks]
  omega

end Time
