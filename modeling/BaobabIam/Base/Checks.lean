import Mathlib.Data.List.Basic

/-! Checks in a row: the first one that fails gives the error. -/
namespace Checks

variable {ε α β : Type}

def require (c : Bool) (e : ε) : Except ε Unit := if c then .ok () else .error e

def each (check : α → Except ε Unit) : List α → Except ε Unit
  | [] => .ok ()
  | a :: as => do
    check a
    each check as

variable {e : ε} {u : Unit} {x k : Except ε α} {a : α} {c : Prop}

@[simp] theorem require_ok {c : Bool} : require c e = .ok u ↔ c = true := by
  cases c <;> simp [require]

@[simp] theorem bind_ok {f : α → Except ε β} {b : β} :
    (x >>= f) = .ok b ↔ ∃ a, x = .ok a ∧ f a = .ok b := by
  cases x with
  | error e => simp [Bind.bind, Except.bind]
  | ok a => simp [Bind.bind, Except.bind]

@[simp] theorem pure_ok {b : α} : (pure a : Except ε α) = .ok b ↔ a = b := by
  simp [Pure.pure, Except.pure]

@[simp] theorem elim_ok {o : Option α} : o.elim (.error e) Except.ok = .ok a ↔ o = some a := by
  cases o <;> simp

@[simp] theorem mapError_ok {ε' : Type} {f : ε → ε'} : x.mapError f = .ok a ↔ x = .ok a := by
  cases x with
  | error e => simp [Except.mapError]
  | ok b => simp [Except.mapError]

theorem throw_if_ok [Decidable c] {f : PUnit → Except ε α} :
    (if c then (throw e >>= f) else k) = .ok a ↔ ¬ c ∧ k = .ok a := by
  by_cases h : c
  · rw [if_pos h]
    exact ⟨nofun, fun both => absurd h both.1⟩
  · rw [if_neg h, and_iff_right h]

theorem check_if_ok [Decidable c] {x : Except ε Unit} :
    (if c then (x >>= fun _ => k) else k) = .ok a ↔ (c → x = .ok ()) ∧ k = .ok a := by
  by_cases h : c
  · rw [if_pos h, bind_ok]
    constructor
    · rintro ⟨⟨⟩, passed, rest⟩
      exact ⟨fun _ => passed, rest⟩
    · rintro ⟨passed, rest⟩
      exact ⟨(), passed h, rest⟩
  · rw [if_neg h]
    exact ⟨fun rest => ⟨fun held => absurd held h, rest⟩, fun both => both.2⟩

@[simp] theorem each_ok {check : α → Except ε Unit} {as : List α} :
    each check as = .ok u ↔ ∀ a ∈ as, check a = .ok () := by
  induction as with
  | nil => simp [each]
  | cons a as ih =>
    rw [each, bind_ok, List.forall_mem_cons]
    constructor
    · rintro ⟨⟨⟩, first, rest⟩
      exact ⟨first, ih.mp rest⟩
    · rintro ⟨first, rest⟩
      exact ⟨(), first, ih.mpr rest⟩

theorem isOk_unit {ε : Type} {x : Except ε Unit} : x.isOk = true ↔ x = .ok () := by
  cases x with
  | error e => exact ⟨nofun, nofun⟩
  | ok u => exact ⟨fun _ => rfl, fun _ => rfl⟩

section Errors

variable {P : ε → Prop}

def ErrorsIn (P : ε → Prop) (x : Except ε α) : Prop := ∀ e, x = .error e → P e

theorem errorsIn_ok (a : α) : ErrorsIn P (.ok a) := nofun

theorem errorsIn_error {e : ε} : ErrorsIn P (.error e : Except ε α) ↔ P e :=
  ⟨fun h => h e rfl, fun h _ same => Except.error.inj same ▸ h⟩

theorem errorsIn_bind {x : Except ε α} {f : α → Except ε β} :
    ErrorsIn P (x >>= f) ↔ ErrorsIn P x ∧ ∀ a, x = .ok a → ErrorsIn P (f a) := by
  cases x with
  | error e =>
    change ErrorsIn P (.error e : Except ε β) ↔ _
    rw [errorsIn_error, errorsIn_error]
    exact ⟨fun h => ⟨h, nofun⟩, fun h => h.1⟩
  | ok a => exact ⟨fun h => ⟨nofun, fun b same => Except.ok.inj same ▸ h⟩, fun h => h.2 a rfl⟩

theorem errorsIn_require {c : Bool} {e : ε} (h : P e) : ErrorsIn P (require c e) := by
  cases c with
  | true => exact errorsIn_ok ()
  | false => exact errorsIn_error.mpr h

theorem errorsIn_require_then {c : Bool} {e : ε} {f : Unit → Except ε β} (h : P e) :
    ErrorsIn P (require c e >>= f) ↔ (c = true → ErrorsIn P (f ())) := by
  cases c with
  | true => exact ⟨fun rest _ => rest, fun rest => rest rfl⟩
  | false => exact iff_of_true (errorsIn_error.mpr h) nofun

end Errors

end Checks
