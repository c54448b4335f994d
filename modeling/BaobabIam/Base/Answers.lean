import BaobabIam.Base.Sequence

/-! Programs by their logs. A log says how every question of a program was answered, so
it fixes where the program goes; the log of two programs in a row is cut between them. -/
namespace Interleaving

variable {I : Interface} {S ε α β : Type}

def Prog.Answered : Prog I S ε α → S → Log I → Except ε α → S → Prop
  | .ret a, s, L, r, s' => L = [] ∧ r = .ok a ∧ s' = s
  | .fail e, s, L, r, s' => L = [] ∧ r = .error e ∧ s' = s
  | .ask q k, s, L, r, s' => ∃ a rest, L = ⟨q, a⟩ :: rest ∧ (k a).Answered s rest r s'
  | .atomic t k, s, L, r, s' =>
    ∃ first rest x, L = first ++ rest ∧ (t s).Answered first x ∧
      (k (outcome x)).Answered (committed s x) rest r s'

section Rules

variable {s s' : S} {L : Log I} {p : Prog I S ε α} {f : α → Prog I S ε β}

variable {r : Except ε β} {q : I.Query} {L' X X' : Log I}

theorem answered_bind : (p >>= f).Answered s L r s' ↔ ∃ L₁ L₂ x s₁, L = L₁ ++ L₂ ∧
    p.Answered s L₁ x s₁ ∧
    match x with
    | .ok a => (f a).Answered s₁ L₂ r s'
    | .error e => L₂ = [] ∧ r = .error e ∧ s' = s₁ := by
  change (p.bind f).Answered s L r s' ↔ _
  induction p generalizing s L with
  | ret a =>
    constructor
    · intro h
      exact ⟨[], L, .ok a, s, rfl, ⟨rfl, rfl, rfl⟩, h⟩
    · rintro ⟨L₁, L₂, x, s₁, rfl, ⟨rfl, rfl, rfl⟩, h⟩
      exact h
  | fail e =>
    constructor
    · rintro ⟨rfl, rfl, rfl⟩
      exact ⟨[], [], .error e, s', rfl, ⟨rfl, rfl, rfl⟩, rfl, rfl, rfl⟩
    · rintro ⟨L₁, L₂, x, s₁, rfl, ⟨rfl, rfl, rfl⟩, rfl, rfl, rfl⟩
      exact ⟨rfl, rfl, rfl⟩
  | ask q k ih =>
    constructor
    · rintro ⟨a, rest, rfl, h⟩
      obtain ⟨L₁, L₂, x, s₁, rfl, first, second⟩ := (ih a).mp h
      exact ⟨⟨q, a⟩ :: L₁, L₂, x, s₁, rfl, ⟨a, L₁, rfl, first⟩, second⟩
    · rintro ⟨_, L₂, x, s₁, rfl, ⟨a, L₁, rfl, first⟩, second⟩
      exact ⟨a, L₁ ++ L₂, rfl, (ih a).mpr ⟨L₁, L₂, x, s₁, rfl, first, second⟩⟩
  | atomic t k ih =>
    constructor
    · rintro ⟨start, rest, x, rfl, ran, h⟩
      obtain ⟨L₁, L₂, y, s₁, rfl, first, second⟩ := (ih _).mp h
      exact ⟨start ++ L₁, L₂, y, s₁, (List.append_assoc _ _ _).symm,
        ⟨start, L₁, x, rfl, ran, first⟩, second⟩
    · rintro ⟨_, L₂, y, s₁, rfl, ⟨start, L₁, x, rfl, ran, first⟩, second⟩
      exact ⟨start, L₁ ++ L₂, x, List.append_assoc _ _ _, ran,
        (ih _).mpr ⟨L₁, L₂, y, s₁, rfl, first, second⟩⟩

theorem answered_question {r : Except ε (I.Answer q)} :
    (Prog.question q : Prog I S ε _).Answered s L r s' ↔ ∃ a, L = [⟨q, a⟩] ∧ r = .ok a ∧ s' = s := by
  constructor
  · rintro ⟨a, _, rfl, rfl, rfl, rfl⟩
    exact ⟨a, rfl, rfl, rfl⟩
  · rintro ⟨a, rfl, rfl, rfl⟩
    exact ⟨a, [], rfl, rfl, rfl, rfl⟩

theorem answered_question_then {g : I.Answer q → Prog I S ε β} :
    (Prog.question q >>= g).Answered s L r s' ↔ ∃ a rest, L = ⟨q, a⟩ :: rest ∧
    (g a).Answered s rest r s' := Iff.rfl

theorem answered_require_then {c : Bool} {e : ε} {g : Unit → Prog I S ε β} :
    (Prog.require c e >>= g).Answered s L r s' ↔
      if c then (g ()).Answered s L r s' else L = [] ∧ r = .error e ∧ s' = s := by
  cases c <;> exact Iff.rfl

theorem answered_ofExcept {x r : Except ε α} :
    (Prog.ofExcept x : Prog I S ε α).Answered s L r s' ↔ L = [] ∧ r = x ∧ s' = s := by
  cases x <;> exact Iff.rfl

theorem answered_attempt {r : Except ε (Except ε α)} :
    p.attempt.Answered s L r s' ↔ ∃ x, r = .ok x ∧ p.Answered s L x s' := by
  induction p generalizing s L with
  | ret a | fail e =>
    constructor
    · rintro ⟨rfl, rfl, rfl⟩
      exact ⟨_, rfl, rfl, rfl, rfl⟩
    · rintro ⟨_, rfl, rfl, rfl, rfl⟩
      exact ⟨rfl, rfl, rfl⟩
  | ask q k ih =>
    constructor
    · rintro ⟨a, rest, rfl, h⟩
      obtain ⟨x, rfl, inner⟩ := (ih a).mp h
      exact ⟨x, rfl, a, rest, rfl, inner⟩
    · rintro ⟨x, rfl, a, rest, rfl, h⟩
      exact ⟨a, rest, rfl, (ih a).mpr ⟨x, rfl, h⟩⟩
  | atomic t k ih =>
    constructor
    · rintro ⟨start, rest, y, rfl, ran, h⟩
      obtain ⟨x, rfl, inner⟩ := (ih _).mp h
      exact ⟨x, rfl, start, rest, y, rfl, ran, inner⟩
    · rintro ⟨x, rfl, start, rest, y, rfl, ran, h⟩
      exact ⟨start, rest, y, rfl, ran, (ih _).mpr ⟨x, rfl, h⟩⟩

theorem Dialogue.Answered.unique {d : Dialogue I α} {L : Log I} {a a' : α} (h : d.Answered L a)
    (h' : d.Answered L' a') (same : L ++ X = L' ++ X') : L = L' ∧ a = a' := by
  induction d generalizing L L' with
  | done b =>
    obtain ⟨rfl, rfl⟩ := h
    obtain ⟨rfl, rfl⟩ := h'
    exact ⟨rfl, rfl⟩
  | ask q k ih =>
    obtain ⟨b, rest, rfl, inner⟩ := h
    obtain ⟨b', rest', rfl, inner'⟩ := h'
    rw [List.cons_append, List.cons_append] at same
    obtain ⟨head, tail⟩ := List.cons.inj same
    cases head
    obtain ⟨rfl, rfl⟩ := ih b inner inner' tail
    exact ⟨rfl, rfl⟩

theorem Prog.Answered.unique {r r' : Except ε α} {t t' : S} (h : p.Answered s L r t)
    (h' : p.Answered s L' r' t') (same : L ++ X = L' ++ X') : L = L' ∧ r = r' := by
  induction p generalizing s L L' with
  | ret a | fail e =>
    obtain ⟨rfl, rfl, -⟩ := h
    obtain ⟨rfl, rfl, -⟩ := h'
    exact ⟨rfl, rfl⟩
  | ask q k ih =>
    obtain ⟨a, rest, rfl, inner⟩ := h
    obtain ⟨a', rest', rfl, inner'⟩ := h'
    rw [List.cons_append, List.cons_append] at same
    obtain ⟨head, tail⟩ := List.cons.inj same
    cases head
    obtain ⟨rfl, rfl⟩ := ih a inner inner' tail
    exact ⟨rfl, rfl⟩
  | atomic t k ih =>
    obtain ⟨first, rest, x, rfl, ran, inner⟩ := h
    obtain ⟨first', rest', x', rfl, ran', inner'⟩ := h'
    rw [List.append_assoc, List.append_assoc] at same
    obtain ⟨rfl, rfl⟩ := ran.unique ran' same
    obtain ⟨rfl, rfl⟩ := ih _ inner inner' (List.append_cancel_left same)
    exact ⟨rfl, rfl⟩

end Rules

section Questions

def Prog.Asks (P : I.Query → Prop) (p : Prog I S ε α) : Prop := ∀ s L r s', p.Answered s L r s' →
    ∀ x ∈ L, P x.1

variable {P : I.Query → Prop} {p : Prog I S ε α} {f : α → Prog I S ε β}

theorem asks_then (first : p.Asks P) (second : ∀ a, (f a).Asks P) : (p >>= f).Asks P := by
  intro s L r s' ended x member
  obtain ⟨L₁, L₂, y, s₁, rfl, start, rest⟩ := answered_bind.mp ended
  rcases List.mem_append.mp member with member | member
  · exact first _ _ _ _ start x member
  · cases y with
    | ok a => exact second a _ _ _ _ rest x member
    | error e =>
      rw [rest.1] at member
      cases member

theorem asks_ofExcept (x : Except ε α) : (Prog.ofExcept x : Prog I S ε α).Asks P := by
  intro s L r s' ended y member
  rw [(answered_ofExcept.mp ended).1] at member
  cases member

theorem asks_ret (a : α) : (Prog.ret a : Prog I S ε α).Asks P := asks_ofExcept (.ok a)

theorem asks_fail (e : ε) : (Prog.fail e : Prog I S ε α).Asks P := asks_ofExcept (.error e)

theorem asks_require (c : Bool) (e : ε) : (Prog.require c e : Prog I S ε Unit).Asks P := by
  cases c
  · exact asks_fail e
  · exact asks_ret ()

theorem asks_question {q : I.Query} (h : P q) : (Prog.question q : Prog I S ε _).Asks P := by
  intro s L r s' ended x member
  obtain ⟨a, rfl, -⟩ := answered_question.mp ended
  rw [List.mem_singleton.mp member]
  exact h

theorem asks_attempt (h : p.Asks P) : p.attempt.Asks P := by
  intro s L r s' ended
  obtain ⟨x, -, ended⟩ := answered_attempt.mp ended
  exact h _ _ _ _ ended

end Questions

end Interleaving
