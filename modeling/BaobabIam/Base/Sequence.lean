import BaobabIam.Base.Turns

/-! Calls one after another. Nothing runs between the steps of a program, so what it
does is said by preconditions and postconditions on the store alone. -/
namespace Interleaving

variable {I : Interface} {S ε α β : Type}

abbrev Allowed (I : Interface) := (q : I.Query) → I.Answer q → Prop

/-- The program, left alone at this store and answered so, ends in `Q`. -/
def after (allowed : Allowed I) : Prog I S ε α → S → (S → Except ε α → Prop) → Prop
  | .ret a, s, Q => Q s (.ok a)
  | .fail e, s, Q => Q s (.error e)
  | .ask q k, s, Q => ∀ a, allowed q a → after allowed (k a) s Q
  | .atomic t k, s, Q => ∀ L, t.wp (fun _ => allowed) s L (fun r _ => after allowed (k (outcome r)) (committed s r) Q)

section Rules

variable {allowed : Allowed I} {s : S} {Q : S → Except ε β → Prop}

def followed (allowed : Allowed I) (f : α → Prog I S ε β) (Q : S → Except ε β → Prop) :
    S → Except ε α → Prop
  | s, .ok a => after allowed (f a) s Q
  | s, .error e => Q s (.error e)

variable {f : α → Prog I S ε β} {a : α} {c : Bool} {e : ε} {r : Except ε α} {p : Prog I S ε β}
    {R : S → Except ε β → Prop} {L : Log I} {d : Dialogue I α} {P : α → Log I → Prop} {rule : Rule I}

theorem followed_ok :
    followed allowed f Q s (.ok a) ↔ after allowed (f a) s Q := Iff.rfl

theorem after_then {p : Prog I S ε α} (h : after allowed p s (followed allowed f Q)) :
    after allowed (p >>= f) s Q := by
  change after allowed (p.bind f) s Q
  induction p generalizing s with
  | ret a => exact h
  | fail e => exact h
  | ask q k ih => exact fun a ha => ih a (h a ha)
  | atomic t k ih => exact fun L => Tx.wp_mono (h L) (fun r L' hr => ih _ hr)

theorem after_question_then {q : I.Query} {f : I.Answer q → Prog I S ε β}
    (h : ∀ a, allowed q a → after allowed (f a) s Q) : after allowed (Prog.question q >>= f) s Q := after_then h

def Fails (s : S) (Q : S → Except ε α → Prop) : Prop := ∀ e, Q s (.error e)

theorem Fails.followed (fails : Fails s Q) : Fails s (followed allowed f Q) := fun e => fails e

theorem after_require_then {f : Unit → Prog I S ε β} (fails : Fails s Q)
    (h : c = true → after allowed (f ()) s Q) : after allowed (Prog.require c e >>= f) s Q := by
  cases c with
  | true => exact h rfl
  | false => exact fails e

theorem after_ofExcept_then (fails : Fails s Q)
    (h : ∀ a, r = .ok a → after allowed (f a) s Q) : after allowed (Prog.ofExcept r >>= f) s Q := by
  cases r with
  | ok a => exact h a rfl
  | error e => exact fails e

theorem after_require_pass {f : Unit → Prog I S ε β} (holds : c = true)
    (h : after allowed (f ()) s Q) : after allowed (Prog.require c e >>= f) s Q := by
  subst holds
  exact h

theorem after_ofExcept_pass (holds : r = .ok a)
    (h : after allowed (f a) s Q) : after allowed (Prog.ofExcept r >>= f) s Q := by
  subst holds
  exact h

theorem after_mono (h : after allowed p s Q)
    (imp : ∀ s r, Q s r → R s r) : after allowed p s R := by
  induction p generalizing s with
  | ret a => exact imp _ _ h
  | fail e => exact imp _ _ h
  | ask q k ih => exact fun a ha => ih a (h a ha)
  | atomic t k ih => exact fun L => Tx.wp_mono (h L) (fun r L' hr => ih _ hr)

def Dialogue.Answered : Dialogue I α → Log I → α → Prop
  | .done a, L, r => L = [] ∧ a = r
  | .ask q k, L, r => ∃ a rest, L = ⟨q, a⟩ :: rest ∧ (k a).Answered rest r

theorem Dialogue.Answered.post {L' : Log I} {r : α} (ended : d.Answered L' r)
    (h : d.wp (fun _ _ _ => True) L P) : P r (L ++ L') := by
  induction d generalizing L L' with
  | done a =>
    obtain ⟨rfl, rfl⟩ := ended
    rw [List.append_nil]
    exact h
  | ask q k ih =>
    obtain ⟨a, rest, rfl, ended⟩ := ended
    have whole := ih a ended (h a trivial)
    rw [List.append_assoc] at whole
    exact whole

theorem Dialogue.wp_meet (answers : ∀ L q, ∃ a, rule L q a)
    {R : α → Log I → Prop} (h : d.wp rule L P) (h' : d.wp rule L R) : ∃ a L', P a L' ∧ R a L' := by
  induction d generalizing L with
  | done a => exact ⟨a, L, h, h'⟩
  | ask q k ih =>
    obtain ⟨a, ha⟩ := answers L q
    exact ih a (h a ha) (h' a ha)

theorem Dialogue.wp_and {R : α → Log I → Prop} (h : d.wp rule L P)
    (h' : d.wp rule L R) : d.wp rule L (fun a L' => P a L' ∧ R a L') := by
  induction d generalizing L with
  | done a => exact ⟨h, h'⟩
  | ask q k ih => exact fun a ha => ih a (h a ha) (h' a ha)

/-- Where every question can be answered, two postconditions have an end in common. -/
theorem after_meet (answers : ∀ q, ∃ a, allowed q a)
    (h : after allowed p s Q) (h' : after allowed p s R) : ∃ s' r, Q s' r ∧ R s' r := by
  induction p generalizing s with
  | ret a => exact ⟨_, _, h, h'⟩
  | fail e => exact ⟨_, _, h, h'⟩
  | ask q k ih =>
    obtain ⟨a, ha⟩ := answers q
    exact ih a (h a ha) (h' a ha)
  | atomic t k ih =>
    obtain ⟨r, L, first, second⟩ := Dialogue.wp_meet (fun _ => answers) (h []) (h' [])
    exact ih _ first second

variable {sys : System I S ε}

theorem after_alone {i : Nat} {c : sys.Call} {T : Trace sys}
    (h : after allowed p (last T) Q) : wp (alone (fun _ => allowed) i c) p T L (fun T' _ r => Q (last T') r) := by
  induction p generalizing T L with
  | ret a => exact h
  | fail e => exact h
  | ask q k ih => exact fun a ha => ih a (h a ha)
  | atomic t k ih =>
    rintro T' rfl
    apply Tx.wp_mono (h L)
    intro r L' hr
    refine ⟨trivial, ih _ ?_⟩
    rw [last_append]
    exact hr

end Rules

section Calls

variable {sys : System I S ε}

def System.startingAt (sys : System I S ε) (s : S) : System I S ε := { sys with init := s }

/-- A call may end so: with this result, at that store. -/
def Ends (sys : System I S ε) (s : S) (c : sys.Call) (r : Except ε (sys.Result c)) (s' : S) : Prop :=
  ∃ oracle, Completes (sys.startingAt s) c oracle r s'

inductive Reaches (sys : System I S ε) : S → List sys.Call → S → Prop
  | nil (s : S) : Reaches sys s [] s
  | cons {s s' s'' : S} {c : sys.Call} {cs : List sys.Call} {r : Except ε (sys.Result c)} (first : Ends sys s c r s')
      (rest : Reaches sys s' cs s'') : Reaches sys s (c :: cs) s''

variable {s s' : S} {c : sys.Call} {Q : S → Except ε (sys.Result c) → Prop}

theorem Ends.post (open_ : ∀ logs L q a, sys.admits logs L q a = true) {r : Except ε (sys.Result c)}
    (ended : Ends sys s c r s') (h : after (fun _ _ => True) (sys.code c) s Q) : Q s' r := by
  obtain ⟨oracle, ended⟩ := ended
  have code : wp (alone (fun _ _ _ => True) 0 c : Setting (sys.startingAt s)) (sys.code c) [] []
      (fun T' _ r => Q (last T') r) := after_alone h
  have answers : ∀ logs L q a, (sys.startingAt s).admits logs L q a = true := open_
  obtain ⟨T, L, rfl, met⟩ := ended.post answers (fun _ _ => trivial) code
  exact met

/-- There are answers under which a call ends in its postcondition for such answers. -/
theorem ends_of_after (open_ : ∀ logs L q a, sys.admits logs L q a = true) {allowed : Allowed I}
    (answers : (q : I.Query) → I.Answer q) (obeys : ∀ q, allowed q (answers q))
    (h : after allowed (sys.code c) s Q) :
    ∃ r s', Ends sys s c r s' ∧ Q s' r := by
  have code : wp (alone (fun _ => allowed) 0 c : Setting (sys.startingAt s)) (sys.code c) [] []
      (fun T' _ r => Q (last T') r) := after_alone h
  have admitted : ∀ logs L q a, (sys.startingAt s).admits logs L q a = true := open_
  have obeyed : ∀ L q, (fun _ => allowed : Rule I) L q ((fun _ q => answers q : Oracle I) L q) := fun _ q => obeys q
  obtain ⟨r, T, L, ended, met⟩ := completes_of_wp admitted obeyed code
  exact ⟨r, _, ⟨_, ended⟩, met⟩

theorem Reaches.keeps {P : S → Prop} {cs : List sys.Call} (reached : Reaches sys s cs s')
    (step : ∀ c ∈ cs, ∀ s r s', P s → Ends sys s c r s' → P s') (start : P s) : P s' := by
  induction reached with
  | nil s => exact start
  | cons first rest ih =>
    apply ih
    · intro c hc
      exact step c (List.mem_cons_of_mem _ hc)
    · exact step _ List.mem_cons_self _ _ _ start first

end Calls

end Interleaving
