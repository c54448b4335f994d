import BaobabIam.Base.Once
import BaobabIam.Base.Text
import Mathlib.Data.Finset.Card

/-! The admission limiter of the browser routes: one row per operation and peer, with
the minute it counts and the attempts in it. A call fixes its minute when its
statement starts; the statement is applied later, and applied whole. The keyed
digest and the reading of an address are parameters. -/
namespace NativeBff

open Interleaving

def limits : List (Text × Nat) :=
  [("POST /auth/start".toList, 20),
   ("GET /auth/login".toList, 60),
   ("GET /auth/consent".toList, 60),
   ("POST /auth/consent".toList, 30),
   ("GET /auth/callback".toList, 60),
   ("GET /auth/session".toList, 120),
   ("POST /auth/logout".toList, 30)]

def ceiling (operation : Text) : Option Nat := limits.lookup operation

namespace Admission

structure Limiter where
  /-- The keyed digest, under the private key. -/
  mac : Text → Text
  /-- The IP address in a TCP peer address, in its canonical text. -/
  peer : Text → Option Text

inductive Outcome where
  | refused | applied
  /-- Applied, and the answer lost. -/
  | unacknowledged
  deriving DecidableEq

inductive Query where
  | cancelled
  /-- The database clock, in nanoseconds, when the statement starts. -/
  | clock
  | statement
  deriving DecidableEq

abbrev Query.Answer : Query → Type
  | .cancelled => Bool
  | .clock => Nat
  | .statement => Outcome

def ports : Interface := ⟨Query, Query.Answer⟩

inductive AdmitError where
  | boundary | address | ledger | rateLimited
  deriving DecidableEq

structure Row where
  windowStart : Nat
  attempts : Nat
  deriving DecidableEq

abbrev Table := Text → Option Row

def Table.put (t : Table) (k : Text) (row : Row) : Table := fun k' => if k' = k then some row else t k'

/-- `date_trunc('minute', _)`, as the number of the minute. -/
def minuteOf (ns : Nat) : Nat := ns / 60000000000

def upserted (row : Option Row) (window : Nat) : Row :=
  match row with
  | none => ⟨window, 1⟩
  | some r => ⟨window, if r.windowStart = window then min (r.attempts + 1) 1000000 else 1⟩

structure Call where
  operation : Text
  remote : Text

def rateKey (l : Limiter) (operation ip : Text) : Text :=
  l.mac ("baobab-native-bff-rate-v1:".toList ++ operation ++ ':' :: ip)

/-- The statement; no attempts are returned when its answer is lost. -/
def upsert (k : Text) (window : Nat) : Tx ports Table AdmitError (Option Nat) := do
  let outcome : Outcome ← Tx.ask (I := ports) .statement
  Tx.require (outcome != .refused) .ledger
  let t ← Tx.read id
  let row := upserted (t k) window
  Tx.write (fun t => t.put k row)
  return (if outcome = .applied then some row.attempts else none)

def admitCall (l : Limiter) (c : Call) : Prog ports Table AdmitError Unit := do
  let ended ← Prog.question (I := ports) .cancelled
  let most ← Prog.ofExcept ((ceiling c.operation).elim (.error .boundary) .ok)
  Prog.require (!ended) .boundary
  let ip ← Prog.ofExcept ((l.peer c.remote).elim (.error .address) .ok)
  let started ← Prog.question (I := ports) .clock
  let attempts ← Prog.atomic (upsert (rateKey l c.operation ip) (minuteOf started)) Prog.ofExcept
  match attempts with
  | none => .fail .ledger
  | some n => Prog.require (n ≤ most) .rateLimited

def readings (L : Log ports) : List Nat :=
  L.filterMap (fun a =>
    match a with
    | ⟨.clock, ns⟩ => some ns
    | _ => none)

def clockRule (logs : List (Log ports)) (_ : Log ports) : (q : Query) → q.Answer → Bool
  | .clock, ns => logs.all (fun L => (readings L).all (· ≤ ns))
  | _, _ => true

def system (l : Limiter) : System ports Table AdmitError where
  Call := Call
  Result _ := Unit
  code := admitCall l
  init := fun _ => none
  admits := clockRule

def windowOf (L : Log ports) : Option Nat := (readings L).head?.map minuteOf

section Steps

variable {l : Limiter} {i : Nat} {c : Call} {T : Trace (system l)} {e : Entry (system l)} {op ip : Text}
  {w most : Nat}

structure Applied (e : Entry (system l)) (k : Text) (w : Nat) : Prop where
  key : (l.peer e.call.remote).map (rateKey l e.call.operation) = some k
  window : windowOf e.start = some w
  after : e.after = e.before.put k (upserted (e.before k) w)

structure Admits (op ip : Text) (w most : Nat) (e : Entry (system l)) : Prop where
  applied : Applied e (rateKey l op ip) w
  within : (upserted (e.before (rateKey l op ip)) w).attempts ≤ most

inductive Step (_ : Trace (system l)) (e : Entry (system l)) : Prop
  | idle (same : e.after = e.before)
  | applied (k : Text) (w : Nat) (step : Applied e k w)

def post (l : Limiter) (c : Call) (i : Nat) : Post (system l) Unit := fun T L r =>
  ∀ most ip, r = .ok () → ceiling c.operation = some most → l.peer c.remote = some ip →
    ∃ w, windowOf L = some w ∧ ∃ e ∈ T, e.thread = i ∧ Admits c.operation ip w most e

theorem code_steps (i : Nat) (c : Call) (T : Trace (system l)) (_ : ∀ e ∈ T, e.thread ≠ i) :
    wp (safe Step i c) ((system l).code c) T [] (post l c i) := by
  have quiet : Quiet (post l c i) := by
    rintro T L e most ip ⟨⟩
  apply wp_question_then
  intro ended _
  apply wp_ofExcept_then quiet
  intro most known
  apply wp_require_then quiet
  intro _
  apply wp_ofExcept_then quiet
  intro ip peer
  apply wp_question_then
  intro started _
  have known := elim_eq_ok known
  have peer := elim_eq_ok peer
  have applied : ∀ (s : Table) L' start, windowOf start = some (minuteOf started) →
      Applied (l := l) ⟨i, c, s, s.put (rateKey l c.operation ip)
        (upserted (s (rateKey l c.operation ip)) (minuteOf started)), start, L'⟩
        (rateKey l c.operation ip) (minuteOf started) :=
    fun s L' start window => ⟨by rw [peer]; rfl, window, rfl⟩
  apply wp_then
  intro T' others
  apply Tx.wp_ask_then
  intro outcome _
  cases outcome with
  | refused => exact ⟨.idle rfl, quiet _ _ _⟩
  | unacknowledged => exact ⟨.applied _ _ (applied _ _ _ rfl), quiet _ _ _⟩
  | applied =>
    refine ⟨.applied _ _ (applied _ _ _ rfl), (wp_require _ _).mpr ⟨?_, fun _ => quiet _ _ _⟩⟩
    intro within most' ip' _ known' peer'
    rw [known] at known'
    rw [peer] at peer'
    cases known'
    cases peer'
    exact ⟨minuteOf started, rfl, _, List.mem_concat_self, rfl, applied _ _ _ rfl,
      of_decide_eq_true within⟩

end Steps

section Ceiling

variable {l : Limiter} {T : Trace (system l)} {e : Entry (system l)} {op ip : Text} {w most : Nat}

def InOrder (T : Trace (system l)) : Prop :=
  ∀ e ∈ T, ∀ k w row, Applied e k w → e.before k = some row → row.windowStart ≤ w

/-- Calls whose statements in the trace are admitted in minute `w`. -/
def Counted (op ip : Text) (w most : Nat) (T : Trace (system l)) (F : Finset Nat) : Prop :=
  ∀ i ∈ F, ∃ e ∈ T, e.thread = i ∧ Admits op ip w most e

theorem Counted.snoc {F : Finset Nat} (h : Counted op ip w most (T ++ [e]) F) :
    Counted op ip w most T F ∨ (Admits op ip w most e ∧ Counted op ip w most T (F.erase e.thread)) := by
  by_cases here : Admits op ip w most e
  · right
    refine ⟨here, ?_⟩
    intro i hi
    obtain ⟨other, inside⟩ := Finset.mem_erase.mp hi
    obtain ⟨a, ha, mine, admits⟩ := h i inside
    rcases List.mem_append.mp ha with ha | ha
    · exact ⟨a, ha, mine, admits⟩
    · rw [List.mem_singleton.mp ha] at mine
      exact absurd mine.symm other
  · left
    intro i hi
    obtain ⟨a, ha, mine, admits⟩ := h i hi
    rcases List.mem_append.mp ha with ha | ha
    · exact ⟨a, ha, mine, admits⟩
    · rw [List.mem_singleton.mp ha] at admits
      exact absurd admits here

/-- How many calls are counted, given the row: at most its attempts in its own
minute, none in a later one. -/
structure Within (row : Option Row) (w most n : Nat) : Prop where
  ceiling : n ≤ most
  fresh : row = none → n = 0
  current : ∀ r, row = some r → r.windowStart = w → n ≤ r.attempts
  later : ∀ r, row = some r → r.windowStart < w → n = 0

variable {row : Option Row} {n v : Nat}

theorem Within.pass (h : Within row w most n) (small : most ≤ 1000000)
    (order : ∀ r, row = some r → r.windowStart ≤ v) : Within (some (upserted row v)) w most n := by
  refine ⟨h.ceiling, by simp, ?_, ?_⟩
  · rintro r ⟨⟩ same
    cases row with
    | none => simp [h.fresh rfl]
    | some r =>
      have before := order r rfl
      have bound := h.ceiling
      simp only [upserted] at same ⊢
      split
      · have := h.current r rfl (by omega)
        omega
      · have := h.later r rfl (by omega)
        omega
  · rintro r ⟨⟩ less
    cases row with
    | none => exact h.fresh rfl
    | some r =>
      have before := order r rfl
      exact h.later r rfl (lt_of_le_of_lt before less)

/-- A statement of minute `w` is applied, and its call is admitted. -/
theorem Within.count (h : Within row w most n) (small : most < 1000000)
    (order : ∀ r, row = some r → r.windowStart ≤ w) (within : (upserted row w).attempts ≤ most) :
    Within (some (upserted row w)) w most (n + 1) := by
  have counted : n + 1 ≤ (upserted row w).attempts := by
    cases row with
    | none => simp [h.fresh rfl, upserted]
    | some r =>
      have before := order r rfl
      simp only [upserted] at within ⊢
      split
      · rename_i same
        rw [if_pos same] at within
        have := h.current r rfl same
        omega
      · have := h.later r rfl (by omega)
        omega
  have own : (upserted row w).windowStart = w := by cases row <;> rfl
  refine ⟨counted.trans within, by simp, ?_, ?_⟩
  · rintro r ⟨⟩ _
    exact counted
  · rintro r ⟨⟩ less
    omega

theorem Within.mono {m : Nat} (h : Within row w most n) (less : m ≤ n) : Within row w most m where
  ceiling := less.trans h.ceiling
  fresh none := Nat.le_zero.mp (less.trans_eq (h.fresh none))
  current r found same := less.trans (h.current r found same)
  later r found early := Nat.le_zero.mp (less.trans_eq (h.later r found early))

theorem ceiling_lt {op : Text} {most : Nat} (known : ceiling op = some most) : most < 1000000 := by
  have all : ∀ e ∈ limits, e.2 < 1000000 := by decide
  obtain ⟨before, after, cut, -⟩ := List.lookup_eq_some_iff.mp known
  exact all (op, most) (by rw [cut]; simp)

theorem Table.put_self (t : Table) (k : Text) (r : Row) : t.put k r k = some r := if_pos rfl

theorem Table.put_ne (t : Table) {k k' : Text} (r : Row) (h : k' ≠ k) : t.put k r k' = t k' := if_neg h

/-- Statements in order of their minutes: no minute admits more than the ceiling. -/
theorem counted_within (valid : Valid Step T) (inOrder : InOrder T) (small : most < 1000000) {F : Finset Nat}
    (counted : Counted op ip w most T F) : Within (last T (rateKey l op ip)) w most F.card := by
  induction valid generalizing F with
  | nil =>
    have none : F = ∅ := by
      apply Finset.eq_empty_of_forall_notMem
      intro i hi
      obtain ⟨e, he, -⟩ := counted i hi
      cases he
    subst none
    exact ⟨Nat.zero_le _, fun _ => rfl, by rintro r ⟨⟩, by rintro r ⟨⟩⟩
  | @snoc T e valid from_last meets ih =>
    have earlier : InOrder T := fun a ha => inOrder a (List.mem_append_left _ ha)
    have order := inOrder e (List.mem_append_right _ List.mem_cons_self)
    rw [last_append]
    rcases counted.snoc with rest | ⟨admits, rest⟩
    · have before := ih earlier rest
      rw [← from_last] at before
      cases meets with
      | idle same => rwa [same]
      | applied k v step =>
        rw [step.after]
        by_cases same : rateKey l op ip = k
        · subst same
          rw [Table.put_self]
          exact before.pass small.le (fun r => order _ v r step)
        · rwa [Table.put_ne _ _ same]
    · have before := ih earlier rest
      rw [← from_last] at before
      rw [admits.applied.after, Table.put_self]
      have counts := before.count small (fun r => order _ w r admits.applied) admits.within
      exact counts.mono (Nat.sub_le_iff_le_add.mp Finset.pred_card_le_card_erase)

def AdmittedIn (cfg : Config (system l)) (op ip : Text) (w i : Nat) : Prop :=
  ∃ c L, cfg.threads[i]? = some ⟨c, L, .ret ()⟩ ∧ c.operation = op ∧ l.peer c.remote = some ip ∧
    windowOf L = some w

/-- In every run whose statements are applied in the order of their minutes, the
ceiling holds for every minute, over all replicas. -/
theorem ceiling_in_order (l : Limiter) (schedule : List (Action (system l)))
    (inOrder : InOrder (exec (system l) schedule).trace) {op ip : Text} {most : Nat} (known : ceiling op = some most)
    (w : Nat) (F : Finset Nat) (admitted : ∀ i ∈ F, AdmittedIn (exec (system l) schedule) op ip w i) :
    F.card ≤ most := by
  have sound : Sound Step (post l) (exec _ schedule) := exec_sound code_steps schedule
  have counted : Counted op ip w most (exec _ schedule).trace F := by
    intro i hi
    obtain ⟨c, L, found, rfl, peer, window⟩ := admitted i hi
    obtain ⟨T, others, returned⟩ := sound.calls i _ found
    obtain ⟨v, window', e, he, mine, admits⟩ := returned most ip rfl known peer
    rw [window] at window'
    cases window'
    exact ⟨e, others.mem he, mine, admits⟩
  exact (counted_within sound.valid inOrder (ceiling_lt known) counted).ceiling

section Runs

def plain : Limiter := ⟨fun t => t, fun remote => some remote⟩

def attempt : Call := ⟨"POST /auth/start", "192.0.2.1"⟩

/-- The surroundings at a time of the database clock; every statement is applied. -/
def at_ (ns : Nat) : Oracle ports := fun _ q =>
  match q with
  | .cancelled => false
  | .clock => ns
  | .statement => Outcome.applied

def started (first n ns : Nat) : List (Action (system plain)) :=
  (List.range n).flatMap (fun j => [.begin attempt, .step (first + j) (at_ ns), .step (first + j) (at_ ns)])

/-- Twenty-one calls of one minute and twenty of the next, applied in turns. -/
def crossing : List (Action (system plain)) :=
  started 0 21 0 ++ started 21 20 60000000000 ++
    (List.range 20).flatMap (fun j => [.step j (at_ 0), .step (21 + j) (at_ 0)]) ++ [.step 20 (at_ 0)]

def admittedCheck (cfg : Config (system plain)) (w i : Nat) : Bool :=
  match cfg.threads[i]? with
  | some ⟨c, L, .ret _⟩ => c.operation == attempt.operation && c.remote == attempt.remote && windowOf L == some w
  | _ => false

theorem admitted_of_check {cfg : Config (system plain)} {w i : Nat} (h : admittedCheck cfg w i = true) :
    AdmittedIn cfg attempt.operation attempt.remote w i := by
  unfold admittedCheck at h
  split at h
  · rename_i c L u found
    simp only [Bool.and_eq_true, beq_iff_eq] at h
    exact ⟨c, L, found, h.1.1, congrArg some h.1.2, h.2⟩
  · cases h

/-- Around the minute boundary each statement resets the row of the other minute:
twenty-one calls of one minute are admitted under a ceiling of twenty. -/
theorem boundary_admits_more : ceiling attempt.operation = some 20 ∧
    ∃ F : Finset Nat, (∀ i ∈ F, AdmittedIn (exec (system plain) crossing)
      attempt.operation attempt.remote 0 i) ∧ F.card = 21 := by
  refine ⟨by decide, Finset.range 21, ?_, Finset.card_range 21⟩
  intro i hi
  apply admitted_of_check
  have all : ∀ i < 21, admittedCheck (exec (system plain) crossing) 0 i = true := by decide +kernel
  exact all i (Finset.mem_range.mp hi)

/-- Twenty-one calls of one minute and two of the next, applied as they started. -/
def inTurns : List (Action (system plain)) :=
  started 0 21 0 ++ started 21 2 60000000000 ++ (List.range 23).map (fun j => .step j (at_ 0))

def inOrderCheck (T : Trace (system plain)) : Bool :=
  T.all (fun e =>
    match windowOf e.start, e.before (rateKey plain e.call.operation e.call.remote) with
    | some w, some row => decide (row.windowStart ≤ w)
    | _, _ => true)

theorem inOrder_of_check {T : Trace (system plain)} (h : inOrderCheck T = true) : InOrder T := by
  intro e he k w row applied found
  have checked := List.all_eq_true.mp h e he
  have key : rateKey plain e.call.operation e.call.remote = k := Option.some.inj applied.key
  rw [applied.window, key, found] at checked
  exact of_decide_eq_true checked

def refusedCheck (cfg : Config (system plain)) (i : Nat) : Bool :=
  match cfg.threads[i]? with
  | some ⟨_, _, .fail .rateLimited⟩ => true
  | _ => false

theorem refused_of_check {cfg : Config (system plain)} {i : Nat} (h : refusedCheck cfg i = true) :
    ∃ c L, cfg.threads[i]? = some ⟨c, L, .fail .rateLimited⟩ := by
  unfold refusedCheck at h
  split at h
  · rename_i c L found
    exact ⟨c, L, found⟩
  · cases h

/-- The ceiling at work: the last call of the first minute is refused, and the next minute
starts again. -/
theorem last_call_refused : ceiling attempt.operation = some 20 ∧
    InOrder (exec (system plain) inTurns).trace ∧
    (∀ i ∈ Finset.range 20, AdmittedIn (exec (system plain) inTurns) attempt.operation attempt.remote 0 i) ∧
    (∃ c L, (exec (system plain) inTurns).threads[20]? = some ⟨c, L, .fail .rateLimited⟩) ∧
    AdmittedIn (exec (system plain) inTurns) attempt.operation attempt.remote 1 22 ∧
    (Finset.range 20).card ≤ 20 := by
  have known : ceiling attempt.operation = some 20 := by decide
  have inOrder : InOrder (exec (system plain) inTurns).trace := inOrder_of_check (by decide +kernel)
  have all : ∀ i < 20, admittedCheck (exec (system plain) inTurns) 0 i = true := by decide +kernel
  have admitted : ∀ i ∈ Finset.range 20,
      AdmittedIn (exec (system plain) inTurns) attempt.operation attempt.remote 0 i :=
    fun i hi => admitted_of_check (all i (Finset.mem_range.mp hi))
  exact ⟨known, inOrder, admitted, refused_of_check (by decide +kernel), admitted_of_check (by decide +kernel),
    ceiling_in_order plain _ inOrder known 0 (Finset.range 20) admitted⟩

end Runs

end Ceiling

end Admission

end NativeBff
