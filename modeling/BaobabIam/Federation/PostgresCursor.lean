import Mathlib.Data.List.Nodup

/-! A bucket kept as rows of a table, and the cursor over it. The cursor reads pages of
rows and hands them out one at a time; the next page is asked for relative to the last
key, which may be gone by then. It still behaves as iteration over a sorted map. -/
namespace Federation.Postgres

abbrev Bytes := List UInt8

abbrev Entry := Bytes × Bytes

structure Rows where
  entries : List Entry
  sorted : entries.Pairwise (fun a b => a.1 < b.1)

def Rows.delete (r : Rows) (k : Bytes) : Rows := ⟨r.entries.filter (fun e => e.1 ≠ k), r.sorted.filter _⟩

inductive Condition where
  | none
  | atLeast (k : Bytes)
  | above (k : Bytes)

def Condition.holds : Condition → Bytes → Bool
  | .none, _ => true
  | .atLeast k, key => decide (k ≤ key)
  | .above k, key => decide (k < key)

def postgresCursorPageSize : Nat := 256

def Rows.page (r : Rows) (c : Condition) : List Entry :=
  (r.entries.filter (fun e => c.holds e.1)).take postgresCursorPageSize

/-- How a statement ends: it is refused, or its rows break off, or it runs. -/
inductive Outcome where
  | runs | refused | broken
  deriving DecidableEq

inductive CursorError where
  | invalid | denied | statement
  deriving DecidableEq

structure Transaction where
  rows : Rows
  write : Bool
  err : Option CursorError

structure Cursor where
  key : Option Bytes
  ended : Bool
  page : List Entry

structure State where
  tx : Transaction
  cursor : Cursor

def Transaction.fail (t : Transaction) (e : CursorError) : Transaction := { t with err := t.err.or (some e) }

/-- `Bucket.Cursor`. -/
def Transaction.cursor (t : Transaction) : State := ⟨t, ⟨none, false, []⟩⟩

section Cursors

def take (s : State) : Option Entry × State :=
  match s.cursor.page with
  | [] => (none, { s with cursor := { s.cursor with ended := true } })
  | e :: rest => (some e, { s with cursor := { s.cursor with key := some e.1, page := rest } })

def read (o : Outcome) (c : Condition) (s : State) : Option Entry × State :=
  match o with
  | .refused => (none, ⟨s.tx.fail .statement, { s.cursor with ended := true }⟩)
  | .broken => (none, ⟨s.tx.fail .statement, { s.cursor with ended := true, page := [] }⟩)
  | .runs => take { s with cursor := { s.cursor with page := s.tx.rows.page c } }

def first (o : Outcome) (s : State) : Option Entry × State :=
  read o .none { s with cursor := { s.cursor with ended := false } }

def seek (o : Outcome) (k : Bytes) (s : State) : Option Entry × State :=
  read o (.atLeast k) { s with cursor := { s.cursor with ended := false } }

def next (o : Outcome) (s : State) : Option Entry × State :=
  if s.cursor.ended then (none, s)
  else if !s.cursor.page.isEmpty then take s
  else
    match s.cursor.key with
    | none => first o s
    | some k => read o (.above k) s

def delete (o : Outcome) (s : State) : Except CursorError Unit × State :=
  match s.cursor.key, s.cursor.ended with
  | some k, false =>
    if !s.tx.write then (.error .denied, s)
    else
      match o with
      | .runs => (.ok (), { s with tx := { s.tx with rows := s.tx.rows.delete k } })
      | _ => (.error .statement, { s with tx := s.tx.fail .statement })
  | _, _ => (.error .invalid, s)

variable {σ ε : Type}

/-- The loop of ForEach, with the result of its last cursor call; the callback has a
state of its own. None is left when the fuel is used up. -/
def loop (outcome : Nat → Outcome) (f : σ → Entry → σ × Option ε) :
    Nat → Option Entry × State → σ → Option (σ × Option (ε ⊕ CursorError))
  | _, (none, s), a => some (a, s.tx.err.map .inr)
  | 0, (some _, _), _ => none
  | fuel + 1, (some e, s), a =>
    match f a e with
    | (a', some error) => some (a', some (.inl error))
    | (a', none) => loop outcome f fuel (next (outcome fuel) s) a'

def forEach (outcome : Nat → Outcome) (f : σ → Entry → σ × Option ε) (fuel : Nat) (t : Transaction) (a : σ) :
    Option (σ × Option (ε ⊕ CursorError)) :=
  loop outcome f fuel (first (outcome fuel) t.cursor) a

/-- A callback on entry after entry, up to its first error. -/
def visit (f : σ → Entry → σ × Option ε) : List Entry → σ → σ × Option ε
  | [], a => (a, none)
  | e :: es, a =>
    match f a e with
    | (a', some error) => (a', some error)
    | (a', none) => visit f es a'

end Cursors

section Standing

variable {s : State} {e d : Entry} {rest : List Entry}

/-- The cursor has handed out `e`, and `rest` is what it has still to hand out. -/
structure Standing (s : State) (e : Entry) (rest : List Entry) : Prop where
  key : s.cursor.key = some e.1
  live : s.cursor.ended = false
  page : s.cursor.page <+: rest
  ahead : s.tx.rows.entries.filter (fun d => decide (e.1 < d.1)) = rest

/-- The rows above the first row of a condition that larger keys meet as well. -/
theorem filter_above {r : Rows} {p : Entry → Bool} (found : r.entries.filter p = d :: rest)
    (up : ∀ x : Entry, d.1 < x.1 → p x = true) : r.entries.filter (fun x => decide (d.1 < x.1)) = rest := by
  have sorted := r.sorted.filter p
  rw [found] at sorted
  have above := (List.pairwise_cons.mp sorted).1
  have inside : r.entries.filter (fun x => decide (d.1 < x.1)) =
      (r.entries.filter p).filter (fun x => decide (d.1 < x.1)) := by
    rw [List.filter_filter]
    apply List.filter_congr
    intro x _
    by_cases larger : d.1 < x.1
    · rw [up x larger, Bool.and_true]
    · rw [decide_eq_false larger, Bool.false_and]
  rw [inside, found, List.filter_cons_of_neg, List.filter_eq_self.mpr]
  · intro x hx
    exact decide_eq_true (above x hx)
  · simp

theorem take_nil (empty : s.cursor.page = []) :
    take s = (none, { s with cursor := { s.cursor with ended := true } }) := by
  unfold take
  rw [empty]

theorem take_cons (some_ : s.cursor.page = e :: rest) :
    take s = (some e, { s with cursor := { s.cursor with key := some e.1, page := rest } }) := by
  unfold take
  rw [some_]

theorem read_cons {c : Condition} (live : s.cursor.ended = false)
    (found : s.tx.rows.entries.filter (fun x => c.holds x.1) = d :: rest)
    (up : ∀ x : Entry, d.1 < x.1 → c.holds x.1 = true) :
    (read .runs c s).1 = some d ∧ Standing (read .runs c s).2 d rest ∧ (read .runs c s).2.tx = s.tx := by
  have page : s.tx.rows.page c = d :: rest.take 255 := by
    unfold Rows.page
    rw [found]
    rfl
  unfold read
  rw [take_cons page]
  exact ⟨rfl, ⟨rfl, live, List.take_prefix _ _, filter_above found up⟩, rfl⟩

theorem read_nil {c : Condition} (found : s.tx.rows.entries.filter (fun x => c.holds x.1) = []) :
    (read .runs c s).1 = none ∧ (read .runs c s).2.cursor.ended = true ∧ (read .runs c s).2.tx = s.tx := by
  have page : s.tx.rows.page c = [] := by
    unfold Rows.page
    rw [found]
    rfl
  unfold read
  rw [take_nil page]
  exact ⟨rfl, rfl, rfl⟩

theorem next_ended (ended : s.cursor.ended = true) (o : Outcome) : next o s = (none, s) := by
  unfold next
  rw [if_pos ended]

theorem next_empty (h : Standing s e rest) (empty : s.cursor.page = []) (o : Outcome) :
    next o s = read o (.above e.1) s := by
  unfold next
  rw [if_neg (by rw [h.live]; exact Bool.false_ne_true), if_neg (by rw [empty]; exact Bool.false_ne_true), h.key]

theorem next_standing (h : Standing s e (d :: rest)) :
    (next .runs s).1 = some d ∧ Standing (next .runs s).2 d rest ∧ (next .runs s).2.tx = s.tx := by
  have member : d ∈ s.tx.rows.entries.filter (fun x => decide (e.1 < x.1)) := by
    rw [h.ahead]
    exact List.mem_cons_self
  have larger : e.1 < d.1 := of_decide_eq_true (List.mem_filter.mp member).2
  have up : ∀ x : Entry, d.1 < x.1 → decide (e.1 < x.1) = true :=
    fun x hx => decide_eq_true (List.lt_trans larger hx)
  cases buffered : s.cursor.page with
  | nil =>
    rw [next_empty h buffered]
    exact read_cons h.live h.ahead up
  | cons x page =>
    have sub := h.page
    rw [buffered] at sub
    obtain ⟨rfl, more⟩ := List.cons_prefix_cons.mp sub
    unfold next
    rw [if_neg (by rw [h.live]; exact Bool.false_ne_true), if_pos (by rw [buffered]; rfl), take_cons buffered]
    exact ⟨rfl, ⟨rfl, h.live, more, filter_above h.ahead up⟩, rfl⟩

theorem next_exhausted (h : Standing s e []) :
    (next .runs s).1 = none ∧ (next .runs s).2.cursor.ended = true ∧ (next .runs s).2.tx = s.tx := by
  rw [next_empty h (List.prefix_nil.mp h.page)]
  exact read_nil h.ahead

theorem delete_standing (h : Standing s e rest) (write : s.tx.write = true) :
    (delete .runs s).1 = .ok () ∧ Standing (delete .runs s).2 e rest ∧
      (delete .runs s).2.tx = { s.tx with rows := s.tx.rows.delete e.1 } := by
  have done : delete .runs s = (.ok (), { s with tx := { s.tx with rows := s.tx.rows.delete e.1 } }) := by
    unfold delete
    rw [h.key, h.live]
    simp only [write]
    rfl
  rw [done]
  refine ⟨rfl, ⟨h.key, h.live, h.page, ?_⟩, rfl⟩
  rw [← h.ahead]
  change (s.tx.rows.entries.filter _).filter _ = _
  rw [List.filter_filter]
  apply List.filter_congr
  intro x _
  -- the deleted key is not above itself
  by_cases same : x.1 = e.1
  · rw [same, decide_eq_false (List.lt_irrefl e.1), Bool.false_and]
  · rw [decide_eq_true same, Bool.and_true]

end Standing

section Walks

inductive Start where
  | first
  | seek (k : Bytes)

def Start.run : Start → State → Option Entry × State
  | .first, s => Postgres.first .runs s
  | .seek k, s => Postgres.seek .runs k s

def Start.contents : Start → Rows → List Entry
  | .first, r => r.entries
  | .seek k, r => r.entries.filter (fun e => decide (k ≤ e.1))

/-- The caller's answer to a result: the entry is deleted, if there is one and it is
chosen. -/
def answer (chosen : Bool) (r : Option Entry × State) : State :=
  if r.1.isSome && chosen then (delete .runs r.2).2 else r.2

/-- The start and `n` calls of Next, each entry answered before the next call. -/
def walk (start : Start) (chosen : Nat → Bool) (s : State) : Nat → Option Entry × State
  | 0 => start.run s
  | n + 1 => next .runs (answer (chosen n) (walk start chosen s n))

variable {start : Start} {chosen : Nat → Bool} {s : State}

variable {e : Entry} {rest es left : List Entry} {n : Nat} {t₀ t : Transaction} {r : Option Entry × State}

theorem start_cons (start : Start) (s : State)
    (found : start.contents s.tx.rows = e :: rest) :
    (start.run s).1 = some e ∧ Standing (start.run s).2 e rest ∧ (start.run s).2.tx = s.tx := by
  cases start with
  | first =>
    apply read_cons rfl
    · change s.tx.rows.entries.filter (fun _ => true) = _
      rw [List.filter_true]
      exact found
    · intro x _
      rfl
  | seek k =>
    have rows : s.tx.rows.entries.filter (fun x => (Condition.atLeast k).holds x.1) = e :: rest := found
    have member : e ∈ s.tx.rows.entries.filter (fun x => (Condition.atLeast k).holds x.1) := by
      rw [rows]
      exact List.mem_cons_self
    have low : k ≤ e.1 := of_decide_eq_true (List.mem_filter.mp member).2
    refine read_cons (s := { s with cursor := { s.cursor with ended := false } }) rfl rows ?_
    intro x hx
    exact decide_eq_true (List.le_trans low (List.le_of_lt hx))

theorem start_nil (start : Start) (s : State) (found : start.contents s.tx.rows = []) :
    (start.run s).1 = none ∧ (start.run s).2.cursor.ended = true ∧ (start.run s).2.tx = s.tx := by
  cases start with
  | first =>
    apply read_nil
    change s.tx.rows.entries.filter (fun _ => true) = _
    rw [List.filter_true]
    exact found
  | seek k => exact read_nil found

/-- The last result, where `left` was still to come, and where the cursor stands. -/
def Follows (r : Option Entry × State) : List Entry → Prop
  | [] => r.1 = none ∧ r.2.cursor.ended = true
  | e :: rest => r.1 = some e ∧ Standing r.2 e rest

/-- The transaction is as before but for the chosen among the first `n` rows. -/
structure Remains (es : List Entry) (chosen : Nat → Bool) (n : Nat) (t₀ t : Transaction) : Prop where
  rows : ∀ e, e ∈ t.rows.entries ↔ e ∈ t₀.rows.entries ∧ ∀ i < n, chosen i = true → es[i]? ≠ some e
  write : t.write = t₀.write
  err : t.err = t₀.err

theorem start_follows (start : Start) (s : State) :
    Follows (start.run s) (start.contents s.tx.rows) ∧ (start.run s).2.tx = s.tx := by
  cases found : start.contents s.tx.rows with
  | nil =>
    obtain ⟨result, ended, same⟩ := start_nil start s found
    exact ⟨⟨result, ended⟩, same⟩
  | cons e rest =>
    obtain ⟨result, standing, same⟩ := start_cons start s found
    exact ⟨⟨result, standing⟩, same⟩

theorem next_follows (h : Standing s e rest) :
    Follows (next .runs s) rest ∧ (next .runs s).2.tx = s.tx := by
  cases rest with
  | nil =>
    obtain ⟨result, ended, same⟩ := next_exhausted h
    exact ⟨⟨result, ended⟩, same⟩
  | cons d rest =>
    obtain ⟨result, standing, same⟩ := next_standing h
    exact ⟨⟨result, standing⟩, same⟩

theorem Rows.key_unique (r : Rows) {a b : Entry} (ha : a ∈ r.entries) (hb : b ∈ r.entries)
    (same : a.1 = b.1) : a = b := by
  have distinct : (r.entries.map Prod.fst).Nodup := by
    apply List.Pairwise.map Prod.fst _ r.sorted
    rintro x y less equal
    rw [equal] at less
    exact List.lt_irrefl _ less
  exact List.inj_on_of_nodup_map distinct ha hb same

theorem Start.contents_sub {r : Rows} (start : Start) (h : e ∈ start.contents r) : e ∈ r.entries := by
  cases start with
  | first => exact h
  | seek k => exact List.mem_of_mem_filter h

theorem Remains.skip (h : Remains es chosen n t₀ t)
    (kept : ∀ e, es[n]? = some e → chosen n = false) : Remains es chosen (n + 1) t₀ t := by
  refine ⟨?_, h.write, h.err⟩
  intro e
  rw [h.rows]
  constructor
  · rintro ⟨there, unchosen⟩
    refine ⟨there, ?_⟩
    intro i less picked at_
    rcases Nat.lt_succ_iff_lt_or_eq.mp less with less | rfl
    · exact unchosen i less picked at_
    · rw [kept e at_] at picked
      cases picked
  · rintro ⟨there, unchosen⟩
    exact ⟨there, fun i less => unchosen i (Nat.lt_succ_of_lt less)⟩

theorem Remains.delete {d : Entry} (h : Remains es chosen n t₀ t)
    (here : es[n]? = some d) (inside : d ∈ t₀.rows.entries) (picked : chosen n = true) :
    Remains es chosen (n + 1) t₀ { t with rows := t.rows.delete d.1 } := by
  refine ⟨?_, h.write, h.err⟩
  intro e
  change e ∈ t.rows.entries.filter _ ↔ _
  rw [List.mem_filter, h.rows, decide_eq_true_iff]
  constructor
  · rintro ⟨⟨there, unchosen⟩, other⟩
    refine ⟨there, ?_⟩
    intro i less picked at_
    rcases Nat.lt_succ_iff_lt_or_eq.mp less with less | rfl
    · exact unchosen i less picked at_
    · rw [here] at at_
      cases at_
      exact other rfl
  · rintro ⟨there, unchosen⟩
    refine ⟨⟨there, fun i less => unchosen i (Nat.lt_succ_of_lt less)⟩, ?_⟩
    intro same
    rw [t₀.rows.key_unique there inside same] at unchosen
    exact unchosen n (Nat.lt_succ_self n) picked here

/-- What holds after every call of a walk: by induction on the calls, with the rows
still to come as the invariant. -/
theorem walk_follows (start : Start) (chosen : Nat → Bool) (s : State)
    (allowed : s.tx.write = true ∨ ∀ i, chosen i = false) (n : Nat) :
    Follows (walk start chosen s n) ((start.contents s.tx.rows).drop n) ∧
      Remains (start.contents s.tx.rows) chosen n s.tx (walk start chosen s n).2.tx := by
  induction n with
  | zero =>
    obtain ⟨follows, same⟩ := start_follows start s
    refine ⟨follows, ?_⟩
    change Remains _ _ _ _ (start.run s).2.tx
    rw [same]
    exact ⟨fun e => by simp, rfl, rfl⟩
  | succ n ih =>
    obtain ⟨follows, remains⟩ := ih
    have later : (start.contents s.tx.rows).drop (n + 1) = ((start.contents s.tx.rows).drop n).tail :=
      List.tail_drop.symm
    have here : (start.contents s.tx.rows)[n]? = ((start.contents s.tx.rows).drop n).head? := List.head?_drop.symm
    change Follows (next .runs _) _ ∧ Remains _ _ _ _ (next .runs _).2.tx
    rw [later]
    cases left : (start.contents s.tx.rows).drop n with
    | nil =>
      rw [left] at follows here
      obtain ⟨result, ended⟩ := follows
      have kept : answer (chosen n) (walk start chosen s n) = (walk start chosen s n).2 := by
        unfold answer
        rw [result]
        rfl
      rw [kept, next_ended ended]
      refine ⟨⟨rfl, ended⟩, remains.skip ?_⟩
      intro e at_
      rw [here] at at_
      cases at_
    | cons e rest =>
      rw [left] at follows here
      obtain ⟨result, standing⟩ := follows
      have inside : e ∈ s.tx.rows.entries :=
        start.contents_sub (List.mem_of_mem_drop (left ▸ List.mem_cons_self))
      obtain ⟨still, remains⟩ : Standing (answer (chosen n) (walk start chosen s n)) e rest ∧
          Remains (start.contents s.tx.rows) chosen (n + 1) s.tx (answer (chosen n) (walk start chosen s n)).tx := by
        unfold answer
        rw [result]
        cases picked : chosen n with
        | false => exact ⟨standing, remains.skip (fun _ _ => picked)⟩
        | true =>
          have write : s.tx.write = true := allowed.resolve_right (fun none => by rw [none n] at picked; cases picked)
          obtain ⟨-, standing, same⟩ := delete_standing standing (remains.write.trans write)
          refine ⟨standing, ?_⟩
          change Remains _ _ _ _ (delete .runs _).2.tx
          rw [same]
          exact remains.delete here inside picked
      obtain ⟨follows, same⟩ := next_follows still
      exact ⟨follows, same ▸ remains⟩

theorem Follows.result (h : Follows r left) : r.1 = left.head? := by
  cases left with
  | nil => exact h.1
  | cons e rest => exact h.1

variable {σ ε : Type}

/-- The loop of ForEach goes through what the cursor still has to hand out. -/
theorem loop_visits (f : σ → Entry → σ × Option ε) {fuel : Nat} {a : σ}
    (follows : Follows r left) (clean : r.2.tx.err = none) (enough : left.length ≤ fuel) :
    loop (fun _ => .runs) f fuel r a = some ((visit f left a).1, (visit f left a).2.map .inl) := by
  induction left generalizing r fuel a with
  | nil =>
    obtain ⟨result, s⟩ := r
    obtain rfl : result = none := follows.1
    simp only [loop, visit]
    rw [clean]
    rfl
  | cons e rest ih =>
    obtain ⟨result, s⟩ := r
    obtain ⟨rfl, standing⟩ : result = some e ∧ Standing s e rest := follows
    cases fuel with
    | zero => cases enough
    | succ fuel =>
      simp only [loop, visit]
      obtain ⟨a', stopped⟩ := f a e
      cases stopped with
      | some error => rfl
      | none =>
        obtain ⟨follows, same⟩ := next_follows standing
        exact ih follows (same ▸ clean) (Nat.le_of_succ_le_succ enough)

/-- First or Seek and any number of calls of Next hand out the rows from there on in
their order, each once and then nothing for ever, whichever of them the caller deletes
on the way, and exactly those go. ForEach calls its function on the sorted rows up to
its first error. -/
theorem cursor_iterates (s : State) :
    (∀ (start : Start) (chosen : Nat → Bool), (s.tx.write = true ∨ ∀ i, chosen i = false) → ∀ n,
      (walk start chosen s n).1 = (start.contents s.tx.rows)[n]? ∧
      ((walk start chosen s n).1.isSome = true → chosen n = true →
        (delete .runs (walk start chosen s n).2).1 = .ok ()) ∧
      ∀ e, e ∈ (walk start chosen s n).2.tx.rows.entries ↔
        e ∈ s.tx.rows.entries ∧ ∀ i < n, chosen i = true → (start.contents s.tx.rows)[i]? ≠ some e) ∧
    ∀ (σ ε : Type) (f : σ → Entry → σ × Option ε) (a : σ) (fuel : Nat), s.tx.err = none →
      s.tx.rows.entries.length ≤ fuel →
      forEach (fun _ => .runs) f fuel s.tx a =
        some ((visit f s.tx.rows.entries a).1, (visit f s.tx.rows.entries a).2.map .inl) := by
  constructor
  · intro start chosen allowed n
    obtain ⟨follows, remains⟩ := walk_follows start chosen s allowed n
    refine ⟨follows.result.trans List.head?_drop, ?_, remains.rows⟩
    intro returned picked
    have write : s.tx.write = true := allowed.resolve_right (fun none => by rw [none n] at picked; cases picked)
    cases left : (start.contents s.tx.rows).drop n with
    | nil =>
      rw [left] at follows
      rw [follows.1] at returned
      cases returned
    | cons e rest =>
      rw [left] at follows
      exact (delete_standing follows.2 (remains.write.trans write)).1
  · intro σ ε f a fuel clean enough
    obtain ⟨follows, same⟩ := start_follows .first s.tx.cursor
    exact loop_visits f follows ((congrArg Transaction.err same).trans clean) enough

end Walks

end Federation.Postgres
