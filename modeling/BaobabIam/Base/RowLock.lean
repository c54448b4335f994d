import Mathlib.Logic.Relation

/-! Transactions of a database that runs each statement on what is committed at that
moment and on the transaction's own writes. Every transaction begins by reading one row
and locking it, exclusively or shared with others; this alone makes every run serial, in
the order of the locks. -/
namespace RowLock

/-- What a client does once it has the lock. A statement that fails has no answer; the
client of a commit learns whether it succeeded. -/
inductive Script (σ : Type) (A : σ → Type) (ρ : Type) where
  | rollback (r : ρ)
  | commit (k : Bool → ρ)
  | run (s : σ) (k : Option (A s) → Script σ A ρ)

namespace Script

variable {σ ρ : Type} {A : σ → Type}

def Every (P : σ → Prop) : Script σ A ρ → Prop
  | .rollback _ => True
  | .commit _ => True
  | .run s k => P s ∧ ∀ a, (k a).Every P

def Doomed : Script σ A ρ → Prop
  | .rollback _ => True
  | .commit _ => False
  | .run _ k => ∀ a, (k a).Doomed

/-- The script does not commit after a failed statement, and its commits end with `Q`. -/
def Strict (Q : ρ → Prop) : Script σ A ρ → Prop
  | .rollback _ => True
  | .commit k => ∀ b, Q (k b)
  | .run _ k => (k none).Doomed ∧ ∀ a, (k (some a)).Strict Q

end Script

structure Database (σ : Type) (A : σ → Type) (D γ ρ C : Type) where
  /-- The row that is locked. -/
  row : D → γ
  answer : (s : σ) → D → A s
  effect : σ → D → D
  exclusive : C → Bool
  script : C → γ → Script σ A ρ
  reading : ∀ c r, exclusive c = false → (script c r).Every (fun s => effect s = id)

inductive Phase (σ : Type) (A : σ → Type) (ρ : Type) where
  /-- The lock is held; `own` are the transaction's statements so far. -/
  | holding (own : List σ) (rest : Script σ A ρ)
  /-- The server has ended the session, of which the client has not heard. -/
  | cut (rest : Script σ A ρ)
  | rolledBack (r : ρ)
  | committed (r : ρ)

structure Session (σ : Type) (A : σ → Type) (ρ C : Type) where
  call : C
  /-- The statements and their answers, the oldest first. -/
  heard : List (Σ s, Option (A s))
  phase : Phase σ A ρ

/-- What the surroundings do to the next statement of a session. -/
inductive Fate where
  | works
  | fails
  /-- A commit takes place and its answer is lost. -/
  | unacknowledged
  /-- The session ends before the statement reaches the server. -/
  | lost

variable {σ D γ ρ C : Type} {A : σ → Type}

def replay (db : Database σ A D γ ρ C) (own : List σ) (d : D) : D := own.foldl (fun d s => db.effect s d) d

def enter (db : Database σ A D γ ρ C) (c : C) (d : D) : Session σ A ρ C :=
  ⟨c, [], .holding [] (db.script c (db.row d))⟩

/-- One step of a session on the committed store, and the store after it. -/
def advance (db : Database σ A D γ ρ C) (o : Fate) (x : Session σ A ρ C) (d : D) : Session σ A ρ C × D :=
  match x.phase, o with
  | .rolledBack _, _ => (x, d)
  | .committed _, _ => (x, d)
  | .cut (.rollback r), _ => ({ x with phase := .rolledBack r }, d)
  | .cut (.commit k), _ => ({ x with phase := .rolledBack (k false) }, d)
  | .cut (.run s k), _ => ({ x with heard := x.heard ++ [⟨s, none⟩], phase := .cut (k none) }, d)
  | .holding _ rest, .lost => ({ x with phase := .cut rest }, d)
  | .holding _ (.rollback r), _ => ({ x with phase := .rolledBack r }, d)
  | .holding own (.commit k), .works => ({ x with phase := .committed (k true) }, replay db own d)
  | .holding own (.commit k), .unacknowledged => ({ x with phase := .committed (k false) }, replay db own d)
  | .holding _ (.commit k), .fails => ({ x with phase := .rolledBack (k false) }, d)
  | .holding own (.run s k), .works =>
    let a := db.answer s (replay db own d)
    (⟨x.call, x.heard ++ [⟨s, some a⟩], .holding (own ++ [s]) (k (some a))⟩, d)
  | .holding own (.run s k), _ => (⟨x.call, x.heard ++ [⟨s, none⟩], .holding own (k none)⟩, d)

/-- The sessions stand in the order in which they got the lock. -/
structure Server (σ : Type) (A : σ → Type) (D ρ C : Type) where
  store : D
  sessions : List (Session σ A ρ C)

def Session.Holds (x : Session σ A ρ C) : Prop := ∃ own rest, x.phase = .holding own rest

/-- A call gets the lock, or a session takes a step. A call that still waits for the lock,
or whose locking statement fails, has no session. -/
inductive Step (db : Database σ A D γ ρ C) : Server σ A D ρ C → Server σ A D ρ C → Prop where
  | lock (d : D) (xs : List (Session σ A ρ C)) (c : C)
      (free : ∀ x ∈ xs, x.Holds → db.exclusive c = false ∧ db.exclusive x.call = false) :
      Step db ⟨d, xs⟩ ⟨d, xs ++ [enter db c d]⟩
  | step (d : D) (xs ys : List (Session σ A ρ C)) (x : Session σ A ρ C) (o : Fate) :
      Step db ⟨d, xs ++ x :: ys⟩ ⟨(advance db o x d).2, xs ++ (advance db o x d).1 :: ys⟩

def Reached (db : Database σ A D γ ρ C) (init : D) (s : Server σ A D ρ C) : Prop :=
  Relation.ReflTransGen (Step db) ⟨init, []⟩ s

def Session.holds (x : Session σ A ρ C) : Bool :=
  match x.phase with
  | .holding _ _ => true
  | _ => false

inductive Act (C : Type) where
  | lock (c : C)
  | step (n : Nat) (o : Fate)

/-- One action of a schedule; nothing happens when the lock is not free. -/
def Server.act (db : Database σ A D γ ρ C) (s : Server σ A D ρ C) : Act C → Server σ A D ρ C
  | .lock c =>
    if s.sessions.all (fun x => !x.holds || (!db.exclusive c && !db.exclusive x.call)) then
      ⟨s.store, s.sessions ++ [enter db c s.store]⟩
    else s
  | .step n o =>
    match s.sessions[n]? with
    | none => s
    | some x => ⟨(advance db o x s.store).2, s.sessions.set n (advance db o x s.store).1⟩

/-- A transaction by itself, from its lock on: the outcomes of its statements, the session
that results and the store before and after. -/
def Alone (db : Database σ A D γ ρ C) (os : List Fate) (d : D) (x : Session σ A ρ C) (d' : D) : Prop :=
  os.foldl (fun p o => advance db o p.1 p.2) (enter db x.call d, d) = (x, d')

/-- The sessions are those of transactions that run one after the other. -/
inductive Serial (db : Database σ A D γ ρ C) : D → List (Session σ A ρ C) → D → Prop where
  | nil (d : D) : Serial db d [] d
  | cons {d d' e : D} {x : Session σ A ρ C} {xs : List (Session σ A ρ C)} (os : List Fate)
      (first : Alone db os d x d') (rest : Serial db d' xs e) : Serial db d (x :: xs) e

theorem act_reached {db : Database σ A D γ ρ C} {init : D} {s : Server σ A D ρ C} (reached : Reached db init s)
    (a : Act C) : Reached db init (s.act db a) := by
  cases a with
  | lock c =>
    simp only [Server.act]
    split
    · rename_i free
      refine reached.tail (.lock s.store s.sessions c ?_)
      rintro x hx ⟨own, rest, phase⟩
      have held : x.holds = true := by rw [Session.holds, phase]
      simpa [held] using List.all_eq_true.mp free x hx
    · exact reached
  | step n o =>
    simp only [Server.act]
    split
    · exact reached
    · rename_i x found
      obtain ⟨inside, rfl⟩ := List.getElem?_eq_some_iff.mp found
      have split := List.set_eq_take_append_cons_drop (l := s.sessions) (i := n) (a := s.sessions[n])
      rw [List.set_getElem_self, if_pos inside] at split
      have step : Step db ⟨s.store, s.sessions.take n ++ s.sessions[n] :: s.sessions.drop (n + 1)⟩ _ :=
        .step _ _ _ _ o
      rw [← split] at step
      rw [List.set_eq_take_append_cons_drop, if_pos inside]
      exact reached.tail step

theorem run_reached {db : Database σ A D γ ρ C} {init : D} {s : Server σ A D ρ C} (reached : Reached db init s)
    (actions : List (Act C)) : Reached db init (actions.foldl (Server.act db) s) := by
  induction actions generalizing s with
  | nil => exact reached
  | cons a actions ih => exact ih (act_reached reached a)

section Sessions

variable {db : Database σ A D γ ρ C} {o : Fate} {os : List Fate} {d d' e : D}
  {x y : Session σ A ρ C} {xs ys : List (Session σ A ρ C)}

theorem advance_call : (advance db o x d).1.call = x.call := by
  unfold advance
  split <;> rfl

theorem advance_free (free : ¬ x.Holds) (d e : D) : advance db o x d = ((advance db o x e).1, d) := by
  obtain ⟨c, heard, phase⟩ := x
  cases phase with
  | holding own rest => exact absurd ⟨own, rest, rfl⟩ free
  | cut rest => cases rest <;> rfl
  | rolledBack r => rfl
  | committed r => rfl

theorem advance_holds (h : (advance db o x d).1.Holds) : x.Holds := by
  obtain ⟨c, heard, phase⟩ := x
  cases phase with
  | holding own rest => exact ⟨own, rest, rfl⟩
  | cut rest => cases rest <;> obtain ⟨own, rest, ⟨⟩⟩ := h
  | rolledBack r => exact h
  | committed r => exact h

theorem Alone.snoc (h : Alone db os d x d') (o : Fate) :
    Alone db (os ++ [o]) d (advance db o x d').1 (advance db o x d').2 := by
  unfold Alone at h ⊢
  rw [List.foldl_append, advance_call, h]
  rfl

theorem Alone.invariant {P : Session σ A ρ C → D → Prop} (h : Alone db os d x d')
    (start : P (enter db x.call d) d)
    (step : ∀ o y e, P y e → P (advance db o y e).1 (advance db o y e).2) : P x d' := by
  have all : ∀ (os : List Fate) (p : Session σ A ρ C × D), P p.1 p.2 →
      P (os.foldl (fun p o => advance db o p.1 p.2) p).1 (os.foldl (fun p o => advance db o p.1 p.2) p).2 := by
    intro os
    induction os with
    | nil => exact fun p hp => hp
    | cons o os ih => exact fun p hp => ih _ (step o p.1 p.2 hp)
  have reached := all os (enter db x.call d, d) start
  rw [h] at reached
  exact reached

/-- A session with the store `e`, in a transaction that began on `d` and whose statements satisfy `P`. -/
def Writes (db : Database σ A D γ ρ C) (P : σ → Prop) (d : D) (x : Session σ A ρ C) (e : D) : Prop :=
  match x.phase with
  | .holding own rest => e = d ∧ (∀ s ∈ own, P s) ∧ rest.Every P
  | .committed _ => ∃ own, (∀ s ∈ own, P s) ∧ e = replay db own d
  | _ => e = d

theorem Alone.writes {P : σ → Prop} (h : Alone db os d x d') (every : (db.script x.call (db.row d)).Every P) :
    Writes db P d x d' := by
  refine h.invariant (P := Writes db P d) ⟨rfl, by rintro s ⟨⟩, every⟩ ?_
  rintro o ⟨c, heard, phase⟩ e kept
  cases phase with
  | rolledBack r => exact kept
  | committed r => exact kept
  | cut rest => cases rest <;> exact kept
  | holding own rest =>
    obtain ⟨rfl, all, every⟩ := kept
    cases rest with
    | rollback r => cases o <;> rfl
    | commit k =>
      cases o with
      | works => exact ⟨own, all, rfl⟩
      | unacknowledged => exact ⟨own, all, rfl⟩
      | fails => rfl
      | lost => rfl
    | run s k =>
      cases o with
      | lost => rfl
      | fails => exact ⟨rfl, all, every.2 none⟩
      | unacknowledged => exact ⟨rfl, all, every.2 none⟩
      | works =>
        refine ⟨rfl, ?_, every.2 _⟩
        intro t ht
        rcases List.mem_append.mp ht with ht | ht
        · exact all t ht
        · exact List.mem_singleton.mp ht ▸ every.1

theorem every_true (p : Script σ A ρ) : p.Every (fun _ => True) := by
  induction p with
  | rollback r => trivial
  | commit k => trivial
  | run s k ih => exact ⟨trivial, ih⟩

theorem Alone.holds_store (h : Alone db os d x d') (holds : x.Holds) : d' = d := by
  obtain ⟨own, rest, phase⟩ := holds
  have writes := h.writes (every_true _)
  rw [Writes, phase] at writes
  exact writes.1

/-- What holds of each statement of the script holds of those that make the store. -/
theorem Alone.replayed {P : σ → Prop} (h : Alone db os d x d') (every : (db.script x.call (db.row d)).Every P) :
    ∃ own, (∀ s ∈ own, P s) ∧ d' = replay db own d := by
  have writes := h.writes every
  have nothing : d' = d → ∃ own, (∀ s ∈ own, P s) ∧ d' = replay db own d :=
    fun eq => ⟨[], by rintro s ⟨⟩, eq⟩
  unfold Writes at writes
  split at writes
  · exact nothing writes.1
  · exact writes
  · exact nothing writes

theorem replay_id {own : List σ} (same : ∀ s ∈ own, db.effect s = id) (d : D) : replay db own d = d := by
  induction own with
  | nil => rfl
  | cons s own ih =>
    rw [replay, List.foldl_cons, same s List.mem_cons_self]
    exact ih (fun t ht => same t (List.mem_cons_of_mem _ ht))

theorem Alone.shared (h : Alone db os d x d') (shared : db.exclusive x.call = false) : d' = d := by
  obtain ⟨own, same, eq⟩ := h.replayed (db.reading _ _ shared)
  rw [eq, replay_id same]

theorem Serial.shared (h : Serial db d xs e) (shared : ∀ x ∈ xs, db.exclusive x.call = false) : e = d := by
  induction h with
  | nil d => rfl
  | cons os first rest ih =>
    rw [ih (fun x hx => shared x (List.mem_cons_of_mem _ hx))]
    exact first.shared (shared _ List.mem_cons_self)

theorem Serial.append (h : Serial db d xs d') (rest : Serial db d' ys e) : Serial db d (xs ++ ys) e := by
  induction h with
  | nil d => exact rest
  | cons os first _ ih => exact .cons os first (ih rest)

theorem Serial.split (h : Serial db d (xs ++ x :: ys) e) :
    ∃ b b' os, Serial db d xs b ∧ Alone db os b x b' ∧ Serial db b' ys e := by
  induction xs generalizing d with
  | nil =>
    cases h with
    | cons os first rest => exact ⟨_, _, os, .nil _, first, rest⟩
  | cons y ys' ih =>
    cases h with
    | cons os first rest =>
      obtain ⟨b, b', os', before, alone, after⟩ := ih rest
      exact ⟨b, b', os', .cons os first before, alone, after⟩

end Sessions

section Runs

variable {db : Database σ A D γ ρ C} {init : D}

/-- Nobody gets an exclusive lock after a session that still has its own, and nobody at
all after one whose lock is exclusive. -/
def Disciplined (db : Database σ A D γ ρ C) (xs : List (Session σ A ρ C)) : Prop :=
  xs.Pairwise (fun x y => x.Holds → db.exclusive x.call = false ∧ db.exclusive y.call = false)

variable {d : D} {x : Session σ A ρ C} {xs ys : List (Session σ A ρ C)} {s : Server σ A D ρ C}

theorem Serial.holds {e : D}
    (serial : Serial db d (xs ++ x :: ys) e) (disciplined : Disciplined db (xs ++ x :: ys)) (holds : x.Holds) :
    ∃ os, Serial db d xs e ∧ Alone db os e x e ∧ Serial db e ys e := by
  obtain ⟨b, b', os, before, alone, after⟩ := serial.split
  have later := (List.pairwise_cons.mp (List.pairwise_append.mp disciplined).2.1).1
  have same := alone.holds_store holds
  have rest := after.shared (fun y hy => (later y hy holds).2)
  subst same rest
  exact ⟨os, before, alone, after⟩

theorem Disciplined.set {o : Fate}
    (h : Disciplined db (xs ++ x :: ys)) : Disciplined db (xs ++ (advance db o x d).1 :: ys) := by
  obtain ⟨first, second, across⟩ := List.pairwise_append.mp h
  obtain ⟨later, rest⟩ := List.pairwise_cons.mp second
  refine List.pairwise_append.mpr ⟨first, List.pairwise_cons.mpr ⟨?_, rest⟩, ?_⟩
  · intro y hy holds
    rw [advance_call]
    exact later y hy (advance_holds holds)
  · intro y hy z hz holds
    rcases List.mem_cons.mp hz with rfl | hz
    · rw [advance_call]
      exact across y hy x List.mem_cons_self holds
    · exact across y hy z (List.mem_cons_of_mem _ hz) holds

theorem Step.serial {s' : Server σ A D ρ C} (h : Step db s s') (serial : Serial db init s.sessions s.store)
    (disciplined : Disciplined db s.sessions) :
    Serial db init s'.sessions s'.store ∧ Disciplined db s'.sessions := by
  cases h with
  | lock d xs c free =>
    refine ⟨serial.append (.cons [] rfl (.nil d)),
      List.pairwise_append.mpr ⟨disciplined, List.pairwise_singleton _ _, ?_⟩⟩
    intro x hx y hy holds
    rw [List.mem_singleton.mp hy]
    exact (free x hx holds).symm
  | step d xs ys x o =>
    refine ⟨?_, disciplined.set⟩
    by_cases holds : x.Holds
    · obtain ⟨os, before, alone, after⟩ := serial.holds disciplined holds
      refine before.append (.cons _ (alone.snoc o) ?_)
      cases ys with
      | nil => exact .nil _
      | cons y ys =>
        -- a later session is there, so the lock is shared and the step leaves the store
        have later := (List.pairwise_cons.mp (List.pairwise_append.mp disciplined).2.1).1 y List.mem_cons_self holds
        have same : (advance db o x d).2 = d := (alone.snoc o).shared (by rw [advance_call]; exact later.1)
        rw [same]
        exact after
    · obtain ⟨b, b', os, before, alone, after⟩ := serial.split
      rw [advance_free holds d b']
      refine before.append (.cons _ (alone.snoc o) ?_)
      rw [advance_free holds b' b']
      exact after

theorem Reached.serial (h : Reached db init s) :
    Serial db init s.sessions s.store ∧ Disciplined db s.sessions := by
  induction h with
  | refl => exact ⟨.nil init, List.Pairwise.nil⟩
  | tail _ step ih => exact step.serial ih.1 ih.2

end Runs

section Failures

variable {db : Database σ A D γ ρ C} {os : List Fate} {d d' : D} {x : Session σ A ρ C} {Q : ρ → Prop}

def Kept (Q : ρ → Prop) (x : Session σ A ρ C) : Prop :=
  match x.phase with
  | .holding _ rest => rest.Doomed ∨ rest.Strict Q ∧ ∀ a ∈ x.heard, a.2.isSome
  | .cut _ => True
  | .rolledBack _ => True
  | .committed r => Q r ∧ ∀ a ∈ x.heard, a.2.isSome

theorem Alone.strict (h : Alone db os d x d') (strict : (db.script x.call (db.row d)).Strict Q) : Kept Q x := by
  refine h.invariant (P := fun y _ => Kept Q y) (.inr ⟨strict, by rintro a ⟨⟩⟩) ?_
  rintro o ⟨c, heard, phase⟩ e kept
  cases phase with
  | rolledBack r => exact kept
  | committed r => exact kept
  | cut rest => cases rest <;> trivial
  | holding own rest =>
    cases rest with
    | rollback r => cases o <;> trivial
    | commit k =>
      rcases kept with doomed | ⟨good, all⟩
      · cases doomed
      · cases o with
        | works => exact ⟨good _, all⟩
        | unacknowledged => exact ⟨good _, all⟩
        | fails => trivial
        | lost => trivial
    | run s k =>
      have failed : (k none).Doomed := kept.elim (fun doomed => doomed none) (fun strict => strict.1.1)
      cases o with
      | lost => trivial
      | fails => exact .inl failed
      | unacknowledged => exact .inl failed
      | works =>
        rcases kept with doomed | ⟨good, all⟩
        · exact .inl (doomed _)
        · refine .inr ⟨good.2 _, ?_⟩
          intro a ha
          rcases List.mem_append.mp ha with ha | ha
          · exact all a ha
          · rw [List.mem_singleton.mp ha]
            rfl

end Failures

end RowLock
