import BaobabIam.Base.RowLock
import BaobabIam.Federation.PostgresCursor

/-! The shared storage: a ledger's transaction locks the control row of its namespace,
checks the recovery epoch and runs the callback, whose failed queries are remembered
beside the values it gets. Transactions of any number of pools and recoveries interleave
statement by statement. -/
namespace Federation.Postgres

open RowLock

abbrev Name := List Char

structure Control where
  epoch : Name
  version : Int
  deriving DecidableEq

/-- The namespace: its control row, and the rows of each ledger's buckets. -/
structure Tables where
  control : Control
  rows : Name → Name → Rows

def Rows.put (r : Rows) (k v : Bytes) : Rows where
  entries := r.entries.filter (fun e => decide (e.1 < k)) ++ (k, v) :: r.entries.filter (fun e => decide (k < e.1))
  sorted := by
    refine List.pairwise_append.mpr ⟨r.sorted.filter _, List.pairwise_cons.mpr ⟨?_, r.sorted.filter _⟩, ?_⟩
    · exact fun e he => of_decide_eq_true (List.mem_filter.mp he).2
    · intro e he f hf
      have below := of_decide_eq_true (List.mem_filter.mp he).2
      rcases List.mem_cons.mp hf with rfl | hf
      · exact below
      · exact List.lt_trans below (of_decide_eq_true (List.mem_filter.mp hf).2)

inductive Statement where
  | get (ledger bucket : Name) (k : Bytes)
  | put (ledger bucket : Name) (k v : Bytes)
  | delete (ledger bucket : Name) (k : Bytes)
  | count (ledger bucket : Name)
  | page (ledger bucket : Name) (c : Condition)
  /-- `DELETE … WHERE ledger <> 'native'`, of a recovery. -/
  | discard
  /-- `UPDATE iam_federation_control SET epoch = …`, of a recovery. -/
  | setEpoch (epoch : Name)

abbrev Statement.Answer : Statement → Type
  | .get _ _ _ => Option Bytes
  | .count _ _ => Nat
  | .page _ _ _ => List Entry
  | _ => Unit

def Statement.answer : (s : Statement) → Tables → s.Answer
  | .get ledger bucket k, t => ((t.rows ledger bucket).entries.find? (fun e => e.1 == k)).map Prod.snd
  | .count ledger bucket, t => (t.rows ledger bucket).entries.length
  | .page ledger bucket c, t => (t.rows ledger bucket).page c
  | .put _ _ _ _, _ => ()
  | .delete _ _ _, _ => ()
  | .discard, _ => ()
  | .setEpoch _, _ => ()

def Tables.update (t : Tables) (ledger bucket : Name) (f : Rows → Rows) : Tables :=
  { t with rows := fun l b => if l = ledger ∧ b = bucket then f (t.rows l b) else t.rows l b }

def native : Name := ['n', 'a', 't', 'i', 'v', 'e']

def Statement.effect : Statement → Tables → Tables
  | .put ledger bucket k v => fun t => t.update ledger bucket (fun r => r.put k v)
  | .delete ledger bucket k => fun t => t.update ledger bucket (fun r => r.delete k)
  | .discard => fun t => { t with rows := fun l b => if l = native then t.rows l b else ⟨[], List.Pairwise.nil⟩ }
  | .setEpoch epoch => fun t => { t with control := { t.control with epoch := epoch } }
  | _ => id

inductive Callback (ε : Type) where
  | ret (e : Option ε)
  | get (bucket : Name) (k : Bytes) (f : Option Bytes → Callback ε)
  | put (bucket : Name) (k : Bytes) (v : Option Bytes) (f : Option CursorError → Callback ε)
  | delete (bucket : Name) (k : Bytes) (f : Option CursorError → Callback ε)
  | stats (bucket : Name) (f : Nat → Callback ε)
  /-- A cursor reads its next page. -/
  | read (bucket : Name) (c : Condition) (f : Option (List Entry) → Callback ε)
  /-- ForEach returns the transaction's own error. -/
  | failed (f : Bool → Callback ε)

inductive Result (ε : Type) where
  | ok | unavailable | denied
  | callback (e : ε)

abbrev LedgerScript (ε : Type) := Script Statement Statement.Answer (Result ε)

abbrev LedgerSession (ε C : Type) := Session Statement Statement.Answer (Result ε) C

variable {ε : Type}

def commit : LedgerScript ε := .commit (fun succeeded => if succeeded then .ok else .unavailable)

/-- The end of a transaction: a statement's failure comes before the callback's own error. -/
def finish : Bool → Option ε → LedgerScript ε
  | true, _ => .rollback .unavailable
  | false, some e => .rollback (.callback e)
  | false, none => commit

def executed {s : Statement} : Option s.Answer → Option CursorError
  | some _ => none
  | none => some .statement

/-- The statements of a callback; `err` says whether one has failed. A query that fails
looks to the callback like one without rows. -/
def Callback.script (ledger : Name) (write : Bool) : Callback ε → Bool → LedgerScript ε
  | .ret e, err => finish err e
  | .get bucket k f, err => .run (.get ledger bucket k) (fun a =>
      (f (a.getD none)).script ledger write (err || a.isNone))
  | .put bucket k v f, err =>
    match v, write && !k.isEmpty with
    | some v, true => .run (.put ledger bucket k v) (fun a => (f (executed a)).script ledger write (err || a.isNone))
    | _, _ => (f (some .invalid)).script ledger write err
  | .delete bucket k f, err =>
    if write then .run (.delete ledger bucket k) (fun a => (f (executed a)).script ledger write (err || a.isNone))
    else (f (some .denied)).script ledger write err
  | .stats bucket f, err => .run (.count ledger bucket) (fun a => (f (a.getD 0)).script ledger write (err || a.isNone))
  | .read bucket c f, err => .run (.page ledger bucket c) (fun a => (f a).script ledger write (err || a.isNone))
  | .failed f, err => (f err).script ledger write err

/-- A statement of a recovery, which stops at its first failure. -/
def thenRun (s : Statement) (next : LedgerScript ε) : LedgerScript ε :=
  .run s (fun a => if a.isSome then next else .rollback .unavailable)

inductive Call (ε : Type) where
  /-- View or Update of a ledger, through a pool that was opened with an epoch. -/
  | transaction (epoch ledger : Name) (write : Bool) (f : Callback ε)
  /-- `federation-recovery.sql`. -/
  | recovery (old new : Name)
  /-- The epoch alone is changed. -/
  | advanceEpoch (new : Name)

def Call.exclusive : Call ε → Bool
  | .transaction _ _ write _ => write
  | _ => true

def Call.script : Call ε → Control → LedgerScript ε
  | .transaction epoch ledger write f, c =>
    if c.epoch ≠ epoch ∨ c.version ≠ 1 then .rollback .denied else f.script ledger write false
  | .recovery old new, c =>
    if c.epoch = old ∧ new ≠ old then thenRun .discard (thenRun (.setEpoch new) commit) else .rollback .unavailable
  | .advanceEpoch new, _ => thenRun (.setEpoch new) commit

theorem every_thenRun {P : Statement → Prop} {s : Statement} {next : LedgerScript ε} (holds : P s)
    (rest : next.Every P) : (thenRun s next).Every P := by
  refine ⟨holds, ?_⟩
  intro a
  dsimp only
  split
  · exact rest
  · trivial

theorem Callback.script_every {P : Statement → Prop} {ledger : Name} {write : Bool}
    (get : ∀ b k, P (.get ledger b k)) (count : ∀ b, P (.count ledger b)) (page : ∀ b c, P (.page ledger b c))
    (put : write = true → ∀ b k v, P (.put ledger b k v))
    (delete : write = true → ∀ b k, P (.delete ledger b k))
    (f : Callback ε) (err : Bool) : (f.script ledger write err).Every P := by
  induction f generalizing err with
  | ret e => cases err <;> cases e <;> trivial
  | get b k f ih => exact ⟨get b k, fun a => ih _ _⟩
  | put b k v f ih =>
    unfold script
    split
    · rename_i writes
      exact ⟨put (Bool.and_eq_true_iff.mp writes).1 _ _ _, fun a => ih _ _⟩
    · exact ih _ _
  | delete b k f ih =>
    unfold script
    split
    · rename_i writes
      exact ⟨delete writes _ _, fun a => ih _ _⟩
    · exact ih _ _
  | stats b f ih => exact ⟨count b, fun a => ih _ _⟩
  | read b c f ih => exact ⟨page b c, fun a => ih _ _⟩
  | failed f ih => exact ih _ _

def storage : Database Statement Statement.Answer Tables Control (Result ε) (Call ε) where
  row := Tables.control
  answer := Statement.answer
  effect := Statement.effect
  exclusive := Call.exclusive
  script := Call.script
  reading := by
    intro c r shared
    cases c with
    | transaction epoch ledger write f =>
      have reader : write = false := shared
      dsimp only [Call.script]
      split
      · trivial
      · exact f.script_every (fun _ _ => rfl) (fun _ => rfl) (fun _ _ => rfl) (by simp [reader])
          (by simp [reader]) false
    | recovery old new => cases shared
    | advanceEpoch new => cases shared

section Failures

def Result.Done : Result ε → Prop
  | .ok => True
  | .unavailable => True
  | _ => False

/-- Once a statement has failed the transaction cannot commit, whatever the callback does. -/
theorem Callback.script_doomed {ledger : Name} {write : Bool} (f : Callback ε) :
    (f.script ledger write true).Doomed := by
  induction f with
  | ret e => trivial
  | get b k f ih => exact fun a => ih _
  | put b k v f ih | delete b k f ih =>
    unfold script
    split
    · exact fun a => ih _
    · exact ih _
  | stats b f ih => exact fun a => ih _
  | read b c f ih => exact fun a => ih _
  | failed f ih => exact ih _

theorem commit_strict : (commit : LedgerScript ε).Strict Result.Done := by
  intro b
  cases b <;> trivial

theorem strict_thenRun {Q : Result ε → Prop} {s : Statement} {next : LedgerScript ε} (rest : next.Strict Q) :
    (thenRun s next).Strict Q := ⟨trivial, fun _ => rest⟩

theorem Callback.script_strict {ledger : Name} {write : Bool} (f : Callback ε) :
    (f.script ledger write false).Strict Result.Done := by
  induction f with
  | ret e =>
    cases e with
    | none => exact commit_strict
    | some e => trivial
  | get b k f ih => exact ⟨script_doomed _, fun a => ih _⟩
  | put b k v f ih | delete b k f ih =>
    unfold script
    split
    · exact ⟨script_doomed _, fun a => ih _⟩
    · exact ih _
  | stats b f ih => exact ⟨script_doomed _, fun a => ih _⟩
  | read b c f ih => exact ⟨script_doomed _, fun a => ih _⟩
  | failed f ih => exact ih _

theorem Call.script_strict (c : Call ε) (r : Control) : (c.script r).Strict Result.Done := by
  cases c with
  | transaction epoch ledger write f =>
    dsimp only [script]
    split
    · trivial
    · exact f.script_strict
  | recovery old new =>
    dsimp only [script]
    split
    · exact strict_thenRun (strict_thenRun commit_strict)
    · trivial
  | advanceEpoch new => exact strict_thenRun commit_strict

def Failed (x : LedgerSession ε (Call ε)) : Prop :=
  (∃ a ∈ x.heard, a.2 = none) ∨ ∃ e, x.phase = .rolledBack (.callback e) ∨ x.phase = .committed (.callback e)

theorem failed_leaves {os : List Fate} {x : LedgerSession ε (Call ε)} {d d' : Tables}
    (alone : Alone storage os d x d') (failed : Failed x) : d' = d := by
  have writes := alone.writes (every_true _)
  have kept := alone.strict (Call.script_strict x.call _)
  unfold Writes at writes
  unfold Kept at kept
  split at writes
  · exact writes.1
  · rename_i r phase
    rw [phase] at kept
    rcases failed with ⟨a, ha, none⟩ | ⟨e, undone | done⟩
    · have some := kept.2 a ha
      rw [none] at some
      cases some
    · rw [phase] at undone
      cases undone
    · rw [phase] at done
      cases done
      exact kept.1.elim
  · exact writes

end Failures

section Fence

def Call.OfPool (epoch : Name) : Call ε → Prop
  | .transaction e _ _ _ => e = epoch
  | _ => False

def Call.Sets (epoch : Name) : Call ε → Prop
  | .transaction _ _ _ _ => False
  | .recovery _ new => new = epoch
  | .advanceEpoch new => new = epoch

def answers (x : LedgerSession ε (Call ε)) : List (Σ s : Statement, Option s.Answer) :=
  x.heard.filter (fun a => a.2.isSome)

/-- The next step of a transaction of the epoch's pools gets no answer and writes nothing. -/
def Fenced (epoch : Name) (s : Server Statement Statement.Answer Tables (Result ε) (Call ε)) : Prop :=
  ∀ xs x ys o, s.sessions = xs ++ x :: ys → x.call.OfPool epoch →
    (advance storage o x s.store).2 = s.store ∧ answers (advance storage o x s.store).1 = answers x

def Denied (x : LedgerSession ε (Call ε)) : Prop :=
  match x.phase with
  | .holding _ rest => rest = .rollback .denied
  | .cut rest => rest = .rollback .denied
  | .committed _ => False
  | .rolledBack _ => True

theorem denied {os : List Fate} {x : LedgerSession ε (Call ε)} {d d' : Tables} {epoch : Name}
    (alone : Alone storage os d x d') (pool : x.call.OfPool epoch) (other : d.control.epoch ≠ epoch) : Denied x := by
  refine alone.invariant (P := fun y _ => Denied y) ?_ ?_
  · obtain ⟨call, heard, phase⟩ := x
    cases call with
    | transaction e ledger write f =>
      have eq : e = epoch := pool
      subst eq
      exact if_pos (.inl other)
    | recovery old new => cases pool
    | advanceEpoch new => cases pool
  · rintro o ⟨call, heard, phase⟩ e denied
    cases phase with
    | holding own rest =>
      have eq : rest = .rollback .denied := denied
      subst eq
      cases o <;> trivial
    | cut rest =>
      have eq : rest = .rollback .denied := denied
      subst eq
      trivial
    | rolledBack r => trivial
    | committed r => exact denied

theorem answers_free {x : LedgerSession ε (Call ε)} (free : ¬ x.Holds) (o : Fate) (d : Tables) :
    answers (advance storage o x d).1 = answers x := by
  obtain ⟨call, heard, phase⟩ := x
  cases phase with
  | holding own rest => exact absurd ⟨own, rest, rfl⟩ free
  | cut rest =>
    cases rest with
    | rollback r => rfl
    | commit k => rfl
    | run s k => exact (List.filter_append ..).trans (List.append_nil _)
  | rolledBack r => rfl
  | committed r => rfl

variable {init : Tables} {s s' : Server Statement Statement.Answer Tables (Result ε) (Call ε)} {epoch : Name}

theorem fenced (reached : Reached storage init s) (other : s.store.control.epoch ≠ epoch) : Fenced epoch s := by
  intro xs x ys o sessions pool
  obtain ⟨serial, disciplined⟩ := reached.serial
  rw [sessions] at serial disciplined
  by_cases holds : x.Holds
  · obtain ⟨os, -, alone, -⟩ := serial.holds disciplined holds
    have stopped := denied alone pool other
    obtain ⟨call, heard, phase⟩ := x
    obtain ⟨own, rest, rfl⟩ : ∃ own rest, phase = .holding own rest := holds
    have eq : rest = .rollback .denied := stopped
    subst eq
    cases o <;> exact ⟨rfl, rfl⟩
  · rw [advance_free holds s.store s.store]
    exact ⟨rfl, answers_free holds o s.store⟩

theorem Call.script_keeps {c : Call ε} (sets : ¬ c.Sets epoch) (r : Control) :
    (c.script r).Every (fun s => s ≠ .setEpoch epoch) := by
  have other : ∀ new, ¬ new = epoch → (Statement.setEpoch new) ≠ .setEpoch epoch :=
    fun new ne eq => ne (Statement.setEpoch.inj eq)
  cases c with
  | transaction e ledger write f =>
    dsimp only [script]
    split
    · trivial
    · exact f.script_every (by simp) (by simp) (by simp) (by simp) (by simp) false
  | recovery old new =>
    dsimp only [script]
    split
    · exact every_thenRun (by simp) (every_thenRun (other new sets) trivial)
    · trivial
  | advanceEpoch new => exact every_thenRun (other new sets) trivial

theorem Statement.effect_epoch {s : Statement} (keeps : s ≠ .setEpoch epoch) {t : Tables}
    (h : t.control.epoch ≠ epoch) : (s.effect t).control.epoch ≠ epoch := by
  cases s with
  | setEpoch new => exact fun eq => keeps (congrArg Statement.setEpoch eq)
  | _ => exact h

theorem replay_epoch {own : List Statement} (keeps : ∀ s ∈ own, s ≠ .setEpoch epoch) {t : Tables}
    (h : t.control.epoch ≠ epoch) : (replay (storage (ε := ε)) own t).control.epoch ≠ epoch := by
  induction own generalizing t with
  | nil => exact h
  | cons s own ih =>
    exact ih (fun s hs => keeps s (List.mem_cons_of_mem _ hs)) (Statement.effect_epoch (keeps s List.mem_cons_self) h)

theorem step_epoch (reached : Reached storage init s) (step : Step storage s s')
    (keeps : ∀ x ∈ s.sessions, ¬ x.call.Sets epoch) (other : s.store.control.epoch ≠ epoch) :
    s'.store.control.epoch ≠ epoch := by
  obtain ⟨serial, disciplined⟩ := reached.serial
  cases step with
  | lock d xs c free => exact other
  | step d xs ys x o =>
    by_cases holds : x.Holds
    · obtain ⟨os, -, alone, -⟩ := serial.holds disciplined holds
      have sets := keeps x (List.mem_append_right _ List.mem_cons_self)
      obtain ⟨own, all, eq⟩ := (alone.snoc o).replayed (Call.script_keeps (by rw [advance_call]; exact sets) _)
      rw [eq]
      exact replay_epoch all other
    · rw [advance_free holds d d]
      exact other

theorem step_calls (step : Step storage s s') : s.sessions.map Session.call <+: s'.sessions.map Session.call := by
  cases step with
  | lock d xs c free => exact ⟨[c], by simp [enter]⟩
  | step d xs ys x o => exact ⟨[], by simp [advance_call]⟩

/-- Once the committed epoch is another one, it stays so unless a recovery sets it back. -/
theorem epoch_stays (reached : Reached storage init s) (other : s.store.control.epoch ≠ epoch)
    (later : Relation.ReflTransGen (Step storage) s s')
    (keeps : ∀ c ∈ s'.sessions.map Session.call, ¬ c.Sets epoch) : s'.store.control.epoch ≠ epoch := by
  induction later with
  | refl => exact other
  | tail before step ih =>
    have kept := fun c hc => keeps c ((step_calls step).subset hc)
    exact step_epoch (reached.trans before) step (fun x hx => kept _ (List.mem_map_of_mem hx)) (ih kept)

end Fence

/-- Every interleaving of transactions and recoveries: the answers and the tables are
those of the transactions one after the other, in the order of their locks; a failed one
can be left out; and once the committed epoch is not that of a pool, the pool's
transactions get no answer and write nothing. -/
theorem transactions_serial {init : Tables} {s : Server Statement Statement.Answer Tables (Result ε) (Call ε)}
    (reached : Reached storage init s) :
    Serial storage init s.sessions s.store ∧
    (∀ xs x ys, s.sessions = xs ++ x :: ys → Failed x → Serial storage init (xs ++ ys) s.store) ∧
    (∀ epoch, s.store.control.epoch ≠ epoch → Fenced epoch s) ∧
    (∀ epoch s', s.store.control.epoch ≠ epoch → Relation.ReflTransGen (Step storage) s s' →
      (∀ x ∈ s'.sessions, ¬ x.call.Sets epoch) → Fenced epoch s') := by
  obtain ⟨serial, -⟩ := reached.serial
  refine ⟨serial, ?_, fun epoch other => fenced reached other, ?_⟩
  · intro xs x ys sessions failed
    rw [sessions] at serial
    obtain ⟨d, d', os, before, alone, after⟩ := serial.split
    rw [failed_leaves alone failed] at after
    exact before.append after
  · intro epoch s' other later keeps
    refine fenced (reached.trans later) (epoch_stays reached other later ?_)
    intro c hc
    obtain ⟨x, hx, rfl⟩ := List.mem_map.mp hc
    exact keeps x hx

def sampleTables : Tables := ⟨⟨['a'], 1⟩, fun _ _ => ⟨[], List.Pairwise.nil⟩⟩

def sampleGet : Call Unit := .transaction ['a'] ['l'] false (.get ['b'] [1] (fun _ => .ret none))

/-- A transaction writes a row, two read it at the same time, a recovery follows, and one
more begins. -/
def sampleActions : List (Act (Call Unit)) :=
  [.lock (.transaction ['a'] ['l'] true (.put ['b'] [1] (some [2]) (fun _ => .ret none))), .step 0 .works,
    .step 0 .works, .lock sampleGet, .lock sampleGet, .step 1 .works, .step 2 .works, .step 2 .works,
    .step 1 .works, .lock (.recovery ['a'] ['c']), .step 3 .works, .step 3 .works, .step 3 .works, .lock sampleGet]

def sampleServer : Server Statement Statement.Answer Tables (Result Unit) (Call Unit) :=
  sampleActions.foldl (Server.act storage) ⟨sampleTables, []⟩

theorem sample_serial : sampleServer.sessions.map Session.heard =
      [[⟨.put ['l'] ['b'] [1] [2], some ()⟩], [⟨.get ['l'] ['b'] [1], some (some [2])⟩],
        [⟨.get ['l'] ['b'] [1], some (some [2])⟩], [⟨.discard, some ()⟩, ⟨.setEpoch ['c'], some ()⟩],
        []] ∧
    (sampleServer.store.rows ['l'] ['b']).entries = [] ∧
    Serial storage sampleTables sampleServer.sessions sampleServer.store ∧ Fenced ['a'] sampleServer := by
  have reached : Reached storage sampleTables sampleServer := run_reached .refl sampleActions
  have serial := transactions_serial reached
  exact ⟨rfl, rfl, serial.1, serial.2.2.1 ['a'] (by decide)⟩

end Federation.Postgres
