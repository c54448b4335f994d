import BaobabIam.Migration.ServiceRuns

/-! What each transaction of a containment does: the begin transaction seals the fence
and the quarantine together, provider calls come only after it, and a phase is marked
only after the readbacks that it stands for. -/
namespace Migration

open Interleaving

namespace NativeContainment

inductive Journaled (operationID : Text) (row : Record) (db : Database) : Database → Prop
  | prior (journal : ContainmentRow) (found : db.containmentOf row.migrationID = some journal)
      (same : journal.operationID = operationID) : Journaled operationID row db db
  | fresh (db₁ : Database) (absent : db.containmentOf row.migrationID = none)
      (added : db.insertContainment
        ⟨operationID, row.migrationID, row.target.issuer, row.target.subject, .pending⟩ = .ok db₁) :
      Journaled operationID row db db₁

def quarantinedRow (row : Record) : Record :=
  { row with migrationState := .quarantined, revision := row.revision + 1 }

inductive Quarantined (row : Record) (db : Database) : Database → Prop
  | prior (state : row.migrationState = .quarantined) : Quarantined row db db
  | moved (db' : Database) (write : RowWrite db db' (some row) (quarantinedRow row)) : Quarantined row db db'

structure Sealed (operationID : Text) (row : Record) (db db' : Database) : Prop where
  found : db.find row.migrationID = some row
  target : row.target.issuer ≠ [] ∧ row.target.subject ≠ []
  sealed : ∃ db₁, Journaled operationID row db db₁ ∧
    (db₁.insertFence (fenceFor row)).fence row.migrationID = some (fenceFor row) ∧
    Quarantined row (db₁.insertFence (fenceFor row)) db'

def phaseOf (db : Database) (operationID : Text) : Option Phase := (db.operation operationID).map ContainmentRow.phase

def Heard (L : Log ports) (q : Query) (a : q.Answer) : Prop := ∃ x ∈ L, x = ⟨q, a⟩

theorem Heard.mono {L L' : Log ports} {q : Query} {a : q.Answer} (h : Heard L q a) (sub : L <+: L') : Heard L' q a := by
  obtain ⟨x, hx, same⟩ := h
  exact ⟨x, sub.subset hx, same⟩

theorem Heard.last (L : Log ports) (q : Query) (a : q.Answer) : Heard (L ++ [⟨q, a⟩]) q a :=
  ⟨⟨q, a⟩, List.mem_append_right L (List.mem_singleton.mpr rfl), rfl⟩

def Unacknowledged (L : Log ports) : Prop := ¬ Heard L .commit .done

theorem Unacknowledged.statement {L : Log ports} (h : Unacknowledged L) (a : Option SqlCode) :
    Unacknowledged (L ++ [⟨Query.statement, a⟩]) := by
  rintro ⟨x, mem, same⟩
  rcases List.mem_append.mp mem with mem | mem
  · exact h ⟨x, mem, same⟩
  · cases (List.mem_singleton.mp mem).symm.trans same

theorem Unacknowledged.commit {L : Log ports} (h : Unacknowledged L) {a : Commit} (other : a ≠ .done) :
    Unacknowledged (L ++ [⟨Query.commit, a⟩]) := by
  rintro ⟨x, mem, same⟩
  rcases List.mem_append.mp mem with mem | mem
  · exact h ⟨x, mem, same⟩
  · cases (List.mem_singleton.mp mem).symm.trans same
    exact other rfl

section Begin

variable {rule : Rule ports} {s : Database} {L : Log ports} {row : Record} {operationID : Text}

structure BeginPost (migrationID operationID : Text) (s : Database) (L : Log ports)
    (Q : Except Failure (Except Failure ContainmentReceipt × Database) → Log ports → Prop) : Prop where
  failed : ∀ L' e, StoreLog L L' → Unacknowledged L' → Q (.error e) L'
  lost : ∀ L' s' e row, StoreLog L L' → Unacknowledged L' → row.migrationID = migrationID →
    Sealed operationID row s s' → Q (.ok (.error e, s')) L'
  done : ∀ L' s' row phase, StoreLog L L' → row.migrationID = migrationID → Sealed operationID row s s' →
    phaseOf s' operationID = some phase →
    Q (.ok (.ok (receiptFor row operationID phase), s')) (L' ++ [⟨Query.commit, Commit.done⟩])

variable {Q : Except Failure (Unit × Database) → Log ports → Prop}

theorem wp_journalFor (failed : ∀ L' e, StoreLog L L' → Unacknowledged L' → Q (.error e) L')
    (h : ∀ L' s', StoreLog L L' → Unacknowledged L' → Journaled operationID row s s' → Q (.ok ((), s')) L')
    (silent : Unacknowledged L) : (journalFor row operationID).wp rule s L Q := by
  unfold journalFor
  apply wp_statement_then (fun code e => failed _ e (.statement L _) (silent.statement _))
  have silent₁ := silent.statement none
  apply Tx.wp_read_then
  cases found : s.containmentOf row.migrationID with
  | some prior =>
    simp only
    apply (Tx.wp_require _ _ _).mpr
    constructor
    · intro same
      exact h _ s (.statement L none) silent₁ (.prior prior found (by simpa using same))
    · exact fun _ => failed _ _ (.statement L none) silent₁
  | none =>
    simp only
    have asked : ∀ a, StoreLog L (L ++ [⟨Query.statement, none⟩] ++ [⟨Query.statement, a⟩]) :=
      fun a => (StoreLog.statement L none).trans (.statement _ a)
    apply wp_statement_then (fun code e => failed _ e (asked _) (silent₁.statement _))
    apply Tx.wp_read_then
    apply wp_orFail_then (fun e _ => failed _ e (asked none) (silent₁.statement none))
    intro db added
    exact h _ db (asked none) (silent₁.statement none) (.fresh db found (mapError_eq_ok added))

theorem wp_sealFence (failed : ∀ L' e, StoreLog L L' → Unacknowledged L' → Q (.error e) L')
    (h : ∀ L', StoreLog L L' → Unacknowledged L' →
      (s.insertFence (fenceFor row)).fence row.migrationID = some (fenceFor row) →
      Q (.ok ((), s.insertFence (fenceFor row))) L')
    (silent : Unacknowledged L) : (sealFence row).wp rule s L Q := by
  unfold sealFence
  apply wp_statement_then (fun code e => failed _ e (.statement L _) (silent.statement _))
  have silent₁ := silent.statement none
  have asked : ∀ a, StoreLog L (L ++ [⟨Query.statement, none⟩] ++ [⟨Query.statement, a⟩]) :=
    fun a => (StoreLog.statement L none).trans (.statement _ a)
  apply Tx.wp_write_then
  apply wp_statement_then (fun code e => failed _ e (asked _) (silent₁.statement _))
  apply Tx.wp_read_then
  apply (Tx.wp_require _ _ _).mpr
  constructor
  · intro observed
    exact h _ (asked none) (silent₁.statement none) (by simpa using observed)
  · exact fun _ => failed _ _ (asked none) (silent₁.statement none)

theorem wp_quarantine (found : s.find row.migrationID = some row)
    (legal : row.migrationState = .quarantined ∨ canTransition row.migrationState .quarantined = true)
    (failed : ∀ L' e, StoreLog L L' → Unacknowledged L' → Q (.error e) L')
    (h : ∀ L' s', StoreLog L L' → Unacknowledged L' → Quarantined row s s' → Q (.ok ((), s')) L')
    (silent : Unacknowledged L) : (quarantine row).wp rule s L Q := by
  unfold quarantine
  split
  · rename_i already
    exact h L s (.refl L) silent (.prior already)
  · rename_i elsewhere
    apply PostgresStore.wp_writeRow (fun a e => failed _ e (.statement L a) (silent.statement a))
    intro s' written
    apply h _ s' (.statement L none) (silent.statement none)
    refine .moved s' ⟨⟨by simp, ?_, ?_⟩, written, found⟩
    · rintro _ ⟨⟩
      exact .inr (legal.resolve_left elsewhere)
    · rintro _ ⟨⟩
      exact .inl rfl

end Begin

section Frames

variable {db db' : Database}

theorem insertContainment_ok {journal : ContainmentRow} (h : db.insertContainment journal = .ok db') :
    (db.operation journal.operationID = none) ∧ db' = { db with
      containment := db.containment ++ [journal]
      containmentHistory := db.containmentHistory ++ [(journal.operationID, journal.phase)] } := by
  unfold Database.insertContainment at h
  split at h
  · cases h
  · split at h
    · cases h
    · rename_i free
      split at h
      · cases h
      · cases h
        exact ⟨by simpa using free, rfl⟩

theorem Journaled.records {operationID : Text} {row : Record} (h : Journaled operationID row db db') :
    db'.records = db.records ∧ db'.history = db.history ∧ db'.denyFence = db.denyFence := by
  cases h with
  | prior journal found same => exact ⟨rfl, rfl, rfl⟩
  | fresh _ absent added =>
    obtain ⟨-, rfl⟩ := insertContainment_ok added
    exact ⟨rfl, rfl, rfl⟩

theorem insertFence_tables (db : Database) (f : FenceRow) :
    (db.insertFence f).records = db.records ∧ (db.insertFence f).history = db.history ∧
      (db.insertFence f).containment = db.containment := by
  unfold Database.insertFence
  split <;> exact ⟨rfl, rfl, rfl⟩

theorem find_of_records (h : db'.records = db.records) (id : Text) : db'.find id = db.find id := by
  rw [Database.find, Database.find, h]

end Frames

section Begin

variable {rule : Rule ports} {s : Database} {L : Log ports} {migrationID operationID : Text}
  {Q : Except Failure (Except Failure ContainmentReceipt × Database) → Log ports → Prop}

theorem wp_beginBody (h : BeginPost migrationID operationID s L Q) (silent : Unacknowledged L) :
    (beginBody migrationID operationID).wp rule s L Q := by
  unfold beginBody
  apply wp_statement_then (fun code e => h.failed _ e (.statement L _) (silent.statement _))
  have asked₁ : ∀ a, StoreLog L (L ++ [⟨Query.statement, none⟩] ++ [⟨Query.statement, a⟩]) :=
    fun a => (StoreLog.statement L none).trans (.statement _ a)
  apply wp_statement_then (fun code e => h.failed _ e (asked₁ _) ((silent.statement none).statement _))
  have asked := asked₁ none
  have silent₁ := (silent.statement none).statement none
  generalize L ++ [⟨Query.statement, none⟩] ++ [⟨Query.statement, none⟩] = L₁ at asked silent₁
  apply Tx.wp_read_then
  cases found : s.find migrationID with
  | none => exact h.failed _ _ asked silent₁
  | some row =>
    have named := Database.find_id found
    simp only
    apply Tx.wp_require_else (h.failed _ _ asked silent₁)
    intro human
    apply Tx.wp_require_else (h.failed _ _ asked silent₁)
    intro bound
    apply Tx.wp_require_else (h.failed _ _ asked silent₁)
    intro legal
    simp only [Bool.and_eq_true, Bool.or_eq_true, decide_eq_true_eq] at bound legal
    have found' : s.find row.migrationID = some row := by rw [named]; exact found
    apply (Tx.wp_bind _ _ _).mpr
    apply wp_journalFor (fun L' e more => h.failed L' e (asked.trans more)) _ silent₁
    intro L₂ s₁ more₁ silent₂ journaled
    apply (Tx.wp_bind _ _ _).mpr
    apply wp_sealFence (fun L' e more => h.failed L' e ((asked.trans more₁).trans more)) _ silent₂
    intro L₃ more₂ silent₃ observed
    have asked₃ := (asked.trans more₁).trans more₂
    have kept : (s₁.insertFence (fenceFor row)).find row.migrationID = some row := by
      rw [find_of_records (insertFence_tables s₁ _).1, find_of_records journaled.records.1]
      exact found'
    apply (Tx.wp_bind _ _ _).mpr
    apply wp_quarantine kept legal (fun L' e more => h.failed L' e (asked₃.trans more)) _ silent₃
    intro L₄ s₂ more₃ silent₄ quarantined
    have asked₄ := asked₃.trans more₃
    have done : Sealed operationID row s s₂ :=
      ⟨found', ⟨bound.1.1.1.1, bound.1.1.1.2⟩, s₁, journaled, observed, quarantined⟩
    apply wp_statement_then (fun code e => h.failed _ e (asked₄.trans (.statement L₄ _)) (silent₄.statement _))
    apply Tx.wp_read_then
    have asked₅ := asked₄.trans (.statement L₄ none)
    have silent₅ := silent₄.statement none
    cases journal : s₂.operation operationID with
    | none => exact h.failed _ _ asked₅ silent₅
    | some journal' =>
      apply PostgresStore.wp_commit
      · exact fun code e => h.failed _ e (asked₅.trans (.commit _ _)) (silent₅.commit (by simp))
      · exact fun code e => h.lost _ s₂ e row (asked₅.trans (.commit _ _)) (silent₅.commit (by simp)) named done
      · exact h.done _ s₂ row journal'.phase asked₅ named done (by rw [phaseOf, journal]; rfl)

end Begin

section Contain

variable {sys : System ports Database Failure}

/-- The transaction is a call that disables the identity or revokes its sessions. -/
def Kills (e : Entry sys) (subject : ExternalSubject) : Prop :=
  (∃ a, e.finish = e.start ++ [⟨Query.disableIdentity subject, a⟩]) ∨
    ∃ a, e.finish = e.start ++ [⟨Query.revokeSessions subject, a⟩]

/-- The call has read the target as disabled and without sessions, and has a denial
proof that was at most a minute old when the clock was read right after it. -/
structure Proven (row : Record) (L : Log ports) : Prop where
  disabled : ∃ a, Heard L (.getIdentity (targetOf row)) a ∧ disabledAs (targetOf row) a = true
  silent : ∃ a, Heard L (.activeSessionCount (targetOf row)) a ∧ noSessions a = true
  denied : ∃ a n, [⟨Query.verifyCurrentDenial (sourceOf row) (targetOf row) row.canonicalIdentityID, a⟩,
    ⟨Query.now, n⟩] <:+: L ∧ provesDenial n a = true

theorem Proven.mono {row : Record} {L L' : Log ports} (h : Proven row L) (sub : L <+: L') : Proven row L' := by
  obtain ⟨⟨a, ha, yes⟩, ⟨b, hb, none⟩, c, n, hc, proof⟩ := h
  exact ⟨⟨a, ha.mono sub, yes⟩, ⟨b, hb.mono sub, none⟩, c, n, hc.trans sub.isInfix, proof⟩

/-- Call `i` has sealed the fence of this row for its operation. -/
def Begun (operationID : Text) (row : Record) (T : Trace sys) (i : Nat) : Prop :=
  ∃ g ∈ T, g.thread = i ∧ Sealed operationID row g.before g.after

theorem Begun.mono {operationID : Text} {row : Record} {T T' : Trace sys} {i : Nat}
    (h : Begun operationID row T i) (sub : T <+: T') : Begun operationID row T' i := by
  obtain ⟨g, hg, rest⟩ := h
  exact ⟨g, sub.subset hg, rest⟩

inductive ContainStep (migrationID operationID : Text) (T : Trace sys) (e : Entry sys) : Prop
  | reads (same : e.after = e.before) (stored : StoreLog e.start e.finish)
  | seals (row : Record) (named : row.migrationID = migrationID) (done : Sealed operationID row e.before e.after)
      (stored : StoreLog e.start e.finish)
  | kills (row : Record) (named : row.migrationID = migrationID) (begun : Begun operationID row T e.thread)
      (same : e.after = e.before) (call : Kills e (targetOf row))
  | marks (row : Record) (named : row.migrationID = migrationID) (begun : Begun operationID row T e.thread)
      (phase : Phase) (write : e.after = e.before.updatePhase operationID phase)
      (proof : phase = .verified → Proven row e.start) (stored : StoreLog e.start e.finish)

/-- An answer that tells the call that the database did not do what it asked. -/
def refuses : (q : Query) → q.Answer → Bool
  | .statement, a => a.isSome
  | .commit, a => a ≠ .done
  | _, _ => false

def Refused (L : Log ports) : Prop := ∃ A q a, L = A ++ [⟨q, a⟩] ∧ refuses q a = true

def Marked (operationID : Text) (phase : Phase) (T : Trace sys) (i : Nat) : Prop :=
  ∃ B m, T = B ++ [m] ∧ m.thread = i ∧ m.after = m.before.updatePhase operationID phase

def LeftJournal (configured : Bool) (operationID : Text) (T : Trace sys) (L : Log ports) (i : Nat)
    (g : Entry sys) (D : Trace sys) : Prop :=
  (configured = false ∧ phaseOf g.after operationID = some .verified ∧ D = []) ∨
    ((configured = true ∨ phaseOf g.after operationID ≠ some .verified) ∧
      (Refused L ∨ Marked operationID .unknown T i))

def ContainPost (configured : Bool) (migrationID operationID : Text) (i : Nat) : Post sys ContainmentReceipt :=
  fun T L r =>
    (∀ receipt, r = .ok receipt → receipt.phase = .verified ∧ receipt.operationID = operationID ∧
      ∃ row, row.migrationID = migrationID ∧ receipt.target = targetOf row ∧ Begun operationID row T i ∧
        Proven row L) ∧
    (∀ e, r = .error e → ¬ Unacknowledged L → ∃ row A g D, T = A ++ g :: D ∧ g.thread = i ∧
      row.migrationID = migrationID ∧ Sealed operationID row g.before g.after ∧
      LeftJournal configured operationID T L i g D)

section Rules

/- A setting that lets the call do what containments do. -/
variable {v : Setting sys} {T : Trace sys} {L : Log ports} {migrationID operationID : Text} {row : Record}
  (grows : ∀ T T', v.others T T' → T <+: T')
  (admits : ∀ T e, e.thread = v.thread → e.call = v.call → ContainStep migrationID operationID T e → v.spec T e)

include admits

variable {Q : Post sys ContainmentReceipt} {phase : Phase} {β : Type} {q : Query} {f : q.Answer → Op Database β}
    {configured : Bool}

theorem wp_begin (silent : Unacknowledged L)
    (failed : ∀ T' L' e, Unacknowledged L' → Q T' L' (.error e))
    (ok : ∀ A g L' row phase, v.others T A → g.thread = v.thread → row.migrationID = migrationID →
      Sealed operationID row g.before g.after → phaseOf g.after operationID = some phase →
      Q (A ++ [g]) L' (.ok (receiptFor row operationID phase))) :
    wp v (begin migrationID operationID) T L Q := by
  unfold begin
  apply wp_then
  apply (wp_require _ _).mpr
  refine ⟨?_, fun _ => failed T L _ silent⟩
  intro _ T' more
  apply wp_beginBody _ silent
  constructor
  · intro L' e asked silent'
    exact ⟨admits T' _ rfl rfl (.reads rfl asked), failed _ L' e silent'⟩
  · intro L' s' e row asked silent' named done
    exact ⟨admits T' _ rfl rfl (.seals row named done asked), failed _ L' e silent'⟩
  · intro L' s' row phase asked named done journal
    have all := asked.trans (.commit L' .done)
    exact ⟨admits T' _ rfl rfl (.seals row named done all),
      ok T' (leaves v T' s' L _) _ row phase more rfl named done journal⟩

include grows

theorem wp_markPhase {Q : Post sys Unit} (begun : Begun operationID row T v.thread)
    (named : row.migrationID = migrationID) (proof : phase = .verified → Proven row L)
    (failed : ∀ T' L' e, T <+: T' → Refused L' → Q T' L' (.error e))
    (ok : ∀ T' L', T <+: T' → L <+: L' → Marked operationID phase T' v.thread → Q T' L' (.ok ())) :
    wp v (markPhase operationID phase) T L Q := by
  intro T' more
  have sub := grows T T' more
  have grown : ∀ e : Entry sys, T <+: T' ++ [e] := fun e => sub.trans (List.prefix_append _ _)
  have begun' := begun.mono sub
  unfold markBody
  apply wp_statement_then
  · intro code e
    exact ⟨admits T' _ rfl rfl (.reads rfl (.statement L _)),
      failed _ _ e (grown _) ⟨L, .statement, some code, rfl, rfl⟩⟩
  · apply Tx.wp_write_then
    have asked : ∀ c, StoreLog L (L ++ [⟨Query.statement, none⟩] ++ [⟨Query.commit, c⟩]) :=
      fun c => (StoreLog.statement L none).trans (.commit _ c)
    apply PostgresStore.wp_commit
    · intro code e
      exact ⟨admits T' _ rfl rfl (.reads rfl (asked _)),
        failed _ _ e (grown _) ⟨_, .commit, .refused code, rfl, rfl⟩⟩
    · intro code e
      exact ⟨admits T' _ rfl rfl (.marks row named begun' phase rfl proof (asked _)),
        failed _ _ e (grown _) ⟨_, .commit, .unacknowledged code, rfl, rfl⟩⟩
    · exact ⟨admits T' _ rfl rfl (.marks row named begun' phase rfl proof (asked _)),
        ok _ _ (grown _) ⟨_, (List.append_assoc _ _ _).symm⟩ ⟨T', _, rfl, rfl, rfl⟩⟩

theorem wp_kill_then {Q : Post sys β}
    (call : q = .disableIdentity (targetOf row) ∨ q = .revokeSessions (targetOf row))
    (begun : Begun operationID row T v.thread) (named : row.migrationID = migrationID)
    (ok : ∀ T' a, T <+: T' → wp v (f a) T' (L ++ [⟨q, a⟩]) Q) :
    wp v (Prog.effect (I := ports) q >>= f) T L Q := by
  apply wp_then
  intro T' more a _
  have sub := grows T T' more
  refine ⟨admits T' _ rfl rfl (.kills row named (begun.mono sub) rfl ?_),
    ok _ a (sub.trans (List.prefix_append _ _))⟩
  rcases call with rfl | rfl
  · exact .inl ⟨a, rfl⟩
  · exact .inr ⟨a, rfl⟩

omit grows admits in
theorem wp_question_seen {Q : Post sys β}
    (h : ∀ a L', L <+: L' → Heard L' q a → wp v (f a) T L' Q) :
    wp v (Prog.question (I := ports) q >>= f) T L Q := by
  apply wp_question_then
  intro a _
  exact h a _ (List.prefix_append _ _) (.last L q a)

omit grows admits in
/-- The last readback: a denial proof and the clock right after it. -/
theorem wp_denial {f : Except Failure CurrentVetoEvidence → Time → Op Database β} {Q : Post sys β}
    {identity : Except Failure (Option ProviderIdentity)} {count : Except Failure Int}
    (seen : Heard L (.getIdentity (targetOf row)) identity)
    (counted : Heard L (.activeSessionCount (targetOf row)) count)
    (h : ∀ proof n L', (disabledAs (targetOf row) identity = true → noSessions count = true →
      provesDenial n proof = true → Proven row L') → wp v (f proof n) T L' Q) :
    wp v (do
      let proof ← Prog.question (I := ports)
        (.verifyCurrentDenial (sourceOf row) (targetOf row) row.canonicalIdentityID)
      let read ← now
      f proof read) T L Q := by
  apply wp_question_then
  intro proof _
  apply wp_then
  intro n _
  apply h
  intro disabled silent proves
  have grown : L <+: L ++ [⟨_, proof⟩] ++ [⟨Query.now, n⟩] := ⟨_, (List.append_assoc _ _ _).symm⟩
  exact ⟨⟨identity, seen.mono grown, disabled⟩, ⟨count, counted.mono grown, silent⟩, proof, n,
    ⟨L, [], by simp⟩, proves⟩

theorem wp_execute
    (begun : Begun operationID row T v.thread) (named : row.migrationID = migrationID) (failed : Accepts T Q)
    (ok : ∀ T' L' receipt, T <+: T' → Proven row L' → receipt.phase = .verified →
      receipt.operationID = operationID → receipt.target = targetOf row → Q T' L' (.ok receipt)) :
    wp v (execute configured (receiptFor row operationID phase)) T L Q := by
  unfold execute
  apply wp_require_or failed
  intro _
  apply wp_kill_then grows admits (.inl rfl) begun named
  intro T₁ a₁ sub₁
  have failed₁ := failed.later sub₁
  apply wp_ofExcept_or failed₁
  intro _ _
  apply wp_question_seen
  intro identity L₁ _ seen
  apply wp_require_or failed₁
  intro disabled
  apply wp_then
  apply wp_markPhase grows admits (begun.mono sub₁) named (by simp)
    (fun T' L' e sub _ => failed₁ T' L' e sub)
  intro T₂ L₂ sub₂ grown₂ _
  have to₂ := sub₁.trans sub₂
  apply wp_kill_then grows admits (.inr rfl) (begun.mono to₂) named
  intro T₃ a₃ sub₃
  have to₃ := to₂.trans sub₃
  have failed₃ := failed.later to₃
  apply wp_ofExcept_or failed₃
  intro _ _
  apply wp_question_seen
  intro count L₃ grown₃ counted
  apply wp_require_or failed₃
  intro silent
  apply wp_then
  apply wp_markPhase grows admits (begun.mono to₃) named (by simp)
    (fun T' L' e sub _ => failed₃ T' L' e sub)
  intro T₄ L₄ sub₄ grown₄ _
  have to₄ := to₃.trans sub₄
  have failed₄ := failed.later to₄
  have kept : L₁ <+: L₄ := ((grown₂.trans (List.prefix_append _ _)).trans grown₃).trans grown₄
  apply wp_denial (seen.mono kept) (counted.mono grown₄)
  intro proof n L₅ proven
  apply wp_require_or failed₄
  intro proves
  have done := proven disabled silent proves
  apply wp_then
  apply wp_markPhase grows admits (begun.mono to₄) named (by simp)
    (fun T' L' e sub _ => failed₄ T' L' e sub)
  intro T₆ L₆ sub₆ grown₆ _
  have to₆ := to₄.trans sub₆
  apply wp_then
  apply wp_markPhase grows admits (begun.mono to₆) named (fun _ => done.mono grown₆)
    (fun T' L' e sub _ => failed T' L' e (to₆.trans sub))
  intro T₇ L₇ sub₇ grown₇ _
  exact ok T₇ L₇ _ (to₆.trans sub₇) (done.mono (grown₆.trans grown₇)) rfl rfl rfl

/-- A failure after which the call tries to mark the journal UNKNOWN. -/
theorem wp_unknown_then {e : Failure} (begun : Begun operationID row T v.thread)
    (named : row.migrationID = migrationID)
    (failed : ∀ T' L', T <+: T' → (Refused L' ∨ Marked operationID .unknown T' v.thread) → Q T' L' (.error e)) :
    wp v (do
      let _ ← (markPhase operationID .unknown).attempt
      .fail e) T L Q := by
  apply wp_then
  apply (wp_attempt _).mpr
  apply wp_markPhase grows admits begun named (by simp)
  · exact fun T' L' _ sub refused => failed T' L' sub (.inl refused)
  · exact fun T' L' sub _ marked => failed T' L' sub (.inr marked)

theorem wp_recheck
    (begun : Begun operationID row T v.thread) (named : row.migrationID = migrationID)
    (bare : configured = false → ∀ e, Q T L (.error e))
    (failed : ∀ T' L' e, T <+: T' → configured = true →
      (Refused L' ∨ Marked operationID .unknown T' v.thread) →
      Q T' L' (.error e))
    (ok : ∀ L', Proven row L' → Q T L' (.ok (receiptFor row operationID .verified))) :
    wp v (recheck configured (receiptFor row operationID .verified)) T L Q := by
  unfold recheck
  apply wp_then
  apply (wp_require _ _).mpr
  refine ⟨?_, fun without => bare without _⟩
  intro configured
  apply wp_question_seen
  intro identity L₁ _ seen
  apply wp_question_seen
  intro count L₂ grown₂ counted
  apply wp_denial (seen.mono grown₂) counted
  intro proof n L₃ proven
  split
  · rename_i all
    simp only [Bool.and_eq_true] at all
    exact ok L₃ (proven all.1.1 all.1.2 all.2)
  · exact wp_unknown_then grows admits begun named (fun T' L' sub left => failed T' L' _ sub configured left)

theorem wp_contain :
    wp v (contain configured migrationID operationID) T []
      (ContainPost configured migrationID operationID v.thread) := by
  unfold contain
  apply wp_then
  apply wp_begin admits
  · rintro ⟨x, mem, -⟩
    cases mem
  · intro T' L' e silent
    constructor
    · rintro receipt ⟨⟩
    · exact fun _ _ heard => absurd silent heard
  intro A g L' row phase more mine named done journal
  have begun : Begun operationID row (A ++ [g]) v.thread := ⟨g, by simp, mine, done⟩
  -- the trace from here on, cut at the begin transaction
  have cut : ∀ T', A ++ [g] <+: T' → ∃ D, T' = A ++ g :: D := by
    rintro T' ⟨D, rfl⟩
    exact ⟨D, by simp⟩
  have ends : ∀ T' L' e, A ++ [g] <+: T' →
    (configured = true ∨ phaseOf g.after operationID ≠ some .verified) →
      (Refused L' ∨ Marked operationID .unknown T' v.thread) →
      ContainPost configured migrationID operationID v.thread T' L' (.error e) := by
    intro T' L' e sub ready left
    refine ⟨by rintro receipt ⟨⟩, ?_⟩
    intro _ _ _
    obtain ⟨D, eq⟩ := cut T' sub
    exact ⟨row, A, g, D, eq, mine, named, done, .inr ⟨ready, left⟩⟩
  have passes : ∀ T' L' receipt, A ++ [g] <+: T' → Proven row L' → receipt.phase = .verified →
      receipt.operationID = operationID → receipt.target = targetOf row →
      ContainPost configured migrationID operationID v.thread T' L' (.ok receipt) := by
    intro T' L' receipt sub proven verified operation target
    refine ⟨?_, by rintro e ⟨⟩⟩
    rintro _ ⟨⟩
    exact ⟨verified, operation, row, named, target, begun.mono sub, proven⟩
  simp only [andThen_ok]
  split
  · rename_i verified
    have here : phase = .verified := verified
    subst here
    apply wp_recheck grows admits begun named
    · intro without e
      refine ⟨by rintro receipt ⟨⟩, ?_⟩
      intro _ _ _
      exact ⟨row, A, g, [], rfl, mine, named, done, .inl ⟨without, journal, rfl⟩⟩
    · exact fun T' L' e sub with_ left => ends T' L' e sub (.inl with_) left
    · exact fun L' proven => passes _ L' _ (List.prefix_refl _) proven rfl rfl rfl
  · rename_i open_
    have ready : phaseOf g.after operationID ≠ some .verified := by
      rw [journal]
      exact fun same => open_ (Option.some.inj same)
    apply wp_then
    apply (wp_attempt _).mpr
    apply wp_execute grows admits begun named
    · intro T₁ L₁ e sub₁
      apply wp_unknown_then grows admits (begun.mono sub₁) named
      exact fun T' L' sub left => ends T' L' _ (sub₁.trans sub) (.inr ready) left
    · exact fun T' L' receipt sub proven verified operation target =>
        passes T' L' receipt sub proven verified operation target

end Rules

end Contain

end NativeContainment

end Migration
