import BaobabIam.Federation.TrustLedger

/-! What a transaction of the trust ledger can do. `Step` lists the cases with
every guard that held, and `code_steps` says that each call meets it in any
interleaving: facts a call saw in earlier transactions are entries of the trace,
and what its ports answered stands in its log. -/
namespace Federation.TrustLedger

open Wire Interleaving

abbrev Trace := List (Entry system)

def ticked (s : TrustStore) (r : Time) : TrustStore := { s with clock := tick s.clock r }

structure Proposed (p : TrustProposal) : Prop where
  args : proposable p.id p.snapshot p.target = true
  digest : p.targetDigest = trustSnapshotDigest p.snapshot
  first : p.previousRevision = 0 → p.snapshot.trust.status = .requested ∧ p.snapshot.trust.revision = 1
  maker : uuidPattern p.maker = true

/-- An approval of `want` that the reference port returned, checked at the next
clock reading. -/
def ReceiptSeen (L : Log ports) (validUntil : Time) (want : ReferenceExpectation) : Prop :=
  ∃ (before after : Log ports) (receipt : ApprovedReference) (r : Reading),
    L = before ++ ⟨Query.reference want, .ok receipt⟩ :: ⟨Query.now, r⟩ :: after ∧
    receipt.expectation = want ∧ receipt.status = "APPROVED".toList ∧ receipt.nonSecret = true ∧
    fresh receipt.validFrom receipt.expiresAt r.time = true ∧ validUntil.ns ≤ receipt.expiresAt.ns

def Current (s : TrustStore) (id : Text) : Option CommittedTrust → Prop
  | none => s.trusts.get id = none
  | some c => ∃ raw, s.trusts.get id = some raw ∧ decodeAuthority raw = some c

structure ProposeStep (e : Entry system) (p : TrustProposal) (r : Time) : Prop where
  call : e.call = .propose p.id p.snapshot p.target
  proposed : Proposed p
  pending : p.status = .pending
  ticks : Ticks e.before.clock r
  inTime : InOrder e.finish → r.ns < p.snapshot.validUntil.ns
  updated : InOrder e.finish → p.snapshot.trust.updatedAt.ns ≤ r.ns
  free : e.before.proposals.get p.id = none
  after : e.after = { ticked e.before r with proposals := e.before.proposals.put p.id (marshal p) }

/-- What Decide knows before its transaction: `p` was read, `q` is to be written. -/
structure Deciding (i : Nat) (T : Trace) (L : Log ports) (id digest : Text) (approve : Bool)
    (p q : TrustProposal) : Prop where
  seen : ∃ e₀ ∈ T, e₀.thread = i ∧ decodeAuthority ((e₀.before.proposals.get id).getD []) = some p
  pending : p.status = .pending
  digests : p.targetDigest = digest ∧ trustSnapshotDigest p.snapshot = digest
  checker : uuidPattern q.checker = true ∧ q.checker ≠ p.maker
  resolved : ⟨Query.resolveApprovedTarget p.target, .ok digest⟩ ∈ L
  receipts : approve = true → p.snapshot.trust.status = .active →
    ∀ want ∈ activationReferences p.snapshot p.target.scope, ReceiptSeen L p.snapshot.validUntil want
  decided : q = decidedProposal p q.checker q.decidedAt approve
  decidedAt : q.decidedAt.Representable

structure DecideStep (T : Trace) (e : Entry system) (id digest : Text) (approve : Bool) (p q : TrustProposal)
    (r : Time) : Prop extends Deciding e.thread T e.finish id digest approve p q where
  call : e.call = .decide id digest approve
  ticks : Ticks e.before.clock r
  inTime : InOrder e.finish → r.ns < p.snapshot.validUntil.ns
  live : ∃ pending : TrustProposal,
    decodeAuthority ((e.before.proposals.get id).getD []) = some pending ∧ pending.status = .pending

structure ApproveStep (e : Entry system) (id : Text) (q : TrustProposal) (r : Time) : Prop where
  current : ∃ current, Current e.before q.snapshot.trust.id current ∧
    approvedRevision current = q.previousRevision ∧ snapshotID current = q.previousSnapshotID ∧
    follows current q.snapshot.trust = true
  free : e.before.history.get (historyKey q.snapshot.trust.id q.snapshot.approvedRevision) = none
  after : e.after = { ticked e.before r with
    trusts := e.before.trusts.put q.snapshot.trust.id (marshal (approvedTrust q))
    history := e.before.history.put (historyKey q.snapshot.trust.id q.snapshot.approvedRevision)
      (marshal (approvedTrust q))
    proposals := e.before.proposals.put id (marshal q) }

structure ContainStep (T : Trace) (e : Entry system) (id : Text) (revision : UInt64)
    (status : TrustStatus) (c value : CommittedTrust) (r : Time) : Prop where
  call : e.call = .contain id revision status
  seen : ∃ e₀ ∈ T, e₀.thread = e.thread ∧ Current e₀.before id (some c)
  readable : readable id c = true
  atRevision : c.snapshot.approvedRevision = revision
  target : status = .suspended ∨ status = .revoked
  written : ∃ t drawn principal, value = containedTrust c status t (uuidText drawn) principal ∧
    t.Representable ∧ (InOrder e.finish → t.ns ≤ r.ns) ∧ uuidPattern principal = true
  transition : trustTransition c.snapshot.trust value.snapshot.trust = true
  valid : validateTrust value.snapshot.trust = true
  ticks : Ticks e.before.clock r
  live : ∃ live : CommittedTrust, decodeAuthority ((e.before.trusts.get id).getD []) = some live ∧
    live.snapshot.approvedRevision = revision ∧ live.snapshot.snapshotID = c.snapshot.snapshotID
  free : e.before.history.get (historyKey id value.snapshot.approvedRevision) = none
  after : e.after = { ticked e.before r with
    trusts := e.before.trusts.put id (marshal value)
    history := e.before.history.put (historyKey id value.snapshot.approvedRevision) (marshal value) }

inductive Step (T : Trace) (e : Entry system) : Prop
  | idle (same : e.after = e.before)
  | ticked (r : Time) (ticks : Ticks e.before.clock r) (after : e.after = ticked e.before r)
  | proposed (p : TrustProposal) (r : Time) (step : ProposeStep e p r)
  | rejected (id digest : Text) (p q : TrustProposal) (r : Time)
      (step : DecideStep T e id digest false p q r)
      (after : e.after = { ticked e.before r with proposals := e.before.proposals.put id (marshal q) })
  | approved (id digest : Text) (p q : TrustProposal) (r : Time)
      (step : DecideStep T e id digest true p q r) (commit : ApproveStep e id q r)
  | contained (id : Text) (revision : UInt64) (status : TrustStatus) (c value : CommittedTrust) (r : Time)
      (step : ContainStep T e id revision status c value r)

/-- What a returned trust rests on: the call's last read, the last fence before
it, and the reading after it. -/
structure Returned (i : Nat) (id : Text) (s : TrustSnapshot) (T : Trace) (L : Log ports) : Prop where
  last : ∃ (A B C : Trace) (fence read : Entry system) (w : Time) (c : CommittedTrust) (r : Reading),
    T = A ++ fence :: B ++ read :: C ∧ fence.thread = i ∧ read.thread = i ∧
    (∀ e ∈ C, e.thread ≠ i) ∧
    fence.after = ticked fence.before w ∧ Ticks fence.before.clock w ∧
    read.after = read.before ∧ Current read.before id (some c) ∧ sameSnapshot s c.snapshot = true ∧
    L = read.finish ++ [⟨Query.now, r⟩] ∧ w ∈ readings read.finish ∧
    r.time.ns < s.validUntil.ns

def post (c : Call) (i : Nat) : Post system (system.Result c) := fun T L r =>
  match c, r with
  | .trust id, .ok s => Returned i id s T L
  | _, _ => True

/-- What a returned trust rests on, with the record of the call's first read and the
receipts that were asked for since. -/
structure Looked (i : Nat) (id : Text) (s : TrustSnapshot) (T : Trace) (L : Log ports) : Prop where
  returned : Returned i id s T L
  first : ∃ e ∈ T, ∃ value, e.thread = i ∧ Current e.before id (some value) ∧ value.snapshot = s ∧
    (s.trust.status = .active → ∀ want ∈ activationReferences s value.scope, ReceiptSeen L s.validUntil want)

def look (c : Call) (i : Nat) : Post system (system.Result c) := fun T L r =>
  match c, r with
  | .trust id, .ok s => Looked i id s T L
  | _, _ => True

/-- A proposal that is stored is the next revision of the record that stands there. -/
def Founded (e : Entry system) : Prop := ∀ id candidate want, e.call = .propose id candidate want →
  e.after.proposals = e.before.proposals ∨
  ∃ current, Current e.before candidate.trust.id current ∧ candidate.trust.revision = approvedRevision current + 1

/-- A transaction of a run: what it does, and where a proposal starts from. -/
def Act (T : Trace) (e : Entry system) : Prop := Step T e ∧ Founded e

def Calm (spec : Trace → Entry system → Prop) : Prop := ∀ T e,
  (e.after = e.before ∨ ∃ r, Ticks e.before.clock r ∧ e.after = ticked e.before r) → spec T e

theorem step_calm : Calm Step := by
  rintro T e (same | ⟨r, ticks, after⟩)
  · exact .idle same
  · exact .ticked r ticks after

theorem act_calm : Calm Act := by
  intro T e calm
  refine ⟨step_calm T e calm, ?_⟩
  intro id candidate want _
  rcases calm with same | ⟨r, -, after⟩
  · exact .inl (by rw [same])
  · exact .inl (by rw [after]; rfl)

section Bodies

variable {β : Type} {rule : Rule ports} {s : TrustStore} {L : Log ports}
  {Q : Except Fault (β × TrustStore) → Log ports → Prop}

theorem wp_observeClock {Q : Except Fault (Unit × TrustStore) → Log ports → Prop} (quiet : Tx.Quiet Q)
    (h : ∀ r : Reading, rule L Query.now r → Ticks s.clock r.time →
      Q (.ok ((), ticked s r.time)) (L ++ [⟨Query.now, r⟩])) : observeClock.wp rule s L Q := by
  refine Ledger.wp_now_then ?_
  intro r hr
  refine Tx.wp_read_then (Ledger.wp_orFail_then quiet ?_)
  intro clock hclock
  obtain ⟨ticks, rfl⟩ := advanceClock_ticks r hclock
  exact h r hr ticks

theorem wp_observeClock_then {f : Unit → Body β} (quiet : Tx.Quiet Q)
    (h : ∀ r : Reading, rule L Query.now r → Ticks s.clock r.time →
      (f ()).wp rule (ticked s r.time) (L ++ [⟨Query.now, r⟩]) Q) :
    (observeClock >>= f).wp rule s L Q :=
  (Tx.wp_bind _ _ _).mpr (wp_observeClock (fun e L => quiet e L) h)

theorem wp_withinLimits_then {f : Unit → Body β} {actorUntil validUntil : Time} (quiet : Tx.Quiet Q)
    (h : ∀ L', L <+: L' → (InOrder L' → ∀ t ∈ readings L, t.ns < validUntil.ns) → (f ()).wp rule s L' Q) :
    (withinLimits actorUntil validUntil >>= f).wp rule s L Q := by
  refine (Tx.wp_bind _ _ _).mpr ?_
  refine Ledger.wp_cancelled_checked (fun e L => quiet e L) ?_
  intro ended _
  refine Ledger.wp_now_checked (fun e L => quiet e L) ?_
  intro first _ _
  refine Ledger.wp_now_then ?_
  intro second _
  refine (Tx.wp_require _ _ _).mpr ⟨?_, fun _ => quiet _ _⟩
  intro before
  refine h _ (by simp) ?_
  intro order t ht
  exact (order.le (List.prefix_refl _) (readings_mono (by simp) ht)).trans_lt (Time.before_iff.mp before)

theorem wp_current_then {f : Option CommittedTrust → Body β} {id : Text} (quiet : Tx.Quiet Q)
    (h : ∀ c, Current s id c → (f c).wp rule s L Q) : (current id >>= f).wp rule s L Q := by
  refine (Tx.wp_bind _ _ _).mpr ?_
  refine Tx.wp_read_then ?_
  cases found : s.trusts.get id with
  | none => exact h none found
  | some raw =>
    refine Ledger.wp_orFail_then (fun e L => quiet e L) ?_
    intro c hc
    exact h (some c) ⟨raw, found, hc⟩

theorem wp_putTrustRevision {Q : Except Fault (Unit × TrustStore) → Log ports → Prop} {id data : Text}
    {revision : UInt64} (quiet : Tx.Quiet Q)
    (h : s.history.get (historyKey id revision) = none →
      Q (.ok ((), { s with
        history := s.history.put (historyKey id revision) data
        trusts := s.trusts.put id data })) L) :
    (putTrustRevision id revision data).wp rule s L Q := by
  refine Tx.wp_read_then (Tx.wp_require_then quiet ?_)
  intro free
  exact h (Option.isNone_iff_eq_none.mp free)

end Bodies

section Calls

variable {β : Type} {spec : Trace → Entry system → Prop} {i : Nat} {c : Call} {T : Trace} {L : Log ports}
  {Q : Post system β}

theorem Calm.idle (calm : Calm spec) (T : Trace) (e : Entry system) (h : e.after = e.before) :
    (safe spec i c).spec T e :=
  calm T e (.inl h)

theorem wp_fence {Q : Post system Unit} (calm : Calm spec) (quiet : Quiet Q)
    (h : ∀ T' (e : Entry system) r, T <+: T' → L <+: e.finish → e.thread = i →
      e.before = last T' → e.after = ticked e.before r → Ticks e.before.clock r →
      r ∈ readings e.finish → Q (T' ++ [e]) e.finish (.ok ())) :
    wp (safe spec i c) fence T L Q := by
  refine wp_transaction quiet calm.idle ?_
  intro T' others
  refine wp_observeClock (Tx.quiet_ok _) ?_
  rintro r - ticks b s' ⟨⟩
  refine ⟨calm T' _ (.inr ⟨r.time, ticks, rfl⟩), ?_⟩
  exact h T' ⟨i, c, last T', ticked (last T') r.time, L, _⟩ r.time others.sub (by simp) rfl rfl rfl ticks
    (reading_mem _ r)

variable {want : ReferenceExpectation} {action : ApprovalAction} {id digest : Text} {validUntil : Time}
    {value : CommittedTrust} {L' : Log ports} {approve : Bool} {p q : TrustProposal}

theorem wp_actor {Q : Post system ApprovalActor}
    (calm : Calm spec) (quiet : Quiet Q)
    (h : ∀ T' L' a, T <+: T' → L <+: L' → uuidPattern a.principalID = true → Q T' L' (.ok a)) :
    wp (safe spec i c) (actor action want) T L Q := by
  refine wp_cancelled_checked quiet ?_
  intro ended _
  refine wp_then (wp_fence calm quiet.andThen ?_)
  intro T' e r hT hL _ _ _ _ _
  refine wp_question_then ?_
  intro answer _
  refine wp_ofExcept_then quiet ?_
  intro a _
  refine wp_require_then quiet ?_
  intro uuid
  refine wp_now_checked quiet ?_
  intro r _ _
  refine h _ _ a (hT.trans (List.prefix_append _ _)) ?_ uuid
  exact (List.prefix_append _ _).trans (hL.trans (by simp))

theorem wp_sameActor {Q : Post system ApprovalActor} {principal : Text} (calm : Calm spec) (quiet : Quiet Q)
    (h : ∀ T' L' a, T <+: T' → L <+: L' → Q T' L' (.ok a)) :
    wp (safe spec i c) (sameActor action want principal) T L Q := by
  refine wp_then ((wp_attempt _).mpr (wp_actor calm ?_ ?_))
  · intro T' L' e
    exact quiet _ _ _
  · intro T' L' a hT hL _
    refine wp_require_then quiet ?_
    intro _
    exact h T' L' a hT hL

theorem wp_read {Q : Post system CommittedTrust} (calm : Calm spec) (quiet : Quiet Q)
    (h : ∀ T' (e : Entry system) value, T <+: T' → L <+: e.finish → e.thread = i →
      e.before = last T' → e.after = e.before → Current e.before id (some value) →
      readable id value = true → Q (T' ++ [e]) e.finish (.ok value)) :
    wp (safe spec i c) (read id) T L Q := by
  refine wp_cancelled_checked quiet ?_
  intro ended _
  refine wp_then (wp_transaction quiet.andThen calm.idle ?_)
  intro T' others
  refine Tx.wp_read_then (Ledger.wp_orFail_then (Tx.quiet_ok _) ?_)
  intro raw found
  refine Ledger.wp_orFail (Tx.quiet_ok _) ?_
  rintro value decoded b s' ⟨⟩
  refine ⟨calm.idle (i := i) (c := c) _ _ rfl, ?_⟩
  refine wp_require_then quiet ?_
  intro ok
  exact h T' ⟨i, c, last T', last T', _, _⟩ value others.sub (by simp) rfl rfl rfl ⟨raw, found, decoded⟩ ok

theorem wp_proposal {Q : Post system TrustProposal} (calm : Calm spec) (quiet : Quiet Q)
    (h : ∀ T' (e : Entry system) p, T <+: T' → L <+: e.finish → e.thread = i →
      decodeAuthority ((e.before.proposals.get id).getD []) = some p →
      Q (T' ++ [e]) e.finish (.ok p)) :
    wp (safe spec i c) (proposal id) T L Q := by
  refine wp_cancelled_checked quiet ?_
  intro ended _
  refine wp_transaction quiet calm.idle ?_
  intro T' others
  refine Tx.wp_read_then (Ledger.wp_orFail (Tx.quiet_ok _) ?_)
  rintro p decoded b s' ⟨⟩
  refine ⟨calm.idle (i := i) (c := c) _ _ rfl, ?_⟩
  exact h T' ⟨i, c, last T', last T', _, _⟩ p others.sub (by simp) rfl decoded

/-- The receipts of an activation stand in the log, one after the other. -/
theorem wp_checkReferences {Q : Post system Unit} (wants : List ReferenceExpectation)
    (quiet : Quiet Q)
    (h : ∀ L', L <+: L' → (∀ want ∈ wants, ReceiptSeen L' validUntil want) → Q T L' (.ok ())) :
    wp (safe spec i c) (checkReferences validUntil wants) T L Q := by
  induction wants generalizing L with
  | nil => exact h L (List.prefix_refl L) (by simp)
  | cons want rest ih =>
    refine wp_question_then ?_
    intro answer _
    refine wp_mapError_then quiet ?_
    rintro receipt rfl
    refine wp_require_then quiet ?_
    intro matches_
    refine wp_now_checked quiet ?_
    intro r _ lasts
    refine ih ?_
    intro L' hL seen
    have grown : L <+: L ++ [⟨Query.reference want, .ok receipt⟩] ++ [⟨Query.now, r⟩] := by simp
    refine h L' (grown.trans hL) ?_
    intro w hw
    rcases List.mem_cons.mp hw with rfl | hw
    · obtain ⟨after, rfl⟩ := hL
      simp only [Bool.and_eq_true, beq_iff_eq, Bool.not_eq_true', Time.before_false] at matches_ lasts
      exact ⟨L, after, receipt, r, by simp, matches_.1.1, matches_.1.2, matches_.2, lasts.1, lasts.2⟩
    · exact seen w hw

theorem wp_activation {Q : Post system Unit} {s : TrustSnapshot} {scope : Scope} (quiet : Quiet Q)
    (h : ∀ L', L <+: L' → (s.trust.status = .active →
      ∀ want ∈ activationReferences s scope, ReceiptSeen L' s.validUntil want) → Q T L' (.ok ())) :
    wp (safe spec i c) (activation s scope) T L Q := by
  unfold activation
  split
  · exact wp_checkReferences _ quiet (fun L' hL seen => h L' hL (fun _ => seen))
  · rename_i inactive
    exact h L (List.prefix_refl L) (fun active => absurd active inactive)

theorem readable_revision (h : readable id value = true) :
    value.snapshot.approvedRevision ≠ 0 := by
  simp only [readable, validateTrust, Bool.and_eq_true, beq_iff_eq, decide_eq_true_eq] at h
  intro zero
  have positive : 1 ≤ value.snapshot.trust.revision := by tauto
  have same : value.snapshot.approvedRevision = value.snapshot.trust.revision := by tauto
  rw [← same, zero] at positive
  exact absurd positive (by decide)

theorem next_revision {next : Trust} (ok : readable id value = true)
    (follows : trustTransition value.snapshot.trust next = true) :
    next.revision = value.snapshot.approvedRevision + 1 := by
  simp only [readable, trustTransition, Bool.and_eq_true, beq_iff_eq] at ok follows
  obtain ⟨⟨⟨⟨⟨⟨⟨-, approved⟩, -⟩, -⟩, -⟩, -⟩, -⟩, -⟩ := ok
  obtain ⟨⟨⟨⟨⟨⟨⟨-, next_eq⟩, -⟩, -⟩, -⟩, -⟩, -⟩, -⟩ := follows
  rw [next_eq, approved]

theorem wp_previous {Q : Post system (Option CommittedTrust)} {candidate : TrustSnapshot} (calm : Calm spec)
    (quiet : Quiet Q)
    (h : ∀ T' L' c, T <+: T' → L <+: L' → (approvedRevision c = 0 →
      candidate.trust.status = .requested ∧ candidate.trust.revision = 1) →
      candidate.trust.revision = approvedRevision c + 1 → Q T' L' (.ok c)) :
    wp (safe spec i c) (previous candidate) T L Q := by
  refine wp_then ((wp_attempt _).mpr (wp_grow (fun _ _ => Others.sub) (wp_read calm ?_ ?_)))
  · intro T' L' e hT hL
    cases e with
    | unverified =>
      refine wp_require_then quiet ?_
      intro first
      simp only [Bool.and_eq_true, beq_iff_eq] at first
      exact h T' L' none hT hL (fun _ => first) first.2
    | _ => exact quiet _ _ _
  · intro T' e value _ _ _ _ _ _ ok hT hL
    refine wp_require_then quiet ?_
    intro next
    exact h _ _ (some value) hT hL (fun zero => absurd zero (readable_revision ok)) (next_revision ok next)

theorem propose_acts (id : Text) (candidate : TrustSnapshot) (want : ReferenceExpectation) :
    wp (safe Act i (.propose id candidate want)) (propose id candidate want) T L (fun _ _ _ => True) := by
  have quiet : Quiet (fun (_ : Trace) (_ : Log ports) (_ : Except Fault TrustProposal) => True) :=
    fun _ _ _ => trivial
  refine wp_require_then quiet ?_
  intro args
  refine wp_then (wp_actor act_calm quiet.andThen ?_)
  intro T₁ L₁ a _ _ maker
  refine wp_now_checked quiet ?_
  intro t _ times
  refine wp_then (wp_previous act_calm quiet.andThen ?_)
  intro T₂ L₂ before _ hL₂ first next
  refine wp_question_then ?_
  intro answer _
  refine wp_ofExcept_then quiet ?_
  intro digest _
  refine wp_require_then quiet ?_
  intro resolved
  refine wp_then (wp_sameActor act_calm quiet.andThen ?_)
  intro T₃ L₃ again _ hL₃
  refine wp_then (wp_transaction quiet.andThen act_calm.idle ?_)
  intro T₄ _
  refine wp_observeClock_then (Tx.quiet_ok _) ?_
  intro r _ ticks
  refine wp_withinLimits_then (Tx.quiet_ok _) ?_
  intro L₄ hL₄ inTime
  refine Tx.wp_read_then (Tx.wp_require_then (Tx.quiet_ok _) ?_)
  intro free
  refine wp_current_then (Tx.quiet_ok _) ?_
  intro now stored
  refine Tx.wp_require_then (Tx.quiet_ok _) ?_
  rintro same b s' ⟨⟩
  simp only [Bool.and_eq_true, beq_iff_eq] at same
  refine ⟨⟨?_, ?_⟩, trivial⟩
  · simp only [Bool.and_eq_true, Bool.not_eq_true', Time.after_false, Time.before_iff] at times
    -- the first reading of the call is at most the one that the clock recorded
    have seen : t.time ∈ readings (L₃ ++ [⟨Query.storage, .ok ()⟩]) :=
      readings_mono (((List.prefix_append _ _).trans hL₃).trans (List.prefix_append _ _))
        (readings_mono hL₂ (reading_mem L₁ t))
    refine Step.proposed (newProposal id candidate want digest before a.principalID t.time) r.time
      ⟨rfl, ⟨args, ?_, first, maker⟩, rfl, ticks, ?_, ?_, ?_, rfl⟩
    · exact beq_iff_eq.mp resolved
    · exact fun order => inTime order r.time (reading_mem _ r)
    · exact fun order => times.1.trans (order.le hL₄ seen)
    · exact Option.isNone_iff_eq_none.mp free
  · rintro _ _ _ ⟨⟩
    exact .inr ⟨now, stored, next.trans (congrArg (· + 1) same.1.symm)⟩

theorem ReceiptSeen.mono
    (h : ReceiptSeen L validUntil want) (sub : L <+: L') : ReceiptSeen L' validUntil want := by
  obtain ⟨before, after, receipt, r, rfl, rest⟩ := h
  obtain ⟨D, rfl⟩ := sub
  exact ⟨before, after ++ D, receipt, r, by simp, rest⟩

theorem Deciding.step {T T' : Trace} {r : Time} {s s' : TrustStore} (h : Deciding i T L id digest approve p q)
    (hT : T <+: T') (hL : L <+: L') (ticks : Ticks s.clock r)
    (inTime : InOrder L' → r.ns < p.snapshot.validUntil.ns)
    (live : ∃ pending : TrustProposal,
      decodeAuthority ((s.proposals.get id).getD []) = some pending ∧ pending.status = .pending) :
    DecideStep T' ⟨i, .decide id digest approve, s, s', L, L'⟩ id digest approve p q r where
  toDeciding := { h with
    seen := h.seen.imp fun _ read => ⟨hT.subset read.1, read.2⟩
    resolved := hL.subset h.resolved
    receipts := fun approved active want member => (h.receipts approved active want member).mono hL }
  call := rfl
  ticks := ticks
  inTime := inTime
  live := live

theorem wp_decideBody {actorUntil : Time}
    (known : Deciding i T L id digest approve p q) :
    wp (safe Step i (.decide id digest approve))
      (transaction authorityError (decideBody id q actorUntil approve)) T L (fun _ _ _ => True) := by
  have same : q.snapshot = p.snapshot := by rw [known.decided]; rfl
  refine wp_transaction (fun _ _ _ => trivial) step_calm.idle ?_
  intro T' others
  refine wp_observeClock_then (Tx.quiet_ok _) ?_
  intro r _ ticks
  refine wp_withinLimits_then (Tx.quiet_ok _) ?_
  intro L' hL' inTime
  have early : InOrder L' → r.time.ns < p.snapshot.validUntil.ns := by
    rw [← same]
    exact fun order => inTime order r.time (reading_mem _ r)
  have grown : L <+: L' := List.IsPrefix.trans (by simp) hL'
  refine Tx.wp_read_then (Ledger.wp_orFail_then (Tx.quiet_ok _) ?_)
  intro pending found
  refine Tx.wp_require_then (Tx.quiet_ok _) ?_
  intro stillPending
  have live : ∃ pending : TrustProposal,
      decodeAuthority (((last T').proposals.get id).getD []) = some pending ∧ pending.status = .pending :=
    ⟨pending, found, beq_iff_eq.mp stillPending⟩
  refine (Tx.wp_bind _ _ _).mpr ((Tx.wp_when _ _ _).mpr ⟨?_, ?_⟩)
  · rintro rfl
    refine wp_current_then (fun _ _ _ _ h => by cases h) ?_
    intro now hnow
    refine Tx.wp_require_then (fun _ _ _ _ h => by cases h) ?_
    intro unchanged
    refine Tx.wp_require_then (fun _ _ _ _ h => by cases h) ?_
    intro next
    refine wp_putTrustRevision (fun _ _ _ _ h => by cases h) ?_
    rintro free b s' ⟨⟩
    simp only [Bool.and_eq_true, beq_iff_eq] at unchanged
    refine ⟨?_, trivial⟩
    exact Step.approved id digest p q r.time (known.step others.sub grown ticks early live)
      ⟨⟨now, hnow, unchanged.1, unchanged.2, next⟩, free, rfl⟩
  · rintro rfl b s' ⟨⟩
    refine ⟨?_, trivial⟩
    exact Step.rejected id digest p q r.time (known.step others.sub grown ticks early live) rfl

theorem decide_steps (id digest : Text) (approve : Bool) :
    wp (safe Step i (.decide id digest approve)) (TrustLedger.decide id digest approve) T L (fun _ _ _ => True) := by
  have quiet : Quiet (fun (_ : Trace) (_ : Log ports) (_ : Except Fault TrustProposal) => True) :=
    fun _ _ _ => trivial
  refine wp_then (wp_proposal step_calm quiet.andThen ?_)
  intro T₁ e p _ _ own decoded
  refine wp_require_then quiet ?_
  intro open_
  simp only [Bool.and_eq_true, beq_iff_eq] at open_
  refine wp_then (wp_actor step_calm quiet.andThen ?_)
  intro T₂ L₂ a hT₂ hL₂ checker
  refine wp_require_then quiet ?_
  intro other
  refine wp_question_then ?_
  intro answer _
  refine wp_mapError_then quiet ?_
  rintro actual rfl
  refine wp_require_then quiet ?_
  intro resolved
  simp only [Bool.and_eq_true, beq_iff_eq] at resolved
  obtain ⟨rfl, bound⟩ := resolved
  have seen : ∀ T', T₂ <+: T' → ∃ e₀ ∈ T', e₀.thread = i ∧
      decodeAuthority ((e₀.before.proposals.get id).getD []) = some p := by
    intro T' hT'
    exact ⟨e, (hT₂.trans hT').subset (by simp), own, decoded⟩
  -- the rest of the call is the same for both outcomes once the receipts are known
  have rest : ∀ L₃, L₂ ++ [⟨Query.resolveApprovedTarget p.target, .ok actual⟩] <+: L₃ →
      (approve = true → p.snapshot.trust.status = .active →
        ∀ want ∈ activationReferences p.snapshot p.target.scope,
          ReceiptSeen L₃ p.snapshot.validUntil want) →
      wp (safe Step i (.decide id actual approve)) (do
        let currentActor ← sameActor .decide p.target a.principalID
        let decidedAt ← now
        let decided := decidedProposal p a.principalID decidedAt approve
        transaction authorityError (decideBody id decided currentActor.validUntil approve)
        return decided) T₂ L₃ (fun _ _ _ => True) := by
    intro L₃ hL₃ receipts
    refine wp_then (wp_sameActor step_calm quiet.andThen ?_)
    intro T₄ L₄ again hT₄ hL₄
    refine wp_now_then ?_
    intro t _
    have grown : L₃ <+: L₄ ++ [⟨Query.now, t⟩] := hL₄.trans (List.prefix_append _ _)
    refine wp_then (wp_mono (wp_decideBody (p := p) ⟨seen T₄ hT₄, open_.1, ⟨open_.2, bound.symm⟩, ?_, ?_, ?_,
      rfl, t.representable⟩) ?_)
    · exact ⟨checker, bne_iff_ne.mp other⟩
    · exact grown.subset (hL₃.subset (by simp))
    · intro yes active want member
      exact (receipts yes active want member).mono grown
    · intro T' L' r _
      cases r with
      | ok _ => exact trivial
      | error _ => exact trivial
  refine wp_when_then ?_ ?_
  · intro yes
    refine wp_activation quiet.andThen ?_
    intro L₃ hL₃ receipts
    exact rest L₃ hL₃ (fun _ => receipts)
  · intro no
    refine rest _ (List.prefix_refl _) ?_
    intro yes
    rw [no] at yes
    cases yes

theorem trust_looks (id : Text) :
    wp (safe Step i (.trust id)) (trust id) T L (look (.trust id) i) := by
  have quiet : Quiet (look (.trust id) i) := fun _ _ _ => trivial
  refine wp_then (wp_read step_calm quiet.andThen ?_)
  intro T₁ first value _ _ firstOwn _ _ firstStored _
  refine wp_then (wp_fence step_calm quiet.andThen ?_)
  intro T₂ _ _ hT₂ _ _ _ _ _ _
  refine wp_now_checked quiet ?_
  intro _ _ _
  refine wp_then (wp_activation quiet.andThen ?_)
  intro L₃ _ receipts
  refine wp_then (wp_fence step_calm quiet.andThen ?_)
  intro T₄ fence w hT₄ hL₄ fenceOwn _ fenceAfter ticks seen
  refine wp_then (wp_read step_calm quiet.andThen ?_)
  intro T₅ read c hT₅ hL₅ readOwn _ readAfter stored _
  refine wp_now_checked quiet ?_
  intro r _ checks
  simp only [Bool.and_eq_true, Time.before_iff] at checks
  have begun : first ∈ T₅ := by
    apply hT₅.subset
    apply List.mem_append_left
    apply hT₄.subset
    apply List.mem_append_left
    exact hT₂.subset (by simp)
  have grown : L₃ <+: read.finish ++ [⟨Query.now, r⟩] := hL₄.trans (hL₅.trans (List.prefix_append _ _))
  obtain ⟨B, rfl⟩ := hT₅
  constructor
  · exact ⟨T₄, B, [], fence, read, w, c, r, by simp, fenceOwn, readOwn, by simp, fenceAfter, ticks,
      readAfter, stored, checks.2, rfl, readings_mono hL₅ seen, checks.1⟩
  · refine ⟨first, List.mem_append_left _ begun, value, firstOwn, firstStored, rfl, ?_⟩
    intro active want member
    exact (receipts active want member).mono grown

theorem contain_steps (id : Text) (revision : UInt64) (status : TrustStatus) :
    wp (safe Step i (.contain id revision status)) (contain id revision status) T L
      (fun _ _ _ => True) := by
  have quiet : Quiet (fun (_ : Trace) (_ : Log ports) (_ : Except Fault Unit) => True) :=
    fun _ _ _ => trivial
  refine wp_require_then quiet ?_
  intro target
  simp only [Bool.or_eq_true, beq_iff_eq] at target
  refine wp_then (wp_read step_calm quiet.andThen ?_)
  intro T₁ e c _ _ own _ _ stored ok
  refine wp_require_then quiet ?_
  intro open_
  simp only [Bool.and_eq_true, beq_iff_eq] at open_
  refine wp_then (wp_actor step_calm quiet.andThen ?_)
  intro T₂ L₂ a hT₂ _ principal
  refine wp_now_then ?_
  intro t _
  refine wp_randomUUID_then quiet ?_
  intro drawn _
  refine wp_require_then quiet ?_
  intro checks
  simp only [Bool.and_eq_true] at checks
  refine wp_transaction quiet step_calm.idle ?_
  intro T₃ others
  refine wp_observeClock_then (Tx.quiet_ok _) ?_
  intro r _ ticks
  refine Ledger.wp_cancelled_checked (Tx.quiet_ok _) ?_
  intro _ _
  refine Ledger.wp_now_checked (Tx.quiet_ok _) ?_
  intro _ _ _
  refine Tx.wp_read_then (Ledger.wp_orFail_then (Tx.quiet_ok _) ?_)
  intro live found
  refine Tx.wp_require_then (Tx.quiet_ok _) ?_
  intro unchanged
  simp only [Bool.and_eq_true, beq_iff_eq] at unchanged
  refine wp_putTrustRevision (Tx.quiet_ok _) ?_
  rintro free b s' ⟨⟩
  refine ⟨?_, trivial⟩
  refine Step.contained id revision status c
    (containedTrust c status t.time (uuidText drawn) a.principalID) r.time
    ⟨rfl, ⟨e, ?_, own, stored⟩, ok, open_.1.1, target,
      ⟨t.time, drawn, a.principalID, rfl, t.representable, ?_, principal⟩, checks.1, checks.2, ticks,
      ⟨live, found, unchanged.1, unchanged.2⟩, free, rfl⟩
  · exact (hT₂.trans others.sub).subset (by simp)
  · intro order
    exact order.le ((List.prefix_append _ _).trans (List.prefix_append _ _))
      (readings_mono (by simp) (reading_mem L₂ t))

theorem code_acts (i : Nat) (c : Call) (T : Trace) (_ : ∀ e ∈ T, e.thread ≠ i) :
    wp (safe Act i c) (system.code c) T [] (look c i) := by
  -- only Propose stores proposals that are new
  have other : ∀ {c : Call}, (∀ id candidate want, c ≠ .propose id candidate want) →
      ∀ (T : Trace) (e : Entry system), e.call = c → Step T e → Act T e := by
    intro c no T e call step
    refine ⟨step, ?_⟩
    intro id candidate want propose
    exact absurd (call.symm.trans propose) (no id candidate want)
  cases c with
  | propose id candidate want => exact wp_mono (propose_acts id candidate want) (fun _ _ r _ => by cases r <;> trivial)
  | decide id digest approve =>
    have steps := wp_mono (decide_steps (i := i) (T := T) (L := []) id digest approve)
      (R := look (.decide id digest approve) i) (fun _ _ r _ => by cases r <;> trivial)
    exact wp_respec (other (by intro _ _ _ h; cases h)) steps
  | trust id => exact wp_respec (other (by intro _ _ _ h; cases h)) (trust_looks id)
  | contain id revision status =>
    have steps := wp_mono (contain_steps (i := i) (T := T) (L := []) id revision status)
      (R := look (.contain id revision status) i) (fun _ _ r _ => by cases r <;> trivial)
    exact wp_respec (other (by intro _ _ _ h; cases h)) steps

theorem code_steps (i : Nat) (c : Call) (T : Trace) (fresh : ∀ e ∈ T, e.thread ≠ i) :
    wp (safe Step i c) (system.code c) T [] (post c i) := by
  have acts := code_acts i c T fresh
  refine wp_mono (wp_respec (fun _ _ _ act => And.left act) acts) ?_
  intro T' L r looked
  cases c with
  | trust id =>
    cases r with
    | ok s => exact Looked.returned looked
    | error e => trivial
  | _ => trivial

end Calls

end Federation.TrustLedger
