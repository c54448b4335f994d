import BaobabIam.Federation.Approvals

/-! What a transaction of the approval ledger can do, and that each call meets it
in any interleaving. -/
namespace Federation.ApprovalLedger

open Wire Interleaving

abbrev Trace := List (Entry system)

def Stored (s : Store) (id : Text) (p : ApprovalProposal) : Prop :=
  (s.approvals.get (approvalKey id)).bind decodeAuthority = some p

structure Known (p : ApprovalProposal) : Prop where
  args : proposable p.id p.receipt = true
  digest : digestPattern p.targetDigest = true
  maker : uuidPattern p.maker = true

structure ProposeStep (e : Entry system) (p : ApprovalProposal) : Prop where
  known : Known p
  new : p = newProposal p.id p.receipt p.targetDigest p.maker p.proposedAt
  free : e.before.approvals.get (approvalKey p.id) = none
  after : e.after.approvals = e.before.approvals.put (approvalKey p.id) (marshal p)

structure Deciding (T : Trace) (id : Text) (approve : Bool) (p q : ApprovalProposal) : Prop where
  seen : ∃ e₀ ∈ T, Stored e₀.before id p
  pending : p.status = .pending
  checker : uuidPattern q.checker = true ∧ q.checker ≠ p.maker
  decided : q = decidedProposal p q.checker q.decidedAt approve
  decidedAt : q.decidedAt.Representable

structure DecideStep (T : Trace) (e : Entry system) (id : Text) (approve : Bool) (p q : ApprovalProposal) : Prop
    extends Deciding T id approve p q where
  live : ∃ current, Stored e.before id current ∧ current.status = .pending
  index : approve = true → e.before.approvals.get (receiptKey p.receipt.expectation) = none
  after : e.after.approvals = (if approve then e.before.approvals.put (receiptKey p.receipt.expectation) id
    else e.before.approvals).put (approvalKey id) (marshal q)

structure RevokeStep (e : Entry system) (id : Text) (p q : ApprovalProposal) : Prop where
  current : Stored e.before id p
  approved : p.status = .approved
  written : ∃ revoker t, q = revokedProposal p revoker t ∧ uuidPattern revoker = true ∧ t.Representable
  after : e.after.approvals = e.before.approvals.put (approvalKey id) (marshal q)

inductive Step (T : Trace) (e : Entry system) : Prop
  | idle (same : e.after = e.before)
  | proposed (p : ApprovalProposal) (step : ProposeStep e p)
  | decided (id : Text) (approve : Bool) (p q : ApprovalProposal) (step : DecideStep T e id approve p q)
  | revoked (id : Text) (p q : ApprovalProposal) (step : RevokeStep e id p q)

/-- What a returned receipt rests on: the proposal read first, the target resolved
after that, and the proposal at the call's last read. -/
structure Returned (i : Nat) (want : ReferenceExpectation) (receipt : ApprovedReference) (T : Trace)
    (L : Log ports) : Prop where
  last : ∃ (A B C : Trace) (first read : Entry system) (id : Text) (p current : ApprovalProposal),
    T = A ++ first :: B ++ read :: C ∧ read.thread = i ∧ (∀ e ∈ C, e.thread ≠ i) ∧
    Stored first.before id p ∧ Stored read.before id current ∧ current.status = .approved ∧
    p.receipt.expectation = want ∧ receipt = p.receipt ∧
    ⟨Query.resolveApprovedTarget want, .ok p.targetDigest⟩ ∈ L

def post (c : Call) (i : Nat) : Post system (system.Result c) := fun T L r =>
  match c, r with
  | .reference want, .ok receipt => Returned i want receipt T L
  | _, _ => True

section Calls

variable {β : Type} {i : Nat} {c : Call} {T : Trace} {L : Log ports}

theorem step_idle (T : Trace) (e : Entry system) (h : e.after = e.before) : (safe Step i c).spec T e :=
  Step.idle h

variable {want : ReferenceExpectation} {Q : Post system ApprovalActor} {action : ApprovalAction} {id : Text}
    {s : Store} {p : ApprovalProposal} {rule : Rule ports}

theorem wp_actor
    (quiet : Quiet Q)
    (h : ∀ L' a, L <+: L' → uuidPattern a.principalID = true → Q T L' (.ok a)) :
    wp (safe Step i c) (actor action want) T L Q := by
  refine wp_cancelled_checked quiet ?_
  intro ended _
  refine wp_question_then ?_
  intro answer _
  refine wp_ofExcept_then quiet ?_
  intro a _
  refine wp_require_then quiet ?_
  intro uuid
  refine wp_now_checked quiet ?_
  intro r _ _
  exact h _ a (by simp) uuid

theorem wp_target {Q : Post system Text} (quiet : Quiet Q)
    (h : ∀ L' d, L <+: L' → ⟨Query.resolveApprovedTarget want, .ok d⟩ ∈ L' → digestPattern d = true →
      Q T L' (.ok d)) : wp (safe Step i c) (target want) T L Q := by
  refine wp_question_then ?_
  intro answer _
  refine wp_mapError_then quiet ?_
  rintro d rfl
  refine wp_require_then quiet ?_
  intro pattern
  exact h _ d (by simp) (by simp) pattern

theorem wp_sameActor {principal : Text} (quiet : Quiet Q)
    (h : ∀ L' a, L <+: L' → a.principalID = principal → uuidPattern a.principalID = true → Q T L' (.ok a)) :
    wp (safe Step i c) (sameActor action want principal) T L Q := by
  refine wp_then (wp_actor quiet.andThen ?_)
  intro L' a grown uuid
  refine wp_require_then quiet ?_
  intro same
  exact h L' a grown (beq_iff_eq.mp same) uuid

theorem wp_proposal {Q : Post system ApprovalProposal} (quiet : Quiet Q)
    (h : ∀ T' (e : Entry system) p, T <+: T' → L <+: e.finish → e.thread = i → Stored e.before id p →
      Q (T' ++ [e]) e.finish (.ok p)) :
    wp (safe Step i c) (proposal id) T L Q := by
  refine wp_cancelled_checked quiet ?_
  intro ended _
  refine wp_transaction quiet step_idle ?_
  intro T' others
  refine Tx.wp_read_then (Ledger.wp_orFail_then (Tx.quiet_ok _) ?_)
  intro raw found
  refine Ledger.wp_orFail (Tx.quiet_ok _) ?_
  rintro p decoded b s' ⟨⟩
  refine ⟨Step.idle rfl, ?_⟩
  exact h T' ⟨i, c, last T', last T', _, _⟩ p others.sub (by simp) rfl
    (Option.bind_eq_some_iff.mpr ⟨raw, found, decoded⟩)

theorem propose_steps (id : Text) (receipt : ApprovedReference) :
    wp (safe Step i (.propose id receipt)) (propose id receipt) T L (post (.propose id receipt) i) := by
  have quiet : Quiet (post (.propose id receipt) i) := fun _ _ _ => trivial
  refine wp_require_then quiet ?_
  intro args
  refine wp_then (wp_actor quiet.andThen ?_)
  intro _ a _ _
  refine wp_then (wp_target quiet.andThen ?_)
  intro _ d _ _ pattern
  refine wp_then (wp_sameActor quiet.andThen ?_)
  intro _ a' _ _ uuid
  refine wp_now_checked quiet ?_
  intro t _ _
  refine wp_then (wp_transaction quiet.andThen step_idle ?_)
  intro T' others
  refine Ledger.wp_cancelled_checked (Tx.quiet_ok _) ?_
  intro ended _
  refine Ledger.wp_now_checked (Tx.quiet_ok _) ?_
  intro _ _ _
  refine Ledger.wp_now_checked (Tx.quiet_ok _) ?_
  intro _ _ _
  refine Tx.wp_read_then (Tx.wp_require_then (Tx.quiet_ok _) ?_)
  rintro free b s' ⟨⟩
  refine ⟨Step.proposed (newProposal id receipt d a'.principalID t.time) ?_, trivial⟩
  exact ⟨⟨args, pattern, uuid⟩, rfl, Option.isNone_iff_eq_none.mp free, rfl⟩

theorem wp_putReceipt {Q : Except Fault (Unit × Store) → Log ports → Prop} (quiet : Tx.Quiet Q)
    (h : s.approvals.get (receiptKey want) = none →
      Q (.ok ((), ⟨s.approvals.put (receiptKey want) id⟩)) L) : (putReceipt want id).wp rule s L Q := by
  refine Tx.wp_read_then (Tx.wp_require_then quiet ?_)
  intro free
  exact h (Option.isNone_iff_eq_none.mp free)

theorem wp_decideBody {digest : Text} {approve : Bool} {q : ApprovalProposal}
    {actorUntil : Time} {call : Call} {start : Log ports} {P : Unit → Store → Log ports → Prop}
    (deciding : Deciding T id approve p q)
    (h : ∀ s' L', DecideStep T ⟨i, call, last T, s', start, L'⟩ id approve p q → P () s' L') :
    (decideBody id digest q actorUntil approve).wp rule (last T) L
      (fun r L => ∀ b s', r = .ok (b, s') → P b s' L) := by
  have same : q.receipt = p.receipt := by rw [deciding.decided]; rfl
  refine Ledger.wp_cancelled_checked (Tx.quiet_ok _) ?_
  intro ended _
  refine Ledger.wp_now_checked (Tx.quiet_ok _) ?_
  intro _ _ _
  refine Ledger.wp_now_checked (Tx.quiet_ok _) ?_
  intro _ _ _
  refine Tx.wp_read_then (Ledger.wp_orFail_then (Tx.quiet_ok _) ?_)
  intro current decoded
  refine Tx.wp_require_then (Tx.quiet_ok _) ?_
  intro checks
  simp only [Bool.and_eq_true, beq_iff_eq] at checks
  have live : Stored (last T) id current := bind_of_getD decoded
  refine (Tx.wp_bind _ _ _).mpr ((Tx.wp_when _ _ _).mpr ⟨?_, ?_⟩)
  · intro yes
    refine wp_putReceipt (fun e L b s' h => nomatch h) ?_
    rintro free b s' ⟨⟩
    refine h _ _ ⟨deciding, ⟨current, live, checks.1⟩, fun _ => same ▸ free, ?_⟩
    rw [if_pos yes, same]
  · rintro no b s' ⟨⟩
    refine h _ _ ⟨deciding, ⟨current, live, checks.1⟩, fun yes => absurd yes (by simp [no]), ?_⟩
    rw [no]
    rfl

theorem decide_steps (id digest : Text) (approve : Bool) :
    wp (safe Step i (.decide id digest approve)) (ApprovalLedger.decide id digest approve) T L
      (post (.decide id digest approve) i) := by
  have quiet : Quiet (post (.decide id digest approve) i) := fun _ _ _ => trivial
  refine wp_then (wp_proposal quiet.andThen ?_)
  intro T₁ e₁ p _ _ _ stored
  refine wp_require_then quiet ?_
  intro checks
  simp only [Bool.and_eq_true, beq_iff_eq] at checks
  refine wp_then (wp_actor quiet.andThen ?_)
  intro _ a _ _
  refine wp_require_then quiet ?_
  intro notMaker
  refine wp_then (wp_target quiet.andThen ?_)
  intro _ d _ _ _
  refine wp_require_then quiet ?_
  intro _
  refine wp_then (wp_sameActor quiet.andThen ?_)
  intro _ a' _ same uuid
  refine wp_now_then ?_
  intro t _
  refine wp_then (wp_transaction quiet.andThen step_idle ?_)
  intro T' others
  have deciding : Deciding T' id approve p (decidedProposal p a'.principalID t.time approve) := by
    refine ⟨⟨e₁, others.mem (by simp), stored⟩, checks.1, ⟨uuid, ?_⟩, rfl, t.representable⟩
    change a'.principalID ≠ p.maker
    rw [same]
    exact bne_iff_ne.mp notMaker
  exact wp_decideBody deciding (fun s' L' step => ⟨Step.decided id approve p _ step, trivial⟩)

theorem revoke_steps (id : Text) :
    wp (safe Step i (.revoke id)) (revoke id) T L (post (.revoke id) i) := by
  have quiet : Quiet (post (.revoke id) i) := fun _ _ _ => trivial
  refine wp_then (wp_proposal quiet.andThen ?_)
  intro T₁ e₁ p _ _ _ _
  refine wp_then (wp_actor quiet.andThen ?_)
  intro _ a _ uuid
  refine wp_transaction quiet step_idle ?_
  intro T' others
  refine Ledger.wp_cancelled_checked (Tx.quiet_ok _) ?_
  intro ended _
  refine Ledger.wp_now_checked (Tx.quiet_ok _) ?_
  intro _ _ _
  refine Tx.wp_read_then (Ledger.wp_orFail_then (Tx.quiet_ok _) ?_)
  intro current decoded
  refine Tx.wp_require_then (Tx.quiet_ok _) ?_
  intro approved
  refine Ledger.wp_now_then ?_
  rintro t _ b s' ⟨⟩
  refine ⟨Step.revoked id current (revokedProposal current a.principalID t.time) ?_, trivial⟩
  exact ⟨bind_of_getD decoded, beq_iff_eq.mp approved, ⟨_, _, rfl, uuid, t.representable⟩, rfl⟩

theorem reference_steps (want : ReferenceExpectation) :
    wp (safe Step i (.reference want)) (reference want) T L (post (.reference want) i) := by
  have quiet : Quiet (post (.reference want) i) := fun _ _ _ => trivial
  refine wp_cancelled_checked quiet ?_
  intro ended _
  refine wp_then (wp_transaction quiet.andThen step_idle ?_)
  intro T₀ _
  refine Tx.wp_read_then (Ledger.wp_orFail (Tx.quiet_ok _) ?_)
  rintro id found b s' ⟨⟩
  refine ⟨Step.idle rfl, ?_⟩
  refine wp_then (wp_proposal quiet.andThen ?_)
  intro T₁ first p _ _ _ stored
  refine wp_require_then quiet ?_
  intro checks
  simp only [Bool.and_eq_true, beq_iff_eq] at checks
  refine wp_now_checked quiet ?_
  intro _ _ _
  refine wp_then (wp_target quiet.andThen ?_)
  intro L₂ d _ resolved _
  refine wp_require_then quiet ?_
  intro digest
  rw [beq_iff_eq] at digest
  refine wp_then (wp_proposal quiet.andThen ?_)
  intro T₂ read current grown more own stored'
  refine wp_require_then quiet ?_
  intro approved
  refine wp_cancelled_checked quiet ?_
  intro _ _
  refine wp_now_checked quiet ?_
  intro _ _ _
  obtain ⟨B, rfl⟩ := grown
  refine ⟨T₁, B, [], first, read, id, p, current, by simp, own, by simp, stored, stored', beq_iff_eq.mp approved,
    checks.2, rfl, ?_⟩
  rw [← digest]
  exact List.mem_append_left _ (List.mem_append_left _ (more.subset resolved))

theorem code_steps (i : Nat) (c : Call) (T : Trace) (_ : ∀ e ∈ T, e.thread ≠ i) :
    wp (safe Step i c) (system.code c) T [] (post c i) := by
  cases c with
  | propose id receipt => exact propose_steps id receipt
  | decide id digest approve => exact decide_steps id digest approve
  | revoke id => exact revoke_steps id
  | reference want => exact reference_steps want

end Calls

end Federation.ApprovalLedger
