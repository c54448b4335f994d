import BaobabIam.Federation.ApprovalRuns
import BaobabIam.Federation.ConsumeBasis
import BaobabIam.Federation.TrustRenewal

/-! Revocation before the end of a login decision. A Decision rests on two answers about
one trust, with the checks of the event between them. The second answer comes from a
Trust call that began after those checks, whose receipts come from Reference calls that
began later still; so whatever was committed before that call began has been seen. -/
namespace Federation

open Wire Interleaving

namespace Consumer

def isTrust (x : Σ q : Query, q.Answer) : Bool :=
  match x.1 with
  | .trust _ => true
  | _ => false

def Receipt (L : Log ports) (want : ReferenceExpectation) : Prop :=
  ∃ receipt : ApprovedReference, ⟨Query.reference want, .ok receipt⟩ ∈ L ∧ receipt.expectation = want ∧
    receipt.status = "APPROVED".toList

structure Checked (c : Call) (s : TrustSnapshot) (L : Log ports) (now : Time) (principal : ExternalPrincipal)
    (assurance : Assurance) (encoded : Json) (canonical : CanonicalIdentity) : Prop where
  verified : ⟨Query.verify c.eventID s, .ok (principal, assurance)⟩ ∈ L
  bundle : principal.authenticationEventID = c.eventID ∧ validateBundle ⟨s.trust, principal, assurance⟩ = true
  acceptable : acceptable c.policy now principal assurance = true
  encodes : Codec.encode assurance.upstreamEvidence = some encoded
  decision : Receipt L (mappingDecision c.policy.scope s c.eventID principal assurance encoded)
  resolved : ⟨Query.resolve principal.issuer principal.subject, .ok canonical⟩ ∈ L
  identity : currentIdentity principal now canonical = true
  mapping : Receipt L (canonicalMapping c.policy.scope s principal canonical)

structure Decided (c : Call) (d : Decision) (L : Log ports) (s latest : TrustSnapshot) (A M B : Log ports) : Prop where
  log : L = A ++ ⟨Query.trust c.trustID, .ok s⟩ :: (M ++ ⟨Query.trust c.trustID, .ok latest⟩ :: B)
  only : ∀ x ∈ A ++ M ++ B, isTrust x = false
  trustID : s.trust.id = c.trustID
  approved : s.approvedRevision = s.trust.revision
  active : s.trust.status = .active
  governs : governs c.policy.scope s.trust = true
  same : latest.trust = s.trust ∧ latest.approvedRevision = s.approvedRevision
  checked : ∃ now principal assurance encoded canonical,
    Checked c s (A ++ ⟨Query.trust c.trustID, .ok s⟩ :: M) now principal assurance encoded canonical ∧
    d.principalID = canonical.principalID ∧ d.authenticationEventID = c.eventID

variable {L : Log ports} {c : Call} {d : Decision} {b : Basis}

section Answers

variable {s latest : TrustSnapshot} {A M B : Log ports} (h : Decided c d L s latest A M B)

include h

theorem Decided.cut :
    L = (A ++ ⟨Query.trust c.trustID, .ok s⟩ :: M) ++ ⟨Query.trust c.trustID, .ok latest⟩ :: B := by
  rw [h.log]
  simp

theorem Decided.answered :
    ⟨Query.trust c.trustID, .ok s⟩ ∈ L ∧ ⟨Query.trust c.trustID, .ok latest⟩ ∈ L := by
  rw [h.log]
  simp

end Answers

theorem Receipt.mono {L' : Log ports} {want : ReferenceExpectation} (h : Receipt L want) (sub : L ⊆ L') :
    Receipt L' want := by
  obtain ⟨receipt, member, rest⟩ := h
  exact ⟨receipt, sub member, rest⟩

theorem Basis.Supports.receipt (h : b.Supports c d)
    {a : ReferenceExpectation × ApprovedReference} (ha : a ∈ b.approvals c)
    (member : ⟨Query.reference a.1, .ok a.2⟩ ∈ L) : Receipt L a.1 := by
  have approved := h.approved a ha
  simp only [approves, Bool.and_eq_true, beq_iff_eq] at approved
  exact ⟨a.2, member, approved.1.1.1, approved.1.1.2⟩

theorem receiptAnswers_quiet (wants : List ReferenceExpectation) (receipts : List ApprovedReference) :
    ∀ x ∈ receiptAnswers wants receipts, isTrust x = false := by
  induction wants generalizing receipts with
  | nil =>
    intro x hx
    cases hx
  | cons want wants ih =>
    cases receipts with
    | nil =>
      intro x hx
      cases hx
    | cons receipt receipts =>
      intro x hx
      rcases List.mem_cons.mp hx with rfl | hx
      · rfl
      · exact ih receipts x hx

theorem Basis.Supports.decided (h : b.Supports c d) (log : L = b.log c) :
    Decided c d L b.snapshot b.latest [⟨Query.cancelled, false⟩, ⟨Query.now, b.started⟩] (b.middleAnswers c)
      [⟨Query.now, b.finished⟩, ⟨Query.cancelled, false⟩] := by
  have usable := h.usable
  simp only [Consumer.usable, Bool.and_eq_true, beq_iff_eq] at usable
  obtain ⟨⟨⟨⟨⟨trustID, -⟩, approved⟩, -⟩, -⟩, -⟩ := usable
  have same := h.unchanged
  simp only [Consumer.unchanged, Bool.and_eq_true, beq_iff_eq] at same
  obtain ⟨⟨⟨⟨⟨-, -⟩, -⟩, revision⟩, -⟩, trust⟩ := same
  refine ⟨log, ?_, trustID, approved, h.active, h.governs, ⟨trust, revision⟩, b.started,
    b.principal, b.assurance, b.encoded,
    b.canonical, ⟨?_, ⟨h.event, h.bundle⟩, h.acceptable, h.encodes, ?_, ?_, h.identity, ?_⟩, by
      rw [h.decides], by rw [h.decides]⟩
  · intro x hx
    simp only [Basis.middleAnswers, List.mem_append, List.mem_cons, List.not_mem_nil, or_false] at hx
    rcases hx with ((rfl | rfl) | own | rfl | rfl | rfl | rfl | rfl) | rfl | rfl
    case inl.inr.inl => exact receiptAnswers_quiet _ _ x own
    all_goals rfl
  · simp [Basis.middleAnswers]
  · exact h.receipt (a := (b.decisionWant c, b.decision)) (by simp [Basis.approvals]) (by simp [Basis.middleAnswers])
  · simp [Basis.middleAnswers]
  · exact h.receipt (a := (b.mappingWant c, b.mapping)) (by simp [Basis.approvals]) (by simp [Basis.middleAnswers])

theorem Decided.answers {A M B : Log ports} {s latest t : TrustSnapshot}
    (h : Decided c d L s latest A M B) (member : ⟨Query.trust c.trustID, .ok t⟩ ∈ L) : t = s ∨ t = latest := by
  have other : ∀ {K : Log ports}, (∀ x ∈ K, x ∈ A ++ M ++ B) → ⟨Query.trust c.trustID, .ok t⟩ ∉ K := by
    intro K inside here
    have quiet := h.only _ (inside _ here)
    cases quiet
  rw [h.log] at member
  rcases List.mem_append.mp member with inA | member
  · exact absurd inA (other (by simp +contextual))
  rcases List.mem_cons.mp member with same | member
  · cases same
    exact .inl rfl
  rcases List.mem_append.mp member with inM | member
  · exact absurd inM (other (by simp +contextual))
  rcases List.mem_cons.mp member with same | inB
  · cases same
    exact .inr rfl
  · exact absurd inB (other (by simp +contextual))

end Consumer

namespace Governance

open Relation

def trustCalls (w : World net) (i : Nat) : Nat :=
  (w.log .consumers i).countP Consumer.isTrust +
    match w.waits .consumers i with
    | some (.trusts, _) => 1
    | _ => 0

/-- The last read of call `j` of the trust ledger, later than the first world, found `s`. -/
def TrustAt (w₁ w : World net) (j : Nat) (id : Text) (s : TrustSnapshot) : Prop :=
  ∃ (U C : TrustLedger.Trace) (read : Entry TrustLedger.system) (c : CommittedTrust),
    (w.part .trusts).trace = U ++ read :: C ∧ (w₁.part .trusts).trace <+: U ∧ read.thread = j ∧
    (∀ e ∈ C, e.thread ≠ j) ∧ TrustLedger.Current read.before id (some c) ∧ c.snapshot = s

def ApprovedAt (w₁ w : World net) (k : Nat) (want : ReferenceExpectation) : Prop :=
  ∃ (U C : ApprovalLedger.Trace) (read : Entry ApprovalLedger.system) (id : Text) (p : ApprovalProposal),
    (w.part .approvals).trace = U ++ read :: C ∧ (w₁.part .approvals).trace <+: U ∧ read.thread = k ∧
    ApprovalLedger.Stored read.before id p ∧ p.status = .approved ∧ p.receipt.expectation = want

section Reads

variable {w₁ w : World net}

variable {want : ReferenceExpectation} {k : Nat} {L : Log ports} {receipt : ApprovedReference}

theorem approved_at (start : Reachable w₁) (run : Runs net w₁ w) (new : (w₁.part .approvals).threads.length ≤ k)
    (ended : (w.part .approvals).threads[k]? = some ⟨ApprovalLedger.Call.reference want, L, .ret receipt⟩) :
    ApprovedAt w₁ w k want := by
  obtain ⟨schedule, later, eq₁, eq⟩ := runs_exec start run .approvals
  unfold ApprovedAt
  rw [eq] at ended ⊢
  rw [eq₁] at new ⊢
  obtain ⟨U, C, read, id, p, trace, own, -, stored, approved, same, expected, -⟩ :=
    ApprovalLedger.exec_reference (schedule ++ later) ended
  have before := (exec_sound ApprovalLedger.code_steps schedule).precedes trace (by rw [own]; exact new)
  exact ⟨U, C, read, id, p, trace, before, own, stored, approved, by rw [same]; exact expected⟩

/-- Behind the first world nothing is read as approved that was revoked there. -/
theorem ApprovedAt.unrevoked (start : Reachable w₁) (run : Runs net w₁ w)
    (h : ApprovedAt w₁ w k want) {id : Text} {p : ApprovalProposal}
    (stored : ApprovalLedger.Stored (w₁.part .approvals).store id p) (same : p.receipt.expectation = want) :
    p.status ≠ .revoked := by
  intro revoked
  obtain ⟨U, C, read, id', p', trace, before, -, stored', approved, expected⟩ := h
  obtain ⟨schedule, later, eq₁, eq⟩ := runs_exec start run .approvals
  rw [eq] at trace
  rw [eq₁] at stored before
  have sound := exec_sound ApprovalLedger.code_steps (schedule ++ later)
  have valid := sound.valid
  rw [trace] at valid
  have here : Valid ApprovalLedger.Step (U ++ [read]) := valid.restrict ⟨C, by simp⟩
  rw [exec_store] at stored
  exact ApprovalLedger.no_read_after here before stored revoked stored' approved (expected.trans same.symm)

/-- The receipts of a later call of the trust ledger come from later calls of the
approval ledger. -/
theorem receipt_at (start : Reachable w₁) (run : Runs net w₁ w) {j : Nat} {c : TrustLedger.Call}
    {p : Prog ports TrustStore Fault (TrustLedger.system.Result c)}
    (new : (w₁.part .trusts).threads.length ≤ j) (found : (w.part .trusts).threads[j]? = some ⟨c, L, p⟩)
    (member : ⟨Federation.Query.reference want, .ok receipt⟩ ∈ L) :
    ∃ k, Called w₁ w .trusts j .approvals k ∧ ApprovedAt w₁ w k want := by
  have absent : (w₁.part .trusts).threads[j]? = none := List.getElem?_eq_none_iff.mpr new
  have free : w₁.waits .trusts j = none := unborn_waits start absent
  obtain ⟨D, log, answers⟩ := answered_later (n := .trusts) (i := j) run .approvals (by rw [free]; simp)
  rw [log_absent absent, log_found found] at log
  obtain rfl : L = D := log
  obtain ⟨k, L', result, called, later, ended, answer⟩ :=
    answers _ member ⟨.approvals, .reference want, id⟩ rfl rfl
  have ok : result = .ok receipt := answer.symm
  subst ok
  exact ⟨k, called, approved_at start run later ended⟩

end Reads

section Consumers

variable {w₁ w : World net} {i : Nat} {c : Consumer.Call} {d : Consumer.Decision} {s latest : TrustSnapshot}
  {A M B : Log Consumer.ports}

def trustRoute (id : Text) : Route net.sys (Except Fault TrustSnapshot) :=
  ⟨.trusts, TrustLedger.Call.trust id, fun r => r⟩

theorem count_trust {K : Log Consumer.ports} (id : Text) (a : Except Fault TrustSnapshot) :
    (⟨Consumer.Query.trust id, a⟩ :: K : Log Consumer.ports).countP Consumer.isTrust =
      K.countP Consumer.isTrust + 1 :=
  List.countP_cons_of_pos rfl

/-- The answer to the final question comes from a call that began after every world in
which the question had not been asked. -/
theorem final_read (run : Runs net w₁ w) (decided : Consumer.Decided c d (w.log .consumers i) s latest A M B)
    (early : trustCalls w₁ i ≤ 1) :
    Answered w₁ w .consumers i (Consumer.Query.trust c.trustID) (.ok latest) (trustRoute c.trustID) := by
  have log := decided.cut
  by_cases waiting : ∃ j, w₁.waits .consumers i = some (.trusts, j)
  · -- the first answer is still to come: the second question is reached later
    obtain ⟨j, waits⟩ := waiting
    have none : (w₁.log .consumers i).countP Consumer.isTrust = 0 := by
      rw [trustCalls, waits] at early
      simpa using early
    obtain ⟨D, grown, -⟩ := answered_later (n := .consumers) (i := i) run .approvals (by rw [waits]; simp)
    have unseen : (⟨Consumer.Query.trust c.trustID, .ok s⟩ : Σ q : Consumer.Query, q.Answer) ∉ w₁.log
        .consumers i := by
      intro member
      exact List.countP_eq_zero.mp none _ member rfl
    have before : w₁.log .consumers i <+: A ++ ⟨Consumer.Query.trust c.trustID, .ok s⟩ :: M := by
      have whole : w₁.log .consumers i <+: w.log .consumers i := ⟨D, grown.symm⟩
      rw [log] at whole
      rcases List.prefix_or_prefix_of_prefix whole (List.prefix_append _ _) with before | after
      · exact before
      · exact absurd (after.subset (by simp)) unseen
    obtain ⟨v, first, rest, here, free⟩ := paused (n := .consumers) (i := i) run log (by simp [route]) before
      (fun same => absurd (by rw [same]; simp) unseen)
    obtain ⟨E, later, answers⟩ := answered_later (n := .consumers) (i := i) rest .trusts (by rw [free]; simp)
    rw [here, log] at later
    have new : (⟨Consumer.Query.trust c.trustID, .ok latest⟩ : Σ q : Consumer.Query, q.Answer) ∈ E := by
      rw [← List.append_cancel_left later]
      exact List.mem_cons_self
    obtain ⟨j', L, result, called, young, ended, answer⟩ := answers _ new (trustRoute c.trustID) rfl rfl
    exact ⟨j', L, result, called.mono first .refl, Nat.le_trans (runs_threads first .trusts) young, ended, answer⟩
  · obtain ⟨D, grown, answers⟩ := answered_later (n := .consumers) (i := i) run .trusts
      (fun j waits => waiting ⟨j, waits⟩)
    by_cases new : (⟨Consumer.Query.trust c.trustID, .ok latest⟩ : Σ q : Consumer.Query, q.Answer) ∈ D
    · exact answers _ new (trustRoute c.trustID) rfl rfl
    · obtain ⟨B', old⟩ := split_earlier (log.symm.trans grown) new
      have many : (w₁.log .consumers i).countP Consumer.isTrust ≤ 1 := Nat.le_trans (Nat.le_add_right _ _) early
      rw [old, List.countP_append, List.countP_append, count_trust, count_trust] at many
      omega

theorem trust_at (start : Reachable w₁) (run : Runs net w₁ w) {id : Text}
    (h : Answered w₁ w .consumers i (Consumer.Query.trust id) (.ok s) (trustRoute id)) :
    ∃ j c, Called w₁ w .consumers i .trusts j ∧ TrustAt w₁ w j id s ∧ TrustLedger.Committed id c ∧
      c.snapshot = s ∧ (s.trust.status = .active → ∀ want ∈ activationReferences s c.scope,
        ∃ k, Called w₁ w .trusts j .approvals k ∧ ApprovedAt w₁ w k want) := by
  obtain ⟨j, L, result, called, new, ended, answer⟩ := h
  have ok : result = .ok s := answer.symm
  subst ok
  obtain ⟨schedule, later, eq₁, eq⟩ := runs_exec start run .trusts
  have new' : (exec TrustLedger.system schedule).threads.length ≤ j := eq₁ ▸ new
  have ended' : (exec TrustLedger.system (schedule ++ later)).threads[j]? = some ⟨.trust id, L, .ret s⟩ :=
    eq ▸ ended
  obtain ⟨U, C, read, c, trace, before, own, last, -, stored, snapshot, committed, receipts⟩ :=
    TrustLedger.trust_read schedule later new' ended'
  refine ⟨j, c, called, ⟨U, C, read, c, eq ▸ trace, eq₁ ▸ before, own, last, stored, snapshot⟩, committed,
    snapshot, ?_⟩
  intro active want wanted
  obtain ⟨A, B, receipt, r, log, -⟩ := receipts active want wanted
  exact receipt_at start run new ended (log ▸ List.mem_append_right _ List.mem_cons_self)

theorem scope_eq {id : Text} {record : CommittedTrust} {scope : Scope} (committed : TrustLedger.Committed id record)
    (governs : Consumer.governs scope record.snapshot.trust = true) : record.scope = scope := by
  simp only [Consumer.governs, committed.organisation, committed.estate, Bool.and_eq_true, List.contains_iff_mem,
    List.mem_singleton] at governs
  obtain ⟨⟨organisation, estate⟩, -⟩ := governs
  cases scope
  cases h : record.scope
  rw [h] at organisation estate
  cases organisation
  cases estate
  rfl

theorem trust_answered (reach : Reachable w) {id : Text}
    (member : ⟨Consumer.Query.trust id, .ok s⟩ ∈ w.log .consumers i) :
    Answered (World.initial net) w .consumers i (Consumer.Query.trust id) (.ok s) (trustRoute id) := by
  obtain ⟨D, log, answers⟩ := answered_later (n := .consumers) (i := i) reach .trusts (by simp [World.initial])
  have all : w.log .consumers i = D := log
  rw [all] at member
  exact answers _ member (trustRoute id) rfl rfl

theorem same_answers (reach : Reachable w) {id : Text}
    (first : ⟨Consumer.Query.trust id, .ok s⟩ ∈ w.log .consumers i)
    (second : ⟨Consumer.Query.trust id, .ok latest⟩ ∈ w.log .consumers i)
    (same : latest.approvedRevision = s.approvedRevision) : latest = s := by
  obtain ⟨j, c, -, ⟨U, C, read, a, trace, -, -, -, stored, rfl⟩, -⟩ :=
    trust_at .refl reach (trust_answered reach first)
  obtain ⟨j', c', -, ⟨U', C', read', b, trace', -, -, -, stored', rfl⟩, -⟩ :=
    trust_at .refl reach (trust_answered reach second)
  obtain ⟨schedule, eq⟩ := reachable_exec reach .trusts
  have valid : Valid TrustLedger.Step (w.part .trusts).trace := by
    rw [eq]
    exact TrustLedger.valid_steps (TrustLedger.exec_acts schedule).valid
  have point : U ++ [read] <+: (w.part .trusts).trace := ⟨C, by rw [trace]; simp⟩
  have point' : U' ++ [read'] <+: (w.part .trusts).trace := ⟨C', by rw [trace']; simp⟩
  rw [(valid.restrict point).snoc_inv.2.1] at stored
  rw [(valid.restrict point').snoc_inv.2.1] at stored'
  rw [TrustLedger.same_record valid ((List.prefix_append _ _).trans point') ((List.prefix_append _ _).trans point)
    stored' stored same]

/-- A containment that the final read could see was undone by a new proposal. -/
theorem renewed_at (start : Reachable w₁) (run : Runs net w₁ w) {j : Nat} {id : Text} (read : TrustAt w₁ w j id s)
    (active : s.trust.status = .active) {U V : TrustLedger.Trace} {e : Entry TrustLedger.system} {revision : UInt64}
    {status : TrustStatus} (trace : (w₁.part .trusts).trace = U ++ e :: V)
    (call : e.call = .contain id revision status)
    (changed : e.after.trusts ≠ e.before.trusts) :
    ∃ V', (w.part .trusts).trace = U ++ e :: V' ∧ TrustLedger.Renewed V' s := by
  obtain ⟨X, C, read, c, whole, before, -, -, stored, rfl⟩ := read
  obtain ⟨schedule, eq⟩ := reachable_exec (start.trans run) .trusts
  have valid : Valid TrustLedger.Act (w.part .trusts).trace := by
    rw [eq]
    exact (TrustLedger.exec_acts schedule).valid
  have point : X ++ [read] <+: (w.part .trusts).trace := ⟨C, by rw [whole]; simp⟩
  obtain ⟨validX, at_, -⟩ := (valid.restrict point).snoc_inv
  rw [at_] at stored
  obtain ⟨V', split⟩ := before
  rw [trace, List.append_assoc, List.cons_append] at split
  have here : U ++ [e] <+: X := ⟨V ++ V', by rw [← split]; simp⟩
  obtain ⟨-, -, act⟩ := (validX.restrict here).snoc_inv
  obtain ⟨c₀, value, r, contain⟩ := act.1.containment call changed
  obtain ⟨V₁, V₂, V₃, proposing, decision, pid, digest, want, parts, rest⟩ :=
    TrustLedger.renewed_after_containment validX split.symm contain stored active
  refine ⟨V ++ V' ++ read :: C, by rw [whole, ← split]; simp, V₁, V₂, V₃ ++ read :: C, proposing, decision,
    pid, digest, want, ?_, rest⟩
  rw [parts]
  simp

theorem decided_of_ret (reach : Reachable w) {L : Log Consumer.ports}
    (found : (w.part .consumers).threads[i]? = some ⟨c, L, .ret d⟩) :
    ∃ s latest A M B, Consumer.Decided c d (w.log .consumers i) s latest A M B := by
  rw [log_found found]
  obtain ⟨schedule, eq⟩ := reachable_exec reach .consumers
  rw [eq] at found
  obtain ⟨b, log, supports⟩ := Consumer.exec_basis schedule found
  exact ⟨_, _, _, _, _, supports.decided log⟩

theorem final_facts (start : Reachable w₁) (run : Runs net w₁ w)
    (decided : Consumer.Decided c d (w.log .consumers i) s latest A M B) (early : trustCalls w₁ i ≤ 1) :
    ∃ j, Called w₁ w .consumers i .trusts j ∧ TrustAt w₁ w j c.trustID s ∧
      ∀ want ∈ activationReferences s c.policy.scope, ∃ k, Called w₁ w .trusts j .approvals k ∧
        ApprovedAt w₁ w k want := by
  obtain ⟨first, second⟩ := decided.answered
  obtain rfl := same_answers (start.trans run) first second decided.same.2
  obtain ⟨j, record, called, read, committed, snapshot, receipts⟩ :=
    trust_at start run (final_read run decided early)
  refine ⟨j, called, read, ?_⟩
  have governs := decided.governs
  rw [← snapshot] at governs
  rw [← scope_eq committed governs]
  exact receipts decided.active

/-- The moment at which the final governance read begins lies behind the checks. -/
theorem before_final_read (reach : Reachable w) (decided : Consumer.Decided c d (w.log .consumers i) s latest A M B) :
    ∃ w₀, Reachable w₀ ∧ Runs net w₀ w ∧ trustCalls w₀ i = 1 ∧
      w₀.log .consumers i = A ++ ⟨Consumer.Query.trust c.trustID, .ok s⟩ :: M := by
  have log := decided.cut
  obtain ⟨w₀, before, after, here, free⟩ := paused (n := .consumers) (i := i) reach log (by simp [route])
    List.nil_prefix (fun _ => rfl)
  have none : ∀ K : Log Consumer.ports, (∀ x ∈ K, x ∈ A ++ M ++ B) → K.countP Consumer.isTrust = 0 := by
    intro K inside
    apply List.countP_eq_zero.mpr
    intro x hx
    simp [decided.only x (inside x hx)]
  refine ⟨w₀, before, after, ?_, here⟩
  rw [trustCalls, here, free, List.countP_append, count_trust, none A (by simp +contextual),
    none M (by simp +contextual)]
  rfl

theorem own_receipt (start : Reachable w₁) (run : Runs net w₁ w)
    (unborn : (w₁.part .consumers).threads.length ≤ i)
    {want : ReferenceExpectation} (receipt : Consumer.Receipt (w.log .consumers i) want) :
    ∃ k, Called w₁ w .consumers i .approvals k ∧ ApprovedAt w₁ w k want := by
  have absent : (w₁.part .consumers).threads[i]? = none := List.getElem?_eq_none_iff.mpr unborn
  have free : w₁.waits .consumers i = none := unborn_waits start absent
  obtain ⟨D, log, answers⟩ := answered_later (n := .consumers) (i := i) run .approvals (by rw [free]; simp)
  rw [log_absent absent] at log
  have all : w.log .consumers i = D := log
  obtain ⟨a, member, -⟩ := receipt
  rw [all] at member
  obtain ⟨k, L', result, called, later, ended, answer⟩ :=
    answers _ member ⟨.approvals, .reference want, fun r => r⟩ rfl rfl
  have ok : result = .ok a := answer.symm
  subst ok
  exact ⟨k, called, approved_at start run later ended⟩

end Consumers

/-- If a consumer returns a Decision, the trust that it used was active and unchanged at
the last ledger read of the call, each of its six receipts was approved at a read behind
every moment at which the final governance read had not begun, so behind the checks of
the event, and the other two at reads behind the beginning of the call. Whatever was
committed when the final read began has been seen: no receipt was revoked, and a
containment of the trust was followed by a new proposal and its approval. -/
theorem revocation_wins :
    (∀ (w : World net) (i : Nat) (c : Consumer.Call) (L : Log Consumer.ports) (d : Consumer.Decision), Reachable w →
      (w.part .consumers).threads[i]? = some ⟨c, L, .ret d⟩ →
      ∃ (s : TrustSnapshot) (w₀ : World net) (now : Time) (principal : ExternalPrincipal) (assurance : Assurance)
        (encoded : Json) (canonical : Consumer.CanonicalIdentity),
        s.trust.id = c.trustID ∧ s.trust.status = .active ∧
        Reachable w₀ ∧ Runs net w₀ w ∧ trustCalls w₀ i = 1 ∧
        Consumer.Checked c s (w₀.log .consumers i) now principal assurance encoded canonical ∧
        (∀ w₁, Reachable w₁ → Runs net w₁ w → trustCalls w₁ i ≤ 1 →
          ∃ j, Called w₁ w .consumers i .trusts j ∧ TrustAt w₁ w j c.trustID s ∧
            ∀ want ∈ activationReferences s c.policy.scope,
              ∃ k, Called w₁ w .trusts j .approvals k ∧ ApprovedAt w₁ w k want) ∧
        (∀ w₁, Reachable w₁ → Runs net w₁ w → (w₁.part .consumers).threads.length ≤ i →
          ∀ want ∈ [Consumer.mappingDecision c.policy.scope s c.eventID principal assurance encoded,
            Consumer.canonicalMapping c.policy.scope s principal canonical],
            ∃ k, Called w₁ w .consumers i .approvals k ∧ ApprovedAt w₁ w k want)) ∧
    (∀ (w₁ w : World net) (i : Nat) (c : Consumer.Call) (L : Log Consumer.ports)
      (d : Consumer.Decision) (s : TrustSnapshot),
      Reachable w₁ → Runs net w₁ w → (w.part .consumers).threads[i]? = some ⟨c, L, .ret d⟩ →
      ⟨Consumer.Query.trust c.trustID, .ok s⟩ ∈ L → trustCalls w₁ i ≤ 1 →
      (∀ id p, ApprovalLedger.Stored (w₁.part .approvals).store id p →
        p.receipt.expectation ∈ activationReferences s c.policy.scope → p.status ≠ .revoked) ∧
      (∀ U e V revision status, (w₁.part .trusts).trace = U ++ e :: V →
        e.call = .contain c.trustID revision status →
        e.after.trusts ≠ e.before.trusts →
        ∃ V', (w.part .trusts).trace = U ++ e :: V' ∧ TrustLedger.Renewed V' s)) := by
  constructor
  · intro w i c L d reach found
    obtain ⟨s, latest, A, M, B, decided⟩ := decided_of_ret reach found
    obtain ⟨now, principal, assurance, encoded, canonical, checked, -⟩ := decided.checked
    obtain ⟨w₀, reach₀, run₀, calls, log₀⟩ := before_final_read reach decided
    have sub : A ++ ⟨Consumer.Query.trust c.trustID, .ok s⟩ :: M ⊆ w.log .consumers i := by
      rw [decided.log, ← List.cons_append, ← List.append_assoc]
      exact List.subset_append_left _ _
    refine ⟨s, w₀, now, principal, assurance, encoded, canonical, decided.trustID,
      decided.active, reach₀, run₀, calls, by rw [log₀]; exact checked, ?_, ?_⟩
    · intro w₁ start run early
      exact final_facts start run decided early
    · intro w₁ start run unborn want wanted
      apply own_receipt start run unborn
      simp only [List.mem_cons, List.not_mem_nil, or_false] at wanted
      rcases wanted with rfl | rfl
      · exact checked.decision.mono sub
      · exact checked.mapping.mono sub
  · intro w₁ w i c L d t start run found member early
    obtain ⟨s, latest, A, M, B, decided⟩ := decided_of_ret (start.trans run) found
    have member : (⟨Consumer.Query.trust c.trustID, .ok t⟩ : Σ q : Consumer.Query, q.Answer) ∈
        w.log .consumers i := by
      rw [log_found found]
      exact member
    obtain ⟨j, -, read, receipts⟩ := final_facts start run decided early
    have revision : t.approvedRevision = s.approvedRevision := by
      rcases decided.answers member with rfl | rfl
      · rfl
      · exact decided.same.2
    have same := same_answers (start.trans run) decided.answered.1 member revision
    subst same
    constructor
    · intro id p stored wanted
      obtain ⟨k, -, approved⟩ := receipts _ wanted
      exact approved.unrevoked start run stored rfl
    · intro U e V revision status trace call changed
      exact renewed_at start run read decided.active trace call changed

end Governance

end Federation
