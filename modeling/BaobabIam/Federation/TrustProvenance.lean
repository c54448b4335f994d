import BaobabIam.Federation.TrustProgress

/-! Where the records of a trust come from. Every record in the history was
committed by one transaction of the trace, and every proposal that a call could
read was stored by a Propose; an active record can only come from an approving
Decide, after a record that was being verified. -/
namespace Federation.TrustLedger

open Wire Interleaving

variable {T : Trace} {id : Text} {c : CommittedTrust} {n : Nat} {e : Entry system}

theorem valid_commits (h : Valid Step T) {log : Records} (rep : Represents (last T) log)
    (member : (log id)[n]? = some c) :
    ∃ U e log₀, U ++ [e] <+: T ∧ Represents e.before log₀ ∧ log₀ id = (log id).take n ∧
      Commits U e id c := by
  revert log
  refine h.invariant (P := fun T => ∀ {log : Records}, Represents (last T) log →
    (log id)[n]? = some c → ∃ U e log₀, U ++ [e] <+: T ∧ Represents e.before log₀ ∧
      log₀ id = (log id).take n ∧ Commits U e id c) ?_ ?_
  · intro log rep member
    rw [rep.unique represents_empty] at member
    cases member
  · intro T e valid ih before step log' rep' member
    obtain ⟨log, rep, seen⟩ := valid_represents valid
    rw [← before] at rep
    obtain ⟨log₁, rep₁, appends⟩ := step.refines rep seen
    rw [last_append] at rep'
    obtain rfl := rep'.unique rep₁
    have old : ∀ m, (log id)[n]? = some m → (log' id)[n]? = some m ∧ (log id).take n = (log' id).take n := by
      intro m hm
      obtain ⟨tail, htail⟩ := (appends.grows id).1
      have inside := (List.getElem?_eq_some_iff.mp hm).1
      rw [← htail, List.getElem?_append_left inside, List.take_append_of_le_length (by omega)]
      exact ⟨hm, rfl⟩
    have earlier : (log id)[n]? = some c → ∃ U e' log₀, U ++ [e'] <+: T ++ [e] ∧
        Represents e'.before log₀ ∧ log₀ id = (log' id).take n ∧ Commits U e' id c := by
      intro inside
      obtain ⟨U, e', log₀, sub, rep₀, cut, commits⟩ := ih (before ▸ rep) inside
      exact ⟨U, e', log₀, sub.trans (List.prefix_append _ _), rep₀, cut.trans (old c inside).2, commits⟩
    cases appends with
    | none => exact earlier member
    | one id₀ c₀ ext commits =>
      by_cases same : id = id₀
      · subst same
        rw [Function.update_self] at member earlier
        rcases Nat.lt_trichotomy n (log id).length with inside | rfl | outside
        · rw [List.getElem?_append_left inside] at member
          simpa using earlier member
        · simp only [List.getElem?_concat_length, Option.some.injEq] at member
          subst member
          exact ⟨T, e, log, List.prefix_refl _, rep, by simp, commits⟩
        · rw [List.getElem?_eq_none (by simp; omega)] at member
          cases member
      · rw [Function.update_of_ne same] at member
        exact earlier member

/-- A stored proposal is what a Propose stored, apart from its decision. -/
def Origin (T : Trace) (id raw : Text) : Prop :=
  ∃ (U : Trace) (e : Entry system) (p : TrustProposal) (r : Time) (q : TrustProposal),
    U ++ [e] <+: T ∧ ProposeStep e p r ∧ p.id = id ∧ raw = marshal q ∧
    q = { p with checker := q.checker, decidedAt := q.decidedAt, status := q.status }

theorem Origin.grow {raw : Text} (h : Origin T id raw) :
    Origin (T ++ [e]) id raw := by
  obtain ⟨U, e', p, r, q, sub, rest⟩ := h
  exact ⟨U, e', p, r, q, sub.trans (List.prefix_append _ _), rest⟩

theorem DecideStep.origin {digest : Text} {approve : Bool}
    {p q : TrustProposal} {r : Time} (step : DecideStep T e id digest approve p q r)
    (seen : ∀ e₀ ∈ T, (∃ log₀, Represents e₀.before log₀) ∧
      ∀ id raw, e₀.before.proposals.get id = some raw → Origin T id raw) :
    ∃ (U : Trace) (e' : Entry system) (p' : TrustProposal) (r' : Time),
      U ++ [e'] <+: T ∧ ProposeStep e' p' r' ∧ p'.id = id ∧
      q = { p' with checker := q.checker, decidedAt := q.decidedAt, status := q.status } ∧
      p = { p' with checker := p.checker, decidedAt := p.decidedAt, status := p.status } := by
  obtain ⟨e₀, he₀, -, decoded⟩ := step.seen
  obtain ⟨⟨log₀, rep₀⟩, origin⟩ := seen e₀ he₀
  obtain ⟨-, storable, -, found⟩ := rep₀.proposal decoded
  obtain ⟨U, e', p', r', q', sub, proposing, hid, same, form⟩ := origin id _ found
  have back := decodeAuthority_marshal storable
  rw [same] at back
  obtain ⟨rfl, -⟩ := decodeAuthority_inv back
  refine ⟨U, e', p', r', sub, proposing, hid, ?_, form⟩
  rw [step.decided, form]
  rfl

theorem valid_origin (h : Valid Step T) :
    (∀ id raw, (last T).proposals.get id = some raw → Origin T id raw) ∧
    (∀ e ∈ T, ∀ id raw, e.before.proposals.get id = some raw → Origin T id raw) := by
  refine h.invariant (P := fun T =>
    (∀ id raw, (last T).proposals.get id = some raw → Origin T id raw) ∧
    (∀ e ∈ T, ∀ id raw, e.before.proposals.get id = some raw → Origin T id raw)) ?_ ?_
  · refine ⟨?_, by simp⟩
    intro id raw found
    cases found
  · rintro T e valid ⟨now, seen⟩ before step
    have unchanged : ∀ id raw, e.before.proposals.get id = some raw → Origin (T ++ [e]) id raw := by
      intro id raw found
      exact (now id raw (before ▸ found)).grow
    obtain ⟨log, -, reps⟩ := valid_represents valid
    have known : ∀ e₀ ∈ T, (∃ log₀, Represents e₀.before log₀) ∧
        ∀ id raw, e₀.before.proposals.get id = some raw → Origin T id raw := by
      intro e₀ he₀
      obtain ⟨log₀, rep₀, -⟩ := reps e₀ he₀
      exact ⟨⟨log₀, rep₀⟩, seen e₀ he₀⟩
    have written : ∀ {id digest : Text} {approve : Bool} {p q : TrustProposal} {r : Time},
        DecideStep T e id digest approve p q r →
        e.after.proposals = e.before.proposals.put id (marshal q) →
        ∀ id' raw, e.after.proposals.get id' = some raw → Origin (T ++ [e]) id' raw := by
      intro id digest approve p q r step after id' raw found
      rw [after, Bucket.get_put] at found
      split at found
      · rename_i same
        cases found
        obtain ⟨U, e', p', r', sub, proposing, hid, form, -⟩ := step.origin known
        exact ⟨U, e', p', r', q, sub.trans (List.prefix_append _ _), proposing, hid.trans same.symm, rfl, form⟩
      · exact unchanged id' raw found
    refine ⟨?_, ?_⟩
    · intro id raw found
      rw [last_append] at found
      cases step with
      | idle same => exact unchanged id raw (same ▸ found)
      | ticked r _ after => rw [after] at found; exact unchanged id raw found
      | proposed p r step =>
        rw [step.after, Bucket.get_put] at found
        split at found
        · rename_i same
          cases found
          exact ⟨T, e, p, r, p, List.prefix_refl _, step, same.symm, rfl, rfl⟩
        · exact unchanged id raw found
      | rejected pid digest p q r step after => exact written step (by rw [after]) id raw found
      | approved pid digest p q r step commit => exact written step (by rw [commit.after]) id raw found
      | contained cid revision status c value r step =>
        rw [step.after] at found
        exact unchanged id raw found
    · intro e' he' id raw found
      rcases List.mem_append.mp he' with he' | he'
      · exact (seen e' he' id raw found).grow
      · rw [List.mem_singleton.mp he'] at found
        exact unchanged id raw found

theorem valid_known (h : Valid Step T) (e : Entry system) (he : e ∈ T) :
    (∃ log, Represents e.before log) ∧
      ∀ id raw, e.before.proposals.get id = some raw → Origin T id raw := by
  obtain ⟨log, -, reps⟩ := valid_represents h
  obtain ⟨log₀, rep₀, -⟩ := reps e he
  exact ⟨⟨log₀, rep₀⟩, (valid_origin h).2 e he⟩

theorem active_follows {a b : Trust} (h : trustTransition a b = true) (active : b.status = .active) :
    a.status = .verifying := by
  simp only [trustTransition, active, Bool.and_eq_true] at h
  have edge := h.2
  revert edge
  cases a.status with
  | other => simp [allowedStatus]
  | _ => decide

theorem Holds.before_active {s : TrustStore} {records : List CommittedTrust} (h : Holds s id records)
    (member : records[n]? = some c) (active : c.snapshot.trust.status = .active) :
    ∃ m previous, n = m + 1 ∧ records[m]? = some previous ∧ previous.snapshot.trust.status = .verifying := by
  obtain ⟨inside, rfl⟩ := List.getElem?_eq_some_iff.mp member
  cases n with
  | zero =>
    have first := h.first records[0] (by simp [List.head?_eq_getElem?])
    rw [active] at first
    cases first
  | succ m =>
    have follows := List.isChain_iff_getElem.mp h.chain m inside
    exact ⟨m, records[m], rfl, List.getElem?_eq_getElem (by omega), active_follows follows active⟩

theorem Commits.active
    (h : Commits T e id c) (active : c.snapshot.trust.status = .active) :
    ∃ pid digest p q r, DecideStep T e pid digest true p q r ∧ ApproveStep e pid q r ∧
      q.snapshot.trust.id = id ∧ c = approvedTrust q := by
  cases h with
  | approval pid digest p q r step commit same => exact ⟨pid, digest, p, q, r, step, commit, same, rfl⟩
  | containment revision status c₀ value r step =>
    -- a containment writes a suspended or a revoked record
    obtain ⟨t, drawn, principal, written, -⟩ := step.written
    have status_eq : c.snapshot.trust.status = status := by rw [written]; rfl
    rw [active] at status_eq
    rcases step.target with target | target <;> rw [target] at status_eq <;> cases status_eq

/-- Every active record of every run was committed by an approving Decide of a
proposal that another actor made, over equal digests and six current receipts,
and it follows a record that was being verified. -/
theorem active_by_approval (schedule : List (Action system)) (id : Text) (k : UInt64) (c : CommittedTrust)
    (stored : ((exec system schedule).store.history.get (historyKey id k)).bind decodeAuthority = some c)
    (active : c.snapshot.trust.status = .active) :
    ∃ (before after : Trace) (decision : Entry system) (pid digest : Text) (p : TrustProposal)
      (previous : CommittedTrust),
      (exec system schedule).trace = before ++ decision :: after ∧
      decision.call = .decide pid digest true ∧
      decision.before.history.get (historyKey id k) = none ∧
      decision.after.history.get (historyKey id k) = some (marshal c) ∧
      (∃ proposing ∈ before, proposing.call = .propose pid p.snapshot p.target ∧
        proposing.before.proposals.get pid = none ∧
        proposing.after.proposals.get pid = some (marshal p)) ∧
      c.snapshot = p.snapshot ∧ c.proposalID = pid ∧ c.maker = p.maker ∧ c.checker ≠ p.maker ∧
      digest = trustSnapshotDigest c.snapshot ∧
      ⟨Query.resolveApprovedTarget p.target, .ok digest⟩ ∈ decision.finish ∧
      (∀ want ∈ activationReferences c.snapshot p.target.scope,
        ReceiptSeen decision.finish c.snapshot.validUntil want) ∧
      (exec system schedule).store.history.get (historyKey id (k - 1)) = some (marshal previous) ∧
      decision.before.trusts.get id = some (marshal previous) ∧
      previous.snapshot.trust.status = .verifying := by
  have sound := exec_sound code_steps schedule
  obtain ⟨-, log, rep⟩ := exec_represents schedule
  obtain ⟨raw, found, decoded⟩ := Option.bind_eq_some_iff.mp stored
  rw [(rep.holds id).stored k] at found
  split at found
  · cases found
  rename_i nonzero
  obtain ⟨c', member, rfl⟩ := Option.map_eq_some_iff.mp found
  have decodes := ((rep.holds id).committed c' (List.mem_of_getElem? member)).decodes
  obtain rfl : c' = c := Option.some.inj (decodes.symm.trans decoded)
  obtain ⟨U, e, log₀, sub, rep₀, cut, commits⟩ := valid_commits sound.valid (sound.store ▸ rep) member
  obtain ⟨pid, digest, p, q, r, step, commit, sameTrust, rfl⟩ := commits.active active
  obtain ⟨V, proposing, p', r', earlier, made, madeId, decided, read⟩ :=
    step.origin (valid_known ((sound.valid.restrict sub).snoc_inv).1)
  obtain ⟨m, previous, after_m, before, verifying⟩ := (rep.holds id).before_active member active
  have position : k.toNat ≠ 0 := fun zero => nonzero (UInt64.toNat_inj.mp zero)
  have number := (rep.holds id).revisions _ _ member
  have key : historyKey id k = historyKey q.snapshot.trust.id q.snapshot.approvedRevision := by
    have revision := ((rep.holds id).committed _ (List.mem_of_getElem? member)).revision
    have same : k = q.snapshot.approvedRevision := by
      rw [show q.snapshot.approvedRevision = q.snapshot.trust.revision from revision]
      exact UInt64.toNat_inj.mp (by simp only [approvedTrust] at number; omega)
    rw [sameTrust, same]
  have snapshot : q.snapshot = p'.snapshot := by rw [decided]
  have target : p.target = p'.target := by rw [read]
  have readSnapshot : p.snapshot = p'.snapshot := by rw [read]
  have readMaker : p.maker = p'.maker := by rw [read]
  obtain ⟨after, split_⟩ := sub
  refine ⟨U, after, e, pid, digest, p', previous, ?_, step.call, ?_, ?_, ?_, snapshot, ?_, ?_, ?_, ?_,
    ?_, ?_, ?_, ?_, verifying⟩
  · rw [← split_]
    simp
  · rw [key]
    exact commit.free
  · rw [key, commit.after]
    simp
  · refine ⟨proposing, earlier.subset (by simp), ?_, ?_, ?_⟩
    · rw [made.call, madeId]
    · rw [← madeId]
      exact made.free
    · rw [made.after, ← madeId]
      simp
  · show q.id = pid
    rw [decided]
    exact madeId
  · show q.maker = p'.maker
    rw [decided]
  · show q.checker ≠ p'.maker
    rw [← readMaker]
    exact step.checker.2
  · show digest = trustSnapshotDigest q.snapshot
    rw [snapshot, ← readSnapshot]
    exact step.digests.2.symm
  · rw [← target]
    exact step.resolved
  · intro want hw
    have live : p.snapshot.trust.status = .active := by
      rw [readSnapshot, ← snapshot]
      exact active
    have same : (approvedTrust q).snapshot = p.snapshot := snapshot.trans readSnapshot.symm
    rw [same] at hw ⊢
    rw [← target] at hw
    exact step.receipts rfl live want hw
  · have minus : (k - 1).toNat = m + 1 := by
      rw [UInt64.toNat_sub_of_le _ _ (by rw [UInt64.le_iff_toNat_le]; exact Nat.pos_of_ne_zero position)]
      exact after_m
    have positive : k - 1 ≠ 0 := by
      intro zero
      rw [zero] at minus
      cases minus
    rw [(rep.holds id).stored, if_neg positive, minus, Nat.add_sub_cancel, before]
    rfl
  · rw [(rep₀.holds id).current, cut, after_m, List.take_add_one, before]
    simp

theorem active_by_approval_sample : ∃ (schedule : List (Action system)) (c : CommittedTrust),
    ((exec system schedule).store.history.get (historyKey Sample.trustID 4)).bind decodeAuthority = some c ∧
    c.snapshot.trust.status = .active ∧
    ∃ decision ∈ (exec system schedule).trace, ∃ pid, decision.call =
      .decide pid (trustSnapshotDigest c.snapshot) true := by
  obtain ⟨c, stored, same⟩ := Option.map_eq_some_iff.mp Sample.runs.1
  have active : c.snapshot.trust.status = .active := by rw [same]; rfl
  obtain ⟨before, after, decision, pid, digest, p, previous, split_, call, -, -, -, -, -, -, -, digests, -⟩ :=
    active_by_approval Sample.activated Sample.trustID 4 c stored active
  refine ⟨Sample.activated, c, stored, active, decision, ?_, pid, ?_⟩
  · rw [split_]
    simp
  · rw [call, digests]

end Federation.TrustLedger
