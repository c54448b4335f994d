import BaobabIam.Federation.ApprovalRecords
import Mathlib.Logic.Relation

/-! The approval ledger over whole runs. Abstractly a proposal is decided once, by
somebody else than its maker, and an approved one may be revoked: `Moves`. Every
transaction of every interleaving is such a move, and the index entry that an
approval leaves behind keeps a second approval of the same expectation out. -/
namespace Federation.ApprovalLedger

open Wire Interleaving Relation

inductive Moves : ApprovalProposal → ApprovalProposal → Prop
  | decided (p : ApprovalProposal) (checker : Text) (at_ : Time) (approve : Bool) (pending : p.status = .pending)
      (other : checker ≠ p.maker) : Moves p (decidedProposal p checker at_ approve)
  | revoked (p : ApprovalProposal) (revoker : Text) (at_ : Time) (approved : p.status = .approved) :
      Moves p (revokedProposal p revoker at_)

def Settled (p : ApprovalProposal) : Prop := p.status = .approved ∨ p.status = .revoked

def Life (p₀ p : ApprovalProposal) : Prop := p₀.status = .pending ∧ ReflTransGen Moves p₀ p

section Keys

theorem approvalKey_inj {a b : Text} (h : approvalKey a = approvalKey b) : a = b := List.append_cancel_left h

theorem keys_differ (id : Text) (want : ReferenceExpectation) : approvalKey id ≠ receiptKey want := by
  intro same
  have tips : (approvalKey id).head? = (receiptKey want).head? := congrArg List.head? same
  have left : (approvalKey id).head? = some 'p' := rfl
  have right : (receiptKey want).head? = some 'c' := rfl
  rw [left, right] at tips
  revert tips
  decide

end Keys

section Moves

variable {p q : ApprovalProposal}

theorem Moves.pending (h : Moves p q) : q.status ≠ .pending := by
  cases h with
  | decided checker at_ approve => cases approve <;> simp [decidedProposal]
  | revoked revoker at_ => simp [revokedProposal]

theorem moves_to_pending (h : ReflTransGen Moves p q) (pending : q.status = .pending) : q = p := by
  cases h with
  | refl => rfl
  | tail _ last => exact absurd pending last.pending

theorem moves_keep (h : ReflTransGen Moves p q) :
    q.id = p.id ∧ q.receipt = p.receipt ∧ q.targetDigest = p.targetDigest ∧ q.maker = p.maker := by
  induction h with
  | refl => exact ⟨rfl, rfl, rfl, rfl⟩
  | tail _ step ih => cases step <;> exact ih

theorem moves_settled (h : ReflTransGen Moves p q) (settled : Settled p) :
    Settled q ∧ q.checker = p.checker ∧ (p.status = .revoked → q = p) := by
  induction h with
  | refl => exact ⟨settled, rfl, fun _ => rfl⟩
  | tail _ step ih =>
    obtain ⟨still, checker, ended⟩ := ih
    cases step with
    | decided _ at_ approve pending other =>
      rcases still with still | still <;> rw [pending] at still <;> cases still
    | revoked revoker at_ approved =>
      refine ⟨.inr rfl, checker, ?_⟩
      intro gone
      rw [ended gone, gone] at approved
      cases approved

theorem Life.unsettled (pending : p.status = .pending) : ¬ Settled p := by
  rintro (approved | revoked)
  · rw [pending] at approved
    cases approved
  · rw [pending] at revoked
    cases revoked

theorem Life.checker (h : Life p q) (settled : Settled q) : q.checker ≠ q.maker := by
  obtain ⟨pending, moves⟩ := h
  induction moves with
  | refl => exact absurd settled (unsettled pending)
  | tail _ step ih =>
    cases step with
    | decided checker at_ approve _ other => exact other
    | revoked revoker at_ approved => exact ih (.inl approved)

end Moves

structure Inv (s : Store) : Prop where
  proposals : ∀ id raw, s.approvals.get (approvalKey id) = some raw →
    ∃ p, raw = marshal p ∧ p.id = id ∧ Genuine p ∧ ∃ p₀, Life p₀ p
  index : ∀ id p, Stored s id p → Settled p → s.approvals.get (receiptKey p.receipt.expectation) = some id

theorem Inv.stored {s : Store} (h : Inv s) {id : Text} {p : ApprovalProposal} (stored : Stored s id p) :
    p.id = id ∧ Genuine p ∧ Storable p ∧ ∃ p₀, Life p₀ p := by
  obtain ⟨raw, found, decoded⟩ := Option.bind_eq_some_iff.mp stored
  obtain ⟨q, rfl, hid, genuine, life⟩ := h.proposals id raw found
  obtain ⟨rfl, storable⟩ := decodeAuthority_inv decoded
  exact ⟨hid, genuine, storable, life⟩

theorem Inv.unique {s : Store} (h : Inv s) {id id' : Text} {p p' : ApprovalProposal} (stored : Stored s id p)
    (stored' : Stored s id' p') (settled : Settled p) (settled' : Settled p')
    (same : p'.receipt.expectation = p.receipt.expectation) : id' = id := by
  have first := h.index id p stored settled
  have second := h.index id' p' stored' settled'
  rw [same, first] at second
  exact (Option.some.inj second).symm

section Writes

variable {s s' : Store} {b : Bucket} {id : Text} {q : ApprovalProposal}

/-- Writing one proposal over a bucket that has the same proposals and keeps the
index. -/
theorem Inv.write (inv : Inv s) (same : ∀ id, b.get (approvalKey id) = s.approvals.get (approvalKey id))
    (kept : ∀ want id, s.approvals.get (receiptKey want) = some id → b.get (receiptKey want) = some id)
    (genuine : Genuine q) (hid : q.id = id) (life : ∃ p₀, Life p₀ q)
    (settled : Settled q → b.get (receiptKey q.receipt.expectation) = some id)
    (after : s'.approvals = b.put (approvalKey id) (marshal q)) :
    Inv s' ∧ (∀ other ≠ id, ∀ p, Stored s' other p ↔ Stored s other p) ∧
      (Storable q → Stored s' id q) := by
  have elsewhere : ∀ other ≠ id, s'.approvals.get (approvalKey other) = s.approvals.get (approvalKey other) := by
    intro other different
    rw [after, Bucket.get_put_ne _ _ (fun h => different (approvalKey_inj h)), same]
  have here : s'.approvals.get (approvalKey id) = some (marshal q) := by
    rw [after]
    exact Bucket.get_put_self _ _ _
  have indexed : ∀ want, s'.approvals.get (receiptKey want) = b.get (receiptKey want) := by
    intro want
    rw [after, Bucket.get_put_ne _ _ (fun h => keys_differ id want h.symm)]
  have unmoved : ∀ other ≠ id, ∀ p, Stored s' other p ↔ Stored s other p := by
    intro other different p
    unfold Stored
    rw [elsewhere other different]
  refine ⟨⟨?_, ?_⟩, unmoved, ?_⟩
  · intro other raw found
    by_cases equal : other = id
    · subst equal
      rw [here] at found
      cases found
      exact ⟨q, rfl, hid, genuine, life⟩
    · rw [elsewhere other equal] at found
      exact inv.proposals other raw found
  · intro other p stored approved
    rw [indexed]
    by_cases equal : other = id
    · subst equal
      unfold Stored at stored
      rw [here] at stored
      obtain ⟨rfl, -⟩ := decodeAuthority_inv stored
      exact settled approved
    · apply kept
      exact inv.index other p ((unmoved other equal p).mp stored) approved
  · intro storable
    unfold Stored
    rw [here]
    exact decodeAuthority_marshal storable

end Writes

theorem DecideStep.unmoved {T : Trace} {e : Entry system} {id : Text} {approve : Bool} {p q : ApprovalProposal}
    (step : DecideStep T e id approve p q)
    (seen : ∀ e₀ ∈ T, ∀ id p, Stored e₀.before id p →
      ∃ p', Stored e.before id p' ∧ ReflTransGen Moves p p') : Stored e.before id p := by
  obtain ⟨e₀, he₀, read⟩ := step.seen
  obtain ⟨p', stored, moved⟩ := seen e₀ he₀ id p read
  obtain ⟨current, live, pending⟩ := step.live
  obtain rfl : p' = current := Option.some.inj (stored.symm.trans live)
  rw [moves_to_pending moved pending] at stored
  exact stored

section Steps

variable {T : Trace} {e : Entry system}

/-- The invariant holds again, and each proposal has moved at most once. -/
def Kept (e : Entry system) : Prop :=
  Inv e.after ∧ ∀ id p, Stored e.before id p → ∃ p', Stored e.after id p' ∧ ReflGen Moves p p'

variable {id : Text} {p q : ApprovalProposal} {approve : Bool}

theorem kept_of_move (inv : Inv e.after) (old : Stored e.before id p)
    (move : Moves p q) (others : ∀ other ≠ id, ∀ p, Stored e.after other p ↔ Stored e.before other p)
    (new : Stored e.after id q) : Kept e := by
  refine ⟨inv, ?_⟩
  intro other p' stored
  by_cases equal : other = id
  · subst equal
    obtain rfl : p = p' := Option.some.inj (old.symm.trans stored)
    exact ⟨q, new, .single move⟩
  · exact ⟨p', (others other equal p').mpr stored, .refl⟩

theorem ProposeStep.kept (step : ProposeStep e p) (inv : Inv e.before) : Kept e := by
  have pending : p.status = .pending := by
    rw [step.new]
    rfl
  have genuine : Genuine p := by
    refine ⟨step.known, ?_, ?_⟩ <;> rw [step.new] <;> exact Nat.zero_le _
  obtain ⟨inv', others, -⟩ := inv.write (fun _ => rfl) (fun _ _ h => h) genuine rfl ⟨p, pending, .refl⟩
    (fun settled => absurd settled (Life.unsettled pending)) step.after
  refine ⟨inv', ?_⟩
  intro id p' stored
  have different : id ≠ p.id := by
    rintro rfl
    unfold Stored at stored
    rw [step.free] at stored
    cases stored
  exact ⟨p', (others id different p').mpr stored, .refl⟩

def indexed (s : Store) (approve : Bool) (want : ReferenceExpectation) (id : Text) : Bucket :=
  if approve then s.approvals.put (receiptKey want) id else s.approvals

theorem indexed_proposals (s : Store) (approve : Bool) (want : ReferenceExpectation) (id other : Text) :
    (indexed s approve want id).get (approvalKey other) = s.approvals.get (approvalKey other) := by
  unfold indexed
  split
  · exact Bucket.get_put_ne _ _ (keys_differ other _)
  · rfl

theorem indexed_kept {s : Store} {want other : ReferenceExpectation} {id' : Text}
    (free : approve = true → s.approvals.get (receiptKey want) = none)
    (found : s.approvals.get (receiptKey other) = some id') :
    (indexed s approve want id).get (receiptKey other) = some id' := by
  unfold indexed
  split
  · rename_i yes
    have different : receiptKey other ≠ receiptKey want := by
      intro same
      rw [same, free yes] at found
      cases found
    rw [Bucket.get_put_ne _ _ different]
    exact found
  · exact found

theorem DecideStep.kept
    (step : DecideStep T e id approve p q) (inv : Inv e.before) (old : Stored e.before id p) : Kept e := by
  obtain ⟨hid, genuine, storable, p₀, pending, moves⟩ := inv.stored old
  have same : q.receipt = p.receipt := by rw [step.decided]; rfl
  have move : Moves p q := by
    rw [step.decided]
    exact .decided p q.checker q.decidedAt approve step.pending step.checker.2
  have genuine' : Genuine q := by
    refine ⟨?_, le_of_eq (uuid_size step.checker.1), ?_⟩
    · rw [step.decided]
      exact ⟨genuine.known.args, genuine.known.digest, genuine.known.maker⟩
    · rw [step.decided]
      exact genuine.revoker
  have encodes : (Codec.encode q).isSome = true := by
    have times := storable.1
    rw [step.decided]
    simp only [encodes_approval, decidedProposal, Bool.and_eq_true, decide_eq_true_eq] at times ⊢
    exact ⟨times.1, times.2.1, step.decidedAt, times.2.2.2⟩
  have entry : Settled q →
      (indexed e.before approve p.receipt.expectation id).get (receiptKey q.receipt.expectation) = some id := by
    intro settled
    have yes : approve = true := by
      rw [step.decided] at settled
      cases approve with
      | true => rfl
      | false => rcases settled with no | no <;> cases no
    rw [same, indexed, if_pos yes]
    exact Bucket.get_put_self _ _ _
  obtain ⟨inv', others, new⟩ := inv.write (indexed_proposals e.before approve p.receipt.expectation id)
    (fun _ _ => indexed_kept step.index) genuine' (by rw [step.decided]; exact hid)
    ⟨p₀, pending, moves.tail move⟩ entry step.after
  exact kept_of_move inv' old move others (new (genuine'.storable encodes))

theorem RevokeStep.kept (step : RevokeStep e id p q)
    (inv : Inv e.before) : Kept e := by
  obtain ⟨hid, genuine, storable, p₀, pending, moves⟩ := inv.stored step.current
  obtain ⟨revoker, t, rfl, uuid, time⟩ := step.written
  have move : Moves p (revokedProposal p revoker t) := .revoked p revoker t step.approved
  have genuine' : Genuine (revokedProposal p revoker t) :=
    ⟨⟨genuine.known.args, genuine.known.digest, genuine.known.maker⟩, genuine.checker,
      le_of_eq (uuid_size uuid)⟩
  have encodes : (Codec.encode (revokedProposal p revoker t)).isSome = true := by
    have times := storable.1
    simp only [encodes_approval, revokedProposal, Bool.and_eq_true, decide_eq_true_eq, Option.all_some] at times ⊢
    exact ⟨times.1, times.2.1, times.2.2.1, time⟩
  obtain ⟨inv', others, new⟩ := inv.write (fun _ => rfl) (fun _ _ h => h) genuine' hid
    ⟨p₀, pending, moves.tail move⟩ (fun _ => inv.index id p step.current (.inl step.approved)) step.after
  exact kept_of_move inv' step.current move others (new (genuine'.storable encodes))

theorem Step.kept (h : Step T e) (inv : Inv e.before)
    (seen : ∀ e₀ ∈ T, ∀ id p, Stored e₀.before id p →
      ∃ p', Stored e.before id p' ∧ ReflTransGen Moves p p') : Kept e := by
  cases h with
  | idle same =>
    unfold Kept
    rw [same]
    exact ⟨inv, fun id p stored => ⟨p, stored, .refl⟩⟩
  | proposed p step => exact step.kept inv
  | decided id approve p q step => exact step.kept inv (step.unmoved seen)
  | revoked id p q step => exact step.kept inv

end Steps

theorem inv_empty : Inv ⟨.empty⟩ := by
  constructor
  · intro id raw found
    cases found
  · intro id p stored
    cases stored

variable {T T' : Trace} {id id' : Text} {p p' : ApprovalProposal}

theorem valid_moves (h : Valid Step T) :
    Inv (last T) ∧ ∀ e₀ ∈ T, ∀ id p, Stored e₀.before id p →
      ∃ p', Stored (last T) id p' ∧ ReflTransGen Moves p p' := by
  apply h.invariant (P := fun T => Inv (last T) ∧ ∀ e₀ ∈ T, ∀ id p, Stored e₀.before id p →
    ∃ p', Stored (last T) id p' ∧ ReflTransGen Moves p p')
  · exact ⟨inv_empty, by simp⟩
  · rintro T e - ⟨inv, seen⟩ before step
    rw [← before] at inv seen
    obtain ⟨inv', moved⟩ := step.kept inv seen
    rw [last_append]
    refine ⟨inv', ?_⟩
    intro e₀ he₀ id p stored
    rcases List.mem_append.mp he₀ with he₀ | he₀
    · obtain ⟨p₁, stored₁, moves₁⟩ := seen e₀ he₀ id p stored
      obtain ⟨p₂, stored₂, move⟩ := moved id p₁ stored₁
      exact ⟨p₂, stored₂, moves₁.trans move.to_reflTransGen⟩
    · rw [List.mem_singleton.mp he₀] at stored
      obtain ⟨p₂, stored₂, move⟩ := moved id p stored
      exact ⟨p₂, stored₂, move.to_reflTransGen⟩

theorem valid_between (h : Valid Step T') (sub : T <+: T')
    (stored : Stored (last T) id p) : ∃ p', Stored (last T') id p' ∧ ReflTransGen Moves p p' := by
  apply h.evolves (R := fun s s' => ∀ p, Stored s id p → ∃ p', Stored s' id p' ∧ ReflTransGen Moves p p')
    ?_ ?_ ?_ sub p stored
  · intro s p stored
    exact ⟨p, stored, .refl⟩
  · intro s t u first second p stored
    obtain ⟨p₁, stored₁, moves₁⟩ := first p stored
    obtain ⟨p₂, stored₂, moves₂⟩ := second p₁ stored₁
    exact ⟨p₂, stored₂, moves₁.trans moves₂⟩
  · intro T e valid before step p stored
    obtain ⟨inv, seen⟩ := valid_moves valid
    rw [← before] at inv seen
    obtain ⟨p', stored', move⟩ := (step.kept inv seen).2 id p stored
    exact ⟨p', stored', move.to_reflTransGen⟩

theorem valid_unique (h : Valid Step T') (sub : T <+: T')
    (stored : Stored (last T) id p) (settled : Settled p) (stored' : Stored (last T') id' p') (settled' : Settled p')
    (same : p'.receipt.expectation = p.receipt.expectation) : id' = id := by
  obtain ⟨q, later, moves⟩ := valid_between h sub stored
  apply (valid_moves h).1.unique later stored' (moves_settled moves settled).1 settled'
  rw [(moves_keep moves).2.1]
  exact same

/-- What a finished Reference call rests on: the proposal at its last read. -/
theorem exec_reference (schedule : List (Action system)) {i : Nat} {want : ReferenceExpectation} {L : Log ports}
    {receipt : ApprovedReference}
    (returned : (exec system schedule).threads[i]? = some ⟨.reference want, L, .ret receipt⟩) :
    ∃ (before after : Trace) (read : Entry system) (id : Text) (p : ApprovalProposal),
      (exec system schedule).trace = before ++ read :: after ∧ read.thread = i ∧
      (∀ e ∈ after, e.thread ≠ i) ∧
      Stored read.before id p ∧ p.status = .approved ∧ p.receipt = receipt ∧ receipt.expectation = want ∧
      ⟨Query.resolveApprovedTarget want, .ok p.targetDigest⟩ ∈ L := by
  have sound := exec_sound code_steps schedule
  obtain ⟨T, ⟨D, trace, others⟩, h⟩ := sound.calls i _ returned
  obtain ⟨A, B, C, first, read, id, p, current, rfl, readBy, quiet, seen, stored, approved, expected, rfl,
    resolved⟩ := Returned.last h
  have valid := sound.valid
  rw [trace] at valid
  obtain ⟨earlier, before, -⟩ := (valid.restrict (T := A ++ first :: B ++ [read]) (by simp)).snoc_inv
  obtain ⟨p', stored', moves⟩ := (valid_moves earlier).2 first (by simp) id p seen
  rw [before] at stored
  obtain rfl : p' = current := Option.some.inj (stored'.symm.trans stored)
  obtain ⟨-, receipt, digest, -⟩ := moves_keep moves
  refine ⟨A ++ first :: B, C ++ D, read, id, p', ?_, readBy, ?_, before ▸ stored, approved, receipt, expected, ?_⟩
  · rw [trace]
    simp
  · intro e he
    rcases List.mem_append.mp he with he | he
    · exact quiet e he
    · exact others e he
  · rw [digest]
    exact resolved

/-- Behind a revocation no approved proposal for the same expectation is read. -/
theorem no_read_after {U : Trace} {e : Entry system}
    (valid : Valid Step (U ++ [e])) (sub : T <+: U) (stored : Stored (last T) id p) (revoked : p.status = .revoked)
    (read : Stored e.before id' p') (approved : p'.status = .approved)
    (same : p'.receipt.expectation = p.receipt.expectation) : False := by
  obtain ⟨earlier, before, -⟩ := valid.snoc_inv
  obtain ⟨q, later, moves⟩ := valid_between earlier sub stored
  obtain ⟨settled, -, ended⟩ := moves_settled moves (.inr revoked)
  obtain rfl := ended revoked
  rw [before] at read
  obtain rfl := (valid_moves earlier).1.unique later read settled (.inl approved) same
  obtain rfl : p' = q := Option.some.inj (read.symm.trans later)
  rw [revoked] at approved
  cases approved

/-- The approval ledger over every run and every continuation of it. A proposal
only moves, from pending on, and keeps its receipt, digest and maker; who approved
it was not its maker; an expectation is approved once; a Reference call returns
the receipt of that one proposal, approved at the call's last read and with the
digest that the call resolved; and once it is revoked no Reference call reads the
ledger again and returns. -/
theorem approvals_of_every_run (schedule later : List (Action system)) :
    (∀ id p, Stored (exec system schedule).store id p → ∃ p₀ p' : ApprovalProposal,
      Stored (exec system (schedule ++ later)).store id p' ∧ p₀.status = .pending ∧
      ReflTransGen Moves p₀ p ∧ ReflTransGen Moves p p' ∧
      p'.receipt = p.receipt ∧ p'.targetDigest = p.targetDigest ∧ p'.maker = p.maker) ∧
    (∀ id p, Stored (exec system schedule).store id p → Settled p → p.checker ≠ p.maker) ∧
    (∀ id id' p p', Stored (exec system schedule).store id p → Settled p →
      Stored (exec system (schedule ++ later)).store id' p' → Settled p' →
      p'.receipt.expectation = p.receipt.expectation → id' = id) ∧
    (∀ i want L receipt,
      (exec system (schedule ++ later)).threads[i]? = some ⟨.reference want, L, .ret receipt⟩ →
      (∃ (before after : Trace) (read : Entry system) (id : Text) (p : ApprovalProposal),
        (exec system (schedule ++ later)).trace = before ++ read :: after ∧ read.thread = i ∧
        (∀ e ∈ after, e.thread ≠ i) ∧
        Stored read.before id p ∧ p.status = .approved ∧ p.receipt = receipt ∧ receipt.expectation = want ∧
        ⟨Query.resolveApprovedTarget want, .ok p.targetDigest⟩ ∈ L ∧
        (∀ id' p', Stored (exec system (schedule ++ later)).store id' p' → Settled p' →
          p'.receipt.expectation = want → id' = id)) ∧
      (∀ id p, Stored (exec system schedule).store id p → p.status = .revoked → p.receipt.expectation = want →
        i < (exec system schedule).threads.length ∧
        ∀ e ∈ (exec system (schedule ++ later)).trace.drop (exec system schedule).trace.length,
          e.thread ≠ i)) := by
  have sound := exec_sound code_steps schedule
  have sound' := exec_sound code_steps (schedule ++ later)
  have sub := exec_trace schedule later
  rw [sound.store, sound'.store]
  refine ⟨?_, ?_, fun _ _ _ _ => valid_unique sound'.valid sub, ?_⟩
  · intro id p stored
    obtain ⟨-, -, -, p₀, pending, born⟩ := (valid_moves sound.valid).1.stored stored
    obtain ⟨p', stored', moves⟩ := valid_between sound'.valid sub stored
    exact ⟨p₀, p', stored', pending, born, moves, (moves_keep moves).2⟩
  · intro id p stored settled
    obtain ⟨-, -, -, p₀, life⟩ := (valid_moves sound.valid).1.stored stored
    exact life.checker settled
  · intro i want L receipt returned
    obtain ⟨before, after, read, id, p, trace, readBy, quiet, stored, approved, same, expected, resolved⟩ :=
      exec_reference (schedule ++ later) returned
    have valid := sound'.valid.restrict (T := before ++ [read]) ⟨after, by rw [trace]; simp⟩
    have start := valid.snoc_inv.2.1
    constructor
    · refine ⟨before, after, read, id, p, trace, readBy, quiet, stored, approved, same, expected, resolved, ?_⟩
      intro id' p' stored' settled' expected'
      rw [start] at stored
      apply valid_unique sound'.valid ⟨read :: after, trace.symm⟩ stored (.inl approved) stored' settled'
      rw [expected', same, expected]
    · intro id' p' stored' revoked expected'
      -- the last read cannot stand behind the revocation
      have inside : ¬ (exec system schedule).trace <+: before := by
        intro ahead
        apply no_read_after valid ahead stored' revoked stored approved
        rw [expected', same, expected]
      obtain ⟨D, grown⟩ := sub
      rw [← grown, List.drop_left]
      rw [← grown] at trace
      rcases List.append_eq_append_iff.mp trace with ⟨U, split_, -⟩ | ⟨U, split_, rest⟩
      · exact absurd ⟨U, split_.symm⟩ inside
      · cases U with
        | nil =>
          rw [List.append_nil] at split_
          exact absurd (split_ ▸ List.prefix_refl _) inside
        | cons e U =>
          obtain ⟨rfl, rfl⟩ := List.cons.inj rest
          constructor
          · rw [← readBy]
            exact sound.threads read (by rw [split_]; simp)
          · intro e he
            exact quiet e (List.mem_append_right _ he)

end Federation.ApprovalLedger
