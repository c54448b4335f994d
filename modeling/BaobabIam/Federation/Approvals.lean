import BaobabIam.Federation.Storage

/-! The approval ledger: Propose, Decide, Revoke and Reference over one bucket that
holds the proposals and, for each approved expectation, the id of its proposal.
The order of the checks is the source's. -/
namespace Federation

open Wire Interleaving

inductive ProposalStatus where
  | pending | approved | rejected | revoked
  deriving DecidableEq, Repr

def ProposalStatus.name : ProposalStatus → Text
  | .pending => "PENDING"
  | .approved => "APPROVED"
  | .rejected => "REJECTED"
  | .revoked => "REVOKED"

instance : Codec ProposalStatus :=
  nameCodec ProposalStatus.name [.pending, .approved, .rejected, .revoked]
    (by intro a b; cases a <;> cases b <;> decide) (by intro a; cases a <;> decide)

structure ApprovalProposal where
  id : Text
  receipt : ApprovedReference
  targetDigest : Text
  maker : Text
  checker : Text
  status : ProposalStatus
  proposedAt : Time
  decidedAt : Time
  revoker : Text := []
  revokedAt : Option Time := none
  deriving DecidableEq

def ReferenceExpectation.zero : ReferenceExpectation :=
  ⟨[], .federationConfiguration, [], [], 0, [], [], ⟨[], []⟩, [], [], [], [], [], [], []⟩

def ApprovedReference.zero : ApprovedReference := ⟨ReferenceExpectation.zero, [], false, ⟨0, 0⟩, ⟨0, 0⟩⟩

def ApprovalProposal.fields : List (RecordField ApprovalProposal) :=
  [.of "ID" ApprovalProposal.id (fun v p => { p with id := v }),
   .of "Receipt" ApprovalProposal.receipt (fun v p => { p with receipt := v }),
   .of "TargetDigest" ApprovalProposal.targetDigest (fun v p => { p with targetDigest := v }),
   .of "Maker" ApprovalProposal.maker (fun v p => { p with maker := v }),
   .of "Checker" ApprovalProposal.checker (fun v p => { p with checker := v }),
   .of "Status" ApprovalProposal.status (fun v p => { p with status := v }),
   .of "ProposedAt" ApprovalProposal.proposedAt (fun v p => { p with proposedAt := v }),
   .of "DecidedAt" ApprovalProposal.decidedAt (fun v p => { p with decidedAt := v }),
   .omitEmpty "Revoker" List.isEmpty ApprovalProposal.revoker (fun v p => { p with revoker := v }),
   .omitEmpty "RevokedAt" Option.isNone ApprovalProposal.revokedAt (fun v p => { p with revokedAt := v })]

instance : Codec ApprovalProposal :=
  recordCodec ApprovalProposal.fields
    ⟨[], ApprovedReference.zero, [], [], [], .pending, ⟨0, 0⟩, ⟨0, 0⟩, [], none⟩ (by decide +kernel) (by
      rintro ⟨id, receipt, digest, maker, checker, status, proposed, decided, revoker, revoked⟩
      cases revoker <;> cases revoked <;> rfl)

def approvalKey (id : Text) : Text := "proposal:".toList ++ id

def receiptKey (want : ReferenceExpectation) : Text := "current:".toList ++ Sha256.hex (marshal want)

namespace ApprovalLedger

structure Store where
  approvals : Bucket

abbrev Op := Prog ports Store Fault
abbrev Body := Tx ports Store Fault

def actor (action : ApprovalAction) (want : ReferenceExpectation) : Op ApprovalActor := do
  let ended ← cancelled
  Prog.require (!ended) .unavailable
  let answer ← authorizeApproval action want
  let a ← Prog.ofExcept (answer.mapError authorityError)
  Prog.require (uuidPattern a.principalID) .denied
  let t ← now
  Prog.require (t.before a.validUntil) .denied
  return a

def target (want : ReferenceExpectation) : Op Text := do
  let answer ← resolveApprovedTarget want
  let d ← Prog.ofExcept (answer.mapError authorityError)
  Prog.require (digestPattern d) .unverified
  return d

/-- The actor is asked for again and must be the same. -/
def sameActor (action : ApprovalAction) (want : ReferenceExpectation) (principalID : Text) :
    Op ApprovalActor := do
  let again ← actor action want
  Prog.require (again.principalID == principalID) .denied
  return again

def proposable (id : Text) (receipt : ApprovedReference) : Bool :=
  uuidPattern id && validExpectation receipt.expectation && receipt.status == "APPROVED".toList &&
  receipt.nonSecret

def newProposal (id : Text) (receipt : ApprovedReference) (digest maker : Text) (proposedAt : Time) :
    ApprovalProposal :=
  { id, receipt, targetDigest := digest, maker, checker := [], status := .pending, proposedAt,
    decidedAt := ⟨0, 0⟩ }

def proposeBody (p : ApprovalProposal) (actorUntil : Time) : Body Unit := do
  let ended ← Ledger.cancelled
  Tx.require (!ended) .denied
  let first ← Ledger.now
  Tx.require (first.before actorUntil) .denied
  let second ← Ledger.now
  Tx.require (second.before p.receipt.expiresAt) .denied
  let b ← Tx.read Store.approvals
  Tx.require (b.get (approvalKey p.id)).isNone .denied
  Tx.write (fun s => { s with approvals := s.approvals.put (approvalKey p.id) (marshal p) })

def propose (id : Text) (receipt : ApprovedReference) : Op ApprovalProposal := do
  Prog.require (proposable id receipt) .invalid
  let a ← actor .propose receipt.expectation
  let d ← target receipt.expectation
  let currentActor ← sameActor .propose receipt.expectation a.principalID
  let now ← now
  Prog.require (fresh receipt.validFrom receipt.expiresAt now && now.before currentActor.validUntil) .denied
  let p := newProposal id receipt d currentActor.principalID now
  transaction authorityError (proposeBody p currentActor.validUntil)
  return p

def proposal (id : Text) : Op ApprovalProposal := do
  let ended ← cancelled
  Prog.require (!ended && uuidPattern id) .invalid
  transaction authorityError (do
    let b ← Tx.read Store.approvals
    let raw ← Ledger.orFail .denied (b.get (approvalKey id))
    Ledger.orFail .invalid (decodeAuthority raw))

def decidedProposal (p : ApprovalProposal) (checker : Text) (decidedAt : Time) (approve : Bool) :
    ApprovalProposal :=
  { p with checker, decidedAt, status := if approve then .approved else .rejected }

/-- The index entry of an approval; an entry that exists is not replaced. -/
def putReceipt (want : ReferenceExpectation) (id : Text) : Body Unit := do
  let b ← Tx.read Store.approvals
  Tx.require (b.get (receiptKey want)).isNone .denied
  Tx.write (fun s => { s with approvals := s.approvals.put (receiptKey want) id })

def decideBody (id digest : Text) (p : ApprovalProposal) (actorUntil : Time) (approve : Bool) : Body Unit := do
  let ended ← Ledger.cancelled
  Tx.require (!ended) .denied
  let first ← Ledger.now
  Tx.require (first.before actorUntil) .denied
  let second ← Ledger.now
  Tx.require (fresh p.receipt.validFrom p.receipt.expiresAt second) .denied
  let b ← Tx.read Store.approvals
  let current ← Ledger.orFail .denied
    (decodeAuthority (α := ApprovalProposal) ((b.get (approvalKey id)).getD []))
  Tx.require (current.status == .pending && current.targetDigest == digest) .denied
  Tx.when approve (putReceipt p.receipt.expectation id)
  Tx.write (fun s => { s with approvals := s.approvals.put (approvalKey id) (marshal p) })

protected def decide (id digest : Text) (approve : Bool) : Op ApprovalProposal := do
  let p ← proposal id
  Prog.require (p.status == .pending && digest == p.targetDigest) .denied
  let a ← actor .decide p.receipt.expectation
  Prog.require (a.principalID != p.maker) .denied
  let d ← target p.receipt.expectation
  Prog.require (d == digest) .unverified
  let currentActor ← sameActor .decide p.receipt.expectation a.principalID
  let decidedAt ← now
  let decided := decidedProposal p currentActor.principalID decidedAt approve
  transaction authorityError (decideBody id digest decided currentActor.validUntil approve)
  return decided

def revokedProposal (p : ApprovalProposal) (revoker : Text) (at_ : Time) : ApprovalProposal :=
  { p with status := .revoked, revokedAt := some at_, revoker }

def revokeBody (id : Text) (a : ApprovalActor) : Body Unit := do
  let ended ← Ledger.cancelled
  Tx.require (!ended) .denied
  let t ← Ledger.now
  Tx.require (t.before a.validUntil) .denied
  let b ← Tx.read Store.approvals
  let current ← Ledger.orFail .denied
    (decodeAuthority (α := ApprovalProposal) ((b.get (approvalKey id)).getD []))
  Tx.require (current.status == .approved) .denied
  let revokedAt ← Ledger.now
  Tx.write (fun s => { s with
    approvals := s.approvals.put (approvalKey id) (marshal (revokedProposal current a.principalID revokedAt)) })

def revoke (id : Text) : Op Unit := do
  let p ← proposal id
  let a ← actor .revoke p.receipt.expectation
  transaction authorityError (revokeBody id a)

def reference (want : ReferenceExpectation) : Op ApprovedReference := do
  let ended ← cancelled
  Prog.require (!ended && validExpectation want) .invalid
  let id ← transaction authorityError (do
    let b ← Tx.read Store.approvals
    Ledger.orFail .unverified (b.get (receiptKey want)))
  let p ← proposal id
  Prog.require (p.status == .approved && p.maker != p.checker && p.receipt.expectation == want) .unverified
  let first ← now
  Prog.require (fresh p.receipt.validFrom p.receipt.expiresAt first) .unverified
  let d ← target want
  Prog.require (d == p.targetDigest) .unverified
  let current ← proposal id
  Prog.require (current.status == .approved) .unverified
  let ended ← cancelled
  Prog.require (!ended) .unverified
  let last ← now
  Prog.require (fresh p.receipt.validFrom p.receipt.expiresAt last) .unverified
  return p.receipt

inductive Call where
  | propose (id : Text) (receipt : ApprovedReference)
  | decide (id digest : Text) (approve : Bool)
  | revoke (id : Text)
  | reference (want : ReferenceExpectation)

abbrev Call.Result : Call → Type
  | .propose _ _ => ApprovalProposal
  | .decide _ _ _ => ApprovalProposal
  | .revoke _ => Unit
  | .reference _ => ApprovedReference

def code : (c : Call) → Op c.Result
  | .propose id receipt => propose id receipt
  | .decide id digest approve => ApprovalLedger.decide id digest approve
  | .revoke id => revoke id
  | .reference want => reference want

def system : System ports Store Fault where
  Call := Call
  Result := Call.Result
  code := code
  init := ⟨.empty⟩
  admits _ _ _ _ := true

end ApprovalLedger

end Federation
