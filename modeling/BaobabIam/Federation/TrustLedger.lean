import BaobabIam.Federation.Approvals
import BaobabIam.Federation.Snapshot

/-! The trust ledger. Propose, Decide, Trust and Contain are programs over four
buckets; each keeps the order of the source's checks, so that the answers a call
asks for, and the transactions between which others run, are the source's. -/
namespace Federation

open Wire Interleaving

structure TrustProposal where
  id : Text
  snapshot : TrustSnapshot
  target : ReferenceExpectation
  targetDigest : Text
  previousRevision : UInt64
  previousSnapshotID : Text
  maker : Text
  checker : Text
  status : ProposalStatus
  proposedAt : Time
  decidedAt : Time
  deriving DecidableEq

def TrustSnapshot.zero : TrustSnapshot := ⟨Trust.zero, 0, [], ⟨0, 0⟩⟩

def TrustProposal.fields : List (RecordField TrustProposal) :=
  [.of "ID" TrustProposal.id (fun v p => { p with id := v }),
   .of "Snapshot" TrustProposal.snapshot (fun v p => { p with snapshot := v }),
   .of "Target" TrustProposal.target (fun v p => { p with target := v }),
   .of "TargetDigest" TrustProposal.targetDigest (fun v p => { p with targetDigest := v }),
   .of "PreviousRevision" TrustProposal.previousRevision (fun v p => { p with previousRevision := v }),
   .of "PreviousSnapshotID" TrustProposal.previousSnapshotID
     (fun v p => { p with previousSnapshotID := v }),
   .of "Maker" TrustProposal.maker (fun v p => { p with maker := v }),
   .of "Checker" TrustProposal.checker (fun v p => { p with checker := v }),
   .of "Status" TrustProposal.status (fun v p => { p with status := v }),
   .of "ProposedAt" TrustProposal.proposedAt (fun v p => { p with proposedAt := v }),
   .of "DecidedAt" TrustProposal.decidedAt (fun v p => { p with decidedAt := v })]

instance : Codec TrustProposal :=
  recordCodec TrustProposal.fields
    ⟨[], TrustSnapshot.zero, ReferenceExpectation.zero, [], 0, [], [], [], .pending, ⟨0, 0⟩, ⟨0, 0⟩⟩
    (by decide +kernel) (by intro p; cases p; rfl)

structure CommittedTrust where
  snapshot : TrustSnapshot
  scope : Scope
  proposalID : Text
  maker : Text
  checker : Text
  decidedAt : Time
  containmentActor : Text := []
  containedAt : Option Time := none
  deriving DecidableEq

def CommittedTrust.fields : List (RecordField CommittedTrust) :=
  [.of "Snapshot" CommittedTrust.snapshot (fun v c => { c with snapshot := v }),
   .of "Scope" CommittedTrust.scope (fun v c => { c with scope := v }),
   .of "ProposalID" CommittedTrust.proposalID (fun v c => { c with proposalID := v }),
   .of "Maker" CommittedTrust.maker (fun v c => { c with maker := v }),
   .of "Checker" CommittedTrust.checker (fun v c => { c with checker := v }),
   .of "DecidedAt" CommittedTrust.decidedAt (fun v c => { c with decidedAt := v }),
   .omitEmpty "ContainmentActor" List.isEmpty CommittedTrust.containmentActor
     (fun v c => { c with containmentActor := v }),
   .omitEmpty "ContainedAt" Option.isNone CommittedTrust.containedAt
     (fun v c => { c with containedAt := v })]

instance : Codec CommittedTrust :=
  recordCodec CommittedTrust.fields ⟨TrustSnapshot.zero, ⟨[], []⟩, [], [], [], ⟨0, 0⟩, [], none⟩
    (by decide) (by
      rintro ⟨snapshot, scope, proposal, maker, checker, decided, actor, contained⟩
      cases actor <;> cases contained <;> rfl)

structure TrustStore where
  trusts : Bucket
  proposals : Bucket
  history : Bucket
  clock : Bucket

def TrustStore.empty : TrustStore := ⟨.empty, .empty, .empty, .empty⟩

def historyKey (id : Text) (revision : UInt64) : Text := id ++ ':' :: Text.padded 10 20 revision.toNat

def allowedStatus : TrustStatus → List TrustStatus
  | .requested => [.configuring, .revoked]
  | .configuring => [.verifying, .revoked]
  | .verifying => [.configuring, .active, .revoked]
  | .active => [.suspended, .rotating, .revoked]
  | .suspended => [.verifying, .revoked]
  | .rotating => [.verifying, .revoked]
  | .revoked | .other .. => []

def trustTransition (previous current : Trust) : Bool :=
  current.organisationIDs == previous.organisationIDs && current.estateIDs == previous.estateIDs &&
  current.providerBinding.providerID == previous.providerBinding.providerID &&
  current.providerBinding.engineInstanceID == previous.providerBinding.engineInstanceID &&
  current.id == previous.id && previous.revision != 0xFFFFFFFFFFFFFFFF &&
  current.revision == previous.revision + 1 && current.protocol == previous.protocol &&
  current.upstreamIssuer == previous.upstreamIssuer && current.createdAt.equal previous.createdAt &&
  !current.updatedAt.before previous.updatedAt && previous.status != .revoked &&
  if previous.status == current.status then previous.status != .active
  else (allowedStatus previous.status).contains current.status

def activationReferences (s : TrustSnapshot) (scope : Scope) : List ReferenceExpectation :=
  let want (id : Text) (kind : ReferenceKind) : ReferenceExpectation :=
    { id, kind, trustID := s.trust.id, snapshotID := s.snapshotID, trustRevision := s.approvedRevision,
      providerID := s.trust.providerBinding.providerID,
      engineInstanceID := s.trust.providerBinding.engineInstanceID, scope }
  [want s.trust.providerBinding.configurationReference .federationConfiguration,
   want s.trust.providerBinding.trustMaterialReference .federationTrustMaterial,
   want s.trust.assurancePolicyReference .assurancePolicy,
   want s.trust.attributeMappingReference .attributeMapping,
   want s.trust.provisioningPolicyReference .provisioningPolicy,
   want s.trust.activationEvidenceReference .federationActivation]

namespace TrustLedger

abbrev Op := Prog ports TrustStore Fault
abbrev Body := Tx ports TrustStore Fault

def observeClock : Body Unit := do
  let now ← Ledger.now
  let clock ← Tx.read TrustStore.clock
  let clock ← Ledger.orFail .denied (advanceClock clock now.utc)
  Tx.write (fun s => { s with clock := clock })

def fence : Op Unit := transaction authorityError observeClock

def actor (action : ApprovalAction) (want : ReferenceExpectation) : Op ApprovalActor := do
  let ended ← cancelled
  Prog.require (!ended) .unavailable
  fence
  let answer ← authorizeApproval action want
  let actor ← Prog.ofExcept (answer.mapError authorityError)
  Prog.require (uuidPattern actor.principalID) .denied
  let t ← now
  Prog.require (t.before actor.validUntil) .denied
  return actor

def readable (id : Text) (value : CommittedTrust) : Bool :=
  value.snapshot.trust.id == id && value.snapshot.approvedRevision == value.snapshot.trust.revision &&
  exact value.snapshot.snapshotID && validateTrust value.snapshot.trust && validScope value.scope &&
  uuidPattern value.maker && uuidPattern value.checker && value.maker != value.checker

def read (id : Text) : Op CommittedTrust := do
  let ended ← cancelled
  Prog.require (!ended && uuidPattern id) .invalid
  let value ← transaction authorityError (do
    let trusts ← Tx.read TrustStore.trusts
    let raw ← Ledger.orFail .unverified (trusts.get id)
    Ledger.orFail .invalid (decodeAuthority raw))
  Prog.require (readable id value) .invalid
  return value

/-- The record a transaction finds; without a stored text there is none. -/
def current (id : Text) : Body (Option CommittedTrust) := do
  let trusts ← Tx.read TrustStore.trusts
  match trusts.get id with
  | none => return none
  | some raw => do
    let value ← Ledger.orFail .invalid (decodeAuthority raw)
    return some value

def approvedRevision : Option CommittedTrust → UInt64
  | none => 0
  | some c => c.snapshot.approvedRevision

def snapshotID : Option CommittedTrust → Text
  | none => []
  | some c => c.snapshot.snapshotID

def putTrustRevision (id : Text) (revision : UInt64) (data : Text) : Body Unit := do
  let key := historyKey id revision
  let history ← Tx.read TrustStore.history
  Tx.require (history.get key).isNone .denied
  Tx.write (fun s => { s with history := s.history.put key data, trusts := s.trusts.put id data })

/-- The context is live and the clock is before both limits, read one by one. -/
def withinLimits (actorUntil validUntil : Time) : Body Unit := do
  let ended ← Ledger.cancelled
  Tx.require (!ended) .denied
  let first ← Ledger.now
  Tx.require (first.before actorUntil) .denied
  let second ← Ledger.now
  Tx.require (second.before validUntil) .denied

def proposable (id : Text) (candidate : TrustSnapshot) (want : ReferenceExpectation) : Bool :=
  uuidPattern id && validateTrust candidate.trust && validExpectation want &&
  want.kind == .federationActivation && want.trustID == candidate.trust.id &&
  want.trustRevision == candidate.trust.revision && want.snapshotID == candidate.snapshotID &&
  want.providerID == candidate.trust.providerBinding.providerID &&
  want.engineInstanceID == candidate.trust.providerBinding.engineInstanceID &&
  exact candidate.snapshotID && candidate.approvedRevision == candidate.trust.revision &&
  candidate.trust.organisationIDs == [want.scope.organisationID] &&
  candidate.trust.estateIDs == [want.scope.estateID]

/-- The record that the candidate follows; a first record is a request. -/
def previous (candidate : TrustSnapshot) : Op (Option CommittedTrust) := do
  let found ← (read candidate.trust.id).attempt
  match found with
  | .ok previous => do
    Prog.require (trustTransition previous.snapshot.trust candidate.trust) .denied
    return some previous
  | .error .unverified => do
    Prog.require (candidate.trust.status == .requested && candidate.trust.revision == 1) .denied
    return none
  | .error e => .fail e

/-- The actor is asked for again; any failure or change is a denial. -/
def sameActor (action : ApprovalAction) (want : ReferenceExpectation) (principalID : Text) :
    Op ApprovalActor := do
  let again ← (actor action want).attempt
  match again with
  | .ok a => do
    Prog.require (a.principalID == principalID) .denied
    return a
  | .error _ => .fail .denied

def newProposal (id : Text) (candidate : TrustSnapshot) (want : ReferenceExpectation) (digest : Text)
    (previous : Option CommittedTrust) (maker : Text) (proposedAt : Time) : TrustProposal :=
  { id, snapshot := candidate, target := want, targetDigest := digest,
    previousRevision := approvedRevision previous, previousSnapshotID := snapshotID previous,
    maker, checker := [], status := .pending, proposedAt, decidedAt := ⟨0, 0⟩ }

def proposeBody (p : TrustProposal) (actorUntil : Time) : Body Unit := do
  observeClock
  withinLimits actorUntil p.snapshot.validUntil
  let proposals ← Tx.read TrustStore.proposals
  Tx.require (proposals.get p.id).isNone .denied
  let current ← current p.snapshot.trust.id
  Tx.require (approvedRevision current == p.previousRevision &&
    snapshotID current == p.previousSnapshotID) .denied
  Tx.write (fun s => { s with proposals := s.proposals.put p.id (marshal p) })

def propose (id : Text) (candidate : TrustSnapshot) (want : ReferenceExpectation) : Op TrustProposal := do
  Prog.require (proposable id candidate want) .invalid
  let actor ← actor .propose want
  let now ← now
  Prog.require (!candidate.trust.updatedAt.after now && now.before candidate.validUntil) .denied
  let previous ← previous candidate
  let answer ← resolveApprovedTarget want
  let digest ← Prog.ofExcept (answer.mapError authorityError)
  Prog.require (digest == trustSnapshotDigest candidate) .unverified
  let currentActor ← sameActor .propose want actor.principalID
  let p := newProposal id candidate want digest previous actor.principalID now
  transaction authorityError (proposeBody p currentActor.validUntil)
  return p

def proposal (id : Text) : Op TrustProposal := do
  let ended ← cancelled
  Prog.require (!ended && uuidPattern id) .invalid
  transaction authorityError (do
    let proposals ← Tx.read TrustStore.proposals
    Ledger.orFail .invalid (decodeAuthority ((proposals.get id).getD [])))

def checkReferences (validUntil : Time) : List ReferenceExpectation → Op Unit
  | [] => return ()
  | want :: rest => do
    let answer ← referencePort want
    let receipt ← Prog.ofExcept (answer.mapError authorityError)
    Prog.require (receipt.expectation == want && receipt.status == "APPROVED".toList && receipt.nonSecret)
      .unverified
    let t ← now
    Prog.require (fresh receipt.validFrom receipt.expiresAt t && !receipt.expiresAt.before validUntil)
      .unverified
    checkReferences validUntil rest

def activation (s : TrustSnapshot) (scope : Scope) : Op Unit :=
  if s.trust.status = .active then checkReferences s.validUntil (activationReferences s scope)
  else return ()

def decidedProposal (p : TrustProposal) (checker : Text) (decidedAt : Time) (approve : Bool) :
    TrustProposal :=
  { p with checker, decidedAt, status := if approve then .approved else .rejected }

def approvedTrust (p : TrustProposal) : CommittedTrust :=
  { snapshot := p.snapshot, scope := p.target.scope, proposalID := p.id, maker := p.maker,
    checker := p.checker, decidedAt := p.decidedAt }

def follows (current : Option CommittedTrust) (next : Trust) : Bool :=
  match current with
  | none => true
  | some c => trustTransition c.snapshot.trust next

def commitApproval (p : TrustProposal) : Body Unit := do
  let current ← current p.snapshot.trust.id
  Tx.require (approvedRevision current == p.previousRevision &&
    snapshotID current == p.previousSnapshotID) .denied
  Tx.require (follows current p.snapshot.trust) .denied
  putTrustRevision p.snapshot.trust.id p.snapshot.approvedRevision (marshal (approvedTrust p))

def decideBody (id : Text) (p : TrustProposal) (actorUntil : Time) (approve : Bool) : Body Unit := do
  observeClock
  withinLimits actorUntil p.snapshot.validUntil
  let proposals ← Tx.read TrustStore.proposals
  let pending ← Ledger.orFail .denied (decodeAuthority (α := TrustProposal) ((proposals.get id).getD []))
  Tx.require (pending.status == .pending) .denied
  Tx.when approve (commitApproval p)
  Tx.write (fun s => { s with proposals := s.proposals.put id (marshal p) })

protected def decide (id digest : Text) (approve : Bool) : Op TrustProposal := do
  let p ← proposal id
  Prog.require (p.status == .pending && p.targetDigest == digest) .denied
  let actor ← actor .decide p.target
  Prog.require (actor.principalID != p.maker) .denied
  let answer ← resolveApprovedTarget p.target
  let actual ← Prog.ofExcept (answer.mapError authorityError)
  Prog.require (actual == digest && actual == trustSnapshotDigest p.snapshot) .unverified
  Prog.when approve (activation p.snapshot p.target.scope)
  let currentActor ← sameActor .decide p.target actor.principalID
  let decidedAt ← now
  let decided := decidedProposal p actor.principalID decidedAt approve
  transaction authorityError (decideBody id decided currentActor.validUntil approve)
  return decided

def trust (id : Text) : Op TrustSnapshot := do
  let value ← read id
  fence
  let first ← now
  Prog.require (first.before value.snapshot.validUntil && validateTrust value.snapshot.trust) .unverified
  activation value.snapshot value.scope
  fence
  let current ← read id
  let last ← now
  Prog.require (last.before value.snapshot.validUntil && sameSnapshot value.snapshot current.snapshot)
    .unverified
  return value.snapshot

def containedTrust (c : CommittedTrust) (status : TrustStatus) (at_ : Time) (snapshotID principalID : Text) :
    CommittedTrust :=
  let s := c.snapshot
  let trust : Trust :=
    { s.trust with
      revision := s.trust.revision + 1
      status
      updatedAt := at_
      revokedAt := if status = .revoked then some at_ else s.trust.revokedAt }
  { c with
    snapshot := { s with trust, approvedRevision := trust.revision, snapshotID }
    containmentActor := principalID
    containedAt := some at_ }

def containmentTarget (id : Text) (c : CommittedTrust) (revision : UInt64) : ReferenceExpectation :=
  { id := c.snapshot.trust.providerBinding.configurationReference, kind := .federationConfiguration,
    trustID := id, snapshotID := c.snapshot.snapshotID, trustRevision := revision,
    providerID := c.snapshot.trust.providerBinding.providerID,
    engineInstanceID := c.snapshot.trust.providerBinding.engineInstanceID, scope := c.scope }

def containBody (id : Text) (revision : UInt64) (seen : Text) (value : CommittedTrust)
    (actorUntil : Time) : Body Unit := do
  observeClock
  let ended ← Ledger.cancelled
  Tx.require (!ended) .denied
  let t ← Ledger.now
  Tx.require (t.before actorUntil) .denied
  let trusts ← Tx.read TrustStore.trusts
  let live ← Ledger.orFail .denied (decodeAuthority (α := CommittedTrust) ((trusts.get id).getD []))
  Tx.require (live.snapshot.approvedRevision == revision && live.snapshot.snapshotID == seen) .denied
  putTrustRevision id value.snapshot.approvedRevision (marshal value)

def contain (id : Text) (revision : UInt64) (status : TrustStatus) : Op Unit := do
  Prog.require (status == .suspended || status == .revoked) .invalid
  let current ← read id
  Prog.require (current.snapshot.approvedRevision == revision &&
    current.snapshot.trust.status != .revoked &&
    (status != .suspended || current.snapshot.trust.status == .active)) .denied
  let actor ← actor .revoke (containmentTarget id current revision)
  let t ← now
  let snapshotID ← randomUUID
  let value := containedTrust current status t snapshotID actor.principalID
  Prog.require (trustTransition current.snapshot.trust value.snapshot.trust &&
    validateTrust value.snapshot.trust) .denied
  transaction authorityError
    (containBody id revision current.snapshot.snapshotID value actor.validUntil)

inductive Call where
  | propose (id : Text) (candidate : TrustSnapshot) (want : ReferenceExpectation)
  | decide (id digest : Text) (approve : Bool)
  | trust (id : Text)
  | contain (id : Text) (revision : UInt64) (status : TrustStatus)

abbrev Call.Result : Call → Type
  | .propose _ _ _ => TrustProposal
  | .decide _ _ _ => TrustProposal
  | .trust _ => TrustSnapshot
  | .contain _ _ _ => Unit

def code : (c : Call) → Op c.Result
  | .propose id candidate want => propose id candidate want
  | .decide id digest approve => TrustLedger.decide id digest approve
  | .trust id => trust id
  | .contain id revision status => contain id revision status

/-- Any calls by any actors on one ledger that starts empty. -/
def system : System ports TrustStore Fault where
  Call := Call
  Result := Call.Result
  code := code
  init := TrustStore.empty
  admits _ _ _ _ := true

end TrustLedger

end Federation
