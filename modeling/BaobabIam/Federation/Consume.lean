import BaobabIam.Federation.ApprovalSteps
import BaobabIam.Federation.TrustSteps
import BaobabIam.Base.Network

/-! The consumer of a login event. Consume asks its authorities one after the other,
the trust twice, and keeps no state of its own. Its governance is the trust ledger,
whose references are the approval ledger: in the network of the three, a question
about a trust or a receipt is a call of the ledger that holds it. -/
namespace Federation

open Wire Interleaving

namespace Consumer

structure Policy where
  scope : Scope
  maxEventLifetime : Int
  maxAuthenticationAge : Int
  maxDecisionLifetime : Int
  validScope : validScope scope = true
  positive : 0 < maxEventLifetime ∧ 0 < maxAuthenticationAge ∧ 0 < maxDecisionLifetime

structure Decision where
  principalID : Text
  externalIdentityID : Text
  authenticationEventID : Text
  assuranceLevel : Text
  expiresAt : Time
  deriving DecidableEq

structure PlatformSnapshot where
  providerID : Text
  engineInstanceID : Text
  scope : Scope
  providerStatus : Text
  instanceStatus : Text
  bindingStatus : Text
  runtimeCapability : Text
  supportStatus : Text
  artifactDigest : Text
  deployedArtifactDigest : Text
  profileRevision : UInt64
  evidenceExpiresAt : Time
  deriving DecidableEq

structure CanonicalIdentity where
  issuer : Text
  subject : Text
  principalID : Text
  externalIdentityID : Text
  mappingReference : Text
  principalStatus : Text
  externalIdentityStatus : Text
  actorType : Text
  mappingBasis : Text
  validUntil : Time
  deriving DecidableEq

inductive Query where
  | now
  | cancelled
  | trust (id : Text)
  | reference (want : ReferenceExpectation)
  | federationBinding (binding : Binding) (scope : Scope) (facet : Text)
  | verify (eventID : Text) (s : TrustSnapshot)
  | resolve (issuer subject : Text)
  deriving DecidableEq

abbrev Query.Answer : Query → Type
  | .now => Time
  | .cancelled => Bool
  | .trust _ => Except Fault TrustSnapshot
  | .reference _ => Except Fault ApprovedReference
  | .federationBinding _ _ _ => Except Fault PlatformSnapshot
  | .verify _ _ => Except Fault (ExternalPrincipal × Assurance)
  | .resolve _ _ => Except Fault CanonicalIdentity

abbrev ports : Interface := ⟨Query, Query.Answer⟩

abbrev Op := Prog ports Unit Fault

def authority {α : Type} (answer : Except Fault α) : Op α := Prog.ofExcept (answer.mapError authorityError)

def duration (a b : Time) : Int := max (-(2 ^ 63)) (min (a.sub b) (2 ^ 63 - 1))

/-- The snapshot is the approved one of this trust, at this time. -/
def usable (trustID : Text) (now : Time) (s : TrustSnapshot) : Bool :=
  s.trust.id == trustID && !s.snapshotID.isEmpty && s.approvedRevision == s.trust.revision && 1 ≤ s.trust.revision &&
  !s.trust.updatedAt.after now && now.before s.validUntil

def governs (scope : Scope) (t : Trust) : Bool :=
  t.organisationIDs.contains scope.organisationID && t.estateIDs.contains scope.estateID &&
    validBinding t.providerBinding

def base (scope : Scope) (s : TrustSnapshot) (id : Text) (kind : ReferenceKind) : ReferenceExpectation :=
  { id, kind, trustID := s.trust.id, snapshotID := s.snapshotID, trustRevision := s.trust.revision,
    providerID := s.trust.providerBinding.providerID, engineInstanceID :=
      s.trust.providerBinding.engineInstanceID, scope }

def references (scope : Scope) (s : TrustSnapshot) : List ReferenceExpectation :=
  [base scope s s.trust.providerBinding.configurationReference .federationConfiguration,
   base scope s s.trust.providerBinding.trustMaterialReference .federationTrustMaterial,
   base scope s s.trust.assurancePolicyReference .assurancePolicy,
   base scope s s.trust.attributeMappingReference .attributeMapping,
   base scope s s.trust.provisioningPolicyReference .provisioningPolicy,
   base scope s s.trust.activationEvidenceReference .federationActivation]

def approves (want : ReferenceExpectation) (now : Time) (receipt : ApprovedReference) : Bool :=
  receipt.expectation == want && receipt.status == "APPROVED".toList && receipt.nonSecret &&
  fresh receipt.validFrom receipt.expiresAt now

/-- One receipt; the decision does not outlast it. -/
def check (now expires : Time) (want : ReferenceExpectation) : Op Time := do
  Prog.require (validRef want.id) .invalid
  let answer ← Prog.question (I := ports) (.reference want)
  let receipt ← authority answer
  Prog.require (approves want now receipt) .unverified
  return minimum expires [receipt.expiresAt]

def checkAll (now : Time) : Time → List ReferenceExpectation → Op Time
  | expires, [] => return expires
  | expires, want :: rest => do
    let expires ← check now expires want
    checkAll now expires rest

def facet (t : Trust) : Text := if t.protocol = .saml2 then "SAML_FEDERATION" else "OIDC_FEDERATION"

def boundPlatform (scope : Scope) (t : Trust) (p : PlatformSnapshot) : Bool :=
  p.providerID == t.providerBinding.providerID && p.engineInstanceID == t.providerBinding.engineInstanceID &&
  p.scope == scope && p.providerStatus == "ACTIVE".toList && p.instanceStatus == "ACTIVE".toList &&
  p.bindingStatus == "ACTIVE".toList

def supportedPlatform (t : Trust) (now : Time) (p : PlatformSnapshot) : Bool :=
  p.supportStatus == "VERIFIED".toList && p.runtimeCapability == facet t && 1 ≤ p.profileRevision &&
  digestPattern p.artifactDigest && p.artifactDigest == p.deployedArtifactDigest && now.before p.evidenceExpiresAt

/-- The time of the authentication, or of the last step up. A bundle that passed its
checks has one of the two kinds of evidence. -/
def authenticatedAt (u : UpstreamEvidence) : Time :=
  match u.oidc, u.saml with
  | some e, _ => e.stepUpAt.getD e.authenticatedAt
  | none, some e => e.authenticatedAt
  | none, none => ⟨0, 0⟩

@[irreducible] def evidenceDigest (encoded : Json) : Text := "sha256:".toList ++ Sha256.hex (render encoded)

def mappingDecision (scope : Scope) (s : TrustSnapshot) (eventID : Text) (p : ExternalPrincipal) (a : Assurance)
    (encoded : Json) : ReferenceExpectation :=
  { base scope s a.mappingEvidenceReference .assuranceMappingDecision with
    eventID, issuer := p.issuer, subject := p.subject, level := a.level, evidenceDigest := evidenceDigest encoded }

def canonicalMapping (scope : Scope) (s : TrustSnapshot) (p : ExternalPrincipal) (c : CanonicalIdentity) :
    ReferenceExpectation :=
  { base scope s c.mappingReference .canonicalIdentityMapping with
    issuer := p.issuer, subject := p.subject, principalID := c.principalID, externalIdentityID := c.externalIdentityID }

def currentIdentity (p : ExternalPrincipal) (now : Time) (c : CanonicalIdentity) : Bool :=
  c.issuer == p.issuer && c.subject == p.subject && c.mappingBasis == "ISSUER_SUBJECT".toList &&
  c.principalStatus == "ACTIVE".toList && c.externalIdentityStatus == "ACTIVE".toList &&
    c.actorType == "human".toList &&
  uuidPattern c.principalID && uuidPattern c.externalIdentityID && validRef c.mappingReference &&
    now.before c.validUntil

def agrees (r : Resolution) (c : CanonicalIdentity) : Bool :=
  r.status != .resolved || (r.principalID == c.principalID && r.externalIdentityID == c.externalIdentityID &&
    r.mappingReference == c.mappingReference)

def unchanged (s latest : TrustSnapshot) : Bool :=
  latest.trust.id == s.trust.id && latest.trust.status == .active && latest.trust.revision == s.trust.revision &&
  latest.approvedRevision == s.approvedRevision && latest.snapshotID == s.snapshotID && latest.trust == s.trust

/-- The event and its assurance, inside the limits of the policy. -/
def acceptable (p : Policy) (now : Time) (e : ExternalPrincipal) (a : Assurance) : Bool :=
  fresh e.observedAt e.expiresAt now && fresh a.evaluatedAt a.expiresAt now &&
  duration e.expiresAt e.observedAt ≤ p.maxEventLifetime

/-- The trust and its receipts, before anything is known about the event. -/
def governed (p : Policy) (trustID : Text) (now : Time) : Op (TrustSnapshot × Time) := do
  let answer ← Prog.question (I := ports) (.trust trustID)
  let snapshot ← authority answer
  Prog.require (usable trustID now snapshot) .unverified
  Prog.require (snapshot.trust.status == .active) .denied
  Prog.require (governs p.scope snapshot.trust) .denied
  let expires ← checkAll now (minimum snapshot.validUntil [now.add p.maxDecisionLifetime])
    (references p.scope snapshot)
  return (snapshot, expires)

def supported (p : Policy) (now : Time) (s : TrustSnapshot) (expires : Time) : Op Time := do
  let answer ← Prog.question (I := ports) (.federationBinding s.trust.providerBinding p.scope (facet s.trust))
  let platform ← authority answer
  Prog.require (boundPlatform p.scope s.trust platform) .denied
  Prog.require (supportedPlatform s.trust now platform) .unverified
  return minimum expires [platform.evidenceExpiresAt]

def event (p : Policy) (now : Time) (s : TrustSnapshot) (eventID : Text) (expires : Time) :
    Op (ExternalPrincipal × Assurance × Time) := do
  let answer ← Prog.question (I := ports) (.verify eventID s)
  let (principal, assurance) ← authority answer
  Prog.require (principal.authenticationEventID == eventID &&
    validateBundle ⟨s.trust, principal, assurance⟩) .invalid
  Prog.require (acceptable p now principal assurance) .denied
  let authenticated := authenticatedAt assurance.upstreamEvidence
  Prog.require (duration now authenticated ≤ p.maxAuthenticationAge) .denied
  let expires := minimum expires [authenticated.add p.maxAuthenticationAge]
  Prog.require (assurance.mappingStatus == .mapped) .unverified
  let encoded ← Prog.ofExcept ((Codec.encode assurance.upstreamEvidence).elim (.error .invalid) .ok)
  let expires ← check now expires (mappingDecision p.scope s eventID principal assurance encoded)
  return (principal, assurance, expires)

def identity (p : Policy) (now : Time) (s : TrustSnapshot) (principal : ExternalPrincipal) (expires : Time) :
    Op (CanonicalIdentity × Time) := do
  let answer ← Prog.question (I := ports) (.resolve principal.issuer principal.subject)
  let canonical ← authority answer
  Prog.require (currentIdentity principal now canonical) .unverified
  let expires ← check now expires (canonicalMapping p.scope s principal canonical)
  Prog.require (agrees principal.resolution canonical) .denied
  return (canonical, expires)

def consume (p : Policy) (trustID eventID : Text) : Op Decision := do
  Prog.require (uuidPattern trustID && uuidPattern eventID) .invalid
  let ended ← Prog.question (I := ports) .cancelled
  Prog.require (!ended) .unavailable
  let started : Time ← Prog.question (I := ports) .now
  Prog.require (!started.isZero) .invalid
  let (snapshot, expires) ← governed p trustID started
  let expires ← supported p started snapshot expires
  let (principal, assurance, expires) ← event p started snapshot eventID expires
  let (canonical, expires) ← identity p started snapshot principal expires
  let expires := minimum expires [canonical.validUntil, principal.expiresAt, assurance.expiresAt]
  let answer ← Prog.question (I := ports) (.trust trustID)
  let latest ← authority answer
  Prog.require (unchanged snapshot latest) .denied
  let now : Time ← Prog.question (I := ports) .now
  Prog.require (!now.before started) .denied
  let ended ← Prog.question (I := ports) .cancelled
  Prog.require (!ended && !now.isZero && now.before expires && now.before latest.validUntil) .denied
  return ⟨canonical.principalID, canonical.externalIdentityID, eventID, assurance.level,
    minimum expires [latest.validUntil]⟩

structure Call where
  policy : Policy
  trustID : Text
  eventID : Text

def system : System ports Unit Fault where
  Call := Call
  Result _ := Decision
  code c := consume c.policy c.trustID c.eventID
  init := ()
  admits _ _ _ _ := true

end Consumer

namespace Governance

inductive Party where
  | consumers | trusts | approvals
  deriving DecidableEq

abbrev faces : Party → Interface
  | .consumers => Consumer.ports
  | .trusts => ports
  | .approvals => ports

abbrev stores : Party → Type
  | .consumers => Unit
  | .trusts => TrustStore
  | .approvals => ApprovalLedger.Store

abbrev systems : (n : Party) → System (faces n) (stores n) Fault
  | .consumers => Consumer.system
  | .trusts => TrustLedger.system
  | .approvals => ApprovalLedger.system

/-- The trust ledger hands a question about a receipt on to the approval ledger. -/
def route : (n : Party) → (q : (faces n).Query) → Option (Route systems ((faces n).Answer q))
  | .consumers, .trust t => some ⟨.trusts, .trust t, id⟩
  | .consumers, .reference want => some ⟨.approvals, .reference want, id⟩
  | .trusts, .reference want => some ⟨.approvals, .reference want, id⟩
  | _, _ => none

/-- Any number of consumers and operators with one trust ledger and one approval ledger. -/
abbrev net : Network Party where
  I := faces
  S := stores
  E _ := Fault
  sys := systems
  route := route

end Governance

end Federation
