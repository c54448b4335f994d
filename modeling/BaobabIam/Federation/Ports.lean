import BaobabIam.Base.Runs
import BaobabIam.Base.Sha256
import BaobabIam.Federation.Models

/-! The boundary of the ledgers: errors, the records that cross it and the
questions a ledger asks. Every answer of another service, every clock reading
and every failure of the storage engine is the answer to a question. -/
namespace Federation

open Wire Interleaving

inductive Fault where
  | unsupported | unverified | denied | unavailable | invalid
  /-- An error that is none of the sentinels. -/
  | other
  deriving DecidableEq, Repr

def authorityError : Fault → Fault
  | .unsupported => .unsupported
  | .unverified => .unverified
  | .denied => .denied
  | _ => .unavailable

structure Scope where
  organisationID : Text
  estateID : Text
  deriving DecidableEq, Repr

def Scope.fields : List (RecordField Scope) :=
  [.of "OrganisationID" Scope.organisationID (fun v s => { s with organisationID := v }),
   .of "EstateID" Scope.estateID (fun v s => { s with estateID := v })]

instance : Codec Scope := recordCodec Scope.fields ⟨[], []⟩ (by decide) (fun _ => rfl)

structure TrustSnapshot where
  trust : Trust
  approvedRevision : UInt64
  snapshotID : Text
  validUntil : Time
  deriving DecidableEq, Repr

def TrustSnapshot.fields : List (RecordField TrustSnapshot) :=
  [.of "Trust" TrustSnapshot.trust (fun v s => { s with trust := v }),
   .of "ApprovedRevision" TrustSnapshot.approvedRevision (fun v s => { s with approvedRevision := v }),
   .of "SnapshotID" TrustSnapshot.snapshotID (fun v s => { s with snapshotID := v }),
   .of "ValidUntil" TrustSnapshot.validUntil (fun v s => { s with validUntil := v })]

instance : Codec TrustSnapshot :=
  recordCodec TrustSnapshot.fields ⟨Trust.zero, 0, [], ⟨0, 0⟩⟩ (by decide) (fun _ => rfl)

@[simp] theorem encodes_scope (s : Scope) : (Codec.encode s).isSome = true := rfl

@[simp] theorem encodes_snapshot (s : TrustSnapshot) : (Codec.encode s).isSome =
    ((Codec.encode s.trust).isSome && decide s.validUntil.Representable) := by
  have h : (Codec.encode s).isSome = TrustSnapshot.fields.all _ := record_encodes TrustSnapshot.fields s
  rw [h]
  simp [TrustSnapshot.fields, RecordField.of]

inductive ReferenceKind where
  | federationConfiguration | federationTrustMaterial | assurancePolicy | attributeMapping
  | provisioningPolicy | federationActivation | identityRuntimeProfile | identityRuntimeSupport
  | identitySecurityDomain | assuranceMappingDecision | canonicalIdentityMapping
  deriving DecidableEq, Repr

def ReferenceKind.name : ReferenceKind → Text
  | .federationConfiguration => "federation_configuration"
  | .federationTrustMaterial => "federation_trust_material"
  | .assurancePolicy => "assurance_policy"
  | .attributeMapping => "attribute_mapping"
  | .provisioningPolicy => "provisioning_policy"
  | .federationActivation => "federation_activation"
  | .identityRuntimeProfile => "identity_runtime_profile"
  | .identityRuntimeSupport => "identity_runtime_support"
  | .identitySecurityDomain => "identity_security_domain"
  | .assuranceMappingDecision => "assurance_mapping_decision"
  | .canonicalIdentityMapping => "canonical_identity_mapping"

instance : Codec ReferenceKind :=
  nameCodec ReferenceKind.name
    [.federationConfiguration, .federationTrustMaterial, .assurancePolicy, .attributeMapping,
     .provisioningPolicy, .federationActivation, .identityRuntimeProfile, .identityRuntimeSupport,
     .identitySecurityDomain, .assuranceMappingDecision, .canonicalIdentityMapping]
    (by intro a b; cases a <;> cases b <;> decide) (by intro a; cases a <;> decide)

structure ReferenceExpectation where
  id : Text
  kind : ReferenceKind
  trustID : Text
  snapshotID : Text
  trustRevision : UInt64
  providerID : Text
  engineInstanceID : Text
  scope : Scope
  eventID : Text := []
  issuer : Text := []
  subject : Text := []
  level : Text := []
  evidenceDigest : Text := []
  principalID : Text := []
  externalIdentityID : Text := []
  deriving DecidableEq, Repr

def ReferenceExpectation.fields : List (RecordField ReferenceExpectation) :=
  [.of "ID" ReferenceExpectation.id (fun v w => { w with id := v }),
   .of "Kind" ReferenceExpectation.kind (fun v w => { w with kind := v }),
   .of "TrustID" ReferenceExpectation.trustID (fun v w => { w with trustID := v }),
   .of "SnapshotID" ReferenceExpectation.snapshotID (fun v w => { w with snapshotID := v }),
   .of "TrustRevision" ReferenceExpectation.trustRevision (fun v w => { w with trustRevision := v }),
   .of "ProviderID" ReferenceExpectation.providerID (fun v w => { w with providerID := v }),
   .of "EngineInstanceID" ReferenceExpectation.engineInstanceID
     (fun v w => { w with engineInstanceID := v }),
   .of "Scope" ReferenceExpectation.scope (fun v w => { w with scope := v }),
   .of "EventID" ReferenceExpectation.eventID (fun v w => { w with eventID := v }),
   .of "Issuer" ReferenceExpectation.issuer (fun v w => { w with issuer := v }),
   .of "Subject" ReferenceExpectation.subject (fun v w => { w with subject := v }),
   .of "Level" ReferenceExpectation.level (fun v w => { w with level := v }),
   .of "EvidenceDigest" ReferenceExpectation.evidenceDigest (fun v w => { w with evidenceDigest := v }),
   .of "PrincipalID" ReferenceExpectation.principalID (fun v w => { w with principalID := v }),
   .of "ExternalIdentityID" ReferenceExpectation.externalIdentityID
     (fun v w => { w with externalIdentityID := v })]

instance : Codec ReferenceExpectation :=
  recordCodec ReferenceExpectation.fields
    ⟨[], .federationConfiguration, [], [], 0, [], [], ⟨[], []⟩, [], [], [], [], [], [], []⟩
    (by decide +kernel) (by intro w; cases w; rfl)

@[simp] theorem encodes_expectation (w : ReferenceExpectation) : (Codec.encode w).isSome = true := rfl

structure ApprovedReference where
  expectation : ReferenceExpectation
  status : Text
  nonSecret : Bool
  validFrom : Time
  expiresAt : Time
  deriving DecidableEq, Repr

def ApprovedReference.fields : List (RecordField ApprovedReference) :=
  [.of "Expectation" ApprovedReference.expectation (fun v r => { r with expectation := v }),
   .of "Status" ApprovedReference.status (fun v r => { r with status := v }),
   .of "NonSecret" ApprovedReference.nonSecret (fun v r => { r with nonSecret := v }),
   .of "ValidFrom" ApprovedReference.validFrom (fun v r => { r with validFrom := v }),
   .of "ExpiresAt" ApprovedReference.expiresAt (fun v r => { r with expiresAt := v })]

instance : Codec ApprovedReference :=
  recordCodec ApprovedReference.fields
    ⟨⟨[], .federationConfiguration, [], [], 0, [], [], ⟨[], []⟩, [], [], [], [], [], [], []⟩, [], false,
      ⟨0, 0⟩, ⟨0, 0⟩⟩ (by decide) (by intro r; cases r; rfl)

end Federation
