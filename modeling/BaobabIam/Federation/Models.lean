import BaobabIam.Base.Record

/-! The records of the federation package, with the JSON text that the ledgers
store: member names, order and omitted fields are those of the struct tags. -/
namespace Federation

open Wire

def TrustStatus.declared : List Text :=
  ["REQUESTED", "CONFIGURING", "VERIFYING", "ACTIVE", "SUSPENDED", "ROTATING", "REVOKED"]

inductive TrustStatus where
  | requested | configuring | verifying | active | suspended | rotating | revoked
  | other (name : Text) (undeclared : name ∉ TrustStatus.declared)
  deriving DecidableEq, Repr

def TrustStatus.name : TrustStatus → Text
  | .requested => "REQUESTED"
  | .configuring => "CONFIGURING"
  | .verifying => "VERIFYING"
  | .active => "ACTIVE"
  | .suspended => "SUSPENDED"
  | .rotating => "ROTATING"
  | .revoked => "REVOKED"
  | .other name _ => name

def TrustStatus.ofName (s : Text) : TrustStatus :=
  if h : s ∈ declared then
    ([requested, configuring, verifying, active, suspended, rotating].find? (fun a => a.name == s)).getD revoked
  else .other s h

instance : Codec TrustStatus :=
  textCodec TrustStatus.name TrustStatus.ofName (by
    intro a
    cases a with
    | other s h => exact dif_neg h
    | _ => decide)

def Protocol.declared : List Text := ["OIDC", "SAML2"]

inductive Protocol where
  | oidc | saml2
  | other (name : Text) (undeclared : name ∉ Protocol.declared)
  deriving DecidableEq, Repr

def Protocol.name : Protocol → Text
  | .oidc => "OIDC"
  | .saml2 => "SAML2"
  | .other name _ => name

def Protocol.ofName (s : Text) : Protocol :=
  if h : s ∈ declared then if s = "OIDC" then oidc else saml2 else .other s h

instance : Codec Protocol :=
  textCodec Protocol.name Protocol.ofName (by
    intro a
    cases a with
    | other s h => exact dif_neg h
    | _ => decide)

structure Binding where
  providerID : Text
  engineInstanceID : Text
  configurationReference : Text
  trustMaterialReference : Text
  deriving DecidableEq, Repr

def Binding.fields : List (RecordField Binding) :=
  [.of "provider_id" Binding.providerID (fun v b => { b with providerID := v }),
   .of "engine_instance_id" Binding.engineInstanceID (fun v b => { b with engineInstanceID := v }),
   .of "configuration_reference" Binding.configurationReference
     (fun v b => { b with configurationReference := v }),
   .of "trust_material_reference" Binding.trustMaterialReference
     (fun v b => { b with trustMaterialReference := v })]

instance : Codec Binding := recordCodec Binding.fields ⟨[], [], [], []⟩ (by decide) (fun _ => rfl)

structure Trust where
  id : Text
  protocol : Protocol
  upstreamIssuer : Text
  organisationIDs : List Text
  estateIDs : List Text
  providerBinding : Binding
  status : TrustStatus
  assurancePolicyReference : Text
  attributeMappingReference : Text
  provisioningPolicyReference : Text
  revision : UInt64
  createdAt : Time
  updatedAt : Time
  activationEvidenceReference : Text
  activatedAt : Option Time
  revokedAt : Option Time
  deriving DecidableEq, Repr

/-- Decoding starts here. Every decoded member overwrites its field. -/
def Trust.zero : Trust :=
  ⟨[], .ofName [], [], [], [], ⟨[], [], [], []⟩, .ofName [], [], [], [], 0, ⟨0, 0⟩, ⟨0, 0⟩, [],
    none, none⟩

def Trust.fields : List (RecordField Trust) :=
  [.of "id" Trust.id (fun v t => { t with id := v }),
   .of "protocol" Trust.protocol (fun v t => { t with protocol := v }),
   .of "upstream_issuer" Trust.upstreamIssuer (fun v t => { t with upstreamIssuer := v }),
   .of "organisation_ids" Trust.organisationIDs (fun v t => { t with organisationIDs := v }),
   .of "estate_ids" Trust.estateIDs (fun v t => { t with estateIDs := v }),
   .of "provider_binding" Trust.providerBinding (fun v t => { t with providerBinding := v }),
   .of "status" Trust.status (fun v t => { t with status := v }),
   .of "assurance_policy_reference" Trust.assurancePolicyReference
     (fun v t => { t with assurancePolicyReference := v }),
   .of "attribute_mapping_reference" Trust.attributeMappingReference
     (fun v t => { t with attributeMappingReference := v }),
   .of "provisioning_policy_reference" Trust.provisioningPolicyReference
     (fun v t => { t with provisioningPolicyReference := v }),
   .of "revision" Trust.revision (fun v t => { t with revision := v }),
   .of "created_at" Trust.createdAt (fun v t => { t with createdAt := v }),
   .of "updated_at" Trust.updatedAt (fun v t => { t with updatedAt := v }),
   .omitEmpty "activation_evidence_reference" List.isEmpty Trust.activationEvidenceReference
     (fun v t => { t with activationEvidenceReference := v }),
   .omitEmpty "activated_at" Option.isNone Trust.activatedAt (fun v t => { t with activatedAt := v }),
   .omitEmpty "revoked_at" Option.isNone Trust.revokedAt (fun v t => { t with revokedAt := v })]

instance : Codec Trust :=
  recordCodec Trust.fields Trust.zero (by decide) (by
    rintro ⟨id, protocol, issuer, orgs, estates, binding, status, p, m, v, revision, c, u, e, a, r⟩
    cases e <;> cases a <;> cases r <;> rfl)

@[simp] theorem encodes_protocol (p : Protocol) : (Codec.encode p).isSome = true := rfl
@[simp] theorem encodes_trustStatus (s : TrustStatus) : (Codec.encode s).isSome = true := rfl
@[simp] theorem encodes_binding (b : Binding) : (Codec.encode b).isSome = true := rfl

@[simp] theorem encodes_trust (t : Trust) : (Codec.encode t).isSome =
    (decide t.createdAt.Representable && (decide t.updatedAt.Representable &&
      (t.activatedAt.all (fun a => decide a.Representable) &&
        t.revokedAt.all (fun a => decide a.Representable)))) := by
  have h : (Codec.encode t).isSome = Trust.fields.all _ := record_encodes Trust.fields t
  rw [h]
  simp [Trust.fields, RecordField.of, RecordField.omitEmpty]

end Federation
