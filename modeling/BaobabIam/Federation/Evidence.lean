import BaobabIam.Federation.Validate

/-! The evidence records: who was authenticated upstream, with which assurance,
under which trust. An empty list of methods stands for the absent one, and a
present empty list is refused where a token is read. -/
namespace Federation

open Wire

def ResolutionStatus.declared : List Text := ["UNRESOLVED", "RESOLVED"]

inductive ResolutionStatus where
  | unresolved | resolved
  | other (name : Text) (undeclared : name ∉ ResolutionStatus.declared)
  deriving DecidableEq, Repr

def ResolutionStatus.name : ResolutionStatus → Text
  | .unresolved => "UNRESOLVED"
  | .resolved => "RESOLVED"
  | .other name _ => name

def ResolutionStatus.ofName (s : Text) : ResolutionStatus :=
  if h : s ∈ declared then if s = "UNRESOLVED" then unresolved else resolved else .other s h

instance : Codec ResolutionStatus :=
  textCodec ResolutionStatus.name ResolutionStatus.ofName (by
    intro a
    cases a with
    | other s h => exact dif_neg h
    | _ => decide)

structure Resolution where
  status : ResolutionStatus
  principalID : Text := []
  externalIdentityID : Text := []
  mappingReference : Text := []
  mappingBasis : Text := []
  resolvedAt : Option Time := none
  deriving DecidableEq, Repr

def Resolution.fields : List (RecordField Resolution) :=
  [.of "status" Resolution.status (fun v r => { r with status := v }),
   .omitEmpty "principal_id" List.isEmpty Resolution.principalID (fun v r => { r with principalID := v }),
   .omitEmpty "external_identity_id" List.isEmpty Resolution.externalIdentityID
     (fun v r => { r with externalIdentityID := v }),
   .omitEmpty "mapping_reference" List.isEmpty Resolution.mappingReference
     (fun v r => { r with mappingReference := v }),
   .omitEmpty "mapping_basis" List.isEmpty Resolution.mappingBasis (fun v r => { r with mappingBasis := v }),
   .omitEmpty "resolved_at" Option.isNone Resolution.resolvedAt (fun v r => { r with resolvedAt := v })]

instance : Codec Resolution :=
  recordCodec Resolution.fields ⟨.ofName [], [], [], [], [], none⟩ (by decide) (by
    rintro ⟨status, principal, identity, reference, basis, at_⟩
    cases principal <;> cases identity <;> cases reference <;> cases basis <;> cases at_ <;> rfl)

structure ExternalPrincipal where
  authenticationEventID : Text
  trustID : Text
  providerID : Text
  engineInstanceID : Text
  protocol : Protocol
  issuer : Text
  subject : Text
  actorType : Text
  observedAt : Time
  expiresAt : Time
  resolution : Resolution
  deriving DecidableEq, Repr

def ExternalPrincipal.fields : List (RecordField ExternalPrincipal) :=
  [.of "authentication_event_id" ExternalPrincipal.authenticationEventID
     (fun v p => { p with authenticationEventID := v }),
   .of "trust_id" ExternalPrincipal.trustID (fun v p => { p with trustID := v }),
   .of "provider_id" ExternalPrincipal.providerID (fun v p => { p with providerID := v }),
   .of "engine_instance_id" ExternalPrincipal.engineInstanceID (fun v p => { p with engineInstanceID := v }),
   .of "protocol" ExternalPrincipal.protocol (fun v p => { p with protocol := v }),
   .of "issuer" ExternalPrincipal.issuer (fun v p => { p with issuer := v }),
   .of "subject" ExternalPrincipal.subject (fun v p => { p with subject := v }),
   .of "actor_type" ExternalPrincipal.actorType (fun v p => { p with actorType := v }),
   .of "observed_at" ExternalPrincipal.observedAt (fun v p => { p with observedAt := v }),
   .of "expires_at" ExternalPrincipal.expiresAt (fun v p => { p with expiresAt := v }),
   .of "resolution" ExternalPrincipal.resolution (fun v p => { p with resolution := v })]

def ExternalPrincipal.zero : ExternalPrincipal :=
  ⟨[], [], [], [], .ofName [], [], [], [], ⟨0, 0⟩, ⟨0, 0⟩, ⟨.ofName [], [], [], [], [], none⟩⟩

instance : Codec ExternalPrincipal :=
  recordCodec ExternalPrincipal.fields ExternalPrincipal.zero (by decide) (by intro p; cases p; rfl)

structure OIDCAssurance where
  actorType : Text
  acr : Text
  amr : List Text
  authenticatedAt : Time
  stepUpAt : Option Time := none
  issuer : Text
  clientID : Text
  deriving DecidableEq, Repr

def OIDCAssurance.fields : List (RecordField OIDCAssurance) :=
  [.of "actor_type" OIDCAssurance.actorType (fun v a => { a with actorType := v }),
   .of "acr" OIDCAssurance.acr (fun v a => { a with acr := v }),
   .omitEmpty "amr" List.isEmpty OIDCAssurance.amr (fun v a => { a with amr := v }),
   .of "authenticated_at" OIDCAssurance.authenticatedAt (fun v a => { a with authenticatedAt := v }),
   .omitEmpty "step_up_at" Option.isNone OIDCAssurance.stepUpAt (fun v a => { a with stepUpAt := v }),
   .of "issuer" OIDCAssurance.issuer (fun v a => { a with issuer := v }),
   .of "client_id" OIDCAssurance.clientID (fun v a => { a with clientID := v })]

instance : Codec OIDCAssurance :=
  recordCodec OIDCAssurance.fields ⟨[], [], [], ⟨0, 0⟩, none, [], []⟩ (by decide) (by
    rintro ⟨actor, acr, amr, at_, stepUp, issuer, client⟩
    cases amr <;> cases stepUp <;> rfl)

structure SAMLAssurance where
  authnContextClassRef : Text
  authenticatedAt : Time
  sessionExpiresAt : Time
  deriving DecidableEq, Repr

def SAMLAssurance.fields : List (RecordField SAMLAssurance) :=
  [.of "authn_context_class_ref" SAMLAssurance.authnContextClassRef
     (fun v a => { a with authnContextClassRef := v }),
   .of "authenticated_at" SAMLAssurance.authenticatedAt (fun v a => { a with authenticatedAt := v }),
   .of "session_expires_at" SAMLAssurance.sessionExpiresAt (fun v a => { a with sessionExpiresAt := v })]

instance : Codec SAMLAssurance :=
  recordCodec SAMLAssurance.fields ⟨[], ⟨0, 0⟩, ⟨0, 0⟩⟩ (by decide) (fun _ => rfl)

structure UpstreamEvidence where
  oidc : Option OIDCAssurance := none
  saml : Option SAMLAssurance := none
  deriving DecidableEq, Repr

def UpstreamEvidence.fields : List (RecordField UpstreamEvidence) :=
  [.omitEmpty "oidc" Option.isNone UpstreamEvidence.oidc (fun v u => { u with oidc := v }),
   .omitEmpty "saml" Option.isNone UpstreamEvidence.saml (fun v u => { u with saml := v })]

instance : Codec UpstreamEvidence :=
  recordCodec UpstreamEvidence.fields ⟨none, none⟩ (by decide) (by
    rintro ⟨oidc, saml⟩
    cases oidc <;> cases saml <;> rfl)

def MappingStatus.declared : List Text := ["UNKNOWN", "MAPPED"]

inductive MappingStatus where
  | unknown | mapped
  | other (name : Text) (undeclared : name ∉ MappingStatus.declared)
  deriving DecidableEq, Repr

def MappingStatus.name : MappingStatus → Text
  | .unknown => "UNKNOWN"
  | .mapped => "MAPPED"
  | .other name _ => name

def MappingStatus.ofName (s : Text) : MappingStatus :=
  if h : s ∈ declared then if s = "UNKNOWN" then unknown else mapped else .other s h

instance : Codec MappingStatus :=
  textCodec MappingStatus.name MappingStatus.ofName (by
    intro a
    cases a with
    | other s h => exact dif_neg h
    | _ => decide)

structure Assurance where
  authenticationEventID : Text
  trustID : Text
  providerID : Text
  engineInstanceID : Text
  protocol : Protocol
  issuer : Text
  subject : Text
  upstreamEvidence : UpstreamEvidence
  mappingStatus : MappingStatus
  level : Text := []
  assurancePolicyReference : Text
  mappingEvidenceReference : Text := []
  evaluatedAt : Time
  expiresAt : Time
  deriving DecidableEq, Repr

def Assurance.fields : List (RecordField Assurance) :=
  [.of "authentication_event_id" Assurance.authenticationEventID
     (fun v a => { a with authenticationEventID := v }),
   .of "trust_id" Assurance.trustID (fun v a => { a with trustID := v }),
   .of "provider_id" Assurance.providerID (fun v a => { a with providerID := v }),
   .of "engine_instance_id" Assurance.engineInstanceID (fun v a => { a with engineInstanceID := v }),
   .of "protocol" Assurance.protocol (fun v a => { a with protocol := v }),
   .of "issuer" Assurance.issuer (fun v a => { a with issuer := v }),
   .of "subject" Assurance.subject (fun v a => { a with subject := v }),
   .of "upstream_evidence" Assurance.upstreamEvidence (fun v a => { a with upstreamEvidence := v }),
   .of "mapping_status" Assurance.mappingStatus (fun v a => { a with mappingStatus := v }),
   .omitEmpty "level" List.isEmpty Assurance.level (fun v a => { a with level := v }),
   .of "assurance_policy_reference" Assurance.assurancePolicyReference
     (fun v a => { a with assurancePolicyReference := v }),
   .omitEmpty "mapping_evidence_reference" List.isEmpty Assurance.mappingEvidenceReference
     (fun v a => { a with mappingEvidenceReference := v }),
   .of "evaluated_at" Assurance.evaluatedAt (fun v a => { a with evaluatedAt := v }),
   .of "expires_at" Assurance.expiresAt (fun v a => { a with expiresAt := v })]

def Assurance.zero : Assurance :=
  ⟨[], [], [], [], .ofName [], [], [], ⟨none, none⟩, .ofName [], [], [], [], ⟨0, 0⟩, ⟨0, 0⟩⟩

instance : Codec Assurance :=
  recordCodec Assurance.fields Assurance.zero (by decide) (by
    rintro ⟨event, trust, provider, engine, protocol, issuer, subject, evidence, status, level, policy, reference,
      evaluated, expires⟩
    cases level <;> cases reference <;> rfl)

structure Bundle where
  trust : Trust
  externalPrincipal : ExternalPrincipal
  assurance : Assurance
  deriving DecidableEq, Repr

def Bundle.fields : List (RecordField Bundle) :=
  [.of "trust" Bundle.trust (fun v b => { b with trust := v }),
   .of "external_principal" Bundle.externalPrincipal (fun v b => { b with externalPrincipal := v }),
   .of "assurance" Bundle.assurance (fun v b => { b with assurance := v })]

instance : Codec Bundle :=
  recordCodec Bundle.fields ⟨Trust.zero, ExternalPrincipal.zero, Assurance.zero⟩ (by decide) (fun _ => rfl)

/-- The earliest of some times, the first of them when they are equal. -/
def minimum (first : Time) (others : List Time) : Time :=
  others.foldl (fun result v => if v.before result then v else result) first

def validPrincipal (t : Trust) (p : ExternalPrincipal) : Bool :=
  uuidPattern p.authenticationEventID && p.trustID == t.id && p.protocol == t.protocol &&
  p.issuer == t.upstreamIssuer && exact p.subject && p.actorType == "human".toList &&
  p.providerID == t.providerBinding.providerID && p.engineInstanceID == t.providerBinding.engineInstanceID &&
  !p.observedAt.isZero && p.expiresAt.after p.observedAt

def validAssurance (t : Trust) (p : ExternalPrincipal) (a : Assurance) : Bool :=
  a.authenticationEventID == p.authenticationEventID && a.trustID == p.trustID && a.providerID == p.providerID &&
  a.engineInstanceID == p.engineInstanceID && a.protocol == p.protocol && a.issuer == p.issuer &&
  a.subject == p.subject && a.assurancePolicyReference == t.assurancePolicyReference &&
  !a.evaluatedAt.before p.observedAt && a.expiresAt.after a.evaluatedAt && !a.expiresAt.after p.expiresAt

def validResolution (p : ExternalPrincipal) : Bool :=
  let r := p.resolution
  match r.status with
  | .unresolved => r.principalID.isEmpty && r.externalIdentityID.isEmpty && r.mappingReference.isEmpty &&
      r.mappingBasis.isEmpty && r.resolvedAt.isNone
  | .resolved => uuidPattern r.principalID && uuidPattern r.externalIdentityID && validRef r.mappingReference &&
      r.mappingBasis == "ISSUER_SUBJECT".toList &&
      r.resolvedAt.any (fun at_ => !at_.before p.observedAt && at_.before p.expiresAt)
  | .other .. => false

def validMapping (a : Assurance) : Bool :=
  match a.mappingStatus with
  | .unknown => a.level.isEmpty && a.mappingEvidenceReference.isEmpty
  | .mapped => ["BAOBAB-A1".toList, "BAOBAB-A2".toList, "BAOBAB-A3".toList].contains a.level &&
      validRef a.mappingEvidenceReference
  | .other .. => false

def validEvidence (t : Trust) (p : ExternalPrincipal) (a : Assurance) : Bool :=
  match t.protocol, a.upstreamEvidence.oidc, a.upstreamEvidence.saml with
  | .oidc, some e, none =>
    e.actorType == "human".toList && e.issuer == p.issuer && exact e.acr && exact e.clientID &&
    !e.authenticatedAt.isZero && !e.authenticatedAt.after p.observedAt &&
    e.stepUpAt.all (fun at_ => !at_.before e.authenticatedAt && !at_.after a.evaluatedAt) && e.amr.all exact
  | .saml2, none, some e =>
    exact e.authnContextClassRef && !e.authenticatedAt.isZero && !e.authenticatedAt.after p.observedAt &&
    !e.sessionExpiresAt.before a.expiresAt
  | _, _, _ => false

def validateBundle (b : Bundle) : Bool :=
  validateTrust b.trust && validPrincipal b.trust b.externalPrincipal &&
  validAssurance b.trust b.externalPrincipal b.assurance && validResolution b.externalPrincipal &&
  validMapping b.assurance && validEvidence b.trust b.externalPrincipal b.assurance

theorem minimum_le (first : Time) (others : List Time) :
    (minimum first others).ns ≤ first.ns ∧ ∀ t ∈ others, (minimum first others).ns ≤ t.ns := by
  induction others generalizing first with
  | nil => exact ⟨le_refl _, by simp⟩
  | cons v others ih =>
    obtain ⟨here, rest⟩ := ih (if v.before first then v else first)
    have chosen : (if v.before first then v else first).ns ≤ first.ns ∧
        (if v.before first then v else first).ns ≤ v.ns := by
      split
      · rename_i early
        exact ⟨le_of_lt (Time.before_iff.mp early), le_refl _⟩
      · rename_i late
        exact ⟨le_refl _, by simpa using late⟩
    refine ⟨here.trans chosen.1, ?_⟩
    intro t ht
    rcases List.mem_cons.mp ht with rfl | ht
    · exact here.trans chosen.2
    · exact rest t ht

theorem minimum_mem (first : Time) (others : List Time) : minimum first others ∈ first :: others := by
  induction others generalizing first with
  | nil => exact List.mem_cons_self
  | cons v others ih =>
    have inside := ih (if v.before first then v else first)
    rcases List.mem_cons.mp inside with same | there
    · unfold minimum at same ⊢
      rw [List.foldl_cons, same]
      split <;> simp
    · exact List.mem_cons_of_mem _ (List.mem_cons_of_mem _ there)

end Federation
