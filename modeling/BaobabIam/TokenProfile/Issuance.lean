import BaobabIam.TokenProfile.Human
import Mathlib.Data.List.Perm.Subperm

/-! No issuance amplifies. What a success of the hooks implies, for any configuration,
also one that was never validated: the issued scope text has exactly the granted
scopes, these are the requested ones and registered, and no name that is held back
occurs anywhere. -/
namespace TokenProfile

open Checks

variable {id : Text} {p : Workload} {c : Config}

section Held

def HeldClient (id : Text) : Prop :=
  id = "baobab-tms".toList ∨ "baobab-tms-".toList <+: id ∨ "baobab-dev-tms-".toList <+: id

def HeldAudience (audience : Text) : Prop := audience = "baobab-tms".toList ∨ "baobab-tms-".toList <+: audience

def HeldScope (scope : Text) : Prop := "tms:".toList <+: scope

instance (scope : Text) : Decidable (HeldScope scope) := inferInstanceAs (Decidable (_ <+: scope))

theorem reservedTMSClient_iff : reservedTMSClient id = true ↔ HeldClient id := by
  simp [reservedTMSClient, HeldClient, or_assoc]

theorem reservedTMSAudience_iff {audience : Text} : reservedTMSAudience audience = true ↔ HeldAudience audience := by
  simp [reservedTMSAudience, HeldAudience]

theorem nativeTMSScope_iff {scope : Text} : nativeTMSScope scope = true ↔ HeldScope scope := by
  simp [nativeTMSScope, HeldScope]

structure Clear (id : Text) (p : Workload) (scopes audiences : List Text) : Prop where
  client : ¬ HeldClient id
  registeredScopes : ∀ s ∈ p.scopes, ¬ HeldScope s
  registeredAudiences : ∀ a ∈ p.audiences, ¬ HeldAudience a
  scopes : ∀ s ∈ scopes, ¬ HeldScope s
  audiences : ∀ a ∈ audiences, ¬ HeldAudience a

structure Cleared (id : Text) (p : Workload) : Prop where
  client : ¬ HeldClient id
  scopes : ∀ s ∈ p.scopes, ¬ HeldScope s
  audiences : ∀ a ∈ p.audiences, ¬ HeldAudience a
  humanScopes : ∀ human, p.humanTokenProfile = some human →
    ∀ s ∈ human.scopes, singleIssuanceToken s = true ∧ ¬ HeldScope s
  humanAudiences : ∀ human, p.humanTokenProfile = some human →
    ∀ a ∈ human.audiences, singleIssuanceToken a = true ∧ ¬ HeldAudience a

theorem tmsProposalHold_ok (h : tmsProposalHold id p = .ok ()) : Cleared id p := by
  simp only [tmsProposalHold, bind_ok, each_ok, require_ok, Bool.not_eq_true', exists_const, ← Bool.not_eq_true,
    reservedTMSClient_iff, reservedTMSAudience_iff, nativeTMSScope_iff] at h
  obtain ⟨-, client, audiences, scopes, -, human⟩ := h
  refine ⟨client, scopes, audiences, ?_, ?_⟩
  · intro profile found
    simp only [found, bind_ok, each_ok, exists_const, holdHumanScope, require_ok,
      Bool.not_eq_true', ← Bool.not_eq_true, nativeTMSScope_iff] at human
    exact human.2
  · intro profile found
    simp only [found, bind_ok, each_ok, exists_const, holdHumanAudience, require_ok, Bool.not_eq_true',
      ← Bool.not_eq_true, reservedTMSAudience_iff] at human
    exact human.1

structure GrantCleared (e : Evidence) : Prop where
  client : ¬ HeldClient e.clientID
  audiences : ∀ a ∈ e.grantedAudiences, singleIssuanceToken a = true ∧ ¬ HeldAudience a
  scopes : ∀ s ∈ e.requestedScopes ++ e.grantedScopes, singleIssuanceToken s = true ∧ ¬ HeldScope s

theorem tmsGrantHold_ok {e : Evidence} : tmsGrantHold e = .ok () ↔ GrantCleared e := by
  simp only [tmsGrantHold, holdGrantedAudience, holdGrantedScope, bind_ok, each_ok, require_ok, Bool.not_eq_true',
    exists_const, ← Bool.not_eq_true, reservedTMSClient_iff, reservedTMSAudience_iff, nativeTMSScope_iff]
  constructor
  · rintro ⟨client, audiences, scopes⟩
    exact ⟨client, audiences, scopes⟩
  · rintro ⟨client, audiences, scopes⟩
    exact ⟨client, audiences, scopes⟩

end Held

section Lists

theorem subsetFrom_iff {allowed values seen : List Text} : subsetFrom allowed seen values = true ↔
    values.Nodup ∧ ∀ v ∈ values, v ∈ allowed ∧ v ∉ seen := by
  induction values generalizing seen with
  | nil => simp [subsetFrom]
  | cons v values ih =>
    simp only [subsetFrom, Bool.and_eq_true, ih, List.contains_iff_mem, Bool.not_eq_true', ← Bool.not_eq_true,
      List.nodup_cons, List.forall_mem_cons]
    constructor
    · rintro ⟨⟨known, new⟩, nodup, rest⟩
      refine ⟨⟨?_, nodup⟩, ⟨known, new⟩, ?_⟩
      · intro again
        exact (rest v again).2 List.mem_cons_self
      · intro w hw
        exact ⟨(rest w hw).1, fun old => (rest w hw).2 (List.mem_cons_of_mem _ old)⟩
    · rintro ⟨⟨fresh, nodup⟩, ⟨known, new⟩, rest⟩
      refine ⟨⟨known, new⟩, nodup, ?_⟩
      intro w hw
      refine ⟨(rest w hw).1, ?_⟩
      intro old
      rcases List.mem_cons.mp old with rfl | old
      · exact fresh hw
      · exact (rest w hw).2 old

theorem subset_iff {values allowed : List Text} :
    subset values allowed = true ↔ values.Nodup ∧ ∀ v ∈ values, v ∈ allowed := by
  simp [subset, subsetFrom_iff]

theorem sameSet_perm {a b : List Text} (h : sameSet a b = true) : a.Nodup ∧ a.Perm b := by
  simp only [sameSet, Bool.and_eq_true, beq_iff_eq, subset_iff] at h
  obtain ⟨length, nodup, known⟩ := h
  refine ⟨nodup, (List.subperm_of_subset nodup known).perm_of_length_le ?_⟩
  exact length.ge

theorem sameSet_of_perm {a b : List Text} (nodup : b.Nodup) (h : a.Perm b) : sameSet a b = true := by
  simp only [sameSet, Bool.and_eq_true, beq_iff_eq, subset_iff]
  exact ⟨h.length_eq, h.nodup_iff.mpr nodup, fun v hv => h.mem_iff.mp hv⟩

theorem token_solid {t : Text} (h : singleIssuanceToken t = true) :
    t ≠ [] ∧ ∀ x ∈ t, Text.isSpace x = false := by
  simp only [singleIssuanceToken, Bool.and_eq_true, Bool.not_eq_true', List.isEmpty_eq_false_iff, List.all_eq_true,
    decide_eq_true_eq] at h
  refine ⟨h.1.1, ?_⟩
  intro x hx
  obtain ⟨⟨⟨⟨low, high⟩, -⟩, -⟩, -⟩ := h.2 x hx
  cases space : Text.isSpace x with
  | false => rfl
  | true =>
    simp only [Text.isSpace, Bool.or_eq_true, List.contains_eq_mem, List.mem_cons, List.not_mem_nil, or_false,
      Bool.and_eq_true, decide_eq_true_eq] at space
    omega

end Lists

section Workloads

structure Narrow (c : Config) (e : Evidence) (claims : WorkloadClaims) (p : Workload) : Prop where
  scope : Text.fields claims.scope = e.grantedScopes
  nodup : e.grantedScopes.Nodup
  requested : e.grantedScopes.Perm e.requestedScopes
  registered : ∀ s ∈ e.grantedScopes, s ∈ p.scopes
  audiences : e.grantedAudiences.Nodup ∧ ∀ a ∈ e.grantedAudiences, a ∈ p.audiences
  environment : p.environment = c.environment
  binding : p.credentialType = "federated_workload_token".toList →
    ∃ b, c.bindings.get e.clientID = some b ∧ e.assertionIssuer = b.issuer ∧ e.assertionSubject = b.subject
  clear : Clear e.clientID p e.grantedScopes e.grantedAudiences
  submit : nativeCommitmentSubmitScope ∈ e.grantedScopes → e.grantedAudiences = [nativeCommitmentAudience]

theorem registered_ok {denied : Refusal} : c.registered id denied = .ok p ↔ c.workloads.get id = some p := elim_ok

theorem held_ok (found : c.workloads.get id = some p) (h : c.held id = .ok ()) : Cleared id p := by
  unfold Config.held at h
  rw [found] at h
  exact tmsProposalHold_ok h

theorem credential_binding {e : Evidence} (h : c.credential p e = .ok ())
    (federated : p.credentialType = "federated_workload_token".toList) :
    ∃ b, c.bindings.get e.clientID = some b ∧ e.assertionIssuer = b.issuer ∧ e.assertionSubject = b.subject := by
  unfold Config.credential at h
  rw [federated, if_neg (by decide), if_pos rfl, require_ok] at h
  obtain ⟨b, found, holds⟩ := (Option.any_eq_true _ _).mp h
  simp only [Bool.and_eq_true, beq_iff_eq] at holds
  exact ⟨b, found, holds.2, holds.1.2⟩

theorem claims_narrow {e : Evidence} {claims : WorkloadClaims} (h : c.claims e = .ok claims) :
    ∃ p, c.workloads.get e.clientID = some p ∧ Narrow c e claims p := by
  simp only [Config.claims, bind_ok, require_ok, exists_const, pure_ok] at h
  obtain ⟨⟨⟩, held, ⟨⟩, grant, p, registered, -, environment, ⟨⟩, credential,
    scopes, audiences, submit, rfl⟩ := h
  have found := registered_ok.mp registered
  have cleared := held_ok found held
  have granted := tmsGrantHold_ok.mp grant
  simp only [Bool.and_eq_true, beq_iff_eq] at environment scopes audiences
  obtain ⟨⟨-, subset⟩, same⟩ := scopes
  obtain ⟨nodup, perm⟩ := sameSet_perm same
  have known := (subset_iff.mp subset).2
  have grantedScopes : ∀ s ∈ e.grantedScopes, singleIssuanceToken s = true ∧ ¬ HeldScope s :=
    fun s hs => granted.scopes s (List.mem_append_right _ hs)
  refine ⟨p, found, ?_, nodup, perm, ?_, subset_iff.mp audiences.2, environment.2,
    credential_binding credential, ?_, ?_⟩
  · exact Text.fields_join (fun s hs => token_solid (grantedScopes s hs).1)
  · exact fun s hs => known s (perm.mem_iff.mp hs)
  · exact ⟨cleared.client, cleared.scopes, cleared.audiences, fun s hs => (grantedScopes s hs).2,
      fun a ha => (granted.audiences a ha).2⟩
  · intro member
    simp only [nativeCommitmentTokenScoped, Bool.or_eq_true, Bool.not_eq_true', beq_iff_eq] at submit
    rcases submit with absent | only
    · rw [List.contains_iff_mem.mpr member] at absent
      cases absent
    · exact only

end Workloads

section Humans

variable {human : HumanTokenProfile} {others seen scopes granted : List Text}

theorem profileScopes_iff : profileScopes human others seen scopes = some granted ↔
    (scopes.Nodup ∧ ∀ s ∈ scopes, s ∉ seen ∧ (s ∈ human.scopes ∨ s ∈ others)) ∧
      granted = scopes.filter (fun s => human.scopes.contains s) := by
  induction scopes generalizing seen granted with
  | nil => simp [profileScopes, eq_comm]
  | cons s scopes ih =>
    rw [profileScopes, List.nodup_cons, List.forall_mem_cons]
    by_cases old : s ∈ seen
    · simp [old]
    have shift : (scopes.Nodup ∧ ∀ w ∈ scopes, w ∉ s :: seen ∧ (w ∈ human.scopes ∨ w ∈ others)) ↔
        s ∉ scopes ∧ scopes.Nodup ∧ ∀ w ∈ scopes, w ∉ seen ∧ (w ∈ human.scopes ∨ w ∈ others) := by
      constructor
      · rintro ⟨nodup, rest⟩
        refine ⟨fun again => (rest s again).1 List.mem_cons_self, nodup, ?_⟩
        intro w hw
        exact ⟨fun seen => (rest w hw).1 (List.mem_cons_of_mem _ seen), (rest w hw).2⟩
      · rintro ⟨fresh, nodup, rest⟩
        refine ⟨nodup, fun w hw => ⟨?_, (rest w hw).2⟩⟩
        intro seen
        rcases List.mem_cons.mp seen with rfl | seen
        · exact fresh hw
        · exact (rest w hw).1 seen
    rw [if_neg (by simpa using old)]
    by_cases own : s ∈ human.scopes
    · rw [if_pos (by simpa using own), Option.map_eq_some_iff]
      simp only [ih, shift]
      constructor
      · rintro ⟨rest, ⟨⟨fresh, nodup, known⟩, rfl⟩, rfl⟩
        exact ⟨⟨⟨fresh, nodup⟩, ⟨old, .inl own⟩, known⟩, by simp [own]⟩
      · rintro ⟨⟨⟨fresh, nodup⟩, -, known⟩, rfl⟩
        exact ⟨_, ⟨⟨fresh, nodup, known⟩, rfl⟩, by simp [own]⟩
    · rw [if_neg (by simpa using own)]
      by_cases other : s ∈ others
      · rw [if_pos (by simpa using other), ih, shift]
        constructor
        · rintro ⟨⟨fresh, nodup, known⟩, rfl⟩
          exact ⟨⟨⟨fresh, nodup⟩, ⟨old, .inr other⟩, known⟩, by simp [own]⟩
        · rintro ⟨⟨⟨fresh, nodup⟩, -, known⟩, rfl⟩
          exact ⟨⟨fresh, nodup, known⟩, by simp [own]⟩
      · simp [own, other]

theorem profileScopes_clear (h : profileScopes human others [] scopes = some granted)
    (own : ∀ s ∈ human.scopes, ¬ HeldScope s) (rest : ∀ s ∈ others, ¬ HeldScope s) :
    ∀ s ∈ scopes, ¬ HeldScope s := by
  intro s hs
  rcases ((profileScopes_iff.mp h).1.2 s hs).2 with known | known
  · exact own s known
  · exact rest s known

structure HumanRegistration (c : Config) (id : Text) (p : Workload) (human : HumanTokenProfile) : Prop where
  found : c.workloads.get id = some p
  active : p.status = "ACTIVE".toList
  named : p.environment ≠ []
  environment : p.environment = c.environment
  profile : p.humanTokenProfile = some human

theorem humanRegistration_iff {denied : Refusal} :
    c.humanRegistration id denied = .ok (p, human) ↔ HumanRegistration c id p human := by
  constructor
  · intro h
    simp only [Config.humanRegistration, bind_ok, require_ok, pure_ok, exists_const, elim_ok] at h
    obtain ⟨q, registered, holds, profile, found, same⟩ := h
    cases same
    simp only [Bool.and_eq_true, beq_iff_eq, Bool.not_eq_true', List.isEmpty_eq_false_iff] at holds
    exact ⟨registered_ok.mp registered, holds.1.1, holds.1.2, holds.2, found⟩
  · rintro ⟨found, active, named, environment, profile⟩
    rw [environment] at named
    simp [Config.humanRegistration, Config.registered, found, active, named, environment, profile]

theorem humanAudience_sub {a : Text} (h : a ∈ p.humanAudience human granted) : a ∈ human.audiences :=
  List.mem_of_mem_filter h

variable {audience : List Text} {mac : MAC} {key : List UInt8} {e : HumanEvidence} {claims : HumanClaims}

theorem consent_clear (h : c.humanConsent id scopes = .ok audience) :
    ∃ p, c.workloads.get id = some p ∧ Clear id p scopes audience := by
  simp only [Config.humanConsent, bind_ok, require_ok, exists_const, pure_ok, elim_ok] at h
  obtain ⟨⟨⟩, held, ⟨p, human⟩, registered, -, granted, kept, -, rfl⟩ := h
  have registration := humanRegistration_iff.mp registered
  have cleared := held_ok registration.found held
  have own := cleared.humanScopes human registration.profile
  have audiences := cleared.humanAudiences human registration.profile
  refine ⟨p, registration.found, cleared.client, cleared.scopes, cleared.audiences, ?_, ?_⟩
  · exact profileScopes_clear kept (fun s hs => (own s hs).2) (by decide)
  · exact fun a ha => (audiences a (humanAudience_sub ha)).2

theorem verify_audience {consent : Option HumanConsentSeal} {request client subject : Text}
    (h : verifyHumanConsent mac key consent request client subject scopes audience = true) :
    ∃ s message, consent = some s ∧ s.audience = audience ∧
      consentSealMessage request client subject scopes audience = some message ∧ s.mark = mac key message := by
  unfold verifyHumanConsent at h
  cases consent with
  | none => cases h
  | some s =>
    simp only at h
    split at h
    · cases h
    · rename_i pass
      split at h
      · cases h
      · rename_i message sealed
        simp only [Bool.or_eq_true, not_or, bne_iff_ne, ne_eq, not_not] at pass
        exact ⟨s, message, rfl, pass.2, sealed, beq_iff_eq.mp h⟩

structure HumanIssued (mac : MAC) (c : Config) (e : HumanEvidence) (key : List UInt8) (p : Workload)
    (human : HumanTokenProfile) (resource : List Text) : Prop where
  long : minConsentSealKeyBytes ≤ key.length
  cleared : Cleared e.clientID p
  grant : GrantCleared ⟨e.clientID, [], [], [], [], e.requestedScopes, e.grantedScopes, e.grantedAudiences⟩
  registration : HumanRegistration c e.clientID p human
  grantType : e.grant = "authorization_code".toList ∨ e.grant = "refresh_token".toList
  subject : e.subject ≠ [] ∧ Text.trimSpace e.subject = e.subject ∧ e.subject ≠ e.clientID
  alone : e.codeExchange = true → e.grantedAudiences = []
  scopes : profileScopes human oidcScopes [] e.scopes = some resource
  nonempty : resource ≠ []
  sealed : verifyHumanConsent mac key e.consent e.consentRequestID e.clientID e.subject e.scopes
    (p.humanAudience human resource) = true
  audience : e.codeExchange = false → sameSet e.grantedAudiences (p.humanAudience human resource) = true
  assurance : e.acr ∈ issuedACR ∧ 0 < e.authTime
  methods : subset e.amr issuedAMR = true

theorem humanClaims_issued
    (h : c.humanClaims mac e key = .ok claims) : ∃ p human resource, HumanIssued mac c e key p human resource := by
  simp only [Config.humanClaims, bind_ok, require_ok, exists_const, pure_ok, elim_ok] at h
  obtain ⟨long, ⟨⟩, held, ⟨⟩, grant, ⟨p, human⟩, registered, type, subject, alone, resource,
    scopes, nonempty, sealed, audience, assurance, methods, -⟩ := h
  have registration := humanRegistration_iff.mp registered
  simp only [Bool.and_eq_true, Bool.or_eq_true, Bool.not_eq_true', beq_iff_eq, bne_iff_ne, decide_eq_true_eq,
    List.isEmpty_eq_false_iff, List.isEmpty_iff, List.contains_iff_mem]
    at long type subject alone nonempty audience assurance
  refine ⟨p, human, resource, long, held_ok registration.found held, tmsGrantHold_ok.mp grant, registration, type,
    ⟨subject.1.1, subject.1.2, subject.2⟩, ?_, scopes, nonempty, sealed, ?_, assurance, methods⟩
  · intro exchange
    rcases alone with other | none
    · rw [exchange] at other
      cases other
    · exact none
  · intro exchange
    rcases audience with other | same
    · rw [exchange] at other
      cases other
    · exact same

def HumanEvidence.sealedAudience (e : HumanEvidence) : List Text := (e.consent.map HumanConsentSeal.audience).getD []

theorem humanClaims_clear
    (h : c.humanClaims mac e key = .ok claims) : ∃ p, c.workloads.get e.clientID = some p ∧
      Clear e.clientID p (e.requestedScopes ++ e.grantedScopes) (e.grantedAudiences ++ e.sealedAudience) := by
  obtain ⟨p, human, resource, issued⟩ := humanClaims_issued h
  have audiences := issued.cleared.humanAudiences human issued.registration.profile
  refine ⟨p, issued.registration.found, issued.cleared.client, issued.cleared.scopes,
    issued.cleared.audiences, ?_, ?_⟩
  · exact fun s hs => (issued.grant.scopes s hs).2
  · intro a ha
    rcases List.mem_append.mp ha with granted | sealed
    · exact (issued.grant.audiences a granted).2
    · obtain ⟨s, message, found, same, -⟩ := verify_audience issued.sealed
      simp only [HumanEvidence.sealedAudience, found, Option.map_some, Option.getD_some, same] at sealed
      exact (audiences a (humanAudience_sub sealed)).2

end Humans

section Requests

theorem admitted_clear {r r' : WorkloadTokenRequest} {d : WorkloadDefaults} {e : Evidence}
    (h : c.admitRequest r d e = .ok r') : ∃ p, c.workloads.get r'.workloadID = some p ∧
    e.clientID = r'.workloadID ∧
      Clear r'.workloadID p (r'.scopes.getD [] ++ e.grantedScopes) (r'.audience :: e.grantedAudiences) := by
  simp only [Config.admitRequest, bind_ok, require_ok, exists_const, pure_ok] at h
  obtain ⟨⟨⟩, -, ⟨⟩, -, p, registered, holds, nonempty, ⟨⟩, -, same, claims, issued, rfl⟩ := h
  simp only [Bool.and_eq_true, beq_iff_eq, List.contains_iff_mem] at holds same
  obtain ⟨⟨-, client⟩, audience⟩ := holds
  obtain ⟨⟨-, scopes⟩, -⟩ := same
  obtain ⟨q, found, narrow⟩ := claims_narrow issued
  have clear := narrow.clear
  rw [client] at found clear
  refine ⟨q, found, client, clear.client, clear.registeredScopes, clear.registeredAudiences, ?_, ?_⟩
  · intro s hs
    rcases List.mem_append.mp hs with asked | granted
    · exact clear.scopes s ((sameSet_perm scopes).2.mem_iff.mpr asked)
    · exact clear.scopes s granted
  · have registration := registered_ok.mp registered
    rw [found] at registration
    cases registration
    intro a ha
    rcases List.mem_cons.mp ha with rfl | granted
    · exact clear.registeredAudiences _ audience
    · exact clear.audiences a granted

/-- Whatever the configuration and the evidence are: issued claims of a workload are
narrow, and no success of any hook involves a held name. -/
theorem issuance_never_amplifies (mac : MAC) (c : Config) :
    (∀ e claims, c.claims e = .ok claims → ∃ p, c.workloads.get e.clientID = some p ∧ Narrow c e claims p) ∧
    (∀ id scopes audience, c.humanConsent id scopes = .ok audience →
      ∃ p, c.workloads.get id = some p ∧ Clear id p scopes audience) ∧
    (∀ e key claims, c.humanClaims mac e key = .ok claims → ∃ p, c.workloads.get e.clientID = some p ∧
      Clear e.clientID p (e.requestedScopes ++ e.grantedScopes) (e.grantedAudiences ++ e.sealedAudience)) ∧
    (∀ r d e r', c.admitRequest r d e = .ok r' → ∃ p, c.workloads.get r'.workloadID = some p ∧
      e.clientID = r'.workloadID ∧
      Clear r'.workloadID p (r'.scopes.getD [] ++ e.grantedScopes) (r'.audience :: e.grantedAudiences)) := by
  refine ⟨?_, ?_, ?_, ?_⟩
  · exact fun e claims h => claims_narrow h
  · exact fun id scopes audience h => consent_clear h
  · exact fun e key claims h => humanClaims_clear h
  · exact fun r d e r' h => admitted_clear h

def trader : Config where
  sharedCommit := []
  environment := "production"
  workloads := ⟨[("trade-app", ⟨"production", "client_credentials", "ACTIVE",
    ["trade:native-commitment:submit", "trade:read"], ["baobab-trade", "baobab-cms"], none, none⟩)], by decide⟩
  bindings := ⟨[], by decide⟩

def traderGrant : Evidence :=
  ⟨"trade-app", "trade-app", "client_credentials", [], [], ["trade:read", "trade:native-commitment:submit"],
    ["trade:native-commitment:submit", "trade:read"], ["baobab-trade"]⟩

/-- A configuration that was never validated issues claims, and they are narrow. -/
theorem trader_claims_narrow : ∃ claims p, trader.claims traderGrant = .ok claims ∧
    claims.scope = "trade:native-commitment:submit trade:read".toList ∧ Narrow trader traderGrant claims p := by
  obtain ⟨p, -, narrow⟩ := (issuance_never_amplifies (fun _ t => t) trader).1 traderGrant
    ⟨"workload", "trade-app", "trade:native-commitment:submit trade:read"⟩ (by rfl)
  exact ⟨_, p, by rfl, rfl, narrow⟩

end Requests

end TokenProfile
