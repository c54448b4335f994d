import BaobabIam.Ory.NativeSession
import BaobabIam.TokenProfile.Issuance

/-! Consent and the token hook. What governed consent seals, the hook accepts, with
the scopes in any order; and what the hook accepts was sealed, as long as nobody
else can produce a keyed digest. The sealed text is a plain join, which is
injective because its values are free of both separators. -/
namespace TokenProfile

open Checks

variable {c : Config} {p : Workload} {human : HumanTokenProfile} {scopes scopes' audience : List Text}
  {request client subject message : Text}

section Message

theorem canonicalConsentValue_spec {v : Text} (h : canonicalConsentValue v = true) :
    v ≠ [] ∧ Text.trimSpace v = v ∧ nul ∉ v ∧ ' ' ∉ v := by
  simp only [canonicalConsentValue, Bool.and_eq_true, Bool.not_eq_true', List.isEmpty_eq_false_iff, beq_iff_eq,
    List.any_eq_false, List.contains_iff_mem] at h
  refine ⟨h.1.1, h.1.2, ?_, ?_⟩
  · intro bad
    exact h.2 nul bad (by decide)
  · intro bad
    exact h.2 ' ' bad (by decide)

structure Sealable (request client subject : Text) (scopes audience : List Text) : Prop where
  ids : ∀ v ∈ [request, client, subject], canonicalConsentValue v = true
  eachScope : ∀ v ∈ scopes, canonicalConsentValue v = true
  eachAudience : ∀ v ∈ audience, canonicalConsentValue v = true
  someScope : scopes ≠ []
  someAudience : audience ≠ []

theorem consentSealMessage_iff : consentSealMessage request client subject scopes audience = some message ↔
    Sealable request client subject scopes audience ∧
    message = Text.join nul ["baobab-iam/human-consent/v1", request, client, subject,
      Text.join ' ' (Text.sorted scopes), Text.join ' ' audience] := by
  unfold consentSealMessage
  constructor
  · intro h
    split at h
    · rename_i holds
      simp only [Bool.and_eq_true, List.all_append, List.all_eq_true,
        Bool.not_eq_true', List.isEmpty_eq_false_iff] at holds
      obtain ⟨⟨⟨⟨ids, sorted⟩, audiences⟩, ne⟩, ne'⟩ := holds
      exact ⟨⟨ids, fun v hv => sorted v ((Text.sorted_perm scopes).mem_iff.mpr hv), audiences, ne, ne'⟩,
        (Option.some.inj h).symm⟩
    · cases h
  · rintro ⟨sealable, rfl⟩
    rw [if_pos]
    simp only [Bool.and_eq_true, List.all_append, List.all_eq_true, Bool.not_eq_true', List.isEmpty_eq_false_iff]
    exact ⟨⟨⟨⟨sealable.ids, fun v hv => sealable.eachScope v ((Text.sorted_perm scopes).mem_iff.mp hv)⟩,
      sealable.eachAudience⟩, sealable.someScope⟩, sealable.someAudience⟩

theorem consentSealMessage_perm (h : scopes'.Perm scopes) (audience : List Text) :
    consentSealMessage request client subject scopes' audience = consentSealMessage request client subject scopes
      audience := by
  unfold consentSealMessage
  rw [Text.sorted_eq h]
  have empty : scopes'.isEmpty = scopes.isEmpty := by
    rw [Bool.eq_iff_iff, List.isEmpty_iff, List.isEmpty_iff]
    exact ⟨fun nil => (nil ▸ h).nil_eq.symm, fun nil => (nil ▸ h).eq_nil⟩
  rw [empty]

theorem no_nul_join {words : List Text} (h : ∀ v ∈ words, canonicalConsentValue v = true) :
    nul ∉ Text.join ' ' words := by
  intro bad
  rcases Text.mem_join bad with blank | ⟨w, hw, inside⟩
  · exact absurd blank (by decide)
  · exact (canonicalConsentValue_spec (h w hw)).2.2.1 inside

/-- Two decisions with one message are one decision, up to the order of the scopes. -/
theorem consentSealMessage_inj {request' client' subject' : Text} {audience' : List Text}
    (h : consentSealMessage request client subject scopes audience = some message)
    (h' : consentSealMessage request' client' subject' scopes' audience' = some message) :
    request = request' ∧ client = client' ∧ subject = subject' ∧ scopes.Perm scopes' ∧
      audience = audience' := by
  obtain ⟨sealable, text⟩ := consentSealMessage_iff.mp h
  obtain ⟨sealable', text'⟩ := consentSealMessage_iff.mp h'
  have sorted : ∀ v ∈ Text.sorted scopes, canonicalConsentValue v = true :=
    fun v hv => sealable.eachScope v ((Text.sorted_perm scopes).mem_iff.mp hv)
  have sorted' : ∀ v ∈ Text.sorted scopes', canonicalConsentValue v = true :=
    fun v hv => sealable'.eachScope v ((Text.sorted_perm scopes').mem_iff.mp hv)
  have parts : ∀ {r k s : Text} {xs ys : List Text}, (∀ v ∈ [r, k, s], canonicalConsentValue v = true) →
      (∀ v ∈ xs, canonicalConsentValue v = true) → (∀ v ∈ ys, canonicalConsentValue v = true) →
      ∀ w ∈ ["baobab-iam/human-consent/v1".toList, r, k, s, Text.join ' ' xs, Text.join ' ' ys], nul ∉ w := by
    intro r k s xs ys ids hx hy
    simp only [List.forall_mem_cons, List.not_mem_nil, false_imp_iff, implies_true, and_true] at ids ⊢
    exact ⟨by decide, (canonicalConsentValue_spec ids.1).2.2.1, (canonicalConsentValue_spec ids.2.1).2.2.1,
      (canonicalConsentValue_spec ids.2.2).2.2.1, no_nul_join hx, no_nul_join hy⟩
  rw [text] at text'
  have same := Text.join_inj (parts sealable.ids sorted sealable.eachAudience)
    (parts sealable'.ids sorted' sealable'.eachAudience)
    (by simp) (by simp) text'
  simp only [List.cons.injEq, true_and, and_true] at same
  obtain ⟨rfl, rfl, rfl, joined, joined'⟩ := same
  have blanks : ∀ {words : List Text}, (∀ v ∈ words, canonicalConsentValue v = true) →
      ∀ w ∈ words, ' ' ∉ w :=
    fun h w hw => (canonicalConsentValue_spec (h w hw)).2.2.2
  have nonempty : ∀ {words : List Text}, words ≠ [] → Text.sorted words ≠ [] := by
    intro words ne nil
    have perm := Text.sorted_perm words
    rw [nil] at perm
    exact ne perm.nil_eq.symm
  refine ⟨rfl, rfl, rfl, ?_, ?_⟩
  · have equal := Text.join_inj (blanks sorted) (blanks sorted') (nonempty sealable.someScope)
      (nonempty sealable'.someScope) joined
    exact (Text.sorted_perm scopes).symm.trans (equal ▸ Text.sorted_perm scopes')
  · exact Text.join_inj (blanks sealable.eachAudience) (blanks sealable'.eachAudience) sealable.someAudience
      sealable'.someAudience joined'

end Message

section Forward

theorem humanAudience_congr {granted granted' : List Text} (same : ∀ s, s ∈ granted ↔ s ∈ granted') :
    p.humanAudience human granted = p.humanAudience human granted' := by
  unfold Workload.humanAudience
  apply List.filter_congr
  intro a _
  rw [Bool.eq_iff_iff, List.any_eq_true, List.any_eq_true]
  simp only [same]

theorem canonicalValues_nodup {seen values : List Text} (h : canonicalValues seen values = true) :
    values.Nodup ∧ ∀ v ∈ values, v ∉ seen := by
  induction values generalizing seen with
  | nil => simp
  | cons v values ih =>
    simp only [canonicalValues, Bool.and_eq_true, Bool.not_eq_true'] at h
    obtain ⟨⟨-, new⟩, rest⟩ := h
    obtain ⟨nodup, fresh⟩ := ih rest
    rw [← Bool.not_eq_true, List.contains_iff_mem] at new
    refine ⟨List.nodup_cons.mpr ⟨fun again => fresh v again List.mem_cons_self, nodup⟩, ?_⟩
    rw [List.forall_mem_cons]
    exact ⟨new, fun w hw old => fresh w hw (List.mem_cons_of_mem _ old)⟩

theorem validate_audiences (valid : c.validate = .ok ()) (registration : HumanRegistration c client p human) :
    human.audiences.Nodup := by
  simp only [Config.validate, bind_ok, require_ok, each_ok, exists_const] at valid
  obtain ⟨-, -, workloads, -⟩ := valid
  obtain ⟨before, after, cut, -⟩ := List.lookup_eq_some_iff.mp registration.found
  have workload := workloads (client, p) (by rw [cut]; simp)
  simp only [validateWorkload, registration.profile, bind_ok, require_ok, each_ok, exists_const] at workload
  obtain ⟨⟨⟩, -, -, -, -, -, -, ⟨⟩, profile, -⟩ := workload
  simp only [HumanTokenProfile.validate, bind_ok, require_ok, each_ok, exists_const] at profile
  obtain ⟨-, -, -, values, -⟩ := profile
  have own := values human.audiences (by simp)
  simp only [Bool.and_eq_true] at own
  exact (canonicalValues_nodup own.2).1

structure Consented (c : Config) (client : Text) (scopes : List Text) (p : Workload) (human : HumanTokenProfile)
    (granted : List Text) : Prop where
  held : c.held client = .ok ()
  registration : HumanRegistration c client p human
  scopes : profileScopes human consentScopes [] scopes = some granted
  nonempty : granted ≠ []

theorem humanConsent_consented (h : c.humanConsent client scopes = .ok audience) :
    ∃ p human granted, Consented c client scopes p human granted ∧ audience = p.humanAudience human granted := by
  simp only [Config.humanConsent, bind_ok, require_ok, exists_const, pure_ok, elim_ok] at h
  obtain ⟨⟨⟩, held, ⟨p, human⟩, registered, -, granted, kept, nonempty, rfl⟩ := h
  simp only [Bool.not_eq_true', List.isEmpty_eq_false_iff] at nonempty
  exact ⟨p, human, granted, ⟨held, humanRegistration_iff.mp registered, kept, nonempty⟩, rfl⟩

variable {granted : List Text}

theorem Consented.cleared (h : Consented c client scopes p human granted) : Cleared client p :=
  held_ok h.registration.found h.held

theorem Consented.resource (h : Consented c client scopes p human granted) (perm : scopes'.Perm scopes) :
    ∃ resource, profileScopes human oidcScopes [] scopes' = some resource ∧ resource ≠ [] ∧
      p.humanAudience human resource = p.humanAudience human granted := by
  obtain ⟨⟨nodup, known⟩, kept⟩ := profileScopes_iff.mp h.scopes
  have filtered : (scopes'.filter (fun s => human.scopes.contains s)).Perm granted := by
    rw [kept]
    exact perm.filter _
  refine ⟨_, profileScopes_iff.mpr ⟨⟨perm.nodup_iff.mpr nodup, ?_⟩, rfl⟩, ?_, ?_⟩
  · intro s hs
    refine ⟨by simp, ?_⟩
    have wider : ∀ s ∈ consentScopes, s ∈ oidcScopes := by decide
    exact (known s (perm.mem_iff.mp hs)).2.imp_right (wider s)
  · intro nil
    rw [nil] at filtered
    exact h.nonempty filtered.nil_eq.symm
  · exact humanAudience_congr (fun s => filtered.mem_iff)

theorem Consented.tokens (h : Consented c client scopes p human granted) :
    ∀ s ∈ scopes, singleIssuanceToken s = true ∧ ¬ HeldScope s := by
  intro s hs
  rcases ((profileScopes_iff.mp h.scopes).1.2 s hs).2 with own | other
  · exact h.cleared.humanScopes human h.registration.profile s own
  · have plain : ∀ s ∈ consentScopes, singleIssuanceToken s = true ∧ ¬ HeldScope s := by decide
    exact plain s other

theorem sealHumanConsent_ok {mac : MAC} {key : List UInt8} {s : HumanConsentSeal} :
    sealHumanConsent mac key request client subject scopes audience = .ok s ↔
    minConsentSealKeyBytes ≤ key.length ∧ ∃ message,
      consentSealMessage request client subject scopes audience = some message ∧
        s = ⟨audience, mac key message⟩ := by
  unfold sealHumanConsent
  cases consentSealMessage request client subject scopes audience with
  | none => simp
  | some message =>
    by_cases short : key.length < minConsentSealKeyBytes
    · simp [short]
    · simp [short, Nat.not_lt.mp short, eq_comm]

/-- The seal of a decision is verified with the scopes in any order. -/
theorem verify_sealed {mac : MAC} {key : List UInt8} {s : HumanConsentSeal}
    (h : sealHumanConsent mac key request client subject scopes audience = .ok s) (perm : scopes'.Perm scopes) :
    verifyHumanConsent mac key (some s) request client subject scopes' audience = true := by
  obtain ⟨long, message, found, rfl⟩ := sealHumanConsent_ok.mp h
  simp [verifyHumanConsent, Nat.not_lt.mpr long, consentSealMessage_perm perm, found]

theorem humanClaims_of_issued {mac : MAC} {e : HumanEvidence} {key : List UInt8} {resource : List Text}
    (held : c.held e.clientID = .ok ()) (h : HumanIssued mac c e key p human resource) :
    ∃ claims, c.humanClaims mac e key = .ok claims := by
  simp only [Config.humanClaims, bind_ok, require_ok, exists_const, pure_ok, elim_ok]
  refine ⟨_, by simpa using h.long, (), held, (), tmsGrantHold_ok.mpr h.grant, (p, human),
    humanRegistration_iff.mpr h.registration, ?_, ?_, ?_, resource, h.scopes, ?_, h.sealed, ?_, ?_, h.methods, rfl⟩
  · simpa using h.grantType
  · simp only [Bool.and_eq_true, Bool.not_eq_true', List.isEmpty_eq_false_iff, beq_iff_eq, bne_iff_ne]
    exact ⟨⟨h.subject.1, h.subject.2.1⟩, h.subject.2.2⟩
  · cases exchange : e.codeExchange with
    | false => rfl
    | true => simp [h.alone exchange]
  · simpa using h.nonempty
  · cases exchange : e.codeExchange with
    | false => simp [h.audience exchange]
    | true => rfl
  · simpa using h.assurance

end Forward

section Agreement

structure Decision where
  request : Text
  client : Text
  subject : Text
  scopes : List Text
  audience : List Text

def Decision.text (d : Decision) : Option Text := consentSealMessage d.request d.client d.subject d.scopes d.audience

/-- The digest of what the hook seals again is known only if one of these decisions was
sealed with it. -/
def OnlySealed (mac : MAC) (key : List UInt8) (decided : Decision → Prop) (e : HumanEvidence) : Prop :=
  ∀ s message, e.consent = some s →
    consentSealMessage e.consentRequestID e.clientID e.subject e.scopes e.sealedAudience = some message →
    s.mark = mac key message → ∃ d, decided d ∧ d.text = some message

def exchangeEvidence (client subject request : Text) (s : HumanConsentSeal) (session : Ory.NativeSession)
    (authTime : Int) (requested : List Text) : HumanEvidence :=
  ⟨client, subject, "authorization_code", request, some s, requested, [], [], session.aal,
    Ory.nativeAMR session, authTime⟩

def refreshEvidence (client subject request : Text) (s : HumanConsentSeal) (session : Ory.NativeSession)
    (authTime : Int) (requested granted audience : List Text) : HumanEvidence :=
  ⟨client, subject, "refresh_token", request, some s, requested, granted, audience,
    session.aal, Ory.nativeAMR session, authTime⟩

variable {mac : MAC} {key : List UInt8} {s : HumanConsentSeal} {session : Ory.NativeSession} {now later : Time}
  {authTime : Int}

theorem current_assurance (h : session.current now later = true) : session.aal ∈ issuedACR := by
  simp only [Ory.NativeSession.current, Bool.and_eq_true, Bool.or_eq_true, beq_iff_eq] at h
  rcases h.2 with level | level
  · rw [level]
    decide
  · rw [level]
    decide

theorem nativeAMR_subset (session : Ory.NativeSession) : subset (Ory.nativeAMR session) issuedAMR = true :=
  subset_iff.mpr (Ory.nativeAMR_spec session)

theorem sealed_subject (h : sealHumanConsent mac key request client subject scopes audience = .ok s) :
    subject ≠ [] ∧ Text.trimSpace subject = subject := by
  obtain ⟨-, message, found, -⟩ := sealHumanConsent_ok.mp h
  have canonical := (consentSealMessage_iff.mp found).1.ids subject (by simp)
  have spec := canonicalConsentValue_spec canonical
  exact ⟨spec.1, spec.2.1⟩

theorem exchange_accepted (long : minConsentSealKeyBytes ≤ key.length) (other : subject ≠ client)
    (consented : c.humanConsent client scopes = .ok audience)
    (sealed : sealHumanConsent mac key request client subject scopes audience = .ok s)
    (current : session.current now later = true) (positive : 0 < authTime) (perm : scopes'.Perm scopes) :
    ∃ claims, c.humanClaims mac (exchangeEvidence client subject request s session authTime scopes') key =
      .ok claims := by
  obtain ⟨p, human, granted, consent, rfl⟩ := humanConsent_consented consented
  obtain ⟨resource, kept, nonempty, same⟩ := consent.resource perm
  obtain ⟨named, trimmed⟩ := sealed_subject sealed
  have grant : GrantCleared ⟨client, [], [], [], [], scopes', [], []⟩ := by
    refine ⟨consent.cleared.client, by simp, ?_⟩
    intro x hx
    rw [List.append_nil] at hx
    exact consent.tokens x (perm.mem_iff.mp hx)
  apply @humanClaims_of_issued c p human mac _ key resource consent.held
  refine ⟨long, consent.cleared, grant, consent.registration, .inl rfl,
    ⟨named, trimmed, other⟩, fun _ => rfl, kept,
    nonempty, ?_, ?_, ⟨current_assurance current, positive⟩, nativeAMR_subset session⟩
  · rw [same]
    exact verify_sealed sealed perm
  · rintro ⟨⟩

theorem refresh_accepted (valid : c.validate = .ok ()) (long : minConsentSealKeyBytes ≤ key.length)
    (other : subject ≠ client) (consented : c.humanConsent client scopes = .ok audience)
    (sealed : sealHumanConsent mac key request client subject scopes audience = .ok s)
    (current : session.current now later = true) (positive : 0 < authTime) {requested audience' : List Text}
    (asked : ∀ x ∈ requested, x ∈ scopes) (perm : scopes'.Perm scopes) (perm' : audience'.Perm audience) :
    ∃ claims, c.humanClaims mac (refreshEvidence client subject request s session authTime
      requested scopes' audience') key = .ok claims := by
  obtain ⟨p, human, granted, consent, rfl⟩ := humanConsent_consented consented
  obtain ⟨resource, kept, nonempty, same⟩ := consent.resource perm
  obtain ⟨named, trimmed⟩ := sealed_subject sealed
  have grant : GrantCleared ⟨client, [], [], [], [], requested, scopes', audience'⟩ := by
    refine ⟨consent.cleared.client, ?_, ?_⟩
    · intro a ha
      exact consent.cleared.humanAudiences human consent.registration.profile a
        (humanAudience_sub (perm'.mem_iff.mp ha))
    · intro x hx
      rcases List.mem_append.mp hx with hx | hx
      · exact consent.tokens x (asked x hx)
      · exact consent.tokens x (perm.mem_iff.mp hx)
  have refresh :
      (refreshEvidence client subject request s session authTime requested scopes' audience').codeExchange = false := by
    simp [HumanEvidence.codeExchange, refreshEvidence]
  have own : (refreshEvidence client subject request s session authTime requested scopes' audience').scopes =
      scopes' := by
    unfold HumanEvidence.scopes
    rw [refresh]
    rfl
  apply @humanClaims_of_issued c p human mac _ key resource consent.held
  refine ⟨long, consent.cleared, grant, consent.registration, .inr rfl, ⟨named, trimmed, other⟩,
    ?_, ?_, nonempty, ?_, ?_, ⟨current_assurance current, positive⟩, nativeAMR_subset session⟩
  · rw [refresh]
    rintro ⟨⟩
  · rw [own]
    exact kept
  · rw [own, same]
    exact verify_sealed sealed perm
  · intro _
    rw [same]
    exact sameSet_of_perm ((validate_audiences valid consent.registration).filter _) perm'

structure Governed (c : Config) (e : HumanEvidence) (d : Decision) : Prop where
  request : d.request = e.consentRequestID
  client : d.client = e.clientID
  subject : d.subject = e.subject
  scopes : d.scopes.Perm e.scopes
  audience : d.audience = e.sealedAudience
  granted : e.codeExchange = false → e.grantedAudiences.Perm e.sealedAudience
  profile : ∃ p human, c.workloads.get e.clientID = some p ∧ p.humanTokenProfile = some human ∧
    (∃ x ∈ e.scopes, x ∈ human.scopes) ∧
    e.sealedAudience =
      human.audiences.filter (fun a => decide (∃ x ∈ e.scopes, x ∈ human.scopes ∧ a ∈ p.scopeAudiences x))

theorem accepted_governed {e : HumanEvidence} {claims : HumanClaims} {decided : Decision → Prop}
    (known : OnlySealed mac key decided e) (h : c.humanClaims mac e key = .ok claims) :
    ∃ d, decided d ∧ Governed c e d := by
  obtain ⟨p, human, resource, issued⟩ := humanClaims_issued h
  obtain ⟨s, message, found, same, sealed, mark⟩ := verify_audience issued.sealed
  have own : e.sealedAudience = p.humanAudience human resource := by
    simp [HumanEvidence.sealedAudience, found, same]
  obtain ⟨d, decided, text⟩ := known s message found (own ▸ sealed) mark
  obtain ⟨request, client, subject, scopes, audience⟩ := consentSealMessage_inj text sealed
  obtain ⟨-, kept⟩ := profileScopes_iff.mp issued.scopes
  refine ⟨d, decided, request, client, subject, scopes, audience.trans own.symm, ?_, p, human,
    issued.registration.found, issued.registration.profile, ?_, ?_⟩
  · intro exchange
    rw [own]
    exact (sameSet_perm (issued.audience exchange)).2
  · obtain ⟨x, hx⟩ := List.exists_mem_of_ne_nil _ issued.nonempty
    rw [kept, List.mem_filter, List.contains_iff_mem] at hx
    exact ⟨x, hx⟩
  · rw [own, kept]
    apply List.filter_congr
    intro a _
    rw [Bool.eq_iff_iff, List.any_eq_true, decide_eq_true_iff]
    simp only [List.mem_filter, List.contains_iff_mem, and_assoc]

/-- Governed consent and the token hook agree. What consent grants and seals is
accepted at the code exchange and at a refresh, in any order; and evidence that
is accepted carries one sealed decision with its ids, scopes and audience. -/
theorem consent_and_hook_agree (mac : MAC) (c : Config) (valid : c.validate = .ok ()) (key : List UInt8)
    (long : minConsentSealKeyBytes ≤ key.length) :
    (∀ request client subject scopes audience s, subject ≠ client →
      c.humanConsent client scopes = .ok audience →
      sealHumanConsent mac key request client subject scopes audience = .ok s →
      ∀ (session : Ory.NativeSession) (now later : Time) (authTime : Int), session.current now later = true →
      0 < authTime → ∀ scopes', scopes'.Perm scopes →
      (∃ claims, c.humanClaims mac (exchangeEvidence client subject request s session authTime scopes') key =
        .ok claims) ∧
      ∀ requested audience', (∀ x ∈ requested, x ∈ scopes) → audience'.Perm audience →
        ∃ claims, c.humanClaims mac
          (refreshEvidence client subject request s session authTime requested scopes' audience') key = .ok claims) ∧
    (∀ (decided : Decision → Prop) (e : HumanEvidence) (claims : HumanClaims), OnlySealed mac key decided e →
      c.humanClaims mac e key = .ok claims → ∃ d, decided d ∧ Governed c e d) := by
  constructor
  · intro request client subject scopes audience s other consented sealed session now later authTime current positive
      scopes' perm
    constructor
    · exact exchange_accepted long other consented sealed current positive perm
    · intro requested audience' asked perm'
      exact refresh_accepted valid long other consented sealed current positive asked perm perm'
  · intro decided e claims known accepted
    exact accepted_governed known accepted

def estate : Config where
  sharedCommit := List.replicate 40 'a'
  environment := "production"
  workloads := ⟨[("estate-bff", {
    environment := "production"
    credentialType := "client_credentials"
    status := "ACTIVE"
    scopes := ["trade:buyer-handoff"]
    audiences := ["baobab-trade"]
    humanTokenProfile := some ⟨"ESTATE_BFF_BUYER", ["baobab-trade-buyer"], ["trade:orders"]⟩
    humanScopeAudiences := some ⟨[("trade:orders", ["baobab-trade-buyer"])], by decide⟩ })], by decide⟩
  bindings := ⟨[], List.nodup_nil⟩

def buyer : Ory.NativeSession :=
  ⟨"session", true, ⟨20, 0⟩, ⟨5, 0⟩, "aal2", ["password", "totp"], "buyer-1", "active"⟩

def buyerDecision : Decision :=
  ⟨"request-1", "estate-bff", "buyer-1", ["openid", "trade:orders"], ["baobab-trade-buyer"]⟩

/-- A consent of one buyer, sealed and honoured at the exchange and at a refresh; what the
exchange accepts is that decision. -/
theorem buyer_consent_honoured : estate.validate = .ok () ∧ ∃ s,
    sealHumanConsent (fun _ t => t) (List.replicate 32 0) "request-1" "estate-bff" "buyer-1" ["openid", "trade:orders"]
      ["baobab-trade-buyer"] = .ok s ∧
    (∃ claims, estate.humanClaims (fun _ t => t) (exchangeEvidence "estate-bff" "buyer-1" "request-1" s buyer 7
      ["trade:orders", "openid"]) (List.replicate 32 0) = .ok claims) ∧
    (∃ claims, estate.humanClaims (fun _ t => t) (refreshEvidence "estate-bff" "buyer-1" "request-1" s buyer 7
      ["openid"] ["trade:orders", "openid"] ["baobab-trade-buyer"]) (List.replicate 32 0) = .ok claims) ∧
    Governed estate (exchangeEvidence "estate-bff" "buyer-1" "request-1" s buyer 7 ["trade:orders", "openid"])
      buyerDecision := by
  have valid : estate.validate = .ok () := by decide
  obtain ⟨s, sealed⟩ : ∃ s, sealHumanConsent (fun _ t => t) (List.replicate 32 0) "request-1"
      "estate-bff" "buyer-1" ["openid", "trade:orders"] ["baobab-trade-buyer"] = .ok s :=
    ⟨_, sealHumanConsent_ok.mpr ⟨by decide, _, consentSealMessage_iff.mpr
      ⟨⟨by decide, by decide, by decide, by decide, by decide⟩, rfl⟩, rfl⟩⟩
  obtain ⟨forward, converse⟩ := consent_and_hook_agree (fun _ t => t) estate valid (List.replicate 32 0) (by decide)
  obtain ⟨⟨claims, exchanged⟩, refreshed⟩ :=
    forward "request-1" "estate-bff" "buyer-1" ["openid", "trade:orders"]
    ["baobab-trade-buyer"] s (by decide) (by decide) sealed buyer ⟨10, 0⟩ ⟨10, 0⟩ 7 (by decide) (by decide)
    ["trade:orders", "openid"] (List.Perm.swap _ _ _)
  have known : OnlySealed (fun _ t => t) (List.replicate 32 0) (· = buyerDecision)
      (exchangeEvidence "estate-bff" "buyer-1" "request-1" s buyer 7 ["trade:orders", "openid"]) := by
    intro s' message found _ mark
    cases found
    obtain ⟨-, m, text, rfl⟩ := sealHumanConsent_ok.mp sealed
    exact ⟨buyerDecision, rfl, text.trans (congrArg some mark)⟩
  obtain ⟨_, rfl, governed⟩ := converse _ _ claims known exchanged
  exact ⟨valid, s, sealed, ⟨claims, exchanged⟩, refreshed ["openid"] _ (by decide) (List.Perm.refl _), governed⟩

end Agreement

end TokenProfile
