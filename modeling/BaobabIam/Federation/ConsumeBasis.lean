import BaobabIam.Federation.Consume

/-! What a Decision rests on. A call that returns a Decision has received seventeen
answers in one fixed order; `Basis` holds them, and the expiry of the Decision is the
earliest of the times they carry. Nothing is assumed about the authorities or the clock. -/
namespace Federation.Consumer

open Wire Interleaving

structure Basis where
  started : Time
  snapshot : TrustSnapshot
  /-- The receipts of the trust's own six references. -/
  receipts : List ApprovedReference
  platform : PlatformSnapshot
  principal : ExternalPrincipal
  assurance : Assurance
  /-- The evidence as the mapping decision binds it. -/
  encoded : Json
  decision : ApprovedReference
  canonical : CanonicalIdentity
  mapping : ApprovedReference
  latest : TrustSnapshot
  finished : Time

namespace Basis

variable (c : Call) (b : Basis)

def decisionWant : ReferenceExpectation :=
  mappingDecision c.policy.scope b.snapshot c.eventID b.principal b.assurance b.encoded

def mappingWant : ReferenceExpectation := canonicalMapping c.policy.scope b.snapshot b.principal b.canonical

/-- All eight expectations with the receipts that were returned for them. -/
def approvals : List (ReferenceExpectation × ApprovedReference) :=
  (references c.policy.scope b.snapshot).zip b.receipts ++ [(b.decisionWant c, b.decision),
    (b.mappingWant c, b.mapping)]

end Basis

def receiptAnswers (wants : List ReferenceExpectation) (receipts : List ApprovedReference) : Log ports :=
  List.zipWith (fun want receipt => ⟨Query.reference want, .ok receipt⟩) wants receipts

namespace Basis

variable (c : Call) (b : Basis)

def firstAnswers : Log ports :=
  [⟨Query.cancelled, false⟩, ⟨Query.now, b.started⟩, ⟨Query.trust c.trustID, .ok b.snapshot⟩]

def middleAnswers : Log ports :=
  receiptAnswers (references c.policy.scope b.snapshot) b.receipts ++
  [⟨Query.federationBinding b.snapshot.trust.providerBinding c.policy.scope (facet b.snapshot.trust),
    .ok b.platform⟩,
   ⟨Query.verify c.eventID b.snapshot, .ok (b.principal, b.assurance)⟩,
   ⟨Query.reference (b.decisionWant c), .ok b.decision⟩,
   ⟨Query.resolve b.principal.issuer b.principal.subject, .ok b.canonical⟩,
   ⟨Query.reference (b.mappingWant c), .ok b.mapping⟩]

def lastAnswers : Log ports :=
  [⟨Query.trust c.trustID, .ok b.latest⟩, ⟨Query.now, b.finished⟩, ⟨Query.cancelled, false⟩]

def log : Log ports := b.firstAnswers c ++ b.middleAnswers c ++ b.lastAnswers c

def bounds : List Time :=
  b.snapshot.validUntil :: b.started.add c.policy.maxDecisionLifetime :: b.receipts.map ApprovedReference.expiresAt ++
  [b.platform.evidenceExpiresAt, (authenticatedAt b.assurance.upstreamEvidence).add c.policy.maxAuthenticationAge,
   b.decision.expiresAt, b.mapping.expiresAt, b.canonical.validUntil, b.principal.expiresAt, b.assurance.expiresAt,
   b.latest.validUntil]

structure Supports (d : Decision) : Prop where
  usable : usable c.trustID b.started b.snapshot = true
  active : b.snapshot.trust.status = .active
  governs : governs c.policy.scope b.snapshot.trust = true
  count : b.receipts.length = 6
  approved : ∀ a ∈ b.approvals c, approves a.1 b.started a.2 = true
  bound : boundPlatform c.policy.scope b.snapshot.trust b.platform = true
  supported : supportedPlatform b.snapshot.trust b.started b.platform = true
  event : b.principal.authenticationEventID = c.eventID
  bundle : validateBundle ⟨b.snapshot.trust, b.principal, b.assurance⟩ = true
  acceptable : acceptable c.policy b.started b.principal b.assurance = true
  mapped : b.assurance.mappingStatus = .mapped
  encodes : Codec.encode b.assurance.upstreamEvidence = some b.encoded
  identity : currentIdentity b.principal b.started b.canonical = true
  agrees : agrees b.principal.resolution b.canonical = true
  unchanged : unchanged b.snapshot b.latest = true
  ordered : b.started.ns ≤ b.finished.ns
  inTime : b.finished.ns < (minimum b.snapshot.validUntil ((b.bounds c).tail)).ns
  decides : d = ⟨b.canonical.principalID, b.canonical.externalIdentityID, c.eventID, b.assurance.level,
    minimum b.snapshot.validUntil (b.bounds c).tail⟩

end Basis

def post (c : Call) (_ : Nat) : Post system (system.Result c) := fun _ L r =>
  match r with
  | .ok d => ∃ b : Basis, L = b.log c ∧ b.Supports c d
  | .error _ => True

section Rules

variable {β : Type} {v : Setting system} {T : Trace system} {L : Log ports} {Q : Post system β}

theorem minimum_minimum (first : Time) (some_ others : List Time) :
    minimum (minimum first some_) others = minimum first (some_ ++ others) := (List.foldl_append ..).symm

theorem lt_minimum {n : Int} {first last_ : Time} (early : n < first.ns) (late : n < last_.ns) :
    n < (minimum first [last_]).ns := by
  rcases List.mem_cons.mp (minimum_mem first [last_]) with same | other
  · rw [same]
    exact early
  · rw [List.mem_singleton.mp other]
    exact late

variable {now expires : Time} {p : Policy} {s : TrustSnapshot}

theorem wp_check {Q : Post system Time} {want : ReferenceExpectation} (quiet : Quiet Q)
    (h : ∀ receipt, approves want now receipt = true →
      Q T (L ++ [⟨Query.reference want, .ok receipt⟩]) (.ok (minimum expires [receipt.expiresAt]))) :
    wp v (check now expires want) T L Q := by
  apply wp_require_then quiet
  intro _
  apply wp_question_then
  intro answer _
  apply wp_mapError_then quiet
  rintro receipt rfl
  apply wp_require_then quiet
  intro approved
  exact h receipt approved

theorem wp_checkAll {Q : Post system Time} (wants : List ReferenceExpectation) (quiet : Quiet Q)
    (h : ∀ receipts, receipts.length = wants.length →
      (∀ a ∈ wants.zip receipts, approves a.1 now a.2 = true) →
      Q T (L ++ receiptAnswers wants receipts) (.ok (minimum expires (receipts.map ApprovedReference.expiresAt)))) :
    wp v (checkAll now expires wants) T L Q := by
  induction wants generalizing L expires with
  | nil =>
    have whole : Q T (L ++ []) (.ok expires) := h [] rfl (by simp)
    rw [List.append_nil] at whole
    exact whole
  | cons want rest ih =>
    apply wp_then
    apply wp_check quiet.andThen
    intro receipt approved
    apply ih
    intro receipts count all
    have whole := h (receipt :: receipts) (by simp [count]) (by
      intro a ha
      rcases List.mem_cons.mp ha with rfl | ha
      · exact approved
      · exact all a ha)
    rw [minimum_minimum]
    simpa [receiptAnswers] using whole

theorem wp_governed {Q : Post system (TrustSnapshot × Time)} {trustID : Text} (quiet : Quiet Q)
    (h : ∀ s receipts, usable trustID now s = true → s.trust.status = .active → governs p.scope s.trust = true →
      receipts.length = 6 → (∀ a ∈ (references p.scope s).zip receipts, approves a.1 now a.2 = true) →
      Q T (L ++ [⟨Query.trust trustID, .ok s⟩] ++ receiptAnswers (references p.scope s) receipts)
        (.ok (s, minimum s.validUntil (now.add p.maxDecisionLifetime :: receipts.map ApprovedReference.expiresAt)))) :
    wp v (governed p trustID now) T L Q := by
  apply wp_question_then
  intro answer _
  apply wp_mapError_then quiet
  rintro s rfl
  apply wp_require_then quiet
  intro usable
  apply wp_require_then quiet
  intro active
  apply wp_require_then quiet
  intro governs
  apply wp_then
  apply wp_checkAll _ quiet.andThen
  intro receipts count approved
  rw [minimum_minimum]
  exact h s receipts usable (beq_iff_eq.mp active) governs count approved

theorem wp_supported {Q : Post system Time} (quiet : Quiet Q)
    (h : ∀ platform, boundPlatform p.scope s.trust platform = true →
      supportedPlatform s.trust now platform = true →
      Q T (L ++ [⟨Query.federationBinding s.trust.providerBinding p.scope (facet s.trust), .ok platform⟩])
        (.ok (minimum expires [platform.evidenceExpiresAt]))) : wp v (supported p now s expires) T L Q := by
  apply wp_question_then
  intro answer _
  apply wp_mapError_then quiet
  rintro platform rfl
  apply wp_require_then quiet
  intro bound
  apply wp_require_then quiet
  intro supported
  exact h platform bound supported

theorem wp_event {Q : Post system (ExternalPrincipal × Assurance × Time)} {eventID : Text} (quiet : Quiet Q)
    (h : ∀ principal assurance encoded decision,
      principal.authenticationEventID = eventID → validateBundle ⟨s.trust, principal, assurance⟩ = true →
      acceptable p now principal assurance = true → assurance.mappingStatus = .mapped →
      Codec.encode assurance.upstreamEvidence = some encoded →
      approves (mappingDecision p.scope s eventID principal assurance encoded) now decision = true →
      Q T (L ++ [⟨Query.verify eventID s, .ok (principal, assurance)⟩] ++
          [⟨Query.reference (mappingDecision p.scope s eventID principal assurance encoded), .ok decision⟩])
        (.ok (principal, assurance, minimum expires
          [(authenticatedAt assurance.upstreamEvidence).add p.maxAuthenticationAge, decision.expiresAt]))) :
    wp v (event p now s eventID expires) T L Q := by
  apply wp_question_then
  intro answer _
  apply wp_mapError_then quiet
  rintro ⟨principal, assurance⟩ rfl
  apply wp_require_then quiet
  intro bundle
  simp only [Bool.and_eq_true, beq_iff_eq] at bundle
  apply wp_require_then quiet
  intro acceptable
  apply wp_require_then quiet
  intro _
  apply wp_require_then quiet
  intro mapped
  apply wp_ofExcept_then quiet
  intro encoded encodes
  apply wp_then
  apply wp_check quiet.andThen
  intro decision approved
  rw [minimum_minimum]
  exact h principal assurance encoded decision bundle.1 bundle.2 acceptable (beq_iff_eq.mp mapped)
    (elim_eq_ok encodes) approved

theorem wp_identity {Q : Post system (CanonicalIdentity × Time)}
    {principal : ExternalPrincipal} (quiet : Quiet Q)
    (h : ∀ canonical mapping, currentIdentity principal now canonical = true →
      approves (canonicalMapping p.scope s principal canonical) now mapping = true →
      agrees principal.resolution canonical = true →
      Q T (L ++ [⟨Query.resolve principal.issuer principal.subject, .ok canonical⟩] ++
          [⟨Query.reference (canonicalMapping p.scope s principal canonical), .ok mapping⟩])
        (.ok (canonical, minimum expires [mapping.expiresAt]))) : wp v (identity p now s principal expires) T L Q := by
  apply wp_question_then
  intro answer _
  apply wp_mapError_then quiet
  rintro canonical rfl
  apply wp_require_then quiet
  intro current
  apply wp_then
  apply wp_check quiet.andThen
  intro mapping approved
  apply wp_require_then quiet
  intro agrees
  exact h canonical mapping current approved agrees

end Rules

theorem consume_basis (c : Call) (i : Nat) (v : Setting system) (T : Trace system) :
    wp v (consume c.policy c.trustID c.eventID) T [] (post c i) := by
  have quiet : Quiet (post c i) := fun _ _ _ => trivial
  apply wp_require_then quiet
  intro _
  apply wp_question_then
  intro ended _
  apply wp_require_then quiet
  intro live
  apply wp_question_then
  intro started _
  apply wp_require_then quiet
  intro _
  apply wp_then
  apply wp_governed quiet.andThen
  intro s receipts usable active governs count approved
  apply wp_then
  apply wp_supported quiet.andThen
  intro platform bound supported
  apply wp_then
  apply wp_event quiet.andThen
  intro principal assurance encoded decision event bundle acceptable mapped encodes decided
  apply wp_then
  apply wp_identity quiet.andThen
  intro canonical mapping current resolved agrees
  apply wp_question_then
  intro answer _
  apply wp_mapError_then quiet
  rintro latest rfl
  apply wp_require_then quiet
  intro same
  apply wp_question_then
  intro now _
  apply wp_require_then quiet
  intro ordered
  apply wp_question_then
  intro stopped _
  apply wp_require_then quiet
  intro inTime
  simp only [Bool.and_eq_true, Bool.not_eq_true', Time.before_iff, Time.before_false] at live ordered inTime
  obtain ⟨⟨⟨open_, -⟩, before⟩, valid⟩ := inTime
  obtain rfl : ended = false := live
  obtain rfl : stopped = false := open_
  let b : Basis := ⟨started, s, receipts, platform, principal, assurance, encoded, decision,
    canonical, mapping, latest, now⟩
  -- the running minimum, as one minimum of everything
  have expiry : minimum (minimum (minimum (minimum (minimum (minimum s.validUntil
      (started.add c.policy.maxDecisionLifetime :: receipts.map ApprovedReference.expiresAt))
        [platform.evidenceExpiresAt])
      [(authenticatedAt assurance.upstreamEvidence).add c.policy.maxAuthenticationAge, decision.expiresAt])
      [mapping.expiresAt]) [canonical.validUntil, principal.expiresAt, assurance.expiresAt]) [latest.validUntil] =
      minimum s.validUntil (b.bounds c).tail := by
    simp only [minimum_minimum]
    simp [Basis.bounds, b]
  refine ⟨b, ?_, usable, active, governs, count, ?_, bound, supported, event, bundle, acceptable,
    mapped, encodes, current, agrees, same, ordered, ?_, ?_⟩
  · simp [Basis.log, Basis.firstAnswers, Basis.middleAnswers, Basis.lastAnswers,
      Basis.decisionWant, Basis.mappingWant, b]
  · intro a ha
    simp only [Basis.approvals, List.mem_append, List.mem_cons, List.not_mem_nil, or_false] at ha
    rcases ha with own | rfl | rfl
    · exact approved a own
    · exact decided
    · exact resolved
  · rw [← expiry]
    exact lt_minimum before valid
  · rw [← expiry]

theorem authenticatedAt_cases {s : TrustSnapshot} {p : ExternalPrincipal} {a : Assurance}
    (bundle : validateBundle ⟨s.trust, p, a⟩ = true) :
    (∃ e, a.upstreamEvidence.oidc = some e ∧
      authenticatedAt a.upstreamEvidence = e.stepUpAt.getD e.authenticatedAt) ∨
    (a.upstreamEvidence.oidc = none ∧ ∃ e, a.upstreamEvidence.saml = some e ∧
      authenticatedAt a.upstreamEvidence = e.authenticatedAt) := by
  simp only [validateBundle, Bool.and_eq_true] at bundle
  have evidence := bundle.2
  unfold validEvidence at evidence
  unfold authenticatedAt
  split at evidence
  · rename_i e _ oidc saml
    exact .inl ⟨e, oidc, by rw [oidc]⟩
  · rename_i e _ oidc saml
    exact .inr ⟨oidc, e, saml, by rw [oidc, saml]⟩
  · cases evidence

theorem approvals_base (c : Call) (b : Basis) (a : ReferenceExpectation × ApprovedReference)
    (ha : a ∈ b.approvals c) :
    a.1.trustID = b.snapshot.trust.id ∧ a.1.trustRevision = b.snapshot.trust.revision ∧
    a.1.snapshotID = b.snapshot.snapshotID ∧ a.1.providerID = b.snapshot.trust.providerBinding.providerID ∧
    a.1.engineInstanceID = b.snapshot.trust.providerBinding.engineInstanceID ∧ a.1.scope = c.policy.scope := by
  simp only [Basis.approvals, List.mem_append, List.mem_cons, List.not_mem_nil, or_false] at ha
  rcases ha with own | rfl | rfl
  · have wanted : a.1 ∈ references c.policy.scope b.snapshot := (List.of_mem_zip own).1
    simp only [references, List.mem_cons, List.not_mem_nil, or_false] at wanted
    rcases wanted with h | h | h | h | h | h <;> rw [h] <;> exact ⟨rfl, rfl, rfl, rfl, rfl, rfl⟩
  · exact ⟨rfl, rfl, rfl, rfl, rfl, rfl⟩
  · exact ⟨rfl, rfl, rfl, rfl, rfl, rfl⟩

theorem exec_basis (schedule : List (Action system)) {i : Nat} {c : Call} {L : Log ports} {d : Decision}
    (returned : (exec system schedule).threads[i]? = some ⟨c, L, .ret d⟩) : ∃ b : Basis, L = b.log c ∧
    b.Supports c d := by
  have sound : Sound (fun _ _ => True) post (exec system schedule) :=
    exec_sound (fun i c T _ => consume_basis c i _ T) schedule
  obtain ⟨T, -, basis⟩ := sound.ended (c := c) (r := .ok d) returned
  exact basis

/-- Whatever the authorities and the clock answer, a Decision expires at the earliest of
the times that were consulted, later than the last clock reading; its receipts were
approved for the first snapshot, and it says what the last two of them cover. -/
theorem decision_expires_first (schedule : List (Action system)) (i : Nat) (c : Call) (L : Log ports) (d : Decision)
    (returned : (exec system schedule).threads[i]? = some ⟨c, L, .ret d⟩) :
    ∃ b : Basis, L = b.log c ∧
      (∀ t ∈ b.bounds c, d.expiresAt.ns ≤ t.ns) ∧ d.expiresAt ∈ b.bounds c ∧
      b.finished.ns < d.expiresAt.ns ∧ b.started.ns ≤ b.finished.ns ∧
      ((∃ e, b.assurance.upstreamEvidence.oidc = some e ∧
          authenticatedAt b.assurance.upstreamEvidence = e.stepUpAt.getD e.authenticatedAt) ∨
        (b.assurance.upstreamEvidence.oidc = none ∧ ∃ e, b.assurance.upstreamEvidence.saml = some e ∧
          authenticatedAt b.assurance.upstreamEvidence = e.authenticatedAt)) ∧
      b.receipts.length = 6 ∧
      (∀ a ∈ b.approvals c, a.2.expectation = a.1 ∧ a.2.status = "APPROVED".toList ∧
        a.1.trustID = b.snapshot.trust.id ∧ a.1.trustRevision = b.snapshot.trust.revision ∧
        a.1.snapshotID = b.snapshot.snapshotID ∧ a.1.providerID = b.snapshot.trust.providerBinding.providerID ∧
        a.1.engineInstanceID = b.snapshot.trust.providerBinding.engineInstanceID ∧ a.1.scope = c.policy.scope) ∧
      b.snapshot.trust.id = c.trustID ∧ b.latest.trust = b.snapshot.trust ∧
      b.latest.approvedRevision = b.snapshot.approvedRevision ∧ b.latest.snapshotID = b.snapshot.snapshotID ∧
      d.principalID = b.mapping.expectation.principalID ∧
        d.externalIdentityID = b.mapping.expectation.externalIdentityID ∧
      d.authenticationEventID = b.decision.expectation.eventID ∧ d.assuranceLevel = b.decision.expectation.level ∧
      (b.mapping.expectation.issuer, b.mapping.expectation.subject) =
        (b.decision.expectation.issuer, b.decision.expectation.subject) := by
  obtain ⟨b, log, h⟩ := exec_basis schedule returned
  have all : b.bounds c = b.snapshot.validUntil :: (b.bounds c).tail := rfl
  have expiry : d.expiresAt = minimum b.snapshot.validUntil (b.bounds c).tail := by rw [h.decides]
  have approved : ∀ a ∈ b.approvals c, a.2.expectation = a.1 ∧ a.2.status = "APPROVED".toList := by
    intro a ha
    have ok := h.approved a ha
    simp only [approves, Bool.and_eq_true, beq_iff_eq] at ok
    exact ⟨ok.1.1.1, ok.1.1.2⟩
  have decision := (approved (b.decisionWant c, b.decision) (by simp [Basis.approvals])).1
  have mapping := (approved (b.mappingWant c, b.mapping) (by simp [Basis.approvals])).1
  have same := h.unchanged
  simp only [unchanged, Bool.and_eq_true, beq_iff_eq] at same
  have usable := h.usable
  simp only [Consumer.usable, Bool.and_eq_true, beq_iff_eq] at usable
  refine ⟨b, log, ?_, ?_, ?_, h.ordered, authenticatedAt_cases h.bundle, h.count, ?_,
    usable.1.1.1.1.1, same.2, same.1.1.2, same.1.2, ?_, ?_, ?_, ?_, ?_⟩
  · rw [expiry, all]
    intro t ht
    obtain ⟨first, rest⟩ := minimum_le b.snapshot.validUntil (b.bounds c).tail
    rcases List.mem_cons.mp ht with rfl | ht
    · exact first
    · exact rest t ht
  · rw [expiry, all]
    exact minimum_mem _ _
  · rw [expiry]
    exact h.inTime
  · intro a ha
    exact ⟨(approved a ha).1, (approved a ha).2, approvals_base c b a ha⟩
  · rw [mapping, h.decides]
    rfl
  · rw [mapping, h.decides]
    rfl
  · rw [decision, h.decides]
    rfl
  · rw [decision, h.decides]
    rfl
  · rw [mapping, decision]
    rfl

namespace Sample

/- One login that every authority approves; all times end together. -/

def start : Time := ⟨100 * Time.second, 0⟩
def limit : Time := ⟨200 * Time.second, 0⟩

def policy : Policy where
  scope := ⟨"o", "est"⟩
  maxEventLifetime := 100 * Time.second
  maxAuthenticationAge := 100 * Time.second
  maxDecisionLifetime := 100 * Time.second
  validScope := by decide
  positive := by decide

def trustID : Text := uuidText 1
def eventID : Text := uuidText 2

def trust : Trust :=
  { id := trustID, protocol := .oidc, upstreamIssuer := "https://a", organisationIDs := ["o".toList],
    estateIDs := ["est".toList], providerBinding := ⟨"provider_a", "ei_abc", "ref_conf", "ref_keys"⟩,
      status := .active,
    assurancePolicyReference := "ref_abcd", attributeMappingReference := "ref_abcd",
    provisioningPolicyReference := "ref_abcd", revision := 4, createdAt := start, updatedAt := start,
    activationEvidenceReference := "ref_abcd", activatedAt := some start, revokedAt := none }

def snapshot : TrustSnapshot := ⟨trust, 4, uuidText 3, limit⟩

def platform : PlatformSnapshot :=
  ⟨"provider_a", "ei_abc", policy.scope, "ACTIVE", "ACTIVE", "ACTIVE", "OIDC_FEDERATION", "VERIFIED",
    "sha256:".toList ++ List.replicate 64 'a', "sha256:".toList ++ List.replicate 64 'a', 1, limit⟩

def principal : ExternalPrincipal :=
  { authenticationEventID := eventID, trustID, providerID := "provider_a",
    engineInstanceID := "ei_abc", protocol := .oidc,
    issuer := "https://a", subject := "s", actorType := "human", observedAt := start, expiresAt := limit,
    resolution := { status := .unresolved } }

def evidence : OIDCAssurance :=
  { actorType := "human", acr := "a", amr := [], authenticatedAt := start, issuer := "https://a", clientID := "c" }

def assurance : Assurance :=
  { authenticationEventID := eventID, trustID, providerID := "provider_a",
    engineInstanceID := "ei_abc", protocol := .oidc,
    issuer := "https://a", subject := "s",
    upstreamEvidence := { oidc := some evidence },
    mappingStatus := .mapped, level := "BAOBAB-A1", assurancePolicyReference := "ref_abcd",
    mappingEvidenceReference := "ref_abcd", evaluatedAt := start, expiresAt := limit }

def canonical : CanonicalIdentity :=
  ⟨"https://a", "s", uuidText 4, uuidText 5, "ref_abcd", "ACTIVE", "ACTIVE", "human", "ISSUER_SUBJECT", limit⟩

def answer : (q : Query) → q.Answer
  | .now => start
  | .cancelled => false
  | .trust _ => .ok snapshot
  | .reference want => .ok ⟨want, "APPROVED", true, start, limit⟩
  | .federationBinding _ _ _ => .ok platform
  | .verify _ _ => .ok (principal, assurance)
  | .resolve _ _ => .ok canonical

def call : Call := ⟨policy, trustID, eventID⟩

theorem returns : ∃ schedule L d, (exec system schedule).threads[0]? = some ⟨call, L, .ret d⟩ :=
  ⟨thenAlone [] call 60 (fun _ q => answer q), thenAlone_returns (by decide +kernel)⟩

end Sample

theorem decision_expires_first_sample :
    ∃ (schedule : List (Action system)) (L : Log ports) (d : Decision) (b : Basis),
    (exec system schedule).threads[0]? = some ⟨Sample.call, L, .ret d⟩ ∧ L = b.log Sample.call ∧
    d.expiresAt ∈ b.bounds Sample.call ∧ b.finished.ns < d.expiresAt.ns := by
  obtain ⟨schedule, L, d, returned⟩ := Sample.returns
  obtain ⟨b, log, -, member, late, -⟩ := decision_expires_first schedule 0 Sample.call L d returned
  exact ⟨schedule, L, d, b, returned, log, member, late⟩

end Federation.Consumer
