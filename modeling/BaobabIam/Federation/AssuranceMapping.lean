import BaobabIam.Federation.NativeProtocol

/-! Which level the rules of a policy select, and what a mapped assurance rests on. The
selection is a fact about the rules as a collection: exactly one of them matches. -/
namespace Federation.NativeProtocol

open Wire Interleaving

section Selection

variable {a : Assurance} {rule : NativeAssuranceRule} {rules : List NativeAssuranceRule} {level : Text}

def Fits (a : Assurance) (rule : NativeAssuranceRule) : Prop :=
  (a.protocol = .oidc ∧ ∃ e, a.upstreamEvidence.oidc = some e ∧ rule.acr = e.acr ∧
    ∀ method ∈ rule.amr, method ∈ e.amr) ∨
  (a.protocol = .saml2 ∧ ∃ e, a.upstreamEvidence.saml = some e ∧
    rule.authnContextClassRef = e.authnContextClassRef)

/-- One rule, at one position, matches; its level is the given one. -/
def Selects (a : Assurance) (rules : List NativeAssuranceRule) (level : Text) : Prop :=
  1 ≤ rules.length ∧ rules.length ≤ 64 ∧ (∀ rule ∈ rules, wellFormed a.protocol rule = true) ∧
  ∃ before rule rest, rules = before ++ rule :: rest ∧ Fits a rule ∧
    (∀ other ∈ before ++ rest, ¬ Fits a other) ∧ rule.level = level

theorem level_of_wellFormed (h : wellFormed a.protocol rule = true) : rule.level.isEmpty = false := by
  simp only [wellFormed, Bool.and_eq_true] at h
  have named := h.1.1.2
  cases empty : rule.level with
  | nil =>
    rw [empty] at named
    cases named
  | cons c t => rfl

theorem Fits.supported (h : Fits a rule) : supported a.protocol = true := by
  rcases h with ⟨protocol, -⟩ | ⟨protocol, -⟩ <;> rw [protocol] <;> rfl

/-- The methods of a rule matter for OIDC only: a rule for SAML has none. -/
theorem matches_iff (known : supported a.protocol = true) (h : wellFormed a.protocol rule = true) :
    ruleMatches a rule = true ↔ Fits a rule := by
  simp only [wellFormed, Bool.and_eq_true] at h
  have shape := h.1.1.1
  unfold ruleMatches sameClass hasMethods Fits
  cases protocol : a.protocol with
  | oidc =>
    cases evidence : a.upstreamEvidence.oidc with
    | none => simp
    | some e => simp
  | saml2 =>
    rw [protocol] at shape
    simp only [Bool.and_eq_true, List.isEmpty_iff] at shape
    rw [shape.2]
    cases evidence : a.upstreamEvidence.saml with
    | none => simp
    | some e => simp
  | other => simp [supported, protocol] at known

theorem selectFrom_matched (named : level.isEmpty = false) (rules : List NativeAssuranceRule) (result : Text) :
    selectFrom a level rules = .ok result ↔
      (∀ rule ∈ rules, wellFormed a.protocol rule = true) ∧ rules.filter (ruleMatches a) = [] ∧
      level = result := by
  induction rules with
  | nil => simp [selectFrom]
  | cons rule rest ih =>
    unfold selectFrom
    cases formed : wellFormed a.protocol rule with
    | false => simp [formed]
    | true =>
      cases hit : ruleMatches a rule with
      | true => simp [named, hit]
      | false =>
        rw [List.filter_cons_of_neg (by simp [hit])]
        simp [ih, formed]

theorem selectFrom_unmatched (rules : List NativeAssuranceRule) (result : Text) (named : result.isEmpty = false) :
    selectFrom a [] rules = .ok result ↔
      (∀ rule ∈ rules, wellFormed a.protocol rule = true) ∧ ∃ rule, rules.filter (ruleMatches a) = [rule] ∧
        rule.level = result := by
  induction rules with
  | nil =>
    constructor
    · rintro ⟨⟩
      cases named
    · rintro ⟨-, rule, none, -⟩
      cases none
  | cons rule rest ih =>
    unfold selectFrom
    cases formed : wellFormed a.protocol rule with
    | false => simp [formed]
    | true =>
      cases hit : ruleMatches a rule with
      | true =>
        have loop := selectFrom_matched (a := a) (level_of_wellFormed formed) rest result
        simp only [Bool.not_true, Bool.false_eq_true, if_false, List.isEmpty_nil, if_true]
        rw [loop, List.filter_cons_of_pos hit, List.forall_mem_cons]
        constructor
        · rintro ⟨all, none, same⟩
          exact ⟨⟨formed, all⟩, rule, by rw [none], same⟩
        · rintro ⟨⟨-, all⟩, only, one, same⟩
          obtain ⟨rfl, none⟩ := List.cons.inj one
          exact ⟨all, none, same⟩
      | false =>
        rw [List.filter_cons_of_neg (by simp [hit])]
        simp [ih, formed]

theorem named_ok (loop : Except Fault Text) (result : Text) : ((do
    let level ← loop
    if level.isEmpty then .error .unverified else .ok level : Except Fault Text) = .ok result) ↔
      loop = .ok result ∧ result.isEmpty = false := by
  cases loop with
  | error e => simp [bind, Except.bind]
  | ok level =>
    simp only [bind, Except.bind, Except.ok.injEq]
    cases empty : level.isEmpty with
    | true =>
      simp only [if_true, reduceCtorEq, false_iff]
      rintro ⟨rfl, named⟩
      rw [empty] at named
      cases named
    | false =>
      simp only [Bool.false_eq_true, if_false, Except.ok.injEq]
      constructor
      · rintro rfl
        exact ⟨rfl, empty⟩
      · exact fun h => h.1

theorem selectLevel_filter (rules : List NativeAssuranceRule) (result : Text) :
    selectLevel a rules = .ok result ↔ supported a.protocol = true ∧ 1 ≤ rules.length ∧ rules.length ≤ 64 ∧
      (∀ rule ∈ rules, wellFormed a.protocol rule = true) ∧
      ∃ rule, rules.filter (ruleMatches a) = [rule] ∧ rule.level = result := by
  have counted : (rules.isEmpty || decide (64 < rules.length)) = true ↔
      ¬ (1 ≤ rules.length ∧ rules.length ≤ 64) := by
    cases rules with
    | nil => simp
    | cons rule rest =>
      simp only [List.isEmpty_cons, Bool.false_or, decide_eq_true_eq, List.length_cons]
      omega
  unfold selectLevel
  by_cases known : supported a.protocol = true
  swap
  · simp [known]
  rw [if_neg (by simp [known]), and_iff_right known]
  by_cases right : 1 ≤ rules.length ∧ rules.length ≤ 64
  · rw [if_neg (fun size => counted.mp size right), named_ok]
    constructor
    · rintro ⟨loop, named⟩
      exact ⟨right.1, right.2, (selectFrom_unmatched rules result named).mp loop⟩
    · rintro ⟨-, -, all, rule, one, same⟩
      have member : rule ∈ rules := (List.mem_filter.mp (one ▸ List.mem_singleton_self rule)).1
      have named : result.isEmpty = false := same ▸ level_of_wellFormed (all rule member)
      exact ⟨(selectFrom_unmatched rules result named).mpr ⟨all, rule, one, same⟩, named⟩
  · rw [if_pos (counted.mpr right)]
    constructor
    · rintro ⟨⟩
    · exact fun h => absurd ⟨h.1, h.2.1⟩ right

theorem selectLevel_iff (rules : List NativeAssuranceRule) (result : Text) :
    selectLevel a rules = .ok result ↔ Selects a rules result := by
  by_cases known : supported a.protocol = true
  swap
  · constructor
    · exact fun h => absurd ((selectLevel_filter _ _).mp h).1 known
    · rintro ⟨-, -, -, before, rule, rest, -, fits, -⟩
      exact absurd fits.supported known
  rw [selectLevel_filter, and_iff_right known]
  unfold Selects
  apply and_congr_right
  intro _
  apply and_congr_right
  intro _
  apply and_congr_right
  intro formed
  constructor
  · rintro ⟨rule, one, same⟩
    obtain ⟨before, rest, rfl, none, hit, others⟩ := List.filter_eq_cons_iff.mp one
    refine ⟨before, rule, rest, rfl, (matches_iff known (formed rule (by simp))).mp hit, ?_, same⟩
    intro other member fits
    have matched := (matches_iff known (formed other (by simp at member ⊢; tauto))).mpr fits
    rcases List.mem_append.mp member with first | last_
    · exact none other first matched
    · exact List.filter_eq_nil_iff.mp others other last_ matched
  · rintro ⟨before, rule, rest, rfl, fits, others, same⟩
    refine ⟨rule, ?_, same⟩
    have spare : ∀ other ∈ before ++ rest, ¬ ruleMatches a other = true := by
      intro other member hit
      exact others other member ((matches_iff known (formed other (by simp at member ⊢; tauto))).mp hit)
    rw [List.filter_append, List.filter_cons_of_pos ((matches_iff known (formed rule (by simp))).mpr fits),
      List.filter_eq_nil_iff.mpr (fun other member => spare other (List.mem_append_left _ member)),
      List.filter_eq_nil_iff.mpr (fun other member => spare other (List.mem_append_right _ member)), List.nil_append]

theorem selectLevel_perm {rules' : List NativeAssuranceRule} (same : rules.Perm rules') (result : Text) :
    selectLevel a rules = .ok result ↔ selectLevel a rules' = .ok result := by
  have all : (∀ rule ∈ rules, wellFormed a.protocol rule = true) ↔
      ∀ rule ∈ rules', wellFormed a.protocol rule = true :=
    forall_congr' (fun rule => by rw [same.mem_iff])
  have one : ∀ rule, rules.filter (ruleMatches a) = [rule] ↔ rules'.filter (ruleMatches a) = [rule] := by
    intro rule
    have filtered := same.filter (ruleMatches a)
    constructor
    · intro only
      exact List.perm_singleton.mp (only ▸ filtered.symm)
    · intro only
      exact List.perm_singleton.mp (only ▸ filtered)
  rw [selectLevel_filter, selectLevel_filter, same.length_eq, all]
  simp only [one]

def reordered (a : Assurance) (amr : List Text) : Assurance :=
  { a with upstreamEvidence := { a.upstreamEvidence with
      oidc := a.upstreamEvidence.oidc.map (fun e => { e with amr }) } }

theorem matches_reordered {amr : List Text} (same : ∀ e, a.upstreamEvidence.oidc = some e → e.amr.Perm amr) :
    ruleMatches (reordered a amr) rule = ruleMatches a rule := by
  unfold ruleMatches sameClass hasMethods reordered
  cases evidence : a.upstreamEvidence.oidc with
  | none => rfl
  | some e =>
    have methods : ∀ method, amr.contains method = e.amr.contains method := by
      intro method
      rw [Bool.eq_iff_iff, List.contains_iff_mem, List.contains_iff_mem, (same e evidence).mem_iff]
    simp only [Option.map_some, Option.any_some, methods]

theorem selectLevel_reordered {amr : List Text} (same : ∀ e, a.upstreamEvidence.oidc = some e → e.amr.Perm amr)
    (rules : List NativeAssuranceRule) : selectLevel (reordered a amr) rules = selectLevel a rules := by
  have loop : ∀ level, selectFrom (reordered a amr) level rules = selectFrom a level rules := by
    induction rules with
    | nil => exact fun _ => rfl
    | cons rule rest ih =>
      intro level
      unfold selectFrom
      rw [matches_reordered same, ih, ih]
      rfl
  unfold selectLevel
  rw [loop]
  rfl

/-- Two rules at different positions that match are refused, whatever their levels are. -/
theorem selectLevel_ambiguous {before between rest : List NativeAssuranceRule} {first second : NativeAssuranceRule}
    (hit : Fits a first) (again : Fits a second) :
    ∃ e, selectLevel a (before ++ first :: between ++ second :: rest) = .error e := by
  cases result : selectLevel a (before ++ first :: between ++ second :: rest) with
  | error e => exact ⟨e, rfl⟩
  | ok level =>
    obtain ⟨known, -, -, formed, rule, one, -⟩ := (selectLevel_filter _ _).mp result
    have two : 2 ≤ ((before ++ first :: between ++ second :: rest).filter (ruleMatches a)).length := by
      rw [List.filter_append, List.filter_append,
        List.filter_cons_of_pos ((matches_iff known (formed first (by simp))).mpr hit),
        List.filter_cons_of_pos ((matches_iff known (formed second (by simp))).mpr again)]
      simp only [List.length_append, List.length_cons]
      omega
    rw [one] at two
    simp at two

end Selection

section Reading

variable {β : Type} {v : Setting system} {T : Trace system} {L : Log ports} {Q : Post system β}

variable {α : Type} [Codec α] {w : ReferenceExpectation} {expiry : Time} {p : Settings}

/-- Some approved receipt of this expectation was returned, and a document under it. -/
structure Read {α : Type} [Codec α] (w : ReferenceExpectation) (L : Log ports) (expiry : Time) (value : α) :
    Prop where
  approved : ∃ receipt, ⟨Query.reference w, .ok receipt⟩ ∈ L ∧ approvedFor w receipt = true ∧
    receipt.expiresAt = expiry
  content : ∃ content, ⟨Query.nativeTargetContent w, .ok content⟩ ∈ L ∧ decodeAuthority content = some value

theorem Read.later {L' : Log ports} {value : α} (read : Read w L expiry value) (longer : L <+: L') :
    Read w L' expiry value := by
  obtain ⟨⟨receipt, returned, approved⟩, content, stored, decoded⟩ := read
  exact ⟨⟨receipt, longer.subset returned, approved⟩, content, longer.subset stored, decoded⟩

theorem wp_read {Q : Post system (Time × α)} (quiet : Quiet Q)
    (h : ∀ L' expiry value, L <+: L' → Read w L' expiry value → Q T L' (.ok (expiry, value))) :
    wp v (read α w) T L Q := by
  apply wp_question_then
  intro answer _
  apply wp_mapError_then quiet
  rintro receipt rfl
  apply wp_require_then quiet
  intro approved
  apply wp_question_then
  intro now _
  apply wp_require_then quiet
  intro _
  apply wp_question_then
  intro answer _
  apply wp_ofExcept_then quiet
  rintro content rfl
  apply wp_ofExcept_then quiet
  intro value decoded
  apply wp_question_then
  intro answer _
  apply wp_mapError_then quiet
  rintro after_ rfl
  apply wp_require_then quiet
  intro _
  apply wp_question_then
  intro ended _
  apply wp_require_then quiet
  intro _
  apply wp_question_then
  intro now _
  apply wp_require_then quiet
  intro _
  apply h
  · simp only [List.append_assoc]
    exact List.prefix_append _ _
  · exact ⟨⟨receipt, by simp, approved, rfl⟩, content, by simp, elim_eq_ok decoded⟩

theorem wp_readAgain {Q : Post system Unit}
    (quiet : Quiet Q) (h : ∀ L', L <+: L' → Q T L' (.ok ())) : wp v (readAgain α w expiry) T L Q := by
  apply wp_then
  apply (wp_attempt _).mpr
  apply wp_read (fun T L e => quiet T L _)
  intro L' check value longer _
  apply (wp_require _ _).mpr
  exact ⟨fun _ => h L' longer, fun _ => quiet T L' _⟩

def Governed (s : TrustSnapshot) (L : Log ports) : Prop :=
  ∃ current, ⟨Query.trust s.trust.id, .ok current⟩ ∈ L ∧ currentTrust current s = true

theorem wp_refresh {Q : Post system Unit} (quiet : Quiet Q) (h : ∀ L', L <+: L' → Q T L' (.ok ())) :
    wp v (refresh p) T L Q := by
  apply (wp_when _ _).mpr
  constructor
  · intro _
    apply wp_question_then
    intro answer _
    apply (wp_ofExcept _).mpr
    cases answer with
    | error e => exact quiet _ _ _
    | ok done => exact h _ (List.prefix_append _ _)
  · intro _
    exact h L (List.prefix_refl L)

theorem wp_base {Q : Post system Unit} {s : TrustSnapshot} (quiet : Quiet Q)
    (h : ∀ L', L <+: L' → Governed s L' → Q T L' (.ok ())) : wp v (base p s) T L Q := by
  apply wp_require_then quiet
  intro _
  apply wp_question_then
  intro ended _
  apply wp_require_then quiet
  intro _
  apply wp_then
  apply wp_refresh quiet.andThen
  intro L' longer
  apply wp_question_then
  intro answer _
  apply wp_mapError_then quiet
  rintro current rfl
  apply wp_require_then quiet
  intro governed
  apply wp_question_then
  intro now _
  apply (wp_require _ _).mpr
  refine ⟨fun _ => h _ ?_ ⟨current, by simp, governed⟩, fun _ => quiet _ _ _⟩
  rw [List.append_assoc]
  exact ((List.prefix_append _ _).trans longer).trans (List.prefix_append _ _)

end Reading

def policyExpectation (c : Call) : ReferenceExpectation :=
  expectation c.settings c.snapshot c.snapshot.trust.assurancePolicyReference .assurancePolicy

structure Basis where
  policy : NativeAssurancePolicy
  expiry : Time
  selected : ReferenceExpectation
  decision : NativeAssuranceDecision
  decisionExpiry : Time

structure Basis.Supports (b : Basis) (c : Call) (L : Log ports) (result : Assurance) : Prop where
  governed : Governed c.snapshot L
  unknown : c.assurance.mappingStatus = .unknown
  bundle : validateBundle ⟨c.snapshot.trust, c.principal, c.assurance⟩ = true
  policy : Read (policyExpectation c) L b.expiry b.policy
  selects : selectLevel c.assurance b.policy.rules = .ok b.selected.level
  wanted : NativeTargetLedger.unnamed b.selected =
    wanted c.settings c.snapshot c.principal c.assurance b.selected.level
  decision : Read b.selected L b.decisionExpiry b.decision
  decides : decides b.selected b.decision = true
  maps : result = mapped c.snapshot c.assurance b.selected b.decision b.expiry b.decisionExpiry
  valid : validateBundle ⟨c.snapshot.trust, c.principal, result⟩ = true

def post (c : Call) (_ : Nat) : Post system (system.Result c) := fun _ L r =>
  ∀ result, r = .ok result → ∃ b : Basis, b.Supports c L result

theorem mapAssurance_basis (c : Call) (i : Nat) (v : Setting system) (T : Trace system) :
    wp v (system.code c) T [] (post c i) := by
  have quiet : Quiet (post c i) := by
    rintro T L e result ⟨⟩
  apply wp_then
  apply wp_base quiet.andThen
  intro L₁ _ governed
  apply wp_require_then quiet
  intro passed
  simp only [Bool.and_eq_true, beq_iff_eq] at passed
  apply wp_then
  apply wp_read quiet.andThen
  intro L₂ expiry policy longer₂ readPolicy
  apply wp_ofExcept_then quiet
  intro level selects
  apply wp_question_then
  intro answer _
  apply wp_ofExcept_then quiet
  rintro ⟨selected, asked⟩ rfl
  apply wp_then
  apply wp_read quiet.andThen
  intro L₃ decisionExpiry decision longer₃ readDecision
  apply wp_require_then quiet
  intro decides
  apply wp_require_then quiet
  intro valid
  apply wp_then
  apply wp_readAgain quiet.andThen
  intro L₄ longer₄
  apply wp_then
  apply wp_readAgain quiet.andThen
  intro L₅ longer₅
  apply wp_then
  apply wp_base quiet.andThen
  intro L₆ longer₆ _
  rintro result ⟨⟩
  have same : selected.level = level := congrArg ReferenceExpectation.level asked
  have late : L₃ <+: L₆ := (longer₄.trans longer₅).trans longer₆
  have later : L₂ <+: L₆ := ((List.prefix_append _ _).trans longer₃).trans late
  obtain ⟨current, answered, checked⟩ := governed
  exact ⟨⟨policy, expiry, selected, decision, decisionExpiry⟩,
    ⟨current, (longer₂.trans later).subset answered, checked⟩,
    passed.1, passed.2, readPolicy.later later, by rw [selects, same], by rw [asked, same], readDecision.later late,
    decides, rfl, valid⟩

theorem exec_basis (schedule : List (Action system)) {i : Nat} {c : Call} {L : Log ports} {result : Assurance}
    (returned : (exec system schedule).threads[i]? = some ⟨c, L, .ret result⟩) :
    ∃ b : Basis, b.Supports c L result := by
  have sound : Sound (fun _ _ => True) post (exec system schedule) := by
    apply exec_sound
    intro i c T _
    exact mapAssurance_basis c i _ T
  obtain ⟨T, -, basis⟩ := sound.ended (c := c) (r := .ok result) returned
  exact basis result rfl

/-- The fields of a mapped assurance that are not the ones of the unmapped. -/
structure Remaps (a result : Assurance) : Prop where
  others : result = { a with
    mappingStatus := result.mappingStatus
    level := result.level
    mappingEvidenceReference := result.mappingEvidenceReference
    expiresAt := result.expiresAt }
  status : result.mappingStatus = .mapped
  shorter : result.expiresAt.ns ≤ a.expiresAt.ns

theorem mapped_remaps (s : TrustSnapshot) (a : Assurance) (selected : ReferenceExpectation)
    (d : NativeAssuranceDecision)
    (expiry decisionExpiry : Time) : Remaps a (mapped s a selected d expiry decisionExpiry) :=
  ⟨rfl, rfl, (minimum_le a.expiresAt _).1⟩

/-- The decision is about this event, issuer and subject, and this evidence. -/
structure Concerns (w : ReferenceExpectation) (p : ExternalPrincipal) (a : Assurance) : Prop where
  event : w.eventID = p.authenticationEventID
  issuer : w.issuer = p.issuer
  subject : w.subject = p.subject
  evidence : w.evidenceDigest = nativeTargetDigest (marshal a.upstreamEvidence)

theorem nativeTargetDigest_injective {x y : Text} (apart : Sha256.Apart x y)
    (same : nativeTargetDigest x = nativeTargetDigest y) : x = y := by
  unfold nativeTargetDigest at same
  exact apart.eq (List.append_cancel_left same)

namespace Basis.Supports

variable {b : Basis} {c : Call} {L : Log ports} {result : Assurance}

theorem concerns (h : b.Supports c L result) : Concerns b.selected c.principal c.assurance := by
  have asked := h.wanted
  constructor
  · exact congrArg ReferenceExpectation.eventID asked
  · exact congrArg ReferenceExpectation.issuer asked
  · exact congrArg ReferenceExpectation.subject asked
  · exact congrArg ReferenceExpectation.evidenceDigest asked

theorem level (h : b.Supports c L result) :
    result.level = b.decision.level ∧ b.decision.level = b.selected.level := by
  have decided := h.decides
  simp only [NativeProtocol.decides, Bool.and_eq_true, beq_iff_eq] at decided
  exact ⟨by rw [h.maps]; rfl, decided.2⟩

/-- Evidence that cannot be written has no text, so that its digest tells only that the
evidence of the decision cannot be written either. -/
theorem evidence (h : b.Supports c L result)
    (apart : Sha256.Apart (marshal b.decision.evidence) (marshal c.assurance.upstreamEvidence)) :
    b.decision.evidence = c.assurance.upstreamEvidence ∨
      (Codec.encode b.decision.evidence = none ∧ Codec.encode c.assurance.upstreamEvidence = none) := by
  have decided := h.decides
  simp only [NativeProtocol.decides, Bool.and_eq_true, beq_iff_eq] at decided
  have texts := nativeTargetDigest_injective apart (decided.1.trans h.concerns.evidence)
  cases first : Codec.encode b.decision.evidence with
  | some j => exact .inl (marshal_injective (by rw [first]; rfl) texts)
  | none =>
    cases second : Codec.encode c.assurance.upstreamEvidence with
    | some j => exact .inl (marshal_injective (by rw [second]; rfl) texts.symm).symm
    | none => exact .inr ⟨rfl, rfl⟩

end Basis.Supports

/-- The rules select a level exactly when one of them matches, in whatever order rules
and methods stand; and an assurance that is mapped to a level has an approved decision
of this level about this very evidence. -/
theorem assurance_mapped_unambiguously :
    (∀ (a : Assurance) rules level, selectLevel a rules = .ok level ↔ Selects a rules level) ∧
    (∀ (a : Assurance) before first between second rest, Fits a first → Fits a second →
      ∃ e, selectLevel a (before ++ first :: between ++ second :: rest) = .error e) ∧
    (∀ (a : Assurance) rules rules' level, rules.Perm rules' →
      (selectLevel a rules = .ok level ↔ selectLevel a rules' = .ok level)) ∧
    (∀ (a : Assurance) amr rules, (∀ e, a.upstreamEvidence.oidc = some e → e.amr.Perm amr) →
      selectLevel (reordered a amr) rules = selectLevel a rules) ∧
    ∀ (schedule : List (Action system)) (i : Nat) (c : Call) (L : Log ports) (result : Assurance),
      (exec system schedule).threads[i]? = some ⟨c, L, .ret result⟩ →
      Remaps c.assurance result ∧ ∃ b : Basis, Read (policyExpectation c) L b.expiry b.policy ∧
        Selects c.assurance b.policy.rules result.level ∧ b.decision.level = result.level ∧
        result.mappingEvidenceReference = b.selected.id ∧ b.selected.kind = .assuranceMappingDecision ∧
        b.selected.level = result.level ∧ Concerns b.selected c.principal c.assurance ∧
        Read b.selected L b.decisionExpiry b.decision ∧
        nativeTargetDigest (marshal b.decision.evidence) = nativeTargetDigest (marshal c.assurance.upstreamEvidence) ∧
        (Sha256.Apart (marshal b.decision.evidence) (marshal c.assurance.upstreamEvidence) →
          b.decision.evidence = c.assurance.upstreamEvidence ∨
          (Codec.encode b.decision.evidence = none ∧ Codec.encode c.assurance.upstreamEvidence = none)) := by
  refine ⟨fun a => selectLevel_iff, fun a _ _ _ _ _ => selectLevel_ambiguous, fun a _ _ level same =>
    selectLevel_perm same level, fun a _ rules same => selectLevel_reordered same rules, ?_⟩
  intro schedule i c L result returned
  obtain ⟨b, h⟩ := exec_basis schedule returned
  obtain ⟨decided, selected⟩ := h.level
  have kind : b.selected.kind = .assuranceMappingDecision := congrArg ReferenceExpectation.kind h.wanted
  have digests := h.decides
  simp only [decides, Bool.and_eq_true, beq_iff_eq] at digests
  refine ⟨h.maps ▸ mapped_remaps .., b, h.policy, ?_, decided.symm, by rw [h.maps]; rfl, kind,
    (decided.trans selected).symm, h.concerns, h.decision, digests.1.trans h.concerns.evidence, h.evidence⟩
  rw [decided, selected]
  exact (selectLevel_iff _ _).mp h.selects

namespace Sample

/- One OIDC login that the only rule of an approved policy matches. -/

open Consumer.Sample (start limit snapshot principal evidence)

def rule : NativeAssuranceRule := { acr := "a", level := "BAOBAB-A2" }

def decision : NativeAssuranceDecision := ⟨{ oidc := some evidence }, "BAOBAB-A2"⟩

def settings : Settings where
  scope := Consumer.Sample.policy.scope
  refreshes := false

def assurance : Assurance :=
  { Consumer.Sample.assurance with mappingStatus := .unknown, level := [], mappingEvidenceReference := [] }

def call : Call := ⟨settings, snapshot, principal, assurance⟩

def want : ReferenceExpectation := wanted settings snapshot principal assurance "BAOBAB-A2"

def selected : Found want := ⟨{ want with id := "ref_abcd" }, rfl⟩

def content (kind : ReferenceKind) : Text :=
  if kind = .assurancePolicy then marshal (⟨[rule]⟩ : NativeAssurancePolicy) else marshal decision

def answer : (q : Query) → q.Answer
  | .now => start
  | .cancelled => false
  | .refresh => .ok ()
  | .trust _ => .ok snapshot
  | .reference want => .ok ⟨want, "APPROVED", true, start, limit⟩
  | .nativeTargetContent w => .ok (content w.kind)
  | .findAssuranceDecision w => if same : w = want then .ok (same ▸ selected) else .error .unverified

theorem returns : ∃ schedule L result, (exec system schedule).threads[0]? = some ⟨call, L, .ret result⟩ :=
  ⟨thenAlone [] call 60 (fun _ q => answer q), thenAlone_returns (by decide +kernel)⟩

end Sample

theorem assurance_mapped_unambiguously_sample :
    ∃ (schedule : List (Action system)) (L : Log ports) (result : Assurance),
    (exec system schedule).threads[0]? = some ⟨Sample.call, L, .ret result⟩ ∧ Remaps Sample.assurance result := by
  obtain ⟨schedule, L, result, returned⟩ := Sample.returns
  obtain ⟨-, -, -, -, mapped⟩ := assurance_mapped_unambiguously
  exact ⟨schedule, L, result, returned, (mapped schedule 0 Sample.call L result returned).1⟩

end Federation.NativeProtocol
