import BaobabIam.Federation.AssuranceDecisions
import BaobabIam.Federation.ConsumeBasis

/-! The native protocol maps the upstream evidence of a login to an assurance level. The
rules of an approved policy select a level; the level that is returned is the one of a
separately approved decision about this evidence. Both documents are read under their
receipts, twice, between two looks at the current trust. -/
namespace Federation.NativeProtocol

open Wire Interleaving

structure NativeAssuranceRule where
  acr : Text
  level : Text
  authnContextClassRef : Text := []
  amr : List Text := []
  deriving DecidableEq

def NativeAssuranceRule.fields : List (RecordField NativeAssuranceRule) :=
  [.of "ACR" NativeAssuranceRule.acr (fun v r => { r with acr := v }),
   .of "Level" NativeAssuranceRule.level (fun v r => { r with level := v }),
   .omitEmpty "AuthnContextClassRef" List.isEmpty NativeAssuranceRule.authnContextClassRef
     (fun v r => { r with authnContextClassRef := v }),
   .omitEmpty "AMR" List.isEmpty NativeAssuranceRule.amr (fun v r => { r with amr := v })]

instance : Codec NativeAssuranceRule :=
  recordCodec NativeAssuranceRule.fields ⟨[], [], [], []⟩ (by decide) (by
    rintro ⟨acr, level, ref, amr⟩
    cases ref <;> cases amr <;> rfl)

structure NativeAssurancePolicy where
  rules : List NativeAssuranceRule
  deriving DecidableEq

instance : Codec NativeAssurancePolicy :=
  recordCodec [.of "Rules" NativeAssurancePolicy.rules (fun v p => { p with rules := v })] ⟨[]⟩ (by decide)
    (fun _ => rfl)

structure NativeAssuranceDecision where
  evidence : UpstreamEvidence
  level : Text
  deriving DecidableEq

def NativeAssuranceDecision.fields : List (RecordField NativeAssuranceDecision) :=
  [.of "Evidence" NativeAssuranceDecision.evidence (fun v d => { d with evidence := v }),
   .of "Level" NativeAssuranceDecision.level (fun v d => { d with level := v })]

instance : Codec NativeAssuranceDecision :=
  recordCodec NativeAssuranceDecision.fields ⟨⟨none, none⟩, []⟩ (by decide) (fun _ => rfl)

structure Settings where
  scope : Scope
  /-- Refresh is configured. -/
  refreshes : Bool

abbrev Found (want : ReferenceExpectation) := { w : ReferenceExpectation // NativeTargetLedger.unnamed w = want }

inductive Query where
  | now
  | cancelled
  | refresh
  | trust (id : Text)
  | reference (want : ReferenceExpectation)
  | nativeTargetContent (w : ReferenceExpectation)
  | findAssuranceDecision (want : ReferenceExpectation)
  deriving DecidableEq

abbrev Query.Answer : Query → Type
  | .now => Time
  | .cancelled => Bool
  | .refresh => Except Fault Unit
  | .trust _ => Except Fault TrustSnapshot
  | .reference _ => Except Fault ApprovedReference
  | .nativeTargetContent _ => Except Fault Text
  | .findAssuranceDecision want => Except Fault (Found want)

abbrev ports : Interface := ⟨Query, Query.Answer⟩

abbrev Op := Prog ports Unit Fault

def authority {α : Type} (answer : Except Fault α) : Op α := Prog.ofExcept (answer.mapError authorityError)

def refresh (p : Settings) : Op Unit := Prog.when p.refreshes do
  let answer ← Prog.question (I := ports) .refresh
  authority answer

def currentTrust (current s : TrustSnapshot) : Bool :=
  trustSnapshotDigest current == trustSnapshotDigest s && validateTrust s.trust && s.trust.status == .active &&
  s.trust.revision == s.approvedRevision

def base (p : Settings) (s : TrustSnapshot) : Op Unit := do
  Prog.require (validScope p.scope) .invalid
  let ended ← Prog.question (I := ports) .cancelled
  Prog.require (!ended) .invalid
  refresh p
  let answer ← Prog.question (I := ports) (.trust s.trust.id)
  let current ← authority answer
  Prog.require (currentTrust current s) .unverified
  let now : Time ← Prog.question (I := ports) .now
  Prog.require (now.before s.validUntil && s.trust.organisationIDs.contains p.scope.organisationID &&
    s.trust.estateIDs.contains p.scope.estateID) .unverified

def expectation (p : Settings) (s : TrustSnapshot) (id : Text) (kind : ReferenceKind) : ReferenceExpectation :=
  { id, kind, trustID := s.trust.id, snapshotID := s.snapshotID, trustRevision := s.approvedRevision,
    providerID := s.trust.providerBinding.providerID, engineInstanceID := s.trust.providerBinding.engineInstanceID,
    scope := p.scope }

def approvedFor (w : ReferenceExpectation) (receipt : ApprovedReference) : Bool :=
  receipt.expectation == w && receipt.status == "APPROVED".toList && receipt.nonSecret

/-- The document under a receipt that is the same before and after, with its expiry. -/
def read (α : Type) [Codec α] (w : ReferenceExpectation) : Op (Time × α) := do
  let answer ← Prog.question (I := ports) (.reference w)
  let before ← authority answer
  Prog.require (approvedFor w before) .unverified
  let now : Time ← Prog.question (I := ports) .now
  Prog.require (fresh before.validFrom before.expiresAt now) .unverified
  let answer ← Prog.question (I := ports) (.nativeTargetContent w)
  let content ← Prog.ofExcept answer
  let value ← Prog.ofExcept ((decodeAuthority content).elim (.error .invalid) .ok)
  let answer ← Prog.question (I := ports) (.reference w)
  let after ← authority answer
  Prog.require (before == after) .unverified
  let ended ← Prog.question (I := ports) .cancelled
  Prog.require (!ended) .unverified
  let now : Time ← Prog.question (I := ports) .now
  Prog.require (fresh after.validFrom after.expiresAt now) .unverified
  return (before.expiresAt, value)

/-- The document again: nothing but its expiry is compared. -/
def readAgain (α : Type) [Codec α] (w : ReferenceExpectation) (expiry : Time) : Op Unit := do
  let again ← (read α w).attempt
  Prog.require (match again with
    | .ok (check, _) => check == expiry
    | .error _ => false) .unverified

def levels : List Text := ["BAOBAB-A1", "BAOBAB-A2", "BAOBAB-A3"]

def wellFormed (protocol : Protocol) (rule : NativeAssuranceRule) : Bool :=
  (match protocol with
    | .oidc => exact rule.acr && rule.authnContextClassRef.isEmpty
    | .saml2 => exact rule.authnContextClassRef && rule.acr.isEmpty && rule.amr.isEmpty
    | .other .. => true) &&
  levels.contains rule.level && rule.amr.length ≤ 16 && rule.amr.all exact

/-- The rule speaks of this evidence. Valid evidence is of the kind of its protocol. -/
def sameClass (a : Assurance) (rule : NativeAssuranceRule) : Bool :=
  match a.protocol with
  | .oidc => a.upstreamEvidence.oidc.any (fun e => rule.acr == e.acr)
  | .saml2 => a.upstreamEvidence.saml.any (fun e => rule.authnContextClassRef == e.authnContextClassRef)
  | .other .. => true

def hasMethods (a : Assurance) (rule : NativeAssuranceRule) : Bool :=
  rule.amr.all (fun method => a.upstreamEvidence.oidc.any (fun e => e.amr.contains method))

def ruleMatches (a : Assurance) (rule : NativeAssuranceRule) : Bool := sameClass a rule && hasMethods a rule

/-- The loop over the rules; the level is empty until a rule has matched. -/
def selectFrom (a : Assurance) : Text → List NativeAssuranceRule → Except Fault Text
  | level, [] => .ok level
  | level, rule :: rest =>
    if !wellFormed a.protocol rule then .error .invalid
    else if ruleMatches a rule then
      if !level.isEmpty then .error .unverified else selectFrom a rule.level rest
    else selectFrom a level rest

def supported (protocol : Protocol) : Bool := protocol == .oidc || protocol == .saml2

def selectLevel (a : Assurance) (rules : List NativeAssuranceRule) : Except Fault Text :=
  if !supported a.protocol then .error .unsupported
  else if rules.isEmpty || 64 < rules.length then .error .invalid
  else do
    let level ← selectFrom a [] rules
    if level.isEmpty then .error .unverified else .ok level

/-- The decision that is looked for: about this event, this subject and this evidence. -/
def wanted (p : Settings) (s : TrustSnapshot) (principal : ExternalPrincipal) (a : Assurance) (level : Text) :
    ReferenceExpectation :=
  { expectation p s [] .assuranceMappingDecision with
    eventID := principal.authenticationEventID, issuer := principal.issuer, subject := principal.subject, level,
    evidenceDigest := nativeTargetDigest (marshal a.upstreamEvidence) }

def decides (selected : ReferenceExpectation) (d : NativeAssuranceDecision) : Bool :=
  nativeTargetDigest (marshal d.evidence) == selected.evidenceDigest && d.level == selected.level

def mapped (s : TrustSnapshot) (a : Assurance) (selected : ReferenceExpectation) (d : NativeAssuranceDecision)
    (expiry decisionExpiry : Time) : Assurance :=
  { a with
    mappingStatus := .mapped
    level := d.level
    mappingEvidenceReference := selected.id
    expiresAt := minimum a.expiresAt [minimum s.validUntil [minimum expiry [decisionExpiry]]] }

def mapAssurance (p : Settings) (s : TrustSnapshot) (principal : ExternalPrincipal) (a : Assurance) : Op Assurance := do
  base p s
  Prog.require (a.mappingStatus == .unknown && validateBundle ⟨s.trust, principal, a⟩) .invalid
  let w := expectation p s s.trust.assurancePolicyReference .assurancePolicy
  let (expiry, policy) ← read NativeAssurancePolicy w
  let level ← Prog.ofExcept (selectLevel a policy.rules)
  let answer ← Prog.question (I := ports) (.findAssuranceDecision (wanted p s principal a level))
  let selected ← Prog.ofExcept answer
  let (decisionExpiry, decision) ← read NativeAssuranceDecision selected.val
  Prog.require (decides selected.val decision) .unverified
  let result := mapped s a selected.val decision expiry decisionExpiry
  Prog.require (validateBundle ⟨s.trust, principal, result⟩) .unverified
  readAgain NativeAssurancePolicy w expiry
  readAgain NativeAssuranceDecision selected.val decisionExpiry
  base p s
  return result

structure Call where
  settings : Settings
  snapshot : TrustSnapshot
  principal : ExternalPrincipal
  assurance : Assurance

def system : System ports Unit Fault where
  Call := Call
  Result _ := Assurance
  code c := mapAssurance c.settings c.snapshot c.principal c.assurance
  init := ()
  admits _ _ _ _ := true

end Federation.NativeProtocol

namespace Federation.NativeTargetLedger

open Wire Interleaving

/-- A scan of any bindings, legible or not, ends with the one it started from or one
that the query asks for. -/
theorem wp_scan_any {rule : Rule ports} {s : Store} {L : Log ports} {want found : ReferenceExpectation} {count : Nat}
    (es : List (Text × Text)) (first : found.id.isEmpty = false → unnamed found = want) :
    (scanBindings want count found es).wp rule s L (fun r _ => ∀ w s', r = .ok (w, s') →
      s' = s ∧ (w.id.isEmpty = false → unnamed w = want)) := by
  have quiet : Tx.Quiet (I := ports) (fun r (_ : Log ports) => ∀ (w : ReferenceExpectation) (s' : Store),
      r = Except.ok (ε := Fault) (w, s') → s' = s ∧ (w.id.isEmpty = false → unnamed w = want)) := by
    rintro e L w s' ⟨⟩
  induction es generalizing count found L with
  | nil =>
    rintro w s' ⟨⟩
    exact ⟨rfl, first⟩
  | cons e es ih =>
    apply Tx.wp_require_then quiet
    intro _
    apply Ledger.wp_cancelled_checked quiet
    intro ended _
    apply Ledger.wp_orFail_then quiet
    intro binding _
    split
    · rename_i same
      apply Tx.wp_require_then quiet
      intro _
      apply Tx.wp_require_then quiet
      intro _
      exact ih (fun _ => same)
    · exact ih first

/-- Whatever the ledger holds, a decision that it returns is one that was asked for. -/
theorem find_unnamed (want : ReferenceExpectation) (s : Store) :
    after (fun _ _ => True) (findAssuranceDecision want) s
      (fun s' r => s' = s ∧ ∀ w, r = .ok w → unnamed w = want) := by
  have fails : Fails s (fun s' (r : Except Fault ReferenceExpectation) => s' = s ∧
      ∀ w, r = .ok w → unnamed w = want) := by
    intro e
    refine ⟨rfl, ?_⟩
    rintro w ⟨⟩
  apply after_question_then
  intro ended _
  apply after_require_then fails
  intro _
  apply after_then
  apply after_transaction_else (fun e _ => fails _)
  intro L
  apply Tx.wp_read_then
  apply Tx.wp_mono (wp_scan_any s.bindings.entries (by rintro ⟨⟩))
  intro r L' hr
  cases r with
  | error e => exact fails _
  | ok p =>
    obtain ⟨same, asked⟩ := hr p.1 p.2 rfl
    subst same
    apply after_require_then fails
    intro named
    refine ⟨rfl, ?_⟩
    rintro w ⟨⟩
    exact asked (by simpa using named)

end Federation.NativeTargetLedger
