import BaobabIam.Migration.Types

/-! The state machine of a row: the table of legal edges and the transition that
checks it. A row without a canonical identity never leaves the control states. -/
namespace Migration

def allowedTransitions : MigrationState → List MigrationState
  | .discovered => [.validated, .blocked, .failedManualReview, .quarantined]
  | .validated => [.ready, .blocked, .failedManualReview, .quarantined]
  | .ready => [.provisioning, .blocked, .failedRetryable, .failedManualReview, .quarantined]
  | .provisioning => [.provisioned, .failedRetryable, .failedManualReview, .rolledBack, .quarantined]
  | .provisioned =>
    [.credentialPending, .credentialReady, .failedRetryable, .failedManualReview, .rolledBack, .quarantined]
  | .credentialPending => [.credentialReady, .failedRetryable, .failedManualReview, .quarantined]
  | .credentialReady => [.verificationPending, .failedRetryable, .failedManualReview, .quarantined]
  | .verificationPending => [.verified, .failedRetryable, .failedManualReview, .quarantined]
  | .verified => [.cutoverReady, .failedManualReview, .quarantined]
  | .cutoverReady => [.cutover, .failedManualReview, .rolledBack, .quarantined]
  | .cutover => [.legacyRetired, .rolledBack, .quarantined]
  | .legacyRetired => []
  | .blocked => [.validated, .ready, .failedManualReview, .quarantined]
  | .failedRetryable =>
    [.ready, .provisioning, .credentialPending, .verificationPending, .failedManualReview, .quarantined, .rolledBack]
  | .failedManualReview => [.ready, .quarantined, .rolledBack]
  | .rolledBack => [.ready, .quarantined]
  | .quarantined => [.failedManualReview]
  | .other _ => []

def canTransition (source next : MigrationState) : Bool := (allowedTransitions source).contains next

variable {source next : MigrationState}

theorem canTransition_ne (h : canTransition source next = true) : source ≠ next := by
  rintro rfl
  cases source <;> simp [canTransition, allowedTransitions] at h

theorem canTransition_quarantined (h : canTransition .quarantined next = true) :
    next = .failedManualReview := by simpa [canTransition, allowedTransitions] using h

theorem canTransition_verificationPending
    (h : canTransition source .verificationPending = true) :
    source = .credentialReady ∨ source = .failedRetryable := by
  cases source <;> simp [canTransition, allowedTransitions] at h ⊢

theorem canTransition_verified (h : canTransition source .verified = true) :
    source = .verificationPending := by
  cases source <;> simp [canTransition, allowedTransitions] at h ⊢

theorem canTransition_cutoverReady (h : canTransition source .cutoverReady = true) :
    source = .verified := by
  cases source <;> simp [canTransition, allowedTransitions] at h ⊢

namespace Record

def unresolved (r : Record) : Bool := r.identityClass = .orphanCandidate || r.canonicalIdentityID = []

def controlState : MigrationState → Bool
  | .blocked | .failedManualReview | .quarantined => true
  | _ => false

def countsAttempt : MigrationState → Bool
  | .provisioning | .credentialPending | .verificationPending | .cutover => true
  | _ => false

def moved (r : Record) (next : MigrationState) : Record :=
  { r with
    migrationState := next
    attemptCount := if countsAttempt next then r.attemptCount + 1 else r.attemptCount }

def transition (r : Record) (next : MigrationState) : Except Failure Record :=
  if !canTransition r.migrationState next then
    .error (.errorf "migration: illegal transition %s → %s" [r.migrationState.text, next.text])
  else if r.unresolved && !controlState next then
    .error (.errorf "migration: unresolved orphan cannot advance into execution" [])
  else
    -- the source validates before and after it counts the attempt
    match { r with migrationState := next }.validateStructural with
    | .error e => .error e
    | .ok () =>
      match (r.moved next).validateStructural with
      | .error e => .error e
      | .ok () => .ok (r.moved next)

theorem transition_ok {r r' : Record} {next : MigrationState} (h : r.transition next = .ok r') :
    canTransition r.migrationState next = true ∧ (r.unresolved = true → controlState next = true) ∧
      r' = r.moved next ∧ r'.Structural := by
  unfold transition at h
  split at h
  · cases h
  · rename_i legal
    split at h
    · cases h
    · rename_i resolved
      split at h
      · cases h
      · split at h
        · cases h
        · rename_i valid
          cases h
          refine ⟨by simpa using legal, ?_, rfl, validateStructural_ok.mp valid⟩
          intro orphan
          simpa [orphan] using resolved

@[simp] theorem moved_state (r : Record) (next : MigrationState) : (r.moved next).migrationState = next := rfl
@[simp] theorem moved_id (r : Record) (next : MigrationState) : (r.moved next).migrationID = r.migrationID := rfl
@[simp] theorem moved_revision (r : Record) (next : MigrationState) : (r.moved next).revision = r.revision := rfl
@[simp] theorem moved_target (r : Record) (next : MigrationState) : (r.moved next).target = r.target := rfl
@[simp] theorem moved_class (r : Record) (next : MigrationState) : (r.moved next).identityClass = r.identityClass := rfl
@[simp] theorem moved_canonical (r : Record) (next : MigrationState) :
    (r.moved next).canonicalIdentityID = r.canonicalIdentityID := rfl

end Record

end Migration
