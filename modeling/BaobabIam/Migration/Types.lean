import BaobabIam.Base.Instant

/-! One row of the migration ledger: the enumerations of its columns, its
structural validation and the errors that the package reports. -/
namespace Migration

open Text

/-- An SQLSTATE that the ledger tells apart, or any other failure. -/
inductive SqlCode where
  | uniqueViolation | checkViolation | foreignKeyViolation | serializationFailure | raised
  | other (code : Text)
  deriving DecidableEq, Repr

inductive Failure where
  | errorf (format : String) (args : List Text)
  /-- An error built with `%w`. -/
  | wrapped (format : String) (args : List Text) (cause : Failure)
  /-- A provider error of kind invalid argument. -/
  | invalidArgument (format : String) (args : List Text)
  | notFound
  | migrationConflict
  | cutoverNotApproved
  | noCanonicalMapping
  | sql (code : SqlCode)
  deriving DecidableEq, Repr

/-- `errors.Is`. -/
def Failure.is : Failure → Failure → Bool
  | .wrapped format args cause, target => decide (Failure.wrapped format args cause = target) || cause.is target
  | e, target => decide (e = target)

inductive IdentityClass where
  | human | workload | privilegedHuman | breakGlass | federatedHuman | serviceIntegration | testOrNonProd
  | orphanCandidate
  /-- A value that names no class. -/
  | other (value : Text)
  deriving DecidableEq, Repr

inductive CredentialStrategy where
  | directImport | firstLoginMigration | controlledReEnrolment | federatedRebind | passkeyReEnrolment
  | mfaReEnrolment | noCredentialRequired
  /-- A value that names no strategy. -/
  | other (value : Text)
  deriving DecidableEq, Repr

inductive MigrationState where
  | discovered | validated | ready | provisioning | provisioned | credentialPending | credentialReady
  | verificationPending | verified | cutoverReady | cutover | legacyRetired
  | blocked | failedRetryable | failedManualReview | rolledBack | quarantined
  /-- A value that names no state; empty in a record whose state is not set. -/
  | other (value : Text)
  deriving DecidableEq, Repr

def IdentityClass.text : IdentityClass → Text
  | .human => "HUMAN"
  | .workload => "WORKLOAD"
  | .privilegedHuman => "PRIVILEGED_HUMAN"
  | .breakGlass => "BREAK_GLASS"
  | .federatedHuman => "FEDERATED_HUMAN"
  | .serviceIntegration => "SERVICE_INTEGRATION"
  | .testOrNonProd => "TEST_OR_NONPRODUCTION"
  | .orphanCandidate => "ORPHAN_CANDIDATE"
  | .other value => value

def IdentityClass.all : List IdentityClass :=
  [.human, .workload, .privilegedHuman, .breakGlass, .federatedHuman, .serviceIntegration, .testOrNonProd,
   .orphanCandidate]

def IdentityClass.ofText (t : Text) : IdentityClass := (all.find? (fun c => c.text = t)).getD (.other t)

def IdentityClass.valid : IdentityClass → Bool
  | .other _ => false
  | _ => true

def CredentialStrategy.text : CredentialStrategy → Text
  | .directImport => "DIRECT_IMPORT"
  | .firstLoginMigration => "FIRST_LOGIN_MIGRATION"
  | .controlledReEnrolment => "CONTROLLED_RE_ENROLMENT"
  | .federatedRebind => "FEDERATED_REBIND"
  | .passkeyReEnrolment => "PASSKEY_RE_ENROLMENT"
  | .mfaReEnrolment => "MFA_RE_ENROLMENT"
  | .noCredentialRequired => "NO_CREDENTIAL_REQUIRED"
  | .other value => value

def CredentialStrategy.all : List CredentialStrategy :=
  [.directImport, .firstLoginMigration, .controlledReEnrolment, .federatedRebind, .passkeyReEnrolment,
   .mfaReEnrolment, .noCredentialRequired]

def CredentialStrategy.ofText (t : Text) : CredentialStrategy := (all.find? (fun c => c.text = t)).getD (.other t)

def CredentialStrategy.valid : CredentialStrategy → Bool
  | .other _ => false
  | _ => true

def MigrationState.text : MigrationState → Text
  | .discovered => "DISCOVERED"
  | .validated => "VALIDATED"
  | .ready => "READY"
  | .provisioning => "PROVISIONING"
  | .provisioned => "PROVISIONED"
  | .credentialPending => "CREDENTIAL_PENDING"
  | .credentialReady => "CREDENTIAL_READY"
  | .verificationPending => "VERIFICATION_PENDING"
  | .verified => "VERIFIED"
  | .cutoverReady => "CUTOVER_READY"
  | .cutover => "CUTOVER"
  | .legacyRetired => "LEGACY_RETIRED"
  | .blocked => "BLOCKED"
  | .failedRetryable => "FAILED_RETRYABLE"
  | .failedManualReview => "FAILED_MANUAL_REVIEW"
  | .rolledBack => "ROLLED_BACK"
  | .quarantined => "QUARANTINED"
  | .other value => value

def MigrationState.valid : MigrationState → Bool
  | .other _ => false
  | _ => true

structure ProviderBinding where
  provider : Text := []
  issuer : Text := []
  subject : Text := []
  deriving DecidableEq, Repr

structure Record where
  revision : Int := 0
  migrationID : Text := []
  migrationBatchID : Text := []
  canonicalIdentityID : Text := []
  source : ProviderBinding := {}
  target : ProviderBinding := {}
  identityClass : IdentityClass := .other []
  credentialStrategy : CredentialStrategy := .other []
  migrationState : MigrationState := .other []
  verificationState : Text := []
  cutoverState : Text := []
  sourceSnapshotReference : Text := []
  attemptCount : Int := 0
  lastErrorCode : Text := []
  createdAt : Time := ⟨0, 0⟩
  startedAt : Option Time := none
  verifiedAt : Option Time := none
  cutoverAt : Option Time := none
  retiredAt : Option Time := none
  deriving DecidableEq, Repr

def targetOptional : MigrationState → Bool
  | .discovered | .validated | .ready | .provisioning | .blocked | .failedRetryable | .failedManualReview
  | .rolledBack | .quarantined => true
  | _ => false

def forbiddenLedgerSubstrings : List Text :=
  ["password=", "client_secret=", "totp_secret", "private_key", "-----begin"]

def toLowerASCII (t : Text) : Text := t.map (fun c => if 'A' ≤ c && c ≤ 'Z' then Char.ofNat (c.toNat + 32) else c)

def containsASCII (hay needle : Text) : Bool := !needle.isEmpty && hay.tails.any needle.isPrefixOf

def firstFailure : List (Bool × Failure) → Except Failure Unit
  | [] => .ok ()
  | (true, _) :: rest => firstFailure rest
  | (false, e) :: _ => .error e

theorem firstFailure_ok {checks : List (Bool × Failure)} :
    firstFailure checks = .ok () ↔ ∀ c ∈ checks, c.1 = true := by
  induction checks with
  | nil => simp [firstFailure]
  | cons c checks ih =>
    obtain ⟨passed, e⟩ := c
    cases passed with
    | true => simp [firstFailure, ih]
    | false => simp [firstFailure]

def forbiddenChecks (values : List Text) : List (Bool × Failure) :=
  values.flatMap (fun v => forbiddenLedgerSubstrings.map (fun bad =>
    (!containsASCII (toLowerASCII (trimSpace v)) bad,
      .errorf "migration: field must not contain sensitive material marker %q (ADR-0022 §9)" [bad])))

namespace Record

def fieldChecks (r : Record) : List (Bool × Failure) :=
  [(trimSpace r.migrationID ≠ [], .errorf "migration: migration_id is required" []),
   (0 ≤ r.revision, .errorf "migration: negative revision" []),
   (trimSpace r.canonicalIdentityID ≠ [] || r.identityClass = .orphanCandidate,
    .errorf "migration: canonical_identity_id is required (do not invent from email)" []),
   (trimSpace r.source.issuer ≠ [] && trimSpace r.source.subject ≠ [],
    .errorf "migration: source issuer and subject are required" []),
   (trimSpace r.source.provider ≠ [], .errorf "migration: source provider is required" []),
   (targetOptional r.migrationState || (trimSpace r.target.issuer ≠ [] && trimSpace r.target.subject ≠ []),
    .errorf "migration: target issuer and subject required in state %s" [r.migrationState.text]),
   (r.identityClass.valid, .errorf "migration: invalid identity_class %q" [r.identityClass.text]),
   (r.credentialStrategy.valid, .errorf "migration: invalid credential_strategy %q" [r.credentialStrategy.text]),
   (r.migrationState.valid, .errorf "migration: invalid migration_state %q" [r.migrationState.text])]

def validateStructural (r : Record) : Except Failure Unit :=
  firstFailure (r.fieldChecks ++ forbiddenChecks [r.sourceSnapshotReference, r.lastErrorCode, r.migrationID])

structure Structural (r : Record) : Prop where
  id : trimSpace r.migrationID ≠ []
  revision : 0 ≤ r.revision
  canonical : trimSpace r.canonicalIdentityID ≠ [] ∨ r.identityClass = .orphanCandidate
  issuer : trimSpace r.source.issuer ≠ []
  subject : trimSpace r.source.subject ≠ []
  provider : trimSpace r.source.provider ≠ []
  target : targetOptional r.migrationState = true ∨
    (trimSpace r.target.issuer ≠ [] ∧ trimSpace r.target.subject ≠ [])
  identityClass : r.identityClass.valid = true
  strategy : r.credentialStrategy.valid = true
  state : r.migrationState.valid = true
  plain : ∀ c ∈ forbiddenChecks [r.sourceSnapshotReference, r.lastErrorCode, r.migrationID], c.1 = true

theorem validateStructural_ok {r : Record} : r.validateStructural = .ok () ↔ r.Structural := by
  unfold validateStructural fieldChecks
  rw [firstFailure_ok, List.forall_mem_append]
  constructor
  · rintro ⟨named, plain⟩
    simp only [List.forall_mem_cons, Bool.or_eq_true, Bool.and_eq_true, decide_eq_true_eq] at named
    obtain ⟨id, revision, canonical, ⟨issuer, subject⟩, provider, target,
      identityClass, strategy, state, -⟩ := named
    exact ⟨id, revision, canonical, issuer, subject, provider, target, identityClass, strategy, state, plain⟩
  · intro h
    refine ⟨?_, h.plain⟩
    simp only [List.forall_mem_cons, Bool.or_eq_true, Bool.and_eq_true, decide_eq_true_eq]
    exact ⟨h.id, h.revision, h.canonical, ⟨h.issuer, h.subject⟩, h.provider, h.target,
      h.identityClass, h.strategy, h.state, by simp⟩

end Record

end Migration
