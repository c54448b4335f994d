import BaobabIam.Base.Checks
import BaobabIam.Base.Loose
import BaobabIam.Base.Sha256

/-! The evidence gate of the connected browser qualification. Two original documents are
compared with their digests and with each other. Members may hold values of any type:
most of them are compared, some are handed to an operation that only one type has. -/
namespace Qualification.EvidenceGate

open Wire Checks

section Exceptions

inductive Escape where
  | unicodeDecodeError | typeError | attributeError | keyError
  deriving DecidableEq

inductive Raised where
  | blocked (code : Text)
  | osError
  | subprocessError
  | other (e : Escape)

end Exceptions

section Surroundings

inductive Opened where
  /-- It could not be opened, or later not be read. -/
  | refused
  | failed
  | file (regular own : Bool) (links mode size : Nat) (content : List UInt8)

/-- What the JSON reader finds: a document, or an error after these complete objects. -/
inductive Loaded where
  | document (j : Json)
  | broken (objects : List Json)

inductive Verification where
  | returncode (n : Nat)
  | osError
  | subprocessError

def isText (t : Text) : Json → Bool
  | .str s => s == t
  | _ => false

def isBool (b : Bool) : Json → Bool
  | .bool c => c == b
  | _ => false

/-- The files, the reviewer's signature check, and what the language's library does. -/
structure Surroundings where
  file : Text → Opened
  verify : Verification
  loads : List UInt8 → Loaded
  loadsText : Text → Option Json
  equal : Json → Json → Bool
  equal_text : ∀ t j, equal (.str t) j = isText t j

structure Args where
  browser : Text
  browserDigest : Text
  int03c : Text
  int03cDigest : Text
  iamSha : Text
  protectedPacket : Option Text
  independentReviewKey : Option Text
  independentReviewSignature : Option Text

end Surroundings

section Values

abbrev Dict := List (Text × Json)

def Dict.getOr (d : Dict) (name : Text) (default : Json) : Json := (d.lookup name).getD default

def Dict.get (d : Dict) (name : Text) : Json := d.getOr name .null

def hexText (n : Nat) (t : Text) : Bool :=
  t.length == n && t.all (fun c => ('a' ≤ c && c ≤ 'f') || ('0' ≤ c && c ≤ '9'))

def sha : Text → Bool := hexText 40
def run : Text → Bool := hexText 32
def digest : Text → Bool := hexText 64

def fullmatch (pattern : Text → Bool) : Json → Except Raised Bool
  | .str s => .ok (pattern s)
  | _ => .error (.other .typeError)

def attributes : Json → Except Raised Dict
  | .obj ms => .ok ms
  | _ => .error (.other .attributeError)

def item (d : Dict) (name : Text) : Except Raised Json := (d.lookup name).elim (.error (.other .keyError)) .ok

def sameNames (d : Dict) (names : List Text) : Bool :=
  d.all (fun m => names.contains m.1) && names.all (fun name => (d.lookup name).isSome)

def isMatch (pattern : Text → Bool) : Json → Bool
  | .str s => pattern s
  | _ => false

def textOf : Json → Text
  | .str s => s
  | _ => []

def hexdigest (data : List UInt8) : Text := Text.padded 16 64 (Sha256.ofBytes data).toNat

def strip (t : Text) : Text :=
  let blank := fun c : Char => c = ' ' || (9 ≤ c.toNat && c.toNat ≤ 13) || (28 ≤ c.toNat && c.toNat ≤ 31)
  ((t.dropWhile blank).reverse.dropWhile blank).reverse

def caseIDs : List Text :=
  ["N02_BROWSER_ORIGIN_CSRF_DENIAL", "N02_REAL_KRATOS_HYDRA_LOGIN", "N02_PKCE_STATE_CALLBACK_REPLAY_DENIAL",
   "N02_CP_ACTIVE_PRINCIPAL_SESSION", "N02_REAL_AAL2_STEP_UP", "N02_REAL_RECOVERY_NO_AUTO_GRANT",
   "N02_ALL_NATIVE_SESSIONS_LOGOUT"]

def dev04Cases : List Text :=
  ["issuer-issuance-and-readback", "current-cp-principal-and-link", "wrong-audience-denial", "wrong-tenant-denial",
   "issuer-revocation-before-expiry", "cp-principal-deactivation", "complete-teardown"]

def protectedChecks : List Text :=
  ["approved_runtime_source_and_image_digest", "separate_cp_maker_checker_approval", "real_kratos_session_and_aal2",
   "real_hydra_registered_client_and_audience", "real_cp_active_principal_and_external_link",
   "real_browser_consent_pkce_recovery", "cross_tenant_and_wrong_audience_denied", "unexpired_token_revocation_denied",
   "global_kratos_logout_and_refresh_revocation", "protected_backup_restore_observed", "independent_teardown_witnessed",
   "external_custody_readback_verified"]

def checkpointNames : List Text :=
  ["schema", "run_id", "browser_sha256", "source_sha", "shared_source_sha", "cp_source_sha", "zuribeans_source_sha",
   "harness_sha", "phase", "classification", "provider_independently_attested", "protected_accepted"]

end Values

section Gate

variable (env : Surroundings)

def secureRead (path : Text) (limit : Nat) : Except Raised (List UInt8) := do
  require (path.head? == some '/') (.blocked "PRIVATE_PATH_REQUIRED")
  match env.file path with
  | .refused => .error (.blocked "ORIGINAL_PRIVATE_FILE_REQUIRED")
  | .failed => .error .osError
  | .file regular own links mode size content =>
    require (regular && own && links == 1 &&
      mode % 64 == 0 && size ≤ limit) (.blocked "ORIGINAL_PRIVATE_FILE_REQUIRED")
    require ((content.take (limit + 1)).length ≤ limit) (.blocked "EVIDENCE_SIZE_LIMIT")
    .ok (content.take (limit + 1))

structure Original where
  content : Dict
  raw : List UInt8

def document (path : Text) : Except Raised Original := do
  let raw ← secureRead env path 1048576
  match env.loads raw with
  -- repeated names are noticed when their object is complete
  | .broken objects =>
    .error (.blocked (if objects.all distinctKeys then "MALFORMED_EVIDENCE" else "DUPLICATE_EVIDENCE_FIELD"))
  | .document j =>
    require (distinctKeys j) (.blocked "DUPLICATE_EVIDENCE_FIELD")
    match j with
    | .obj ms => .ok ⟨ms, raw⟩
    | _ => .error (.blocked "INVALID_EVIDENCE")

/-- The digest of a sidecar: its text, or the last member of that name in its document. -/
def expectedDigest (raw : Text) : Json :=
  if raw.head? = some '{' then
    match env.loadsText raw with
    | some (.obj ms) => Dict.get ms.reverse "sha256"
    | _ => .null
  else .str raw

def digestSidecar (data : List UInt8) (sidecar : Text) : Except Raised Unit := do
  let bytes ← secureRead env sidecar 1024
  require (bytes.all (fun b => b < 128)) (.other .unicodeDecodeError)
  let expected := expectedDigest env (strip (bytes.map (fun b => Char.ofNat b.toNat)))
  require (isMatch digest expected) (.blocked "EVIDENCE_DIGEST_INVALID")
  require (isText (hexdigest data) expected) (.blocked "ORIGINAL_EVIDENCE_DIGEST_MISMATCH")

def browserProvenance (browser : Dict) (iamSha : Text) : Bool :=
  isText "baobab.iam.n02.browser-observation.v1" (browser.get "schema") &&
  isText "REAL_BROWSER_SYNTHETIC_DATA" (browser.get "classification") &&
  isText iamSha (browser.get "source_sha") &&
  isBool false (browser.get "protected_accepted") &&
  isBool false (browser.get "provider_and_cp_independently_attested")

def browserCases : Json → Bool
  | .obj cases => sameNames cases caseIDs && cases.all (fun m => isText "OBSERVED" m.2)
  | _ => false

def peerNames : List Text := ["shared_source_sha", "cp_source_sha",
    "zuribeans_source_sha", "infrastructure_harness_sha"]

def browserReadback (browser : Dict) (iamSha : Text) : Except Raised Text := do
  require (browserProvenance browser iamSha) (.blocked "BROWSER_PROVENANCE_INVALID")
  let named ← fullmatch run (browser.getOr "run_id" (.str []))
  require named (.blocked "BROWSER_PROVENANCE_INVALID")
  require (browserCases (browser.get "cases")) (.blocked "MANDATORY_BROWSER_CASE_MISSING")
  require (peerNames.all (fun name => isMatch sha (browser.get name))) (.blocked "BROWSER_PEER_SOURCE_UNPINNED")
  .ok (textOf (browser.get "run_id"))

def joinedSourceReadback (browser dev04 : Dict) : Except Raised Unit :=
  match dev04.get "source_pins" with
  | .obj pins =>
    require (env.equal (browser.get "shared_source_sha") (Dict.get pins "shared") &&
      env.equal (browser.get "cp_source_sha") (Dict.get pins "baobab-cp") &&
      env.equal (browser.get "zuribeans_source_sha") (Dict.get pins "zuribeans") &&
      env.equal (browser.get "infrastructure_harness_sha") (dev04.get "harness_sha"))
      (.blocked "CONNECTED_SOURCE_PROVENANCE_MISMATCH")
  | _ => .error (.blocked "CONNECTED_SOURCE_PROVENANCE_MISMATCH")

def lifecycleNamed (dev04 : Dict) (runID : Text) : Bool :=
  isText "infrastructure.dev01.lifecycle.observed.v1" (dev04.get "schema") && isText runID (dev04.get "run_id")

def lifecycleReport (report : Dict) (runID : Text) : Bool :=
  isText "infrastructure.dev04.int03c-observed.v1" (report.get "schema") && isText runID (report.get "run_id") &&
  isText "DEV04_INT03C_DEVELOPMENT_ONLY" (report.get "scope") && isBool false (report.get "protected_acceptance") &&
  isBool false (report.get "canonical_provider_qualified")

def observedCase : Json → Bool
  | .obj c =>
    isText "PASS" (Dict.get c "result") && isText "OBSERVED" (Dict.get c "reason") &&
    match Dict.get c "assertions" with
    | .obj evidence => !evidence.isEmpty && evidence.all (fun m => isBool true m.2)
    | _ => false
  | _ => false

def dev04Readback (dev04 : Dict) (iamSha runID : Text) : Except Raised Unit := do
  require (lifecycleNamed dev04 runID) (.blocked "REAL_IAM_CP_RUN_NOT_BOUND")
  let pins ← attributes (dev04.getOr "source_pins" (.obj []))
  require (isText iamSha (pins.get "baobab-iam")) (.blocked "REAL_IAM_CP_RUN_NOT_BOUND")
  let pinned ← fullmatch sha (dev04.getOr "harness_sha" (.str []))
  require (pinned && isText "REAL_COMPONENT_SYNTHETIC_DATA" (dev04.get "evidence_class") &&
    isBool true (dev04.get "lifecycle_passed") && isBool true (dev04.get "teardown_verified") &&
    isBool true (dev04.get "int03c_qualified") && isBool false (dev04.get "protected_acceptance") &&
    isBool false (dev04.get "production_authorized")) (.blocked "REAL_IAM_CP_RUN_NOT_BOUND")
  match dev04.get "int03c" with
  | .obj report =>
    require (lifecycleReport report runID) (.blocked "REAL_IAM_CP_CASES_NOT_BOUND")
    match Dict.get report "cases" with
    | .obj cases =>
      require (sameNames cases dev04Cases) (.blocked "SEVEN_ORIGINAL_CASES_MISSING")
      require (cases.all (fun m => observedCase m.2)) (.blocked "INT03C_OBSERVATION_INCOMPLETE")
    | _ => .error (.blocked "SEVEN_ORIGINAL_CASES_MISSING")
  | _ => .error (.blocked "REAL_IAM_CP_CASES_NOT_BOUND")

def checkpointReadback (browserRaw : List UInt8) (dev04 : Dict) (iamSha runID : Text) : Except Raised Unit :=
  match dev04.get "n02_browser_checkpoint" with
  | .obj checkpoint => do
    require (sameNames checkpoint checkpointNames) (.blocked "PRE_DEACTIVATION_BROWSER_CHECKPOINT_MISSING")
    require (isText "infrastructure.dev04.n02-browser-checkpoint.v1" (Dict.get checkpoint "schema") &&
      isText runID (Dict.get checkpoint "run_id") &&
        isText (hexdigest browserRaw) (Dict.get checkpoint "browser_sha256") &&
      isText iamSha (Dict.get checkpoint "source_sha")) (.blocked "PRE_DEACTIVATION_BROWSER_CHECKPOINT_DRIFT")
    let sources ← item dev04 "source_pins"
    let pins ← attributes sources
    require (env.equal (Dict.get checkpoint "shared_source_sha") (pins.get "shared") &&
      env.equal (Dict.get checkpoint "cp_source_sha") (pins.get "baobab-cp") &&
      env.equal (Dict.get checkpoint "zuribeans_source_sha") (pins.get "zuribeans"))
      (.blocked "PRE_DEACTIVATION_BROWSER_CHECKPOINT_DRIFT")
    let harness ← item dev04 "harness_sha"
    require (env.equal (Dict.get checkpoint "harness_sha") harness &&
      isText "BEFORE_INT03C_DEACTIVATION" (Dict.get checkpoint "phase") &&
      isText "ORIGINAL_BROWSER_RECONCILED_UNATTESTED" (Dict.get checkpoint "classification") &&
      isBool false (Dict.get checkpoint "provider_independently_attested") &&
      isBool false (Dict.get checkpoint "protected_accepted")) (.blocked "PRE_DEACTIVATION_BROWSER_CHECKPOINT_DRIFT")
  | _ => .error (.blocked "PRE_DEACTIVATION_BROWSER_CHECKPOINT_MISSING")

def protectedEvidence : Json → Bool
  | .obj checks => sameNames checks protectedChecks && checks.all (fun m => isMatch digest m.2)
  | _ => false

def distinctRoles (packet : Dict) : Bool :=
  match packet.get "maker_id", packet.get "checker_id", packet.get "witness_id" with
  | .str maker, .str checker, .str witness => maker != checker && maker != witness && checker != witness
  | _, _, _ => false

def protectedPacket (packet : Dict) (browserRaw dev04Raw : List UInt8) (iamSha runID key signature : Text) :
    Except Raised Unit := do
  require (isText "baobab.iam.n02.protected-review-packet.v1" (packet.get "schema") &&
    isText "protected-staging" (packet.get "environment") && isText runID (packet.get "run_id") &&
    isText iamSha (packet.get "source_sha") && isText (hexdigest browserRaw) (packet.get "browser_sha256") &&
    isText (hexdigest dev04Raw) (packet.get "int03c_sha256")) (.blocked "PROTECTED_EVIDENCE_PROVENANCE_UNBOUND")
  require (protectedEvidence (packet.get "observed_evidence_digests")) (.blocked "PROTECTED_EVIDENCE_INCOMPLETE")
  require (distinctRoles packet) (.blocked "INDEPENDENT_REVIEW_ROLES_NOT_DISTINCT")
  let _ ← secureRead env key 4096
  let _ ← secureRead env signature 2048
  match env.verify with
  | .osError => .error .osError
  | .subprocessError => .error .subprocessError
  | .returncode n => require (n == 0) (.blocked "INDEPENDENT_REVIEWER_SIGNATURE_NOT_VERIFIED")

def truthy (o : Option Text) : Bool := o.any (fun t => !t.isEmpty)

def protectedLine : Text := "N02_PROTECTED_PACKET_SIGNATURE_OBSERVED_REVIEW_PENDING"
def developmentLine : Text := "N02_DEVELOPMENT_BROWSER_AND_CP_OBSERVED_UNATTESTED"

/-- What follows once the originals are reconciled. -/
def review (args : Args) (browser dev04 : Original) (runID : Text) : Except Raised Text :=
  if truthy args.protectedPacket || truthy args.independentReviewKey || truthy args.independentReviewSignature then do
    require (truthy args.protectedPacket && truthy args.independentReviewKey && truthy args.independentReviewSignature)
      (.blocked "INDEPENDENT_REVIEW_MISSING")
    let packet ← document env (args.protectedPacket.getD [])
    protectedPacket env packet.content browser.raw dev04.raw args.iamSha runID (args.independentReviewKey.getD [])
      (args.independentReviewSignature.getD [])
    .ok protectedLine
  else .ok developmentLine

def gate (args : Args) : Except Raised Text := do
  require (sha args.iamSha) (.blocked "IMMUTABLE_IAM_SOURCE_REQUIRED")
  let browser ← document env args.browser
  let dev04 ← document env args.int03c
  digestSidecar env browser.raw args.browserDigest
  digestSidecar env dev04.raw args.int03cDigest
  let runID ← browserReadback browser.content args.iamSha
  dev04Readback dev04.content args.iamSha runID
  joinedSourceReadback env browser.content dev04.content
  checkpointReadback env browser.raw dev04.content args.iamSha runID
  review env args browser dev04 runID

inductive Outcome where
  /-- The line that is printed, and the status. -/
  | returned (line : Text) (status : Nat)
  | raised (e : Escape)

def printable (code : Text) : Text :=
  if !code.isEmpty && code.all (fun c => ('A' ≤ c && c ≤ 'Z') || c == '_') then code else "EVIDENCE_UNAVAILABLE"

def blockedLine (code : Text) : Text := "N02_EVIDENCE_BLOCKED ".toList ++ code

def main (args : Args) : Outcome :=
  match gate env args with
  | .ok line => .returned line 0
  | .error (.blocked code) => .returned (blockedLine (printable code)) 1
  | .error .osError => .returned (blockedLine "EVIDENCE_UNAVAILABLE") 1
  | .error .subprocessError => .returned (blockedLine "EVIDENCE_UNAVAILABLE") 1
  | .error (.other e) => .raised e

end Gate

section Errors

variable {env : Surroundings}

def Handled : Raised → Prop
  | .other _ => False
  | _ => True

variable {α : Type} {j : Json} {iamSha runID : Text} {d dev04 : Dict}

theorem handled_blocked (code : Text) : ErrorsIn Handled (.error (.blocked code) : Except Raised α) :=
  errorsIn_error.mpr trivial

theorem handled_require (c : Bool) (code : Text) : ErrorsIn Handled (require c (.blocked code)) :=
  errorsIn_require (P := Handled) trivial

theorem handled_require_then {c : Bool} {code : Text} {f : Unit → Except Raised α} :
    ErrorsIn Handled (require c (.blocked code) >>= f) ↔ (c = true → ErrorsIn Handled (f ())) :=
  errorsIn_require_then (P := Handled) trivial

theorem handled_require_any {c : Bool} {code : Text} {f : Unit → Except Raised α} (h : ErrorsIn Handled (f ())) :
    ErrorsIn Handled (require c (.blocked code) >>= f) := handled_require_then.mpr fun _ => h

theorem handled_secureRead (path : Text) (limit : Nat) : ErrorsIn Handled (secureRead env path limit) := by
  apply handled_require_any
  cases env.file path with
  | refused => exact handled_blocked _
  | failed => exact errorsIn_error.mpr (show Handled .osError from trivial)
  | file regular own links mode size content =>
    apply handled_require_any
    apply handled_require_any
    exact errorsIn_ok _

theorem handled_document (path : Text) : ErrorsIn Handled (document env path) := by
  apply errorsIn_bind.mpr ⟨handled_secureRead path _, ?_⟩
  intro raw _
  cases env.loads raw with
  | broken objects => exact handled_blocked _
  | document j =>
    apply handled_require_any
    cases j with
    | obj ms => exact errorsIn_ok _
    | _ => exact handled_blocked _

def AsciiFile (env : Surroundings) (path : Text) : Prop :=
  ∀ bytes, secureRead env path 1024 = .ok bytes → bytes.all (fun b => b < 128) = true

theorem handled_digestSidecar {data : List UInt8} {path : Text} :
    ErrorsIn Handled (digestSidecar env data path) ↔ AsciiFile env path := by
  unfold digestSidecar AsciiFile
  rw [errorsIn_bind, and_iff_right (handled_secureRead path 1024)]
  refine forall_congr' (fun bytes => imp_congr_right (fun _ => ?_))
  cases bytes.all (fun b => b < 128) with
  | true =>
    refine iff_of_true ?_ rfl
    apply handled_require_any
    exact handled_require _ _
  | false => exact iff_of_false (fun h => h _ rfl) nofun

def IsText : Json → Prop
  | .str _ => True
  | _ => False

def IsDict : Json → Prop
  | .obj _ => True
  | _ => False

theorem handled_fullmatch {pattern : Text → Bool} : ErrorsIn Handled (fullmatch pattern j) ↔ IsText j := by
  cases j with
  | str s => exact iff_of_true (errorsIn_ok _) trivial
  | _ => exact iff_of_false (fun h => h _ rfl) (fun h => h)

theorem handled_attributes : ErrorsIn Handled (attributes j) ↔ IsDict j := by
  cases j with
  | obj ms => exact iff_of_true (errorsIn_ok _) trivial
  | _ => exact iff_of_false (fun h => h _ rfl) (fun h => h)

theorem handled_browserReadback {browser : Dict} : ErrorsIn Handled (browserReadback browser iamSha) ↔
    (browserProvenance browser iamSha = true → IsText (browser.getOr "run_id" (.str []))) := by
  unfold browserReadback
  rw [handled_require_then]
  refine imp_congr_right (fun _ => ?_)
  rw [errorsIn_bind, handled_fullmatch]
  refine and_iff_left_of_imp (fun _ named _ => ?_)
  apply handled_require_any
  apply handled_require_any
  apply handled_require_any
  exact errorsIn_ok _

structure TypedLifecycle (dev04 : Dict) (iamSha runID : Text) : Prop where
  pins : lifecycleNamed dev04 runID = true → IsDict (dev04.getOr "source_pins" (.obj []))
  harness : lifecycleNamed dev04 runID = true → ∀ pins, dev04.getOr "source_pins" (.obj []) = .obj pins →
    isText iamSha (Dict.get pins "baobab-iam") = true → IsText (dev04.getOr "harness_sha" (.str []))

theorem attributes_ok : attributes j = .ok d ↔ j = .obj d := by
  cases j <;> simp [attributes]

theorem handled_dev04Readback :
    ErrorsIn Handled (dev04Readback dev04 iamSha runID) ↔ TypedLifecycle dev04 iamSha runID := by
  unfold dev04Readback
  rw [handled_require_then, errorsIn_bind, handled_attributes]
  constructor
  · intro h
    refine ⟨fun named => (h named).1, ?_⟩
    intro named pins shape pinned
    have rest := (h named).2 pins (attributes_ok.mpr shape)
    rw [handled_require_then, errorsIn_bind, handled_fullmatch] at rest
    exact (rest pinned).1
  · intro typed named
    refine ⟨typed.pins named, ?_⟩
    intro pins shape
    rw [handled_require_then, errorsIn_bind, handled_fullmatch]
    intro pinned
    refine ⟨typed.harness named pins (attributes_ok.mp shape) pinned,
      fun _ _ => handled_require_then.mpr (fun _ => ?_)⟩
    cases dev04.get "int03c" with
    | obj report =>
      apply handled_require_any
      cases Dict.get report "cases" with
      | obj cases =>
        apply handled_require_any
        exact handled_require _ _
      | _ => exact handled_blocked _
    | _ => exact handled_blocked _

theorem handled_joinedSourceReadback (browser dev04 : Dict) :
    ErrorsIn Handled (joinedSourceReadback env browser dev04) := by
  unfold joinedSourceReadback
  cases dev04.get "source_pins" with
  | obj pins => exact handled_require _ _
  | _ => exact handled_blocked _

theorem item_get {name : Text} (there : d.get name ≠ .null) : item d name = .ok (d.get name) := by
  unfold item Dict.get Dict.getOr at *
  cases found : d.lookup name with
  | none =>
    rw [found] at there
    exact absurd rfl there
  | some j => rfl

/-- Once the sources were joined, the checkpoint finds the members that it asks for. -/
theorem handled_checkpointReadback {browserRaw : List UInt8} {pins : Dict} {harness : Text}
    (joined : dev04.get "source_pins" = .obj pins) (pinned : dev04.get "harness_sha" = .str harness) :
    ErrorsIn Handled (checkpointReadback env browserRaw dev04 iamSha runID) := by
  unfold checkpointReadback
  cases dev04.get "n02_browser_checkpoint" with
  | obj checkpoint =>
    apply handled_require_any
    apply handled_require_any
    rw [item_get (by rw [joined]; nofun), joined]
    apply handled_require_any
    rw [item_get (by rw [pinned]; nofun)]
    exact handled_require _ _
  | _ => exact handled_blocked _

theorem handled_protectedPacket (packet : Dict) (browserRaw dev04Raw : List UInt8) (iamSha runID key signature : Text) :
    ErrorsIn Handled (protectedPacket env packet browserRaw dev04Raw iamSha runID key signature) := by
  apply handled_require_any
  apply handled_require_any
  apply handled_require_any
  refine errorsIn_bind.mpr ⟨handled_secureRead key 4096, fun _ _ => ?_⟩
  refine errorsIn_bind.mpr ⟨handled_secureRead signature 2048, fun _ _ => ?_⟩
  cases env.verify with
  | osError => exact errorsIn_error.mpr (show Handled .osError from trivial)
  | subprocessError => exact errorsIn_error.mpr (show Handled .subprocessError from trivial)
  | returncode n => exact handled_require _ _

theorem handled_review (args : Args) (browser dev04 : Original) (runID : Text) :
    ErrorsIn Handled (review env args browser dev04 runID) := by
  unfold review
  split
  · apply handled_require_any
    refine errorsIn_bind.mpr ⟨handled_document _, fun packet _ => ?_⟩
    exact errorsIn_bind.mpr ⟨handled_protectedPacket _ _ _ _ _ _ _, fun _ _ => errorsIn_ok _⟩
  · exact errorsIn_ok _

end Errors

section Agreement

variable {env : Surroundings}

variable {j : Json} {pattern : Text → Bool} {iamSha runID : Text} {browser dev04 : Dict}

theorem isText_iff {t : Text} : isText t j = true ↔ j = .str t := by
  cases j <;> simp [isText]

theorem isMatch_iff : isMatch pattern j = true ↔ ∃ t, j = .str t ∧ pattern t = true := by
  cases j <;> simp [isMatch]

theorem fullmatch_ok {b : Bool} :
    fullmatch pattern j = .ok b ↔ ∃ t, j = .str t ∧ pattern t = b := by
  cases j <;> simp [fullmatch]

theorem get_of_getOr {d : Dict} {name : Text} {default : Json} (found : d.getOr name default = j)
    (other : j ≠ default) : d.get name = j := by
  unfold Dict.get Dict.getOr at *
  cases there : d.lookup name with
  | none =>
    rw [there] at found
    exact absurd found.symm other
  | some x =>
    rw [there] at found
    exact found

def Sealed (env : Surroundings) (data : List UInt8) (sidecar : Text) : Prop :=
  ∃ bytes, secureRead env sidecar 1024 = .ok bytes ∧
    expectedDigest env (strip (bytes.map (fun b => Char.ofNat b.toNat))) = .str (hexdigest data)

theorem digestSidecar_ok {data : List UInt8} {sidecar : Text} (h : digestSidecar env data sidecar = .ok ()) :
    Sealed env data sidecar := by
  unfold digestSidecar at h
  rw [bind_ok] at h
  obtain ⟨bytes, read, h⟩ := h
  simp only [bind_ok, require_ok, exists_const] at h
  exact ⟨bytes, read, isText_iff.mp h.2.2⟩

def AllObserved (cases : Json) (names : List Text) (observed : Json → Prop) : Prop :=
  ∃ ms, cases = .obj ms ∧ ∀ name ∈ names, ∃ c, ms.lookup name = some c ∧ observed c

theorem allObserved_of {ms : Dict} {names : List Text} {check : Json → Bool} (same : sameNames ms names = true)
    (all : ms.all (fun m => check m.2) = true) : AllObserved (.obj ms) names (fun c => check c = true) := by
  refine ⟨ms, rfl, ?_⟩
  intro name wanted
  simp only [sameNames, Bool.and_eq_true, List.all_eq_true] at same
  obtain ⟨c, found⟩ := Option.isSome_iff_exists.mp (same.2 name wanted)
  refine ⟨c, found, ?_⟩
  obtain ⟨before, after, rfl, -⟩ := List.lookup_eq_some_iff.mp found
  exact List.all_eq_true.mp all (name, c) (by simp)

structure BrowserAccepted (browser : Dict) (iamSha runID : Text) : Prop where
  source : browser.get "source_sha" = .str iamSha
  run : browser.get "run_id" = .str runID
  cases : AllObserved (browser.get "cases") caseIDs (fun c => isText "OBSERVED" c = true)
  peers : ∀ name ∈ peerNames, ∃ t, browser.get name = .str t ∧ sha t = true

theorem browserCases_iff (h : browserCases j = true) :
    AllObserved j caseIDs (fun c => isText "OBSERVED" c = true) := by
  cases j with
  | obj ms =>
    simp only [browserCases, Bool.and_eq_true] at h
    exact allObserved_of h.1 h.2
  | _ => cases h

theorem browserReadback_ok (h : browserReadback browser iamSha = .ok runID) :
    BrowserAccepted browser iamSha runID := by
  unfold browserReadback at h
  simp only [bind_ok, require_ok, exists_const, fullmatch_ok] at h
  obtain ⟨provenance, named, ⟨t, shape, pattern⟩, accepted, cases, peers, same⟩ := h
  have there : browser.get "run_id" = .str t := by
    apply get_of_getOr shape
    rintro ⟨⟩
    rw [accepted] at pattern
    cases pattern
  simp only [browserProvenance, Bool.and_eq_true, isText_iff] at provenance
  refine ⟨provenance.1.1.2, ?_, browserCases_iff cases, ?_⟩
  · rw [there] at same ⊢
    exact congrArg Json.str (Except.ok.inj same)
  · intro name hn
    exact isMatch_iff.mp (List.all_eq_true.mp peers name hn)

structure LifecycleAccepted (dev04 : Dict) (iamSha runID : Text) : Prop where
  run : dev04.get "run_id" = .str runID
  source : ∃ pins, dev04.getOr "source_pins" (.obj []) = .obj pins ∧ Dict.get pins "baobab-iam" = .str iamSha
  harness : ∃ t, dev04.get "harness_sha" = .str t
  cases : ∃ report, dev04.get "int03c" = .obj report ∧ Dict.get report "run_id" = .str runID ∧
    AllObserved (Dict.get report "cases") dev04Cases (fun c => observedCase c = true)

theorem dev04Readback_ok (h : dev04Readback dev04 iamSha runID = .ok ()) :
    LifecycleAccepted dev04 iamSha runID := by
  unfold dev04Readback at h
  simp only [bind_ok, require_ok, exists_const, fullmatch_ok, attributes_ok, Bool.and_eq_true, isText_iff] at h
  obtain ⟨named, pins, shape, source, pinned, ⟨t, text, pattern⟩, ⟨accepted, -⟩, h⟩ := h
  have harness : dev04.get "harness_sha" = .str t := by
    apply get_of_getOr text
    rintro ⟨⟩
    rw [accepted.1.1.1.1.1] at pattern
    cases pattern
  simp only [lifecycleNamed, Bool.and_eq_true, isText_iff] at named
  refine ⟨named.2, ⟨pins, shape, source⟩, ⟨t, harness⟩, ?_⟩
  cases report : dev04.get "int03c" with
  | obj members =>
    rw [report] at h
    simp only [bind_ok, require_ok, exists_const] at h
    obtain ⟨bound, h⟩ := h
    simp only [lifecycleReport, Bool.and_eq_true, isText_iff] at bound
    refine ⟨members, rfl, bound.1.1.1.2, ?_⟩
    cases found : Dict.get members "cases" with
    | obj cases =>
      rw [found] at h
      simp only [bind_ok, require_ok, exists_const] at h
      exact allObserved_of h.1 h.2
    | _ =>
      rw [found] at h
      cases h
  | _ =>
    rw [report] at h
    cases h

/-- The peers' commits that the browser document names are those of the lifecycle document. -/
structure Joined (browser dev04 pins : Dict) : Prop where
  sources : dev04.get "source_pins" = .obj pins
  shared : browser.get "shared_source_sha" = pins.get "shared"
  cp : browser.get "cp_source_sha" = pins.get "baobab-cp"
  zuribeans : browser.get "zuribeans_source_sha" = pins.get "zuribeans"
  harness : browser.get "infrastructure_harness_sha" = dev04.get "harness_sha"

theorem equal_of_text {a b : Json} (text : ∃ t, a = .str t ∧ sha t = true) (h : env.equal a b = true) : a = b := by
  obtain ⟨t, rfl, -⟩ := text
  rw [env.equal_text] at h
  exact (isText_iff.mp h).symm

theorem joinedSourceReadback_ok (accepted : BrowserAccepted browser iamSha runID)
    (h : joinedSourceReadback env browser dev04 = .ok ()) : ∃ pins, Joined browser dev04 pins := by
  unfold joinedSourceReadback at h
  cases shape : dev04.get "source_pins" with
  | obj pins =>
    rw [shape, require_ok] at h
    simp only [Bool.and_eq_true] at h
    refine ⟨pins, shape, ?_, ?_, ?_, ?_⟩
    · exact equal_of_text (accepted.peers _ (by simp [peerNames])) h.1.1.1
    · exact equal_of_text (accepted.peers _ (by simp [peerNames])) h.1.1.2
    · exact equal_of_text (accepted.peers _ (by simp [peerNames])) h.1.2
    · exact equal_of_text (accepted.peers _ (by simp [peerNames])) h.2
  | _ =>
    rw [shape] at h
    cases h

def Checkpointed (browserRaw : List UInt8) (dev04 : Dict) (iamSha runID : Text) : Prop :=
  ∃ checkpoint, dev04.get "n02_browser_checkpoint" = .obj checkpoint ∧ Dict.get checkpoint "run_id" = .str runID ∧
    Dict.get checkpoint "browser_sha256" = .str (hexdigest browserRaw) ∧
      Dict.get checkpoint "source_sha" = .str iamSha

theorem checkpointReadback_ok {browserRaw : List UInt8}
    (h : checkpointReadback env browserRaw dev04 iamSha runID = .ok ()) :
    Checkpointed browserRaw dev04 iamSha runID := by
  unfold checkpointReadback at h
  cases shape : dev04.get "n02_browser_checkpoint" with
  | obj checkpoint =>
    rw [shape] at h
    simp only [bind_ok, require_ok, exists_const, Bool.and_eq_true, isText_iff] at h
    obtain ⟨-, bound, -⟩ := h
    exact ⟨checkpoint, shape, bound.1.1.2, bound.1.2, bound.2⟩
  | _ =>
    rw [shape] at h
    cases h

/-- The originals that were read are those of one run, of the same sources, and complete. -/
structure Bound (env : Surroundings) (args : Args) (browser dev04 : Original) (runID : Text) (pins : Dict) : Prop where
  browserFile : document env args.browser = .ok browser
  lifecycleFile : document env args.int03c = .ok dev04
  browserDigest : Sealed env browser.raw args.browserDigest
  lifecycleDigest : Sealed env dev04.raw args.int03cDigest
  accepted : BrowserAccepted browser.content args.iamSha runID
  observed : LifecycleAccepted dev04.content args.iamSha runID
  joined : Joined browser.content dev04.content pins
  checkpoint : Checkpointed browser.raw dev04.content args.iamSha runID

theorem gate_bound {args : Args} {line : Text} (h : gate env args = .ok line) :
    ∃ browser dev04 runID pins, Bound env args browser dev04 runID pins := by
  unfold gate at h
  simp only [bind_ok, require_ok, exists_const] at h
  obtain ⟨-, browser, browserFile, dev04, lifecycleFile, ⟨⟩, browserDigest, ⟨⟩, lifecycleDigest,
    runID, read, ⟨⟩, lifecycle, ⟨⟩, joined, ⟨⟩, checkpoint, -⟩ := h
  have accepted := browserReadback_ok read
  obtain ⟨pins, joined⟩ := joinedSourceReadback_ok accepted joined
  exact ⟨browser, dev04, runID, pins, browserFile, lifecycleFile, digestSidecar_ok browserDigest,
    digestSidecar_ok lifecycleDigest, accepted, dev04Readback_ok lifecycle, joined, checkpointReadback_ok checkpoint⟩

end Agreement

section Outcomes

variable {env : Surroundings}

theorem review_line {args : Args} {browser dev04 : Original} {runID line : Text}
    (h : review env args browser dev04 runID = .ok line) : line = protectedLine ∨ line = developmentLine := by
  unfold review at h
  split at h
  · simp only [bind_ok, require_ok, exists_const] at h
    obtain ⟨-, packet, -, ⟨⟩, -, same⟩ := h
    exact .inl (Except.ok.inj same).symm
  · exact .inr (Except.ok.inj h).symm

theorem gate_line {args : Args} {line : Text} (h : gate env args = .ok line) :
    line = protectedLine ∨ line = developmentLine := by
  unfold gate at h
  simp only [bind_ok, require_ok, exists_const] at h
  obtain ⟨-, browser, -, dev04, -, ⟨⟩, -, ⟨⟩, -, runID, -, ⟨⟩, -, ⟨⟩, -, ⟨⟩, -, reviewed⟩ := h
  exact review_line reviewed

/-- An observed line with status 0, or a denial with status 1. -/
inductive Controlled : Outcome → Prop
  | observed (line : Text) (h : line = protectedLine ∨ line = developmentLine) : Controlled (.returned line 0)
  | denied (code : Text) : Controlled (.returned (blockedLine code) 1)

theorem controlled_iff {args : Args} : Controlled (main env args) ↔ ErrorsIn Handled (gate env args) := by
  unfold main
  cases outcome : gate env args with
  | ok line => exact iff_of_true (.observed line (gate_line outcome)) (errorsIn_ok _)
  | error e =>
    cases e with
    | other e =>
      refine iff_of_false nofun ?_
      intro handled
      exact handled _ rfl
    | _ => exact iff_of_true (.denied _) (errorsIn_error.mpr (by trivial))

/-- The files hold what the script's text operations can be applied to: as far as the checks before
each one let it come, a sidecar is ASCII, a run id and a harness commit are texts, and the pins a
dictionary. -/
structure Typed (env : Surroundings) (args : Args) : Prop where
  browserDigest : sha args.iamSha = true → ∀ browser dev04, document env args.browser = .ok browser →
    document env args.int03c = .ok dev04 → AsciiFile env args.browserDigest
  int03cDigest : sha args.iamSha = true → ∀ browser dev04, document env args.browser = .ok browser →
    document env args.int03c = .ok dev04 → digestSidecar env browser.raw args.browserDigest = .ok () →
    AsciiFile env args.int03cDigest
  runID : sha args.iamSha = true → ∀ browser dev04, document env args.browser = .ok browser →
    document env args.int03c = .ok dev04 → digestSidecar env browser.raw args.browserDigest = .ok () →
    digestSidecar env dev04.raw args.int03cDigest = .ok () →
    browserProvenance browser.content args.iamSha = true → IsText (browser.content.getOr "run_id" (.str []))
  lifecycle : sha args.iamSha = true → ∀ browser dev04, document env args.browser = .ok browser →
    document env args.int03c = .ok dev04 → digestSidecar env browser.raw args.browserDigest = .ok () →
    digestSidecar env dev04.raw args.int03cDigest = .ok () →
    ∀ runID, browserReadback browser.content args.iamSha = .ok runID →
      TypedLifecycle dev04.content args.iamSha runID

theorem handled_gate {args : Args} : ErrorsIn Handled (gate env args) ↔ Typed env args := by
  unfold gate
  rw [handled_require_then]
  constructor
  · intro h
    have later : ∀ browser dev04, sha args.iamSha = true → document env args.browser = .ok browser →
        document env args.int03c = .ok dev04 → _ := fun browser dev04 pinned browserFile lifecycleFile =>
      (errorsIn_bind.mp ((errorsIn_bind.mp (h pinned)).2 browser browserFile)).2 dev04 lifecycleFile
    simp only [errorsIn_bind, handled_digestSidecar, handled_browserReadback, handled_dev04Readback] at later
    constructor
    · intro pinned browser dev04 browserFile lifecycleFile
      exact (later browser dev04 pinned browserFile lifecycleFile).1
    · intro pinned browser dev04 browserFile lifecycleFile first
      exact ((later browser dev04 pinned browserFile lifecycleFile).2 () first).1
    · intro pinned browser dev04 browserFile lifecycleFile first second
      exact (((later browser dev04 pinned browserFile lifecycleFile).2 () first).2 () second).1
    · intro pinned browser dev04 browserFile lifecycleFile first second runID read
      exact ((((later browser dev04 pinned browserFile lifecycleFile).2 () first).2 () second).2 runID read).1
  · intro typed pinned
    refine errorsIn_bind.mpr ⟨handled_document _, fun browser browserFile => ?_⟩
    refine errorsIn_bind.mpr ⟨handled_document _, fun dev04 lifecycleFile => ?_⟩
    have ascii := typed.browserDigest pinned browser dev04 browserFile lifecycleFile
    refine errorsIn_bind.mpr ⟨handled_digestSidecar.mpr ascii, fun _ first => ?_⟩
    have ascii := typed.int03cDigest pinned browser dev04 browserFile lifecycleFile first
    refine errorsIn_bind.mpr ⟨handled_digestSidecar.mpr ascii, fun _ second => ?_⟩
    have text := typed.runID pinned browser dev04 browserFile lifecycleFile first second
    refine errorsIn_bind.mpr ⟨handled_browserReadback.mpr text, fun runID read => ?_⟩
    have members := typed.lifecycle pinned browser dev04 browserFile lifecycleFile first second runID read
    refine errorsIn_bind.mpr ⟨handled_dev04Readback.mpr members, fun _ accepted => ?_⟩
    obtain ⟨harness, commit⟩ := (dev04Readback_ok accepted).harness
    refine errorsIn_bind.mpr ⟨handled_joinedSourceReadback _ _, fun _ joined => ?_⟩
    obtain ⟨pins, joined⟩ := joinedSourceReadback_ok (browserReadback_ok read) joined
    refine errorsIn_bind.mpr ⟨handled_checkpointReadback joined.sources commit, fun _ _ => ?_⟩
    exact handled_review _ _ _ _

/-- The script ends in one of its own ways exactly when its text operations find texts; and it
reports an observation only of originals that are bound together. -/
theorem gate_controlled_iff (env : Surroundings) (args : Args) : (Controlled (main env args) ↔ Typed env args) ∧
    ∀ line, main env args = .returned line 0 →
      ∃ browser dev04 runID pins, Bound env args browser dev04 runID pins := by
  refine ⟨controlled_iff.trans handled_gate, ?_⟩
  intro line h
  unfold main at h
  split at h
  case h_1 observed => exact gate_bound observed
  all_goals cases h

end Outcomes

section Sample

def sampleArgs : Args where
  browser := "/b"
  browserDigest := "/bd"
  int03c := "/l"
  int03cDigest := "/ld"
  iamSha := List.replicate 40 'a'
  protectedPacket := none
  independentReviewKey := none
  independentReviewSignature := none

/-- Two empty documents. The browser's sidecar holds one byte that is no ASCII. -/
def binarySidecar : Surroundings where
  file path := if path = "/bd" then .file true true 1 0 1 [255] else .file true true 1 0 2 [123, 125]
  verify := .returncode 0
  loads raw := if raw = [123, 125] then .document (.obj []) else .broken []
  loadsText _ := none
  equal a b := isText (textOf a) b
  equal_text _ _ := rfl

theorem sidecar_escapes : main binarySidecar sampleArgs = .raised .unicodeDecodeError ∧
    ¬ Controlled (main binarySidecar sampleArgs) := by
  have escaped : main binarySidecar sampleArgs = .raised .unicodeDecodeError := rfl
  refine ⟨escaped, ?_⟩
  rw [escaped]
  nofun

end Sample

end Qualification.EvidenceGate
