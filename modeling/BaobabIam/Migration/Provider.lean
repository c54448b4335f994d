import BaobabIam.Base.Json
import BaobabIam.Migration.Types

/-! What the bridge hands to the identity providers, the checks it makes before a
call, and what the providers answer. -/
namespace Migration

open Text Wire

structure ExternalSubject where
  issuer : Text := []
  subject : Text := []
  deriving DecidableEq, Repr

inductive IdentityStatus where
  | active | disabled | unknown
  deriving DecidableEq, Repr

structure ProviderIdentity where
  provider : Text
  issuer : Text
  subject : Text
  status : IdentityStatus
  deriving DecidableEq, Repr

structure ProviderWorkload where
  provider : Text
  providerClientID : Text
  issuer : Text
  deriving DecidableEq, Repr

structure FederatedWorkloadTrust where
  provider : Text
  logicalClientID : Text
  providerClientID : Text
  issuer : Text
  deriving DecidableEq, Repr

/-- A Go map with text keys; the first entry of a key counts. -/
abbrev Table (α : Type) := List (Text × α)

structure IdentityProvisioningSpec where
  traits : Table Json
  migrationID : Text
  metadata : Table Text

inductive WorkloadAuth where
  | clientSecret | privateKeyJWT | federatedJWTBearer
  deriving DecidableEq, Repr

inductive WorkloadStatus where
  | unset | provisioned | active | suspended | revoked | retired
  deriving DecidableEq, Repr

structure WorkloadProvisioningSpec where
  logicalClientID : Text
  displayName : Text
  allowedScopes : List Text
  accessTokenTTLSeconds : Int := 0
  requireNew : Bool := false
  authMethod : WorkloadAuth
  lifecycleStatus : WorkloadStatus
  metadata : Table Text

structure FederatedWorkloadTrustSpec where
  logicalClientID : Text
  displayName : Text
  allowedScopes : List Text
  intendedAudiences : List Text
  lifecycleStatus : WorkloadStatus
  assertionIssuer : Text
  assertionSubject : Text
  assertionJWK : Table Json
  trustExpiresAt : Time
  metadata : Table Text

def normalizeFrom (seen : List Text) : List Text → List Text
  | [] => []
  | s :: rest =>
    let t := trimSpace s
    let scope := if t = "context-resolve".toList then "context:resolve".toList else t
    if t = [] || seen.contains scope then normalizeFrom seen rest
    else scope :: normalizeFrom (scope :: seen) rest

def normalizeAllowedScopes (scopes : List Text) : List Text := normalizeFrom [] scopes

def requireNonEmptyTrimmed (label : String) (value : Text) : Bool × Failure :=
  (trimSpace value ≠ [], .invalidArgument "%s is required" [label])

def WorkloadStatus.text : WorkloadStatus → Text
  | .unset => []
  | .provisioned => "PROVISIONED"
  | .active => "ACTIVE"
  | .suspended => "SUSPENDED"
  | .revoked => "REVOKED"
  | .retired => "RETIRED"

def WorkloadStatus.validateForProvision (s : WorkloadStatus) : Bool × Failure :=
  (s = .unset || s = .provisioned,
   .invalidArgument
     "WorkloadLifecycleStatus %q is not allowed on provision; use PROVISIONED (or empty). Shared owns canonical ACTIVE evidence"
     [s.text])

def IdentityProvisioningSpec.validate (s : IdentityProvisioningSpec) : Except Failure Unit :=
  firstFailure ((!s.traits.isEmpty, .invalidArgument "Traits are required" []) ::
    ["tenant", "legal_entity", "legalEntity", "capability", "market", "buyer_purchase_limit", "erp_role",
      "supplier_approval"].map (fun forbidden : String =>
        ((s.traits.lookup forbidden.toList).isNone,
          .invalidArgument "Traits must not contain business field %q (ADR-0020/0021)" [forbidden.toList])))

def WorkloadProvisioningSpec.validate (s : WorkloadProvisioningSpec) : Except Failure Unit :=
  firstFailure
    [requireNonEmptyTrimmed "LogicalClientID" s.logicalClientID,
     (0 ≤ s.accessTokenTTLSeconds && s.accessTokenTTLSeconds ≤ 300,
      .invalidArgument "AccessTokenTTLSeconds must be zero or 1..300" []),
     (s.authMethod ≠ .federatedJWTBearer,
      .invalidArgument
        "federated JWT bearer workloads must use FederatedWorkloadTrustSpec instead of WorkloadProvisioningSpec" []),
     (!s.requireNew || s.authMethod = .clientSecret,
      .invalidArgument "RequireNew currently supports client-secret workloads only" []),
     s.lifecycleStatus.validateForProvision,
     (normalizeAllowedScopes s.allowedScopes ≠ [],
      .invalidArgument "AllowedScopes are required for workload provisioning" [])]

def jsonText : Option Json → Text
  | some (.str t) => t
  | _ => []

def FederatedWorkloadTrustSpec.validate (s : FederatedWorkloadTrustSpec) (now : Time) : Except Failure Unit :=
  firstFailure
    ([requireNonEmptyTrimmed "LogicalClientID" s.logicalClientID,
      requireNonEmptyTrimmed "AssertionIssuer" s.assertionIssuer,
      requireNonEmptyTrimmed "AssertionSubject" s.assertionSubject,
      (!s.assertionJWK.isEmpty, .invalidArgument "AssertionJWK public key is required" []),
      (trimSpace (jsonText (s.assertionJWK.lookup "kid".toList)) ≠ [],
       .invalidArgument "AssertionJWK must contain kid" [])] ++
     ["d", "p", "q", "dp", "dq", "qi", "oth", "k"].map (fun field : String =>
       ((s.assertionJWK.lookup field.toList).isNone,
        .invalidArgument "AssertionJWK must contain public key material only; private field %q is forbidden"
          [field.toList])) ++
     [(!s.trustExpiresAt.isZero && s.trustExpiresAt.after now,
       .invalidArgument "TrustExpiresAt must be in the future" []),
      s.lifecycleStatus.validateForProvision,
      (normalizeAllowedScopes s.allowedScopes ≠ [], .invalidArgument "AllowedScopes are required" []),
      (!s.intendedAudiences.isEmpty,
       .invalidArgument "IntendedAudiences are required for consumer activation evidence" [])])

/-- Name fields that the identity schema knows, with texts of at most 128 characters. -/
def nameChecks : Json → List (Bool × Failure)
  | .obj fields => fields.map (fun f =>
      ((f.1 = "first".toList || f.1 = "last".toList) &&
        (match f.2 with
          | .str t => t.length ≤ 128
          | _ => false),
       .errorf "migration: invalid name field %q" [f.1]))
  | _ => [(false, .errorf "migration: name must be an object" [])]

/-- `parseAddress` is the mail address of an RFC 5322 text. -/
def validateHumanTraits (parseAddress : Text → Option Text) (traits : Table Json) : Except Failure Unit :=
  let email := jsonText (traits.lookup "email".toList)
  firstFailure
    ((parseAddress email = some email && 3 ≤ email.size && email.size ≤ 320,
      .errorf "migration: authorized source email is required" []) ::
     traits.map (fun f =>
       (f.1 = "email".toList || f.1 = "name".toList, .errorf "migration: unsupported human trait %q" [f.1])) ++
     (match traits.lookup "name".toList with
      | none => []
      | some name => nameChecks name))

end Migration
