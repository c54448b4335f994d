import BaobabIam.Base.Sequence
import BaobabIam.Base.Words
import BaobabIam.Migration.Provider

/-! Workload clients at the authorization server. The server keeps a document for each
client; an update replaces the whole document. A request may fail, or be carried
out with its answer lost. -/
namespace Ory.Clients

open Interleaving
open Migration (Table Failure normalizeAllowedScopes)

structure Client where
  clientID : Text
  clientName : Text
  clientSecret : Text
  grantTypes : List Text
  responseTypes : List Text
  redirectURIs : List Text
  postLogoutRedirectURIs : List Text
  allowedCORSOrigins : List Text
  jwksURI : Text
  jwks : Table Wire.Json
  scope : Text
  audience : List Text
  tokenEndpointAuthMethod : Text
  metadata : Table Wire.Json
  clientCredentialsGrantAccessTokenLifespan : Text

structure TrustedIssuer where
  id : Text
  allowAnySubject : Bool
  expiresAt : Time
  issuer : Text
  kid : Text
  scope : List Text
  subject : Text

structure Store where
  clients : Text → Option Client
  issuers : List TrustedIssuer

def Store.setClient (s : Store) (id : Text) (c : Client) : Store :=
  ⟨Function.update s.clients id (some c), s.issuers⟩

def Store.addIssuer (s : Store) (t : TrustedIssuer) : Store := ⟨s.clients, s.issuers ++ [t]⟩

structure Server where
  /-- The client that a path segment names; identifiers are put there unescaped. -/
  resource : Text → Text
  /-- A read shows the secret. -/
  showsSecret : Bool
  /-- An update without a secret keeps the one there was. -/
  keepsSecret : Bool
  parseDuration : Text → Option Int

section Specs

structure WorkloadProvisioningSpec extends Migration.WorkloadProvisioningSpec where
  audiences : List Text

abbrev FederatedWorkloadTrustSpec := Migration.FederatedWorkloadTrustSpec

structure ProviderWorkload where
  logicalClientID : Text
  providerClientID : Text
  issuer : Text
  authMethod : Migration.WorkloadAuth
  lifecycleStatus : Migration.WorkloadStatus
  clientSecret : Text
  createdAt : Time
  metadata : Table Text

structure FederatedWorkloadTrust where
  logicalClientID : Text
  providerClientID : Text
  trustID : Text
  issuer : Text
  lifecycleStatus : Migration.WorkloadStatus
  assertionIssuer : Text
  assertionSubject : Text
  allowedScopes : List Text
  intendedAudiences : List Text
  trustExpiresAt : Time

structure Reference where
  logicalClientID : Text
  providerClientID : Text

def Reference.clientID (r : Reference) : Text :=
  if r.providerClientID = [] then r.logicalClientID else r.providerClientID

end Specs

section Ports

inductive Refusal where
  | invalid (failure : Failure)
  | invalidArgument (message : String)
  | conflict (message : String)
  | alreadyExists (message : String)
  | notFound
  /-- The exchange failed. -/
  | exchange (operation : String)

inductive Outcome where
  | refused | applied
  /-- Carried out, but the caller was not told. -/
  | unacknowledged
  deriving DecidableEq

inductive Query where
  | exchange | random | now | trustID

abbrev Query.Answer : Query → Type
  | .exchange => Outcome
  | .random => Option Text
  | .now => Time
  -- the identifier that the server gives to a trust
  | .trustID => Text

abbrev ports : Interface := ⟨Query, Query.Answer⟩

abbrev Op := Prog ports Store Refusal

variable (server : Server)

def reading {α : Type} (operation : String) (f : Store → α) : Op α :=
  Prog.atomic (do
    let outcome : Outcome ← Tx.ask (I := ports) .exchange
    Tx.require (outcome == .applied) (.exchange operation)
    Tx.read f) Prog.ofExcept

def writing (operation : String) (refusal : Refusal) (accepts : Store → Bool) (f : Store → Store) : Op Unit := do
  let acknowledged ← Prog.atomic (do
    let outcome : Outcome ← Tx.ask (I := ports) .exchange
    Tx.require (outcome != .refused) (.exchange operation)
    let accepted ← Tx.read accepts
    Tx.require accepted refusal
    Tx.write f
    return (decide (outcome = .applied))) Prog.ofExcept
  Prog.require acknowledged (.exchange operation)

def Server.shown (c : Client) : Client := { c with clientSecret := if server.showsSecret then c.clientSecret else [] }

def getClient (id : Text) : Op (Option Client) :=
  reading "hydra get client" (fun s => (s.clients (server.resource id)).map server.shown)

def postClient (body : Client) : Op Unit :=
  writing "hydra post client" (.alreadyExists "workload client already exists")
    (fun s => (s.clients body.clientID).isNone) (fun s => s.setClient body.clientID body)

def Server.replaced (old : Option Client) (id : Text) (body : Client) : Client :=
  { body with
    clientID := id
    clientSecret := if body.clientSecret = [] && server.keepsSecret then (old.map Client.clientSecret).getD []
      else body.clientSecret }

def putClient (id : Text) (body : Client) : Op Unit :=
  writing "hydra put client" .notFound (fun s => (s.clients (server.resource id)).isSome)
    (fun s => s.setClient (server.resource id) (server.replaced (s.clients (server.resource id)) id body))

end Ports

section Provision

variable (server : Server) (issuer : Text)

def joinScopes (scopes : List Text) : Text := Text.join ' ' scopes

def toAnyMap (m : Table Text) : Table Wire.Json := m.map (fun p => (p.1, .str p.2))

def isText : Option Wire.Json → Text → Bool
  | some (.str s), t => s == t
  | _, _ => false

def equalStringSet (a b : List Text) : Bool := Text.sorted a == Text.sorted b

theorem equalStringSet_iff {a b : List Text} : equalStringSet a b = true ↔ a.Perm b := by
  rw [equalStringSet, beq_iff_eq]
  constructor
  · intro same
    calc a.Perm (Text.sorted a) := (Text.sorted_perm a).symm
      _ = Text.sorted b := same
      List.Perm _ b := Text.sorted_perm b
  · exact Text.sorted_eq

def generateClientSecret : Op Text := do
  let secret : Option Text ← Prog.question (I := ports) .random
  Prog.ofExcept (secret.elim (.error (.exchange "hydra generate secret")) .ok)

def authMethodText (m : Migration.WorkloadAuth) : Text :=
  if m = .privateKeyJWT then "private_key_jwt" else "client_secret_post"

def lifespan (seconds : Int) : Text := Text.decimal seconds.toNat ++ ['s']

/-- The independent read after a request with a ceiling or for a fresh client. -/
def verifyWorkloadConfiguration (spec : WorkloadProvisioningSpec) : Op Unit :=
  if spec.accessTokenTTLSeconds = 0 && !spec.requireNew then pure ()
  else do
    let observed ← getClient server spec.logicalClientID
    let observed ← Prog.ofExcept (observed.elim (.error .notFound) .ok)
    Prog.require (observed.clientID == spec.logicalClientID) (.conflict "issuer workload identity read-back differs")
    Prog.require (spec.accessTokenTTLSeconds ≤ 0 ||
        server.parseDuration observed.clientCredentialsGrantAccessTokenLifespan ==
          some (spec.accessTokenTTLSeconds * 1000000000))
      (.conflict "issuer did not retain requested workload token lifetime")
    Prog.require (!spec.requireNew ||
        equalStringSet observed.grantTypes ["client_credentials"] && observed.responseTypes.isEmpty &&
        equalStringSet (Text.fields observed.scope) (normalizeAllowedScopes spec.allowedScopes) &&
        equalStringSet observed.audience spec.audiences &&
        observed.tokenEndpointAuthMethod == "client_secret_post".toList && observed.redirectURIs.isEmpty &&
        observed.postLogoutRedirectURIs.isEmpty && observed.allowedCORSOrigins.isEmpty && observed.jwksURI.isEmpty &&
        observed.jwks.isEmpty && observed.metadata.length == spec.metadata.length)
      (.conflict "issuer workload security configuration read-back differs")
    Prog.require (!spec.requireNew ||
        spec.metadata.all (fun p => isText (observed.metadata.lookup p.1) p.2))
      (.conflict "issuer workload ownership read-back differs")

def newWorkload (spec : WorkloadProvisioningSpec) (secret : Text) : Client where
  clientID := spec.logicalClientID
  clientName := spec.displayName
  clientSecret := secret
  grantTypes := ["client_credentials"]
  responseTypes := []
  redirectURIs := []
  postLogoutRedirectURIs := []
  allowedCORSOrigins := []
  jwksURI := []
  jwks := []
  scope := joinScopes (normalizeAllowedScopes spec.allowedScopes)
  audience := spec.audiences
  tokenEndpointAuthMethod := authMethodText spec.authMethod
  metadata := toAnyMap spec.metadata
  clientCredentialsGrantAccessTokenLifespan :=
    if 0 < spec.accessTokenTTLSeconds then lifespan spec.accessTokenTTLSeconds else []

def updatedWorkload (existing : Client) (spec : WorkloadProvisioningSpec) : Client :=
  { existing with
    clientName := spec.displayName
    grantTypes := ["client_credentials"]
    scope := joinScopes (normalizeAllowedScopes spec.allowedScopes)
    audience := spec.audiences
    tokenEndpointAuthMethod := authMethodText spec.authMethod
    metadata := toAnyMap spec.metadata
    clientCredentialsGrantAccessTokenLifespan :=
      if 0 < spec.accessTokenTTLSeconds then lifespan spec.accessTokenTTLSeconds
      else existing.clientCredentialsGrantAccessTokenLifespan
    clientSecret := [] }

def status (s : Migration.WorkloadStatus) : Migration.WorkloadStatus := if s = .unset then .provisioned else s

def provisioned (spec : WorkloadProvisioningSpec) (secret : Text) (now : Time) : ProviderWorkload :=
  ⟨spec.logicalClientID, spec.logicalClientID, issuer, spec.authMethod, status spec.lifecycleStatus, secret, now,
    spec.metadata⟩

/-- The secret of a new client; a key based one has none. -/
def newSecret (spec : WorkloadProvisioningSpec) : Op Text :=
  if spec.authMethod = .privateKeyJWT then pure [] else generateClientSecret

def provisionClient (spec : WorkloadProvisioningSpec) : Op ProviderWorkload := do
  Prog.ofExcept (spec.validate.mapError .invalid)
  Prog.require (spec.authMethod != .federatedJWTBearer)
    (.conflict
      "federated JWT bearer workloads must be provisioned via ProvisionFederatedWorkload, not ProvisionWorkload")
  let existing ← getClient server spec.logicalClientID
  Prog.require (!spec.requireNew || existing.isNone)
    (.alreadyExists "fresh workload provisioning refuses an existing client")
  match existing with
  | none => do
    let secret ← newSecret spec
    postClient (newWorkload spec secret)
    verifyWorkloadConfiguration server spec
    let now : Time ← Prog.question (I := ports) .now
    return provisioned issuer spec secret now
  | some existing => do
    putClient server spec.logicalClientID (updatedWorkload existing spec)
    verifyWorkloadConfiguration server spec
    let now : Time ← Prog.question (I := ports) .now
    return provisioned issuer spec [] now

end Provision

section Federated

variable (server : Server) (issuer : Text)

def jwtBearerGrantType : Text := "urn:ietf:params:oauth:grant-type:jwt-bearer"

/-- A Go map: the new value of a key comes first. -/
def setEntry (m : Table Wire.Json) (key : String) (value : Wire.Json) : Table Wire.Json :=
  (key.toList, value) :: m.filter (fun p => p.1 != key.toList)

def federatedMetadata (spec : FederatedWorkloadTrustSpec) : Table Wire.Json :=
  setEntry (setEntry (toAnyMap spec.metadata) "baobab_credential_type" (.str "federated_workload_token"))
    "baobab_intended_audiences" (.arr (spec.intendedAudiences.map .str))

def newFederated (spec : FederatedWorkloadTrustSpec) : Client where
  clientID := spec.logicalClientID
  clientName := spec.displayName
  clientSecret := []
  grantTypes := [jwtBearerGrantType]
  responseTypes := []
  redirectURIs := []
  postLogoutRedirectURIs := []
  allowedCORSOrigins := []
  jwksURI := []
  jwks := []
  scope := joinScopes (normalizeAllowedScopes spec.allowedScopes)
  audience := spec.intendedAudiences
  tokenEndpointAuthMethod := "none"
  metadata := federatedMetadata spec
  clientCredentialsGrantAccessTokenLifespan := []

def updatedFederated (existing : Client) (spec : FederatedWorkloadTrustSpec) : Client :=
  { existing with
    clientName := spec.displayName
    grantTypes := [jwtBearerGrantType]
    scope := joinScopes (normalizeAllowedScopes spec.allowedScopes)
    audience := spec.intendedAudiences
    tokenEndpointAuthMethod := "none"
    metadata := federatedMetadata spec
    clientSecret := [] }

/-- A trust for the subject that is there already has to be the desired one. -/
def matchTrust (spec : FederatedWorkloadTrustSpec) (item : TrustedIssuer) : Except Refusal Text :=
  if item.allowAnySubject then .error (.conflict "existing JWT bearer trust allows any subject")
  else if !equalStringSet item.scope spec.allowedScopes then
    .error (.conflict "existing JWT bearer trust scope differs from Shared")
  else if !item.expiresAt.isZero && !item.expiresAt.equal spec.trustExpiresAt then
    .error (.conflict "existing JWT bearer trust expiry differs from desired state")
  else if !item.kid.isEmpty && item.kid != Migration.jsonText (spec.assertionJWK.lookup "kid".toList) then
    .error (.conflict "existing JWT bearer trust key id differs from desired public JWK")
  else if item.id.isEmpty then .error (.exchange "hydra trusted jwt issuer")
  else .ok item.id

/-- The trust that is there, or a new one; the first one listed for the subject decides. -/
def ensureAmong (spec : FederatedWorkloadTrustSpec) (trusted : List TrustedIssuer) : Op Text :=
  match trusted.find? (fun t => t.subject == spec.assertionSubject) with
  | some item => Prog.ofExcept (matchTrust spec item)
  | none => do
    let id : Text ← Prog.question (I := ports) .trustID
    writing "hydra trust jwt issuer" (.exchange "hydra trust jwt issuer") (fun _ => true) (fun s =>
      s.addIssuer ⟨id, false, spec.trustExpiresAt, spec.assertionIssuer,
        Migration.jsonText (spec.assertionJWK.lookup "kid".toList), spec.allowedScopes, spec.assertionSubject⟩)
    Prog.require (!id.isEmpty) (.exchange "hydra trusted jwt issuer")
    return id

def ensureTrustedJWTIssuer (spec : FederatedWorkloadTrustSpec) : Op Text := do
  let trusted ← reading "hydra list trusted jwt issuers"
    (fun s => s.issuers.filter (fun t => t.issuer == spec.assertionIssuer))
  ensureAmong spec trusted

/-- The client document, created or updated; a client with a secret is refused. -/
def federateClient (spec : FederatedWorkloadTrustSpec) : Op Unit := do
  let existing ← getClient server spec.logicalClientID
  match existing with
  | none => postClient (newFederated spec)
  | some existing => do
    Prog.require (existing.tokenEndpointAuthMethod.isEmpty || existing.tokenEndpointAuthMethod == "none".toList)
      (.conflict "refusing to convert a secret-backed workload client into federated JWT bearer trust")
    Prog.require existing.clientSecret.isEmpty
      (.conflict "federated workload client unexpectedly carries a client secret")
    putClient server spec.logicalClientID (updatedFederated existing spec)

def provisionFederatedWorkload (spec : FederatedWorkloadTrustSpec) : Op FederatedWorkloadTrust := do
  let now : Time ← Prog.question (I := ports) .now
  Prog.ofExcept ((spec.validate now).mapError .invalid)
  federateClient server spec
  let trustID ← ensureTrustedJWTIssuer { spec with allowedScopes := normalizeAllowedScopes spec.allowedScopes }
  return ⟨spec.logicalClientID, spec.logicalClientID, trustID, issuer,
    status spec.lifecycleStatus, spec.assertionIssuer,
    spec.assertionSubject, normalizeAllowedScopes spec.allowedScopes, spec.intendedAudiences, spec.trustExpiresAt⟩

end Federated

section Lifecycle

variable (server : Server) (issuer : Text)

def referenced (ref : Reference) : Op Client := do
  Prog.require (!ref.clientID.isEmpty) (.invalidArgument "client id required")
  let existing ← getClient server ref.clientID
  Prog.ofExcept (existing.elim (.error .notFound) .ok)

def disableClient (ref : Reference) : Op Unit := do
  let existing ← referenced server ref
  putClient server ref.clientID { existing with grantTypes := [], clientSecret := [] }

def isFederatedJWTBearerClient (c : Client) : Bool :=
  c.tokenEndpointAuthMethod == "none".toList || c.grantTypes.contains jwtBearerGrantType ||
  isText (c.metadata.lookup "baobab_credential_type".toList) "federated_workload_token"

def rotateClientCredentials (ref : Reference) : Op ProviderWorkload := do
  let existing ← referenced server ref
  Prog.require (!isFederatedJWTBearerClient existing)
    (.conflict "federated JWT bearer workload cannot rotate a static client secret")
  let secret ← generateClientSecret
  putClient server ref.clientID { existing with clientSecret := secret }
  let now : Time ← Prog.question (I := ports) .now
  return ⟨ref.logicalClientID, ref.clientID, issuer, .clientSecret, .unset, secret, now, []⟩

end Lifecycle

section Runs

inductive Call where
  | provisionWorkload (spec : WorkloadProvisioningSpec)
  | provisionFederatedWorkload (spec : FederatedWorkloadTrustSpec)
  | disable (ref : Reference)
  | rotate (ref : Reference)

abbrev Call.Result : Call → Type
  | .provisionWorkload _ | .rotate _ => ProviderWorkload
  | .provisionFederatedWorkload _ => FederatedWorkloadTrust
  | .disable _ => Unit

def Call.code (server : Server) (issuer : Text) : (c : Call) → Op c.Result
  | .provisionWorkload spec => provisionClient server issuer spec
  | .provisionFederatedWorkload spec => Clients.provisionFederatedWorkload server issuer spec
  | .disable ref => disableClient server ref
  | .rotate ref => rotateClientCredentials server issuer ref

def system (server : Server) (issuer : Text) : System ports Store Refusal where
  Call := Call
  Result := Call.Result
  code := Call.code server issuer
  init := ⟨fun _ => none, []⟩
  admits _ _ _ _ := true

end Runs

end Ory.Clients
