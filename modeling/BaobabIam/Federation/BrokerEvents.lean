import BaobabIam.Federation.BrokerEvidence

/-! The broker event ledger. A request is begun, the provider bridge captures the
upstream evidence for it, the callback burns it and exchanges the broker's code, and
its event is verified once. A nonce finds its request; expired records are pruned. -/
namespace Federation.BrokerEvents

open Wire Interleaving

structure BrokerRequest where
  request : StoredRequest
  pkceDigest : Text
  configurationDigest : Text
  deriving DecidableEq

def BrokerRequest.fields : List (RecordField BrokerRequest) :=
  [.of "Request" BrokerRequest.request (fun v r => { r with request := v }),
   .of "PKCEDigest" BrokerRequest.pkceDigest (fun v r => { r with pkceDigest := v }),
   .of "ConfigurationDigest" BrokerRequest.configurationDigest (fun v r => { r with configurationDigest := v })]

instance : Codec BrokerRequest :=
  recordCodec BrokerRequest.fields ⟨StoredRequest.zero, [], []⟩ (by decide) (by intro r; cases r; rfl)

structure BrokerCapture where
  principal : ExternalPrincipal
  assurance : Assurance
  digest : Text
  replayID : Text
  deriving DecidableEq

def BrokerCapture.fields : List (RecordField BrokerCapture) :=
  [.of "Principal" BrokerCapture.principal (fun v c => { c with principal := v }),
   .of "Assurance" BrokerCapture.assurance (fun v c => { c with assurance := v }),
   .of "Digest" BrokerCapture.digest (fun v c => { c with digest := v }),
   .of "ReplayID" BrokerCapture.replayID (fun v c => { c with replayID := v })]

instance : Codec BrokerCapture :=
  recordCodec BrokerCapture.fields ⟨ExternalPrincipal.zero, Assurance.zero, [], []⟩ (by decide)
    (by intro c; cases c; rfl)

structure Settings where
  library : TokenLibrary
  saml : SAMLLibrary
  maxLifetime : Int
  positive : 0 < maxLifetime
  bounded : maxLifetime ≤ 15 * Time.minute
  /-- The client's secrets can be asked for. -/
  clientSecrets : Bool
  allowLoopbackHTTP : Bool

structure Store where
  requests : Bucket
  nonces : Bucket
  captures : Bucket
  replay : Bucket
  verified : Bucket
  maintenance : Bucket

def Store.empty : Store := ⟨.empty, .empty, .empty, .empty, .empty, .empty⟩

abbrev Op := Prog ports Store Fault
abbrev Body := Tx ports Store Fault

def clock : Clocked Store := ⟨Store.maintenance, fun b s => { s with maintenance := b }⟩

section Prune

/-- The buckets that Prune scans, in this order. -/
inductive Kind where
  | requests | captures | verified | replay
  deriving DecidableEq

def Kind.get : Kind → Store → Bucket
  | .requests => Store.requests
  | .captures => Store.captures
  | .verified => Store.verified
  | .replay => Store.replay

def Kind.set : Kind → Bucket → Store → Store
  | .requests, b, s => { s with requests := b }
  | .captures, b, s => { s with captures := b }
  | .verified, b, s => { s with verified := b }
  | .replay, b, s => { s with replay := b }

def Kind.expiry : Kind → Text → Option Time
  | .requests, value => (decodeAuthority (α := BrokerRequest) value).map (fun r => r.request.expiresAt)
  | .captures, value => (decodeAuthority (α := BrokerCapture) value).map (fun c => c.assurance.expiresAt)
  | .verified, value => (decodeAuthority (α := StoredEvent) value).map (fun e => e.bundle.assurance.expiresAt)
  | .replay, value => Time.parse value

def Kind.release : Kind → Text → Store → Store
  | .requests, value, s =>
    match decodeAuthority (α := BrokerRequest) value with
    | some r => { s with nonces := s.nonces.delete r.request.nonceDigest }
    | none => s
  | _, _, s => s

/-- Scan one bucket until the limit is reached; the result counts what was removed. -/
def scan (kind : Kind) (now : Time) (limit : Nat) : List (Text × Text) → Nat → Body Nat
  | [], removed => pure removed
  | e :: rest, removed =>
    if removed < limit then do
      let ended ← Ledger.cancelled
      Tx.require (!ended) .unavailable
      let expiry ← Ledger.orFail .unverified (kind.expiry e.2)
      if now.before expiry then scan kind now limit rest removed
      else do
        Tx.write (kind.release e.2)
        Tx.write (fun s => kind.set ((kind.get s).delete e.1) s)
        scan kind now limit rest (removed + 1)
    else pure removed

def sweep (kind : Kind) (now : Time) (limit removed : Nat) : Body Nat := do
  let b ← Tx.read kind.get
  scan kind now limit b.entries removed

/-- The durable clock records one reading; what has expired is judged by another. -/
def pruneBody (limit : Nat) : Body Nat := do
  observeClock clock
  let now ← Ledger.now
  let removed ← sweep .requests now limit 0
  let removed ← sweep .captures now limit removed
  let removed ← sweep .verified now limit removed
  sweep .replay now limit removed

def prune (limit : Nat) : Op Nat := do
  let ended ← cancelled
  Prog.require (!ended && 1 ≤ limit && limit ≤ 1024) .invalid
  transaction authorityError (pruneBody limit)

end Prune

section Configuration

variable (cfg : Settings)

def brokerDigest (c : BrokerConfiguration) : Text := secretDigest (c.text.getD [])

def namesSnapshot (c : BrokerConfiguration) (s : TrustSnapshot) : Bool :=
  c.trustID == s.trust.id && c.snapshotID == s.snapshotID && c.revision == s.approvedRevision &&
  c.binding == s.trust.providerBinding

def validClient (c : BrokerConfiguration) : Bool :=
  exact c.settings.clientID && exact c.settings.providerRoute &&
  !c.settings.providerRoute.any (fun x => ("/?#&= ".toList).contains x)

def endpoint (issuer : Url) (value : Text) : Except Fault Unit :=
  match brokerURL value cfg.allowLoopbackHTTP with
  | .error _ => .error .denied
  | .ok u => if u.scheme != issuer.scheme || u.host != issuer.host then .error .denied else .ok ()

def checkSettings (c : BrokerConfiguration) : Except Fault Unit := do
  let issuer ← brokerURL c.settings.issuer cfg.allowLoopbackHTTP
  endpoint cfg issuer c.settings.authorizationEndpoint
  endpoint cfg issuer c.settings.tokenEndpoint
  let _ ← brokerURL c.settings.redirectURI cfg.allowLoopbackHTTP
  if c.settings.confidential && !cfg.clientSecrets then .error .unavailable
  else publicOIDCKeys cfg.library c.settings.signingAlgorithm c.brokerJWKS

def checkUpstream (c : BrokerConfiguration) (s : TrustSnapshot) : Except Fault Unit :=
  if c.upstream.binding != c.binding || c.upstream.trustID != s.trust.id || c.upstream.snapshotID != s.snapshotID ||
      c.upstream.revision != c.revision || !exact c.upstream.clientID then .error .unverified
  else publicOIDCKeys cfg.library c.upstream.signingAlgorithm c.upstream.jwks

def checkSAML (c : BrokerConfiguration) (now : Time) : Except Fault Unit := do
  let _ ← samlSigningCertificates cfg.saml c.signingCertificates now
  let _ ← brokerURL c.saml.acsURL false
  .ok ()

def configuration (s : TrustSnapshot) : Op BrokerConfiguration := do
  let ended ← cancelled
  Prog.require (!ended) .denied
  let start ← now
  Prog.require (activeSnapshot s start && validateTrust s.trust) .denied
  let answer ← Prog.question (I := ports) (.brokerConfiguration s)
  let c ← Prog.ofExcept (answer.mapError authorityError)
  Prog.require (namesSnapshot c s) .unverified
  let checked ← now
  Prog.require (checked.before c.validUntil && validClient c) .unverified
  Prog.ofExcept (checkSettings cfg c)
  match s.trust.protocol with
  | .oidc =>
    Prog.ofExcept (checkUpstream cfg c s)
    return c
  | .saml2 =>
    Prog.require (exact c.saml.entityID && !c.signingCertificates.isEmpty) .unverified
    let current ← now
    Prog.ofExcept (checkSAML cfg c current)
    return c
  | .other .. => Prog.fail .unsupported

/-- The governed bytes have not changed since. -/
def recheck (s : TrustSnapshot) (c : BrokerConfiguration) : Op Unit := do
  let current ← (configuration cfg s).attempt
  match current with
  | .ok current => Prog.require (brokerDigest current == brokerDigest c) .unverified
  | .error _ => .fail .unverified

end Configuration

section Begin

variable (cfg : Settings)

structure BrokerChallenge where
  eventID : Text
  state : Text
  nonce : Text
  pkceVerifier : Text
  expiresAt : Time
  deriving DecidableEq

def newRequest (id : Text) (s : TrustSnapshot) (c : BrokerConfiguration) (sessionDigest state nonce verifier : Text)
    (created : Time) : BrokerRequest where
  request :=
    { id := id
      trustID := s.trust.id
      snapshotID := s.snapshotID
      revision := s.approvedRevision
      sessionDigest := sessionDigest
      stateDigest := secretDigest state
      nonceDigest := secretDigest nonce
      createdAt := created
      expiresAt := minimum s.validUntil [c.validUntil, created.add (5 * Time.minute)]
      consumed := false }
  pkceDigest := secretDigest verifier
  configurationDigest := brokerDigest c

def canonical (c : BrokerConfiguration) (state nonce verifier : Text) : HumanAuth.Request where
  grantType := "authorization_code"
  codeChallenge := Base64.rawURL (Base64.bytes 32 (Sha256.digest verifier).toNat)
  codeChallengeMethod := "S256"
  clientID := c.settings.clientID
  redirectURI := c.settings.redirectURI
  scope := "openid"
  state := state
  nonce := nonce
  acrValues := []

def beginBody (r : BrokerRequest) : Body Unit := do
  observeClock clock
  let ended ← Ledger.cancelled
  Tx.require (!ended) .denied
  let now ← Ledger.now
  Tx.require (now.before r.request.expiresAt) .denied
  let requests ← Tx.read Store.requests
  Tx.require (requests.keyN < 4096) .unavailable
  Tx.require (requests.get r.request.id).isNone .denied
  Tx.write (fun s => { s with
    requests := s.requests.put r.request.id (marshal r)
    nonces := s.nonces.put r.request.nonceDigest r.request.id })

def begin (s : TrustSnapshot) (sessionDigest : Text) : Op BrokerChallenge := do
  Prog.require (digestPattern sessionDigest) .invalid
  let c ← configuration cfg s
  let _ ← prune 128
  let id ← randomUUID
  let state ← randomString
  let nonce ← randomString
  let verifier ← randomString
  let created ← now
  Prog.require (canonical c state nonce verifier).validate .invalid
  let r := newRequest id s c sessionDigest state nonce verifier created
  transaction authorityError (beginBody r)
  return ⟨id, state, nonce, verifier, r.request.expiresAt⟩

end Begin

section Capture

structure BrokerEvidence where
  trustID : Text
  nonce : Text
  providerRoute : Text
  upstreamCorrelation : Text
  assertion : Text
  deriving DecidableEq

variable (cfg : Settings) (s : TrustSnapshot) (c : BrokerConfiguration)

def request (id : Text) : Body BrokerRequest := do
  let requests ← Tx.read Store.requests
  let req ← Ledger.orFail .denied (decodeAuthority (α := BrokerRequest) ((requests.get id).getD []))
  Tx.require (!req.request.consumed && req.request.trustID == s.trust.id && req.request.snapshotID == s.snapshotID &&
    req.request.revision == s.approvedRevision) .denied
  let now ← Ledger.now
  Tx.require (fresh req.request.createdAt req.request.expiresAt now &&
    req.configurationDigest == brokerDigest c) .denied
  return req

def findBody (nonce : Text) : Body (Text × BrokerRequest) := do
  let nonces ← Tx.read Store.nonces
  let id := (nonces.get (secretDigest nonce)).getD []
  let req ← request s c id
  return (id, req)

section Evidence

variable (input : BrokerEvidence) (id : Text) (req : BrokerRequest) (now : Time)

def captureOIDC : Except Fault BrokerCapture := do
  let token ← verifyBrokerIDToken cfg.library s.trust.upstreamIssuer c.upstream input.assertion
    (secretDigest input.upstreamCorrelation) req.request.createdAt now cfg.maxLifetime
  let p := upstreamPrincipal id s c .oidc token.subject now
    (minimum token.expiresAt [s.validUntil, c.validUntil, req.request.expiresAt])
  let a := upstreamAssurance s p { oidc := some {
    actorType := "human", acr := token.acr, amr := token.amr.getD [], authenticatedAt := token.authenticatedAt,
    issuer := p.issuer, clientID := c.upstream.clientID } }
  if token.amr = some [] then .error .invalid
  else .ok ⟨p, a, secretDigest input.assertion, s.trust.upstreamIssuer ++ '\x00' :: secretDigest input.assertion⟩

def captureSAML : Op BrokerCapture := do
  let (assertion, subject, until_, evidence) ← verifyBrokerSAML cfg.saml s c input.assertion input.upstreamCorrelation
    req.request.createdAt now cfg.maxLifetime
  let p := upstreamPrincipal id s c .saml2 subject now (minimum until_ [req.request.expiresAt])
  return ⟨p, upstreamAssurance s p evidence, secretDigest input.assertion,
    s.trust.upstreamIssuer ++ '\x00' :: assertion.id⟩

def captureEvidence : Op BrokerCapture :=
  match s.trust.protocol with
  | .oidc => Prog.ofExcept (captureOIDC cfg s c input id req now)
  | _ => captureSAML cfg s c input id req now

end Evidence

def captureBody (id : Text) (capture : BrokerCapture) : Body Unit := do
  observeClock clock
  let ended ← Ledger.cancelled
  Tx.require (!ended) .unavailable
  let _ ← request s c id
  let captures ← Tx.read Store.captures
  let replay ← Tx.read Store.replay
  Tx.require ((captures.get id).isNone && (replay.get (secretDigest capture.replayID)).isNone) .denied
  let now ← Ledger.now
  Tx.write (fun s => { s with
    replay := s.replay.put (secretDigest capture.replayID) (now.add cfg.maxLifetime).format
    captures := s.captures.put id (marshal capture) })

def capture (input : BrokerEvidence) : Op Unit := do
  let c ← configuration cfg s
  Prog.require (input.trustID == s.trust.id && input.providerRoute == c.settings.providerRoute && exact input.nonce &&
    exact input.upstreamCorrelation) .denied
  let (id, req) ← transaction authorityError (findBody s c input.nonce)
  let now ← now
  let captured ← captureEvidence cfg s c input id req now
  Prog.require (validateBundle ⟨s.trust, captured.principal, captured.assurance⟩) .invalid
  recheck cfg s c
  transaction authorityError (captureBody cfg s c id captured)

end Capture

section Complete

variable (cfg : Settings) (s : TrustSnapshot) (c : BrokerConfiguration)

structure BrokerCallback where
  eventID : Text
  state : Text
  browserSecret : Text
  pkceVerifier : Text
  code : Text
  issuer : Text
  deriving DecidableEq

/-- A valid correlated callback is burnt before its code is exchanged. -/
def burnBody (input : BrokerCallback) : Body (BrokerRequest × BrokerCapture) := do
  observeClock clock
  let req ← request s c input.eventID
  Tx.require (equalSecret input.state req.request.stateDigest &&
    equalSecret input.browserSecret req.request.sessionDigest &&
    equalSecret input.pkceVerifier req.pkceDigest) .denied
  let captures ← Tx.read Store.captures
  let capture ← Ledger.orFail .denied (decodeAuthority (α := BrokerCapture) ((captures.get input.eventID).getD []))
  let now ← Ledger.now
  Tx.require (now.before capture.assurance.expiresAt) .denied
  Tx.write (fun s => { s with
    requests := s.requests.put input.eventID (marshal { req with request := { req.request with consumed := true } }) })
  return (req, capture)

def tokenEndpoint (code verifier : Text) : Op (Except Fault Text) :=
  Prog.effect (I := ports) (.tokenEndpoint c code verifier)

def exchange (code verifier : Text) : Op Text := do
  Prog.require (exact code && code.size ≤ 4096 && 43 ≤ verifier.size && verifier.size ≤ 128) .denied
  let answer ← tokenEndpoint c code verifier
  let body ← Prog.ofExcept answer
  let token ← Prog.ofExcept ((HumanAuth.projectOAuthResponse body).elim (.error .denied) .ok)
  Prog.require (!token.idToken.isEmpty) .denied
  return token.idToken

def brokerClient : OIDCConfiguration where
  trustID := []
  snapshotID := []
  clientID := c.settings.clientID
  revision := 0
  binding := ⟨[], [], [], []⟩
  signingAlgorithm := c.settings.signingAlgorithm
  jwks := c.brokerJWKS
  validUntil := c.validUntil

def storeBody (id : Text) (event : StoredEvent) : Body Unit := do
  observeClock clock
  let ended ← Ledger.cancelled
  Tx.require (!ended) .denied
  let now ← Ledger.now
  Tx.require (now.before event.bundle.assurance.expiresAt) .denied
  let verified ← Tx.read Store.verified
  Tx.require (verified.get id).isNone .denied
  Tx.write (fun s => { s with verified := s.verified.put id (marshal event) })

def complete (input : BrokerCallback) : Op Unit := do
  let c ← configuration cfg s
  Prog.require (uuidPattern input.eventID && input.issuer == c.settings.issuer && input.state.size ≤ 512 &&
    32 ≤ input.browserSecret.size && input.browserSecret.size ≤ 512) .denied
  let (req, capture) ← transaction authorityError (burnBody s c input)
  let raw ← exchange c input.code input.pkceVerifier
  let now ← now
  let token ← Prog.ofExcept (verifyBrokerIDToken cfg.library c.settings.issuer (brokerClient c)
    raw req.request.nonceDigest req.request.createdAt now cfg.maxLifetime)
  Prog.require (digestPattern token.evidenceDigest && token.evidenceDigest == capture.digest) .unverified
  let a := { capture.assurance with expiresAt := minimum capture.assurance.expiresAt [token.expiresAt] }
  let mapped ← mapAssurance s capture.principal a
  recheck cfg s c
  transaction authorityError (storeBody input.eventID
    ⟨s.snapshotID, s.approvedRevision, ⟨s.trust, capture.principal, mapped⟩, false⟩)

end Complete

section Verify

def verifyBody (id : Text) (s : TrustSnapshot) : Body StoredEvent := do
  observeClock clock
  let verified ← Tx.read Store.verified
  let event ← Ledger.orFail .denied (decodeAuthority (α := StoredEvent) ((verified.get id).getD []))
  Tx.require (!event.consumed && event.snapshotID == s.snapshotID && event.revision == s.approvedRevision &&
    sameTrust event.bundle.trust s.trust) .denied
  let now ← Ledger.now
  Tx.require (activeSnapshot s now) .denied
  let now ← Ledger.now
  Tx.require (now.before event.bundle.assurance.expiresAt) .denied
  Tx.write (fun s => { s with verified := s.verified.put id (marshal { event with consumed := true }) })
  return event

def verify (id : Text) (s : TrustSnapshot) : Op (ExternalPrincipal × Assurance) := do
  let ended ← cancelled
  Prog.require (!ended && uuidPattern id) .invalid
  let event ← transaction authorityError (verifyBody id s)
  return (event.bundle.externalPrincipal, event.bundle.assurance)

end Verify

section Calls

variable (cfg : Settings)

inductive Call where
  | begin (s : TrustSnapshot) (sessionDigest : Text)
  | capture (s : TrustSnapshot) (input : BrokerEvidence)
  | complete (s : TrustSnapshot) (input : BrokerCallback)
  | verify (id : Text) (s : TrustSnapshot)
  | prune (limit : Nat)

abbrev Call.Result : Call → Type
  | .begin _ _ => BrokerChallenge
  | .capture _ _ => Unit
  | .complete _ _ => Unit
  | .verify _ _ => ExternalPrincipal × Assurance
  | .prune _ => Nat

def code : (c : Call) → Op c.Result
  | .begin s sessionDigest => begin cfg s sessionDigest
  | .capture s input => capture cfg s input
  | .complete s input => complete cfg s input
  | .verify id s => verify id s
  | .prune limit => prune limit

def nonceKey : (Σ q : Query, q.Answer) → Option Text
  | ⟨.randomString, some b⟩ => some (secretDigest (randomText b))
  | _ => none

/-- Nothing is drawn twice, and what is drawn has digests of its own. -/
def brokerRule (logs : List (Log ports)) (_ : Log ports) (q : Query) (a : q.Answer) : Bool :=
  drawRule logs q a &&
  (nonceKey ⟨q, a⟩).all (fun k => logs.all (fun L' => !(draws (I := ports) nonceKey L').contains k))

/-- Any calls on one ledger that starts empty. -/
def system : System ports Store Fault where
  Call := Call
  Result := Call.Result
  code := code cfg
  init := Store.empty
  admits := brokerRule

end Calls

end Federation.BrokerEvents
