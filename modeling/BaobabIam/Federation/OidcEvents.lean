import BaobabIam.Federation.Events

/-! The native OIDC event ledger: a request is begun, completed with an ID token,
and its event is verified once; expired records are pruned in bounded batches. -/
namespace Federation.OIDCEvents

open Wire Interleaving

structure Settings where
  library : TokenLibrary
  maxLifetime : Int
  positive : 0 < maxLifetime
  bounded : maxLifetime ≤ 15 * Time.minute

structure Store where
  requests : Bucket
  events : Bucket
  replay : Bucket
  maintenance : Bucket

def Store.empty : Store := ⟨.empty, .empty, .empty, .empty⟩

abbrev Op := Prog ports Store Fault
abbrev Body := Tx ports Store Fault

def clock : Clocked Store := ⟨Store.maintenance, fun b s => { s with maintenance := b }⟩

structure AuthenticationRequest where
  id : Text
  state : Text
  nonce : Text
  expiresAt : Time
  deriving DecidableEq

section Prune

inductive Kind where
  | requests | events | replay
  deriving DecidableEq

def Kind.name : Kind → Text
  | .requests => "oidc-requests-v1"
  | .events => "oidc-events-v1"
  | .replay => "oidc-token-replay-v1"

def Kind.get : Kind → Store → Bucket
  | .requests => Store.requests
  | .events => Store.events
  | .replay => Store.replay

def Kind.set : Kind → Bucket → Store → Store
  | .requests, b, s => { s with requests := b }
  | .events, b, s => { s with events := b }
  | .replay, b, s => { s with replay := b }

def Kind.expiry : Kind → Text → Option Time
  | .requests, value => (decodeAuthority (α := StoredRequest) value).map StoredRequest.expiresAt
  | .events, value => (decodeAuthority (α := StoredEvent) value).map (fun e =>
      minimum e.bundle.externalPrincipal.expiresAt [e.bundle.assurance.expiresAt])
  | .replay, value => Time.parse value

def cursorKey (kind : Kind) : Text := "cursor:".toList ++ kind.name

def resumed (b : Bucket) : Option Text → List (Text × Text)
  | none => b.entries
  | some k => b.entries.filter (fun e => keyLt k e.1)

/-- Scan at most `left` records. The result is the last key, whether keys are left,
and how many records were deleted. -/
def scan (kind : Kind) (now : Time) : Nat → List (Text × Text) → Option Text → Nat →
    Body (Option Text × Bool × Nat)
  | _, [], last, deleted => pure (last, false, deleted)
  | 0, _ :: _, last, deleted => pure (last, true, deleted)
  | left + 1, e :: rest, _, deleted => do
    let ended ← Ledger.cancelled
    Tx.require (!ended) .unavailable
    let expiry ← Ledger.orFail .invalid (kind.expiry e.2)
    Tx.require (!expiry.isZero) .invalid
    if now.before expiry then scan kind now left rest (some e.1) deleted
    else do
      Tx.write (fun s => kind.set ((kind.get s).delete e.1) s)
      scan kind now left rest (some e.1) (deleted + 1)

def sweep (kind : Kind) (now : Time) (limit : Nat) : Body Nat := do
  let cursors ← Tx.read Store.maintenance
  let b ← Tx.read kind.get
  let (last, more, deleted) ← scan kind now limit (resumed b (cursors.get (cursorKey kind))) none 0
  Tx.write (fun s => { s with maintenance :=
    match more, last with
    | false, _ => s.maintenance.delete (cursorKey kind)
    | true, some k => s.maintenance.put (cursorKey kind) k
    | true, none => s.maintenance })
  return deleted

def pruneBody (limit : Nat) : Body Nat := do
  let now ← Ledger.now
  observeClockAt clock now.utc
  let requests ← sweep .requests now limit
  let events ← sweep .events now limit
  let replay ← sweep .replay now limit
  return requests + events + replay

def prune (limit : Nat) : Op Nat := do
  let ended ← cancelled
  Prog.require (!ended && 1 ≤ limit && limit ≤ 4096) .invalid
  transaction authorityError (pruneBody limit)

end Prune

section Calls

variable (cfg : Settings)

def newRequest (id : Text) (s : TrustSnapshot) (sessionDigest state nonce : Text) (created : Time) : StoredRequest where
  id := id
  trustID := s.trust.id
  snapshotID := s.snapshotID
  revision := s.approvedRevision
  sessionDigest := sessionDigest
  stateDigest := secretDigest state
  nonceDigest := secretDigest nonce
  createdAt := created
  expiresAt := minimum s.validUntil [created.add (5 * Time.minute)]
  consumed := false

def beginBody (r : StoredRequest) : Body Unit := do
  observeClock clock
  let ended ← Ledger.cancelled
  Tx.require (!ended) .denied
  let now ← Ledger.now
  Tx.require (now.before r.expiresAt) .denied
  Tx.write (fun s => { s with requests := s.requests.put r.id (marshal r) })

def begin (s : TrustSnapshot) (sessionDigest : Text) : Op AuthenticationRequest := do
  let ended ← cancelled
  Prog.require (!ended && digestPattern sessionDigest) .denied
  let start ← now
  Prog.require (activeSnapshot s start && s.trust.protocol == .oidc) .denied
  let _ ← prune 128
  let id ← randomUUID
  let state ← randomString
  let nonce ← randomString
  let created ← now
  let r := newRequest id s sessionDigest state nonce created
  transaction authorityError (beginBody r)
  return ⟨id, state, nonce, r.expiresAt⟩

/-- A valid correlated callback is burnt before its token is looked at. -/
def burnBody (id state sessionSecret : Text) (s : TrustSnapshot) : Body StoredRequest := do
  observeClock clock
  let requests ← Tx.read Store.requests
  let req ← Ledger.orFail .denied (decodeAuthority (α := StoredRequest) ((requests.get id).getD []))
  Tx.require (!req.consumed && req.trustID == s.trust.id && req.snapshotID == s.snapshotID &&
    req.revision == s.approvedRevision) .denied
  let now ← Ledger.now
  Tx.require (fresh req.createdAt req.expiresAt now && equalSecret state req.stateDigest &&
    equalSecret sessionSecret req.sessionDigest) .denied
  Tx.write (fun s => { s with requests := s.requests.put id (marshal { req with consumed := true }) })
  return req

/-- The approved keys are asked for where the token's verification starts, and the
trace shows it. -/
def configuration (s : TrustSnapshot) : Op OIDCConfiguration := do
  let answer ← Prog.effect (I := ports) (.oidcConfiguration s)
  let c ← Prog.ofExcept (answer.mapError authorityError)
  Prog.require (c.trustID == s.trust.id && c.snapshotID == s.snapshotID && c.revision == s.approvedRevision &&
    c.binding == s.trust.providerBinding && exact c.clientID) .unverified
  let now ← now
  Prog.require (now.before c.validUntil) .unverified
  return c

/-- Who is authenticated by the token, until the earliest limit. -/
def principal (id : Text) (s : TrustSnapshot) (c : OIDCConfiguration) (req : StoredRequest) (t : IDToken)
    (now : Time) : ExternalPrincipal where
  authenticationEventID := id
  trustID := s.trust.id
  providerID := c.binding.providerID
  engineInstanceID := c.binding.engineInstanceID
  protocol := .oidc
  issuer := t.issuer
  subject := t.subject
  actorType := "human"
  observedAt := now
  expiresAt := minimum t.expiry [s.validUntil, c.validUntil, req.expiresAt, now.add cfg.maxLifetime]
  resolution := { status := .unresolved }

def assurance (s : TrustSnapshot) (c : OIDCConfiguration) (p : ExternalPrincipal) (k : TokenClaims) : Assurance where
  authenticationEventID := p.authenticationEventID
  trustID := s.trust.id
  providerID := p.providerID
  engineInstanceID := p.engineInstanceID
  protocol := .oidc
  issuer := p.issuer
  subject := p.subject
  upstreamEvidence := { oidc := some {
    actorType := "human", acr := k.acr, amr := k.amr.getD [], authenticatedAt := Time.unix 0 k.authTime,
    issuer := p.issuer, clientID := c.clientID } }
  mappingStatus := .unknown
  assurancePolicyReference := s.trust.assurancePolicyReference
  evaluatedAt := p.observedAt
  expiresAt := p.expiresAt

def evidence (id rawToken : Text) (s : TrustSnapshot) (req : StoredRequest) :
    Op (ExternalPrincipal × Assurance × Time) := do
  let c ← configuration s
  let checked ← now
  let (t, payload) ← Prog.ofExcept (verifiedToken cfg.library s.trust.upstreamIssuer c.clientID
    c.signingAlgorithm c.jwks rawToken checked)
  let k ← Prog.ofExcept ((tokenClaims payload).elim (.error .invalid) .ok)
  let now ← now
  Prog.require (tokenHolds s.trust.upstreamIssuer c.clientID req.nonceDigest req.createdAt now cfg.maxLifetime t k &&
    exact k.acr) .denied
  let p := principal cfg id s c req t now
  let a := assurance s c p k
  Prog.require (k.amr != some [] && validateBundle ⟨s.trust, p, a⟩) .invalid
  return (p, a, t.expiry)

def storeBody (id rawToken : Text) (event : StoredEvent) (expiry : Time) : Body Unit := do
  observeClock clock
  let ended ← Ledger.cancelled
  Tx.require (!ended) .denied
  let now ← Ledger.now
  Tx.require (now.before event.bundle.assurance.expiresAt) .denied
  let replay ← Tx.read Store.replay
  let events ← Tx.read Store.events
  Tx.require ((replay.get (secretDigest rawToken)).isNone && (events.get id).isNone) .denied
  Tx.write (fun s => { s with
    replay := s.replay.put (secretDigest rawToken) expiry.format
    events := s.events.put id (marshal event) })

def complete (id state sessionSecret rawToken : Text) (s : TrustSnapshot) : Op Unit := do
  let ended ← cancelled
  Prog.require (!ended && uuidPattern id && !rawToken.isEmpty && rawToken.size ≤ 32768 &&
    32 ≤ sessionSecret.size && sessionSecret.size ≤ 512 && state.size ≤ 512) .denied
  let start ← now
  Prog.require (activeSnapshot s start) .denied
  Prog.require (s.trust.protocol == .oidc) .unsupported
  let req ← transaction authorityError (burnBody id state sessionSecret s)
  let (p, a, expiry) ← evidence cfg id rawToken s req
  let mapped ← mapAssurance s p a
  transaction authorityError (storeBody id rawToken
    ⟨s.snapshotID, s.approvedRevision, ⟨s.trust, p, mapped⟩, false⟩ expiry)

def verifyBody (id : Text) (s : TrustSnapshot) : Body StoredEvent := do
  observeClock clock
  let events ← Tx.read Store.events
  let event ← Ledger.orFail .denied (decodeAuthority (α := StoredEvent) ((events.get id).getD []))
  Tx.require (!event.consumed && event.snapshotID == s.snapshotID && event.revision == s.approvedRevision &&
    event.bundle.trust.id == s.trust.id) .denied
  let now ← Ledger.now
  Tx.require (activeSnapshot s now) .denied
  let now ← Ledger.now
  Tx.require (now.before event.bundle.assurance.expiresAt) .denied
  Tx.require (sameTrust event.bundle.trust s.trust) .unverified
  Tx.write (fun s => { s with events := s.events.put id (marshal { event with consumed := true }) })
  return event

def verify (id : Text) (s : TrustSnapshot) : Op (ExternalPrincipal × Assurance) := do
  let ended ← cancelled
  Prog.require (!ended && uuidPattern id) .invalid
  Prog.require (s.trust.protocol == .oidc) .unsupported
  let event ← transaction authorityError (verifyBody id s)
  return (event.bundle.externalPrincipal, event.bundle.assurance)

inductive Call where
  | begin (s : TrustSnapshot) (sessionDigest : Text)
  | complete (id state sessionSecret rawToken : Text) (s : TrustSnapshot)
  | verify (id : Text) (s : TrustSnapshot)
  | prune (limit : Nat)

abbrev Call.Result : Call → Type
  | .begin _ _ => AuthenticationRequest
  | .complete _ _ _ _ _ => Unit
  | .verify _ _ => ExternalPrincipal × Assurance
  | .prune _ => Nat

def code : (c : Call) → Op c.Result
  | .begin s sessionDigest => begin s sessionDigest
  | .complete id state sessionSecret rawToken s => complete cfg id state sessionSecret rawToken s
  | .verify id s => verify id s
  | .prune limit => prune limit

/-- Any calls on one ledger that starts empty; nothing is drawn twice. -/
def system : System ports Store Fault where
  Call := Call
  Result := Call.Result
  code := code cfg
  init := Store.empty
  admits := eventRule

end Calls

end Federation.OIDCEvents
