import BaobabIam.Base.Base64
import BaobabIam.Base.Sha256
import BaobabIam.HumanAuth.Profile
import BaobabIam.NativeBff.RateLimit

/-! The browser login: `start` puts a transaction under a random identifier, `callback`
takes it, exchanges the code, and stores a session or revokes what it got. A
statement of the database is applied whole, or refused, or applied with its answer
lost. Sealing of records, the keyed subject index and the OpenID Connect library
are parameters. Instants are nanoseconds. -/
namespace NativeBff.Login

open Interleaving
open Admission (Outcome)

structure Transaction where
  intent : HumanAuth.Request
  verifier : Text
  csrf : Text
  expiresAt : Int

structure Session where
  subject : Text
  issuer : Text
  principalID : Text
  csrf : Text
  expiresAt : Int
  tokens : HumanAuth.Response

/-- Records of one kind, encoded and sealed for their identifier under a random nonce. -/
structure Envelope (α : Type) where
  enclose : (nonce id : Text) → α → Option Text
  disclose : (id sealed : Text) → Option α
  round_trip : ∀ nonce id a sealed, enclose nonce id a = some sealed → disclose id sealed = some a

structure Vault where
  txn : Envelope Transaction
  sess : Envelope Session
  /-- The keyed digest of an issuer and a subject. -/
  subjectHash : (issuer subject : Text) → Text

structure Config where
  publicOrigin : Text
  issuer : Text
  clientID : Text
  clientSecret : Text
  redirectURI : Text
  scope : Text
  accessAudience : Text
  accessScope : Text
  requireAAL2 : Bool
  assurance : Bool

/-- A request: its cookies, its Origin headers and its query, decoded. -/
structure Browser where
  cookies : List (Text × Text)
  origins : List Text
  rawQuery : Text
  query : List (Text × Text)

section Ports

structure CodeGrant where
  url : Text
  code : Text
  redirectURI : Text
  codeVerifier : Text
  clientID : Text
  clientSecret : Text

inductive TokenAnswer where
  | unavailable
  /-- The status, and the body when it could be read. -/
  | response (status : Nat) (body : Option Text)

structure AccessClaims where
  subject : Text
  /-- The claims that the handler decodes itself. -/
  claims : Option (Text × Text)

inductive Purpose where
  | transactionID | verifier | state | nonce | csrf | sessionID | envelope
  deriving DecidableEq

inductive Query where
  /-- The handler's clock, the store's clock, the database's clock. -/
  | now | processClock | databaseClock
  | statement
  | random (purpose : Purpose)
  | tokenEndpoint (grant : CodeGrant)
  | verifyIDToken (issuer clientID raw : Text)
  | verifyAccessToken (issuer audience raw : Text)
  | authenticator (cookie : Text)
  | resolveHuman (issuer subject accessToken : Text)
  | revoke (tokens : HumanAuth.Response)

abbrev Query.Answer : Query → Type
  | .now | .processClock | .databaseClock => Int
  | .statement => Outcome
  | .random _ => Option Text
  | .tokenEndpoint _ => TokenAnswer
  -- subject and nonce of a token whose signature, issuer, audience and times hold
  | .verifyIDToken .. => Option (Text × Text)
  | .verifyAccessToken .. => Option AccessClaims
  -- subject and assurance level of the browser's session at the authenticator
  | .authenticator _ => Option (Text × Text)
  | .resolveHuman .. => Option Text
  | .revoke _ => Bool

abbrev ports : Interface := ⟨Query, Query.Answer⟩

end Ports

section Tables

abbrev Key := BitVec 256

structure Row where
  sealed : Text
  expiresAt : Int

structure SessionRow where
  subjectHash : Text
  sealed : Text
  expiresAt : Int

structure Store where
  transactions : Key → Option Row
  sessions : Key → Option SessionRow

def Store.empty : Store := ⟨fun _ => none, fun _ => none⟩

def Store.setTransaction (s : Store) (k : Key) (row : Option Row) : Store :=
  ⟨Function.update s.transactions k row, s.sessions⟩

def Store.setSession (s : Store) (k : Key) (row : SessionRow) : Store :=
  ⟨s.transactions, Function.update s.sessions k (some row)⟩

abbrev Op := Prog ports Store Nat
abbrev Body := Tx ports Store Nat

def hashID (id : Text) : Option Key := if id.size = 43 then some (Sha256.digest id) else none

/-- `SELECT sealed` or `DELETE ... RETURNING sealed`, for a row that has not expired. -/
def fetch (take : Bool) (status : Nat) (k : Key) : Body (Option Text) := do
  let outcome : Outcome ← Tx.ask (I := ports) .statement
  Tx.require (outcome != .refused) status
  let clock : Int ← Tx.ask (I := ports) .databaseClock
  let found ← Tx.read (fun s => (s.transactions k).filter (fun row => clock < row.expiresAt))
  Tx.when (take && found.isSome) (Tx.write (fun s => s.setTransaction k none))
  return (if outcome = .applied then found.map Row.sealed else none)

def insertTransaction (status : Nat) (k : Key) (row : Row) : Body Bool := do
  let outcome : Outcome ← Tx.ask (I := ports) .statement
  let taken ← Tx.read (fun s => (s.transactions k).isSome)
  Tx.require (outcome != .refused && !taken) status
  Tx.write (fun s => s.setTransaction k (some row))
  return (outcome = .applied)

def insertSession (status : Nat) (k : Key) (row : SessionRow) : Body Bool := do
  let outcome : Outcome ← Tx.ask (I := ports) .statement
  let taken ← Tx.read (fun s => (s.sessions k).isSome)
  Tx.require (outcome != .refused && !taken) status
  Tx.write (fun s => s.setSession k row)
  return (outcome = .applied)

end Tables

def orStop {α : Type} (status : Nat) (a : Option α) : Op α := Prog.ofExcept (a.elim (.error status) .ok)

section PostgresStore

variable (v : Vault)

def getTx (take : Bool) (status : Nat) (id : Text) : Op Transaction := do
  let k ← orStop status (hashID id)
  let sealed ← Prog.atomic (fetch take status k) Prog.ofExcept
  let sealed ← orStop status sealed
  let t ← orStop status (v.txn.disclose id sealed)
  let clock : Int ← Prog.question (I := ports) .processClock
  Prog.require (t.intent.validate && !t.verifier.isEmpty && !t.csrf.isEmpty && clock < t.expiresAt) status
  return t

def putTransaction (status : Nat) (id : Text) (t : Transaction) : Op Unit := do
  let clock : Int ← Prog.question (I := ports) .processClock
  Prog.require (t.intent.validate && !t.verifier.isEmpty && !t.csrf.isEmpty && clock < t.expiresAt) status
  let k ← orStop status (hashID id)
  let nonce : Option Text ← Prog.question (I := ports) (.random .envelope)
  let nonce ← orStop status nonce
  let sealed ← orStop status (v.txn.enclose nonce id t)
  let acknowledged ← Prog.atomic (insertTransaction status k ⟨sealed, t.expiresAt⟩) Prog.ofExcept
  Prog.require acknowledged status

def putSession (status : Nat) (id : Text) (t : Session) : Op Unit := do
  let clock : Int ← Prog.question (I := ports) .processClock
  Prog.require (!t.issuer.isEmpty && !t.subject.isEmpty && !t.principalID.isEmpty && !t.csrf.isEmpty &&
    t.tokens.validate && !t.tokens.idToken.isEmpty && clock < t.expiresAt) status
  let k ← orStop status (hashID id)
  let nonce : Option Text ← Prog.question (I := ports) (.random .envelope)
  let nonce ← orStop status nonce
  let sealed ← orStop status (v.sess.enclose nonce id t)
  Prog.require (t.issuer.size ≤ 2048 && t.subject.size ≤ 512) status
  let acknowledged ← Prog.atomic
    (insertSession status k ⟨v.subjectHash t.issuer t.subject, sealed, t.expiresAt⟩) Prog.ofExcept
  Prog.require acknowledged status

end PostgresStore

section Handler

variable (v : Vault) (h : Config)

def trimSlashes (t : Text) : Text := (t.reverse.dropWhile (· == '/')).reverse

/-- Each required name once, with a value, and no other name. -/
def exactQuery (query : List (Text × Text)) (required : List Text) : Bool :=
  (query.map Prod.fst).dedup.length == required.length &&
  required.all (fun k =>
    match query.filter (fun p => p.1 == k) with
    | [p] => !p.2.isEmpty
    | _ => false)

def Browser.get (r : Browser) (name : String) : Text := (r.query.lookup name.toList).getD []

def Browser.transaction (r : Browser) : Option Text :=
  (r.cookies.lookup "__Host-baobab-native-txn".toList).filter (fun id => id.size == 43)

def tx (status : Nat) (r : Browser) : Op (Text × Transaction) := do
  let id ← orStop status r.transaction
  let t ← getTx v false status id
  let now : Int ← Prog.question (I := ports) .now
  Prog.require (now < t.expiresAt) status
  return (id, t)

def Browser.kratos (r : Browser) : Option Text :=
  ((r.cookies.lookup "ory_kratos_session".toList).filter (fun c =>
    !c.isEmpty && c.size ≤ 2048 && !c.any (fun x => " \r\n;".toList.contains x))).map
    (fun c => "ory_kratos_session=".toList ++ c)

def tokensOf : TokenAnswer → Option HumanAuth.Response
  | .response 200 (some body) =>
    if 65536 < body.size then none
    else (HumanAuth.projectOAuthResponse body).filter (fun t => !t.idToken.isEmpty && t.validate)
  | _ => none

def grant (code : Text) (t : Transaction) : CodeGrant :=
  ⟨trimSlashes h.issuer ++ "/oauth2/token".toList, code, h.redirectURI, t.verifier, h.clientID, h.clientSecret⟩

def exchange (status : Nat) (code : Text) (t : Transaction) : Op HumanAuth.Response := do
  Prog.require (8 ≤ code.size && code.size ≤ 4096 && !code.any (fun x => " \r\n".toList.contains x)) status
  let answer : TokenAnswer ← Prog.effect (I := ports) (.tokenEndpoint (grant h code t))
  orStop status (tokensOf answer)

def verifyID (status : Nat) (raw nonce : Text) : Op Text := do
  Prog.require (!raw.isEmpty && !nonce.isEmpty && raw.size ≤ 16384) status
  let verified : Option (Text × Text) ←
    Prog.question (I := ports) (.verifyIDToken (trimSlashes h.issuer) h.clientID raw)
  let verified ← orStop status verified
  Prog.require (!verified.1.isEmpty && !verified.2.isEmpty && verified.2 == nonce) status
  return verified.1

def verifyAccess (status : Nat) (raw subject : Text) : Op Unit := do
  Prog.require (20 ≤ raw.size && raw.size ≤ 16384 && !subject.isEmpty) status
  let verified : Option AccessClaims ←
    Prog.question (I := ports) (.verifyAccessToken (trimSlashes h.issuer) h.accessAudience raw)
  let verified ← orStop status verified
  Prog.require (verified.subject == subject) status
  let (actorType, scope) ← orStop status verified.claims
  Prog.require (actorType == "human".toList &&
    decide ((' ' :: h.accessScope ++ [' ']) <:+: (' ' :: scope ++ [' ']))) status

def assured (status : Nat) (r : Browser) (subject : Text) : Op Unit := do
  let cookie ← orStop status r.kratos
  Prog.require h.assurance status
  let current : Option (Text × Text) ← Prog.question (I := ports) (.authenticator cookie)
  let current ← orStop status current
  Prog.require (current.1 == subject && current.2 == "aal2".toList) status

def randomValue (status : Nat) (purpose : Purpose) : Op Text := do
  let value : Option Text ← Prog.question (I := ports) (.random purpose)
  orStop status value

def second : Int := 1000000000

def maxTransactionAge : Int := 5 * 60 * second

def maxSessionAge : Int := 30 * 60 * second

inductive Reply where
  | redirect (location : Text) (query : List (Text × Text))
  /-- The new session's identifier and the cookie's age in seconds. -/
  | session (id : Text) (age : Int)

/-- The session for a subject that is verified; success means that it is committed. -/
def establish (tokens : HumanAuth.Response) (sub : Text) : Op Reply := do
  verifyAccess h 403 tokens.accessToken sub
  let principal : Option Text ←
    Prog.question (I := ports) (.resolveHuman (trimSlashes h.issuer) sub tokens.accessToken)
  let principal ← orStop 403 principal
  Prog.require (!principal.isEmpty) 403
  let sessionID ← randomValue 503 .sessionID
  let csrf ← randomValue 503 .csrf
  let lifetime := min (tokens.expiresIn * second) maxSessionAge
  let now : Int ← Prog.question (I := ports) .now
  putSession v 503 sessionID ⟨sub, trimSlashes h.issuer, principal, csrf, now + lifetime, tokens⟩
  return .session sessionID (lifetime / second)

def accept (r : Browser) (t : Transaction) (tokens : HumanAuth.Response) : Op Reply := do
  let sub ← verifyID h 403 tokens.idToken t.intent.nonce
  Prog.when h.requireAAL2 (assured h 403 r sub)
  establish v h tokens sub

def callback (r : Browser) : Op Reply := do
  Prog.require (exactQuery r.query ["code".toList, "state".toList]) 400
  let (id, t) ← tx v 401 r
  Prog.require (r.get "state" == t.intent.state) 403
  let t ← getTx v true 403 id
  let now : Int ← Prog.question (I := ports) .now
  Prog.require (now < t.expiresAt) 403
  let tokens ← exchange h 403 (r.get "code") t
  match ← (accept v h r t tokens).attempt with
  | .ok reply => return reply
  | .error status => do
    -- deferred: every exit after the exchange that has not committed
    let _ ← Prog.effect (I := ports) (.revoke tokens)
    .fail status

def start (r : Browser) : Op Reply := do
  Prog.require (r.origins == [trimSlashes h.publicOrigin] && r.rawQuery.isEmpty) 403
  let id : Option Text ← Prog.question (I := ports) (.random .transactionID)
  let verifier : Option Text ← Prog.question (I := ports) (.random .verifier)
  let state : Option Text ← Prog.question (I := ports) (.random .state)
  let nonce : Option Text ← Prog.question (I := ports) (.random .nonce)
  let csrf : Option Text ← Prog.question (I := ports) (.random .csrf)
  let id ← orStop 503 id
  let verifier ← orStop 503 verifier
  let state ← orStop 503 state
  let nonce ← orStop 503 nonce
  let csrf ← orStop 503 csrf
  let challenge := Base64.rawURL (Base64.bytes 32 (Sha256.digest verifier).toNat)
  let intent : HumanAuth.Request :=
    ⟨"authorization_code", challenge, "S256", h.clientID, h.redirectURI, h.scope, state, nonce, []⟩
  Prog.require intent.validate 503
  let now : Int ← Prog.question (I := ports) .now
  putTransaction v 503 id ⟨intent, verifier, csrf, now + maxTransactionAge⟩
  return .redirect (trimSlashes h.issuer ++ "/oauth2/auth".toList)
    [("response_type", "code"), ("client_id", intent.clientID), ("redirect_uri", intent.redirectURI),
     ("scope", intent.scope), ("state", intent.state), ("nonce", intent.nonce),
     ("code_challenge", intent.codeChallenge), ("code_challenge_method", "S256")]

end Handler

section Runs

/-- A request to a replica, which has a configuration of its own. -/
inductive Call where
  | start (h : Config) (r : Browser)
  | callback (h : Config) (r : Browser)

def Call.code (v : Vault) : Call → Op Reply
  | .start h r => Login.start v h r
  | .callback h r => Login.callback v h r

/-- The row that a random identifier of a transaction stands for. -/
def idKey : (Σ q : Query, q.Answer) → Option Key
  | ⟨.random .transactionID, some id⟩ => hashID id
  | _ => none

def fresh (logs : List (Log ports)) (_ : Log ports) (q : Query) (a : q.Answer) : Bool :=
  match idKey ⟨q, a⟩ with
  | some k => logs.all (fun L => !(draws (I := ports) idKey L).contains k)
  | none => true

def system (v : Vault) : System ports Store Nat where
  Call := Call
  Result _ := Reply
  code := Call.code v
  init := Store.empty
  admits := fresh

end Runs

end NativeBff.Login
