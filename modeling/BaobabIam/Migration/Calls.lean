import BaobabIam.Migration.Containment
import BaobabIam.Migration.Rows

/-! The operations that workers run: the service over either store, and what only the
durable ledger has. Any number of workers share one store. -/
namespace Migration

open Interleaving Text

inductive ServiceCall where
  | register (r : Record)
  | registerBatch (req : BatchRegisterRequest)
  | applyTransition (migrationID : Text) (next : MigrationState)
  | setTargetBinding (migrationID : Text) (target : ProviderBinding)
  | credentialApply (migrationID : Text)
  | credentialMarkReady (migrationID : Text)
  | verificationApply (migrationID : Text)
  | verificationMarkVerified (migrationID : Text)
  | provision (b : ProvisionBridge) (migrationID : Text)

abbrev ServiceCall.Result : ServiceCall → Type
  | .register _ | .applyTransition _ _ | .setTargetBinding _ _ => Record
  | .registerBatch _ => BatchRegisterResult
  | .credentialApply _ | .credentialMarkReady _ | .verificationApply _ | .verificationMarkVerified _ => StageResult
  | .provision _ _ => ProvisionResult

def ServiceCall.code {S : Type} (store : RecordStore S) (policy : Policy) : (c : ServiceCall) → Op S c.Result
  | .register r => Migration.register store r
  | .registerBatch req => Migration.registerBatch store req
  | .applyTransition id next => Migration.applyTransition store policy id next
  | .setTargetBinding id target => Migration.setTargetBinding store id target
  | .credentialApply id => CredentialStage.apply store policy id
  | .credentialMarkReady id => CredentialStage.markReady store policy id
  | .verificationApply id => VerificationStage.apply store policy id
  | .verificationMarkVerified id => VerificationStage.markVerified store policy id
  | .provision b id => b.provision store policy id

def service {S : Type} (store : RecordStore S) (policy : Policy) (init : S) : System ports S Failure where
  Call := ServiceCall
  Result := ServiceCall.Result
  code := ServiceCall.code store policy
  init := init
  admits _ _ _ _ := true

def MemoryStore.system (policy : Policy) (init : MemoryStore) : System ports MemoryStore Failure :=
  service MemoryStore.store policy init

namespace PostgresStore

inductive Call where
  | service (policy : Policy) (c : ServiceCall)
  | put (r : Record)
  | contain (configured : Bool) (migrationID operationID : Text)
  | rollback (migrationID : Text)

abbrev Call.Result : Call → Type
  | .service _ c => c.Result
  | .put _ | .rollback _ => Record
  | .contain _ _ _ => ContainmentReceipt

def code (d : Driver) : (c : Call) → Op Database c.Result
  | .service policy c => c.code (store d) policy
  | .put r => put d r
  | .contain configured id operationID => NativeContainment.contain configured id operationID
  | .rollback id => rollbackPreCutover d id

/-- Workers with services under any policy, containments and rollbacks on one database. -/
def system (d : Driver) (init : Database) : System ports Database Failure where
  Call := Call
  Result := Call.Result
  code := code d
  init := init
  admits _ _ _ _ := true

end PostgresStore

/-- Surroundings in which every call succeeds and the clock stands still. -/
def calm : Oracle ports := fun _ q =>
  match q with
  | .now => ⟨5 * Time.second, 0⟩
  | .statement => none
  | .commit => .done
  | .memory => none
  | .allowTransition _ _ _ => .ok ()
  | .listSourceBindings _ => .ok []
  | .resolveCanonical _ => .ok "canonical"
  | .loadHumanTraits _ _ => .ok [("email", .str "a@example.org")]
  | .provisionIdentity _ => .ok (some ⟨"ory", "https://new", "subject", .active⟩)
  | .provisionWorkload _ => .ok (some ⟨"ory", "client", "https://new"⟩)
  | .provisionFederatedWorkload _ => .ok (some ⟨"ory", "client", "client", "https://new"⟩)
  | .disableIdentity _ => .ok ()
  | .getIdentity subject => .ok (some ⟨"ory", subject.issuer, subject.subject, .disabled⟩)
  | .revokeSessions _ => .ok ()
  | .activeSessionCount _ => .ok 0
  | .verifyCurrentDenial _ _ _ => .ok ⟨true, true, true, ⟨5 * Time.second, 0⟩, "reference"⟩
  | .verifyPreCutoverRollback _ => .ok ⟨true, true, true, true, "reference"⟩

def Driver.plain : Driver := ⟨fun _ => 0, fun a b => decide (a = b), by simp⟩

def humanBridge : ProvisionBridge where
  human := true
  humanTraits := true
  targetIssuer := "https://new"
  parseAddress := some

def Record.sample (state : MigrationState) : Record where
  revision := 1
  migrationID := "m"
  canonicalIdentityID := "c"
  source := ⟨"keycloak", "https://old", "s"⟩
  target := ⟨"ory", "https://new", "t"⟩
  identityClass := .human
  credentialStrategy := .noCredentialRequired
  migrationState := state
  createdAt := ⟨Time.second, 0⟩

def MemoryStore.sample (state : MigrationState) : MemoryStore := MemoryStore.empty.insert (.sample state)

def Database.sample (state : MigrationState) : Database := { records := [.sample state] }

end Migration
