import BaobabIam.Base.Runs
import BaobabIam.Migration.Provider
import BaobabIam.Migration.State

/-! The boundary of the migration package: every answer of a provider, a witness,
a resolver, the clock or the database is the answer to a question, and a record
store is a pair of operations. -/
namespace Migration

open Interleaving Text Wire

inductive Commit where
  | done
  | refused (code : SqlCode)
  /-- The writes are durable, but the caller saw an error. -/
  | unacknowledged (code : SqlCode)
  deriving DecidableEq, Repr

structure CurrentVetoEvidence where
  sourceIssuerDenied : Bool
  targetIssuerDenied : Bool
  canonicalUnchanged : Bool
  observedAt : Time
  originalReference : Text
  deriving DecidableEq, Repr

structure RollbackWitness where
  sourceFallbackConfirmed : Bool
  targetActorDenied : Bool
  canonicalUnchanged : Bool
  legacyRevocationsPreserved : Bool
  originalReference : Text
  deriving DecidableEq, Repr

structure SourceBinding where
  provider : Text
  issuer : Text
  subject : Text
  suggestedClass : IdentityClass
  snapshotReference : Text
  deriving DecidableEq, Repr

inductive Query where
  | now
  /-- Whether a statement of a transaction ran. -/
  | statement
  | commit
  /-- Whether a call of the in-process store failed. -/
  | memory
  /-- A policy gate other than the two of the package. -/
  | allowTransition (migrationID : Text) (source next : MigrationState)
  | listSourceBindings (batchID : Text)
  | resolveCanonical (source : ProviderBinding)
  | loadHumanTraits (source : ProviderBinding) (snapshotReference : Text)
  | provisionIdentity (spec : IdentityProvisioningSpec)
  | provisionWorkload (spec : WorkloadProvisioningSpec)
  | provisionFederatedWorkload (spec : FederatedWorkloadTrustSpec)
  | disableIdentity (subject : ExternalSubject)
  | getIdentity (subject : ExternalSubject)
  | revokeSessions (subject : ExternalSubject)
  | activeSessionCount (subject : ExternalSubject)
  | verifyCurrentDenial (source target : ExternalSubject) (canonicalPrincipalID : Text)
  | verifyPreCutoverRollback (r : Record)

abbrev Query.Answer : Query → Type
  | .now => Time
  | .statement => Option SqlCode
  | .commit => Commit
  | .memory => Option Failure
  | .allowTransition _ _ _ => Except Failure Unit
  | .listSourceBindings _ => Except Failure (List SourceBinding)
  | .resolveCanonical _ => Except Failure Text
  | .loadHumanTraits _ _ => Except Failure (Table Json)
  | .provisionIdentity _ => Except Failure (Option ProviderIdentity)
  | .provisionWorkload _ => Except Failure (Option ProviderWorkload)
  | .provisionFederatedWorkload _ => Except Failure (Option FederatedWorkloadTrust)
  | .disableIdentity _ => Except Failure Unit
  | .getIdentity _ => Except Failure (Option ProviderIdentity)
  | .revokeSessions _ => Except Failure Unit
  | .activeSessionCount _ => Except Failure Int
  | .verifyCurrentDenial _ _ _ => Except Failure CurrentVetoEvidence
  | .verifyPreCutoverRollback _ => Except Failure RollbackWitness

def ports : Interface := ⟨Query, Query.Answer⟩

abbrev Op (S : Type) := Prog ports S Failure
abbrev Body (S : Type) := Tx ports S Failure

/-- A persistence port. `put` hands back the record with the revision it was given. -/
structure RecordStore (S : Type) where
  get : Text → Op S Record
  put : Record → Op S Record

inductive Policy where
  /-- Also the policy of a service that has none. -/
  | phaseC
  | allowAll
  | custom
  deriving DecidableEq, Repr

section Programs

variable {S : Type}

def now : Op S Time := Prog.question (I := ports) .now

def transaction {α : Type} (t : Body S α) : Op S α := .atomic t Prog.ofExcept

/-- One transaction of the database; it may be durable and still report an error. -/
def settled {α : Type} (t : Body S (Except Failure α)) : Op S α :=
  .atomic t (fun r => Prog.ofExcept (r.bind id))

def allowTransition (policy : Policy) (migrationID : Text) (source next : MigrationState) : Op S Unit :=
  match policy with
  | .phaseC =>
    if next = .cutover || next = .legacyRetired then
      .fail
        (.errorf
          "migration: transition %s → %s denied by Phase C policy for %q (production cutover not authorized; see ADR-IAM-0022 / M18)"
        [source.text, next.text, migrationID])
    else .ret ()
  | .allowAll => .ret ()
  | .custom => do
    let answer ← Prog.question (I := ports) (.allowTransition migrationID source next)
    Prog.ofExcept answer

end Programs

end Migration
