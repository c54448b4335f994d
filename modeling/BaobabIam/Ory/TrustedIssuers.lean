import BaobabIam.Ory.ClientRuns

/-! The trusts that let an assertion be exchanged. Before a trust is created or reused
the ones that the server lists for the issuer are looked at, but only up to the first
one for the subject, and one that allows any subject is passed over when it is listed
under another. So a wider trust can stand beside the one that is reported. -/
namespace Ory.Clients

open Interleaving

section Trusts

variable (spec : FederatedWorkloadTrustSpec)

structure Narrow (t : TrustedIssuer) : Prop where
  subject : t.allowAnySubject = false
  scopes : ∀ scope, scope ∈ t.scope ↔ scope ∈ spec.allowedScopes
  expiry : t.expiresAt.isZero = true ∨ t.expiresAt.equal spec.trustExpiresAt = true
  key : t.kid = [] ∨ t.kid = Migration.jsonText (spec.assertionJWK.lookup "kid".toList)

/-- What the checks of the loop refuse in a trust, field by field. -/
def Refused (t : TrustedIssuer) : Prop :=
  t.allowAnySubject = true ∨ ¬ t.scope.Perm spec.allowedScopes ∨
  (t.expiresAt.isZero = false ∧ t.expiresAt.equal spec.trustExpiresAt = false) ∨
  (t.kid ≠ [] ∧ t.kid ≠ Migration.jsonText (spec.assertionJWK.lookup "kid".toList)) ∨ t.id = []

def forSubject (t : TrustedIssuer) : Bool := t.subject == spec.assertionSubject

/-- The trusts that the loop passes over or never reaches: all but the first one for the
subject. -/
def unchecked (trusted : List TrustedIssuer) : List TrustedIssuer := trusted.eraseP (forSubject spec)

variable {spec} {trusted : List TrustedIssuer} {t : TrustedIssuer}

end Trusts

def Sample.spec : FederatedWorkloadTrustSpec where
  logicalClientID := "w"
  displayName := "w"
  allowedScopes := ["read".toList]
  intendedAudiences := ["erp".toList]
  lifecycleStatus := .unset
  assertionIssuer := "https://issuer"
  assertionSubject := "w"
  assertionJWK := [("kid".toList, .str "k")]
  trustExpiresAt := ⟨Time.second, 0⟩
  metadata := []

end Ory.Clients
