import BaobabIam.TokenProfile.Issuance

/-! The token response of a workload, and what binds it to an admitted request. Admission
compares lists with lists, issuance joins a list to one text, and binding splits that
text again; the three agree on the set of scopes. -/
namespace TokenProfile

open Checks

structure WorkloadTokenResponse where
  accessToken : Text
  tokenType : Text
  expiresIn : Nat
  /-- Omitted, or a text. -/
  scope : Option Text
  deriving DecidableEq

inductive BindFault where
  | response
  | request (why : Refusal)
  | scopesRequired
  | scopeMismatch
  deriving DecidableEq

def WorkloadTokenResponse.validate (r : WorkloadTokenResponse) : Except BindFault Unit :=
  require (20 ≤ r.accessToken.length && r.tokenType == "Bearer".toList &&
    60 ≤ r.expiresIn && r.expiresIn ≤ 86400 && r.scope != some []) .response

def WorkloadTokenResponse.bindRequest (r : WorkloadTokenResponse) (admitted : WorkloadTokenRequest) :
    Except BindFault Unit := do
  r.validate
  admitted.validate.mapError .request
  let granted ← r.scope.elim (.error .scopesRequired) .ok
  require (!(admitted.scopes.getD []).isEmpty) .scopesRequired
  require (sameSet (granted.splitOn ' ') (admitted.scopes.getD [])) .scopeMismatch

variable {c : Config} {r q : WorkloadTokenRequest} {d : WorkloadDefaults} {e : Evidence} {claims : WorkloadClaims}
  {response : WorkloadTokenResponse}

theorem validate_iff : response.validate = .ok () ↔
    20 ≤ response.accessToken.length ∧ response.tokenType = "Bearer".toList ∧ 60 ≤ response.expiresIn ∧
      response.expiresIn ≤ 86400 ∧ response.scope ≠ some [] := by
  simp only [WorkloadTokenResponse.validate, require_ok, Bool.and_eq_true, decide_eq_true_eq, beq_iff_eq, bne_iff_ne,
    and_assoc]

theorem bindRequest_iff : response.bindRequest q = .ok () ↔
    response.validate = .ok () ∧ q.validate = .ok () ∧ ∃ granted, response.scope = some granted ∧
      q.scopes.getD [] ≠ [] ∧ sameSet (granted.splitOn ' ') (q.scopes.getD []) = true := by
  simp only [WorkloadTokenResponse.bindRequest, bind_ok, mapError_ok, elim_ok, require_ok, exists_const,
    Bool.not_eq_true', List.isEmpty_eq_false_iff]
  constructor
  · rintro ⟨⟨⟩, valid, ⟨⟩, admitted, rest⟩
    exact ⟨valid, admitted, rest⟩
  · rintro ⟨valid, admitted, rest⟩
    exact ⟨(), valid, (), admitted, rest⟩

section Admission

def ScopesFrom (d : WorkloadDefaults) (r : WorkloadTokenRequest) (scopes : List Text) : Prop :=
  r.scopes = some scopes ∨
    (r.scopes = none ∧ WorkloadDefaults.scopes d r.workloadID r.audience = some scopes)

structure Admitted (c : Config) (d : WorkloadDefaults) (r : WorkloadTokenRequest) (e : Evidence)
    (q : WorkloadTokenRequest) (scopes : List Text) : Prop where
  workload : q.workloadID = r.workloadID
  audience : q.audience = r.audience
  listed : q.scopes = some scopes
  origin : ScopesFrom d r scopes
  nonempty : scopes ≠ []
  valid : q.validate = .ok ()
  granted : e.grantedScopes.Nodup ∧ e.grantedScopes.Perm scopes
  issued : ∃ claims, c.claims e = .ok claims

theorem scopes_from {scopes : List Text}
    (h : (r.scopes.orElse (fun _ => WorkloadDefaults.scopes d r.workloadID r.audience)).getD [] = scopes)
    (nonempty : scopes ≠ []) : ScopesFrom d r scopes := by
  unfold ScopesFrom
  cases own : r.scopes with
  | some listed =>
    rw [own] at h
    exact .inl (congrArg some h)
  | none =>
    rw [own] at h
    right
    cases default : WorkloadDefaults.scopes d r.workloadID r.audience with
    | none =>
      rw [default] at h
      exact absurd h.symm nonempty
    | some listed =>
      rw [default] at h
      exact ⟨rfl, congrArg some h⟩

theorem admitRequest_admitted (h : c.admitRequest r d e = .ok q) : ∃ scopes, Admitted c d r e q scopes := by
  simp only [Config.admitRequest, bind_ok, require_ok, exists_const, pure_ok] at h
  obtain ⟨⟨⟩, -, ⟨⟩, -, p, -, -, nonempty, ⟨⟩, valid, same, claims, issued, rfl⟩ := h
  simp only [Bool.not_eq_true', List.isEmpty_eq_false_iff] at nonempty
  simp only [Bool.and_eq_true] at same
  exact ⟨_, rfl, rfl, rfl, scopes_from rfl nonempty, nonempty, valid, sameSet_perm same.1.2, claims, issued⟩

theorem claims_split (h : c.claims e = .ok claims) : claims.scope.splitOn ' ' = e.grantedScopes := by
  simp only [Config.claims, bind_ok, require_ok, exists_const, pure_ok] at h
  obtain ⟨⟨⟩, -, ⟨⟩, grant, p, -, -, -, ⟨⟩, -, scopes, -, -, rfl⟩ := h
  have cleared := tmsGrantHold_ok.mp grant
  simp only [Bool.and_eq_true, Bool.not_eq_true', List.isEmpty_eq_false_iff] at scopes
  obtain ⟨⟨requested, -⟩, same⟩ := scopes
  have nonempty : e.grantedScopes ≠ [] := by
    intro nil
    have perm := (sameSet_perm same).2
    rw [nil] at perm
    exact requested perm.nil_eq.symm
  apply List.splitOn_intercalate ' ' _ nonempty
  intro scope hs blank
  have solid := (token_solid (cleared.scopes scope (List.mem_append_right _ hs)).1).2 ' ' blank
  exact absurd solid (by decide)

theorem Admitted.binds {scopes : List Text} (h : Admitted c d r e q scopes) (issued : c.claims e = .ok claims)
    (valid : WorkloadTokenResponse.validate { response with scope := none } = .ok ())
    (scope : response.scope = some claims.scope) : response.bindRequest q = .ok () := by
  have split := claims_split issued
  have listed : q.scopes.getD [] = scopes := by rw [h.listed, Option.getD_some]
  have some_scope : claims.scope ≠ [] := by
    intro nil
    rw [nil, List.splitOn_nil] at split
    have tokens := (claims_narrow issued).choose_spec.2.scope
    rw [nil, ← split] at tokens
    cases tokens
  rw [validate_iff] at valid
  obtain ⟨token, type, low, high, -⟩ := valid
  apply bindRequest_iff.mpr
  refine ⟨validate_iff.mpr ⟨token, type, low, high, ?_⟩, h.valid, claims.scope, scope, ?_, ?_⟩
  · rw [scope]
    exact fun empty => some_scope (Option.some.inj empty)
  · rw [listed]
    exact h.nonempty
  · rw [listed, split]
    exact sameSet_of_perm (h.granted.2.nodup_iff.mp h.granted.1) h.granted.2

end Admission

/-- Admission, issuance and binding agree. What is admitted is issued, and every
response with the issued scope is bound; what is bound lists the admitted scopes, each
once, in some order. -/
theorem admission_issuance_binding_agree (c : Config) (d : WorkloadDefaults) :
    (∀ r e q, c.admitRequest r d e = .ok q →
      ∃ claims scopes, c.claims e = .ok claims ∧ q.validate = .ok () ∧ q.workloadID = r.workloadID ∧
        q.audience = r.audience ∧ q.scopes = some scopes ∧ ScopesFrom d r scopes ∧ r.scopes ≠ some [] ∧
        ∀ response : WorkloadTokenResponse, WorkloadTokenResponse.validate { response with scope := none } =
          .ok () → response.scope = some claims.scope → response.bindRequest q = .ok ()) ∧
    (∀ (response : WorkloadTokenResponse) (q : WorkloadTokenRequest), response.bindRequest q = .ok () →
      ∃ granted scopes, response.scope = some granted ∧ q.scopes = some scopes ∧
        (granted.splitOn ' ').Perm scopes ∧ (granted.splitOn ' ').Nodup) := by
  constructor
  · intro r e q admitted
    obtain ⟨scopes, h⟩ := admitRequest_admitted admitted
    obtain ⟨claims, issued⟩ := h.issued
    refine ⟨claims, scopes, issued, h.valid, h.workload, h.audience, h.listed, h.origin, ?_, ?_⟩
    · intro empty
      rcases h.origin with own | ⟨omitted, -⟩
      · exact h.nonempty (Option.some.inj (own.symm.trans empty))
      · rw [omitted] at empty
        cases empty
    · intro response valid scope
      exact h.binds issued valid scope
  · intro response q bound
    obtain ⟨-, -, granted, scope, nonempty, same⟩ := bindRequest_iff.mp bound
    obtain ⟨nodup, perm⟩ := sameSet_perm same
    cases listed : q.scopes with
    | none =>
      rw [listed] at nonempty
      exact absurd rfl nonempty
    | some scopes =>
      rw [listed, Option.getD_some] at perm
      exact ⟨granted, scopes, scope, rfl, perm, nodup⟩

def validTrader : Config := { trader with sharedCommit := List.replicate 40 'a' }

def traderDefaults : WorkloadDefaults :=
  ⟨[("trade-app", ⟨[("baobab-trade", ["trade:read", "trade:native-commitment:submit"])], by decide⟩)],
    by decide⟩

def traderResponse : WorkloadTokenResponse :=
  ⟨List.replicate 20 't', "Bearer", 300, some "trade:native-commitment:submit trade:read"⟩

/-- A request without scopes is admitted with the configured ones, and the token is bound to it. -/
theorem trader_admitted : ∃ q, validTrader.admitRequest ⟨"trade-app", "baobab-trade", none⟩ traderDefaults
    traderGrant = .ok q ∧
    q.scopes = some ["trade:read".toList, "trade:native-commitment:submit".toList] ∧
      traderResponse.bindRequest q = .ok () := by
  have admitted : validTrader.admitRequest ⟨"trade-app", "baobab-trade", none⟩ traderDefaults traderGrant =
      .ok ⟨"trade-app", "baobab-trade", some ["trade:read", "trade:native-commitment:submit"]⟩ := by rfl
  obtain ⟨claims, -, issued, -, -, -, -, -, -, binds⟩ :=
    (admission_issuance_binding_agree validTrader traderDefaults).1 _ _ _ admitted
  have written : validTrader.claims traderGrant =
    .ok ⟨"workload", "trade-app", "trade:native-commitment:submit trade:read"⟩ := by rfl
  cases written.symm.trans issued
  exact ⟨_, admitted, rfl, binds traderResponse (by rfl) rfl⟩

end TokenProfile
