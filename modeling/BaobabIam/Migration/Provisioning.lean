import BaobabIam.Migration.Origins

/-! The bridge and the stages in the same terms: what they write comes from a row they
have read, and their provider calls leave the store as it is. -/
namespace Migration

open Interleaving

def provisions : Query → Bool
  | .provisionIdentity _ | .provisionWorkload _ | .provisionFederatedWorkload _ => true
  | _ => false

namespace ProvisionBridge

variable (b : ProvisionBridge) (r : Record)

/- What stands before a provider call: the class of the row, the ports and tables of the
bridge, and the checks on what is handed over. -/

def CallsHuman : Prop :=
  b.human = true ∧ b.humanTraits = true ∧ ∃ email, b.parseAddress email = some email ∧ 3 ≤ email.size ∧
    email.size ≤ 320

def CallsClientSecret : Prop :=
  let scopes := (b.clientSecretScopesByLogicalID.lookup r.source.subject).getD []
  b.workload = true ∧ scopes.isEmpty = false ∧ (clientSecretSpec r r.source.subject scopes).validate = .ok ()

def CallsFederated : Prop :=
  let scopes := (b.federatedTrust.scopesByLogicalID.lookup r.source.subject).getD []
  let audiences := (b.federatedTrust.audiencesByLogicalID.lookup r.source.subject).getD []
  b.federated = true ∧ Text.trimSpace b.federatedTrust.assertionIssuer ≠ [] ∧
  b.federatedTrust.assertionJWK.isEmpty = false ∧ scopes.isEmpty = false ∧ audiences.isEmpty = false ∧
  ∃ time, (b.federatedSpec r r.source.subject scopes audiences time).validate time = .ok ()

def CallsWorkload : Prop :=
  r.source.subject ≠ [] ∧
    if b.clientSecretAllowList.contains r.source.subject = true then b.CallsClientSecret r
    else (b.defaultWorkloadProfile = .other [] ∨ b.defaultWorkloadProfile = .federated) ∧ b.CallsFederated r

/-- Nothing but a failure of the surroundings keeps the row from its provider. -/
def Callable : Prop :=
  match r.identityClass with
  | .human | .privilegedHuman | .federatedHuman | .testOrNonProd => b.CallsHuman
  | .workload | .serviceIntegration => b.CallsWorkload r
  | _ => False

variable {b r}

theorem email_of_traits {traits : Table Wire.Json} (h : validateHumanTraits b.parseAddress traits = .ok ()) :
    ∃ email, b.parseAddress email = some email ∧ 3 ≤ email.size ∧ email.size ≤ 320 := by
  have address := firstFailure_ok.mp h _ (List.mem_append_left _ List.mem_cons_self)
  simp only [Bool.and_eq_true, decide_eq_true_eq] at address
  exact ⟨_, address.1.1, address.1.2, address.2⟩

/-- The times of a specification are checked against each other only. -/
theorem validate_at_start {logicalID : Text} {scopes audiences : List Text} {created checked : Time}
    (h : (b.federatedSpec r logicalID scopes audiences created).validate checked = .ok ()) :
    (b.federatedSpec r logicalID scopes audiences ⟨0, 0⟩).validate ⟨0, 0⟩ = .ok () := by
  have expires : 0 < (b.federatedSpec r logicalID scopes audiences ⟨0, 0⟩).trustExpiresAt.ns := by
    change 0 < 0 + (if b.federatedTrust.trustTTL ≤ 0 then 24 * 60 * Time.minute else b.federatedTrust.trustTTL)
    split
    · decide
    · omega
  unfold FederatedWorkloadTrustSpec.validate at h ⊢
  rw [firstFailure_ok, List.forall_mem_append, List.forall_mem_append] at h ⊢
  obtain ⟨named, last_⟩ := h
  refine ⟨named, ?_⟩
  rw [List.forall_mem_cons] at last_ ⊢
  refine ⟨?_, last_.2⟩
  simp only [Bool.and_eq_true, Bool.not_eq_true', Time.after_iff, ← Bool.not_eq_true, Time.isZero_iff]
  omega

end ProvisionBridge

section Targets

variable {S : Type} {sys : System ports S Failure} {v : Setting sys} (grows : ∀ T T', v.others T T' → T <+: T')
  {T : Trace sys} {L : Log ports}

def Provides (v : Setting sys) (T : Trace sys) : Prop :=
  ∀ T' L' q a, v.others T T' → provisions q = true → v.spec T' (leaves v T' (last T') L' (L' ++ [⟨q, a⟩]))

include grows

theorem wp_effect_then {β : Type} {q : Query} {f : q.Answer → Op S β} {Q : Post sys β} (provides : Provides v T)
    (call : provisions q = true) (ok : ∀ T' L' a, T <+: T' → wp v (f a) T' L' Q) :
    wp v (Prog.effect (I := ports) q >>= f) T L Q := by
  apply wp_then
  intro T' more a _
  exact ⟨provides T' L q a more call, ok _ _ a ((grows T T' more).trans (List.prefix_append _ _))⟩

variable (b : ProvisionBridge)

theorem wp_provisionHuman {r : Record} {Q : Post sys ProviderBinding} (provides : b.CallsHuman → Provides v T)
    (failed : Accepts T Q) (ok : Returns T Q) : wp v (b.provisionHuman r) T L Q := by
  unfold ProvisionBridge.provisionHuman
  apply wp_require_or failed
  intro port
  apply wp_require_or failed
  intro source
  apply wp_question_then
  intro answer _
  apply wp_ofExcept_or failed
  intro traits _
  apply wp_ofExcept_or failed
  intro _ checked
  apply wp_ofExcept_or failed
  intro _ _
  apply wp_effect_then grows (provides ⟨port, source, ProvisionBridge.email_of_traits checked⟩) rfl
  intro T' L' answer sub
  have failed' := failed.later sub
  apply wp_ofExcept_or failed'
  intro ident _
  cases ident with
  | none => exact failed'.now L' _
  | some ident => exact wp_require_or failed' (fun _ => ok T' L' _ sub)

theorem wp_provisionWorkloadClientSecret {r : Record} {Q : Post sys ProviderBinding}
    (provides : b.CallsClientSecret r → Provides v T) (failed : Accepts T Q) (ok : Returns T Q) :
    wp v (b.provisionWorkloadClientSecret r r.source.subject) T L Q := by
  unfold ProvisionBridge.provisionWorkloadClientSecret
  apply wp_require_or failed
  intro port
  apply wp_require_or failed
  intro scopes
  apply wp_ofExcept_or failed
  intro _ checked
  apply wp_effect_then grows (provides ⟨port, by simpa using scopes, checked⟩) rfl
  intro T' L' answer sub
  have failed' := failed.later sub
  apply wp_ofExcept_or failed'
  intro w _
  cases w with
  | none => exact failed'.now L' _
  | some w => exact wp_require_or failed' (fun _ => ok T' L' _ sub)

theorem wp_provisionFederatedWorkload {r : Record} {Q : Post sys ProviderBinding} (port : b.federated = true)
    (provides : b.CallsFederated r → Provides v T) (failed : Accepts T Q) (ok : Returns T Q) :
    wp v (b.provisionFederatedWorkload r r.source.subject) T L Q := by
  unfold ProvisionBridge.provisionFederatedWorkload
  apply wp_require_or failed
  intro issuer
  apply wp_require_or failed
  intro key
  apply wp_require_or failed
  intro scopes
  apply wp_require_or failed
  intro audiences
  apply wp_question_then
  intro created _
  apply wp_question_then
  intro time _
  apply wp_ofExcept_or failed
  intro _ checked
  apply wp_effect_then grows (provides ⟨port, of_decide_eq_true issuer, by simpa using key, by simpa using scopes,
    by simpa using audiences, _, ProvisionBridge.validate_at_start checked⟩) rfl
  intro T' L' answer sub
  have failed' := failed.later sub
  apply wp_ofExcept_or failed'
  intro trust _
  cases trust with
  | none => exact failed'.now L' _
  | some trust => exact wp_require_or failed' (fun _ => ok T' L' _ sub)

theorem wp_provisionTarget {r : Record} {Q : Post sys (ProviderBinding × WorkloadProfile)}
    (provides : b.Callable r → Provides v T) (failed : Accepts T Q) (ok : Returns T Q) :
    wp v (b.provisionTarget r) T L Q := by
  have human : (b.CallsHuman → Provides v T) → wp v (do
      let binding ← b.provisionHuman r
      return (binding, WorkloadProfile.other [])) T L Q := by
    intro provides
    apply wp_then
    exact wp_provisionHuman grows b provides failed.andThen (fun T' L' _ sub => ok T' L' _ sub)
  have workload : (b.CallsWorkload r → Provides v T) → wp v (b.provisionWorkload r) T L Q := by
    intro provides
    unfold ProvisionBridge.CallsWorkload at provides
    unfold ProvisionBridge.provisionWorkload
    apply wp_require_or failed
    intro named
    have named := of_decide_eq_true named
    split
    · rename_i listed
      rw [if_pos listed] at provides
      apply wp_then
      exact wp_provisionWorkloadClientSecret grows b (fun calls => provides ⟨named, calls⟩) failed.andThen
        (fun T' L' _ sub => ok T' L' _ sub)
    · rename_i listed
      rw [if_neg listed] at provides
      apply wp_require_or failed
      intro profile
      apply wp_require_or failed
      intro port
      have chosen : b.defaultWorkloadProfile = .other [] ∨ b.defaultWorkloadProfile = .federated := by
        have chosen := of_decide_eq_true profile
        split at chosen
        · rename_i unset
          exact .inl unset
        · exact .inr chosen
      apply wp_then
      exact wp_provisionFederatedWorkload grows b port (fun calls => provides ⟨named, chosen, calls⟩) failed.andThen
        (fun T' L' _ sub => ok T' L' _ sub)
  unfold ProvisionBridge.provisionTarget
  unfold ProvisionBridge.Callable at provides
  cases identityClass : r.identityClass with
  | human | privilegedHuman | federatedHuman | testOrNonProd =>
    rw [identityClass] at provides
    exact human provides
  | workload | serviceIntegration =>
    rw [identityClass] at provides
    exact workload provides
  | _ => exact failed.now L _

end Targets

section Bridge

variable {S : Type} {store : RecordStore S} (laws : Lawful store) {sys : System ports S Failure} {v : Setting sys}
  (grows : ∀ T T', v.others T T' → T <+: T')
  (idle : ∀ T L L', StoreLog L L' → v.spec T (leaves v T (last T) L L'))
  {T T' : Trace sys} {L : Log ports} {policy : Policy} {id : Text}

section Stages

include grows idle

theorem wp_transition_then {β : Type} {next : MigrationState} {f : Record → β} {Q : Post sys β}
    (may : MayMove laws v policy T id next) (failed : Accepts T Q) (ok : Returns T Q) :
    wp v (do
      let out ← applyTransition store policy id next
      return f out) T L Q := by
  apply wp_then
  exact wp_applyTransition_left laws grows idle may failed.andThen (fun T' L' r sub _ _ _ => ok T' L' (f r) sub)

theorem wp_toPending {r : Record} {outcome : String} {Q : Post sys StageResult}
    (may : MayMove laws v policy T id .credentialPending) (failed : Accepts T Q)
    (ok : Returns T Q) : wp v (CredentialStage.toPending store policy id r outcome) T L Q := by
  unfold CredentialStage.toPending
  split
  · exact ok T L _ (List.prefix_refl T)
  · exact wp_transition_then laws grows idle may failed ok

theorem wp_toReady {r : Record} {outcome : String} {Q : Post sys StageResult}
    (may : MayMove laws v policy T id .credentialReady) (failed : Accepts T Q)
    (ok : Returns T Q) : wp v (CredentialStage.toReady store policy id r outcome) T L Q := by
  unfold CredentialStage.toReady
  split
  · exact wp_transition_then laws grows idle may failed ok
  · exact ok T L _ (List.prefix_refl T)

theorem wp_credentialApply {Q : Post sys StageResult} (pending : MayMove laws v policy T id .credentialPending)
    (ready : MayMove laws v policy T id .credentialReady) (failed : Accepts T Q)
    (ok : Returns T Q) : wp v (CredentialStage.apply store policy id) T L Q := by
  unfold CredentialStage.apply
  apply wp_get_then laws grows idle failed
  intro T₁ L₁ r reads sub₁ failed₁
  have ok₁ := ok.later sub₁
  have toPending : ∀ outcome, wp v (CredentialStage.toPending store policy id r outcome) T₁ L₁ Q :=
    fun outcome => wp_toPending laws grows idle (pending.later sub₁) failed₁ ok₁
  apply wp_require_or failed₁
  intro _
  split
  · exact ok₁ T₁ L₁ _ (List.prefix_refl T₁)
  · split
    · split
      · exact wp_toReady laws grows idle (ready.later sub₁) failed₁ ok₁
      · exact toPending _
      · exact toPending _
      · exact toPending _
      · exact toPending _
      · exact toPending _
      · exact toPending _
      · exact failed₁.now L₁ _
    · exact failed₁.now L₁ _

theorem wp_credentialMarkReady {Q : Post sys StageResult} (ready : MayMove laws v policy T id .credentialReady)
    (failed : Accepts T Q) (ok : Returns T Q) :
    wp v (CredentialStage.markReady store policy id) T L Q := by
  unfold CredentialStage.markReady
  apply wp_get_then laws grows idle failed
  intro T₁ L₁ r reads sub₁ failed₁
  have ok₁ := ok.later sub₁
  split
  · exact ok₁ T₁ L₁ _ (List.prefix_refl T₁)
  · split
    · exact wp_transition_then laws grows idle (ready.later sub₁) failed₁ ok₁
    · split
      · split
        · exact wp_toReady laws grows idle (ready.later sub₁) failed₁ ok₁
        · exact failed₁.now L₁ _
      · exact failed₁.now L₁ _

theorem wp_verificationApply {Q : Post sys StageResult} (may : MayMove laws v policy T id .verificationPending)
    (failed : Accepts T Q) (ok : Returns T Q) :
    wp v (VerificationStage.apply store policy id) T L Q := by
  unfold VerificationStage.apply
  apply wp_get_then laws grows idle failed
  intro T₁ L₁ r reads sub₁ failed₁
  have ok₁ := ok.later sub₁
  split
  · exact ok₁ T₁ L₁ _ (List.prefix_refl T₁)
  · split
    · exact ok₁ T₁ L₁ _ (List.prefix_refl T₁)
    · split
      · exact wp_transition_then laws grows idle (may.later sub₁) failed₁ ok₁
      · exact failed₁.now L₁ _

theorem wp_verificationMarkVerified {Q : Post sys StageResult} (may : MayMove laws v policy T id .verified)
    (failed : Accepts T Q) (ok : Returns T Q) :
    wp v (VerificationStage.markVerified store policy id) T L Q := by
  unfold VerificationStage.markVerified
  apply wp_get_then laws grows idle failed
  intro T₁ L₁ r reads sub₁ failed₁
  have ok₁ := ok.later sub₁
  split
  · exact ok₁ T₁ L₁ _ (List.prefix_refl T₁)
  · split
    · exact wp_transition_then laws grows idle (may.later sub₁) failed₁ ok₁
    · exact failed₁.now L₁ _

end Stages

def AtState (T : Trace sys) (id : Text) (s : MigrationState) : Prop :=
  ∃ x, laws.row (last T) id = some x ∧ x.migrationState = s

structure MayProvision (v : Setting sys) (policy : Policy) (T : Trace sys) (id : Text) : Prop where
  moves : ∀ next ∈ [MigrationState.validated, .ready, .provisioning, .provisioned, .failedRetryable,
    .failedManualReview], MayMove laws v policy T id next
  binds : MayBind laws v T id
  codes : MayCode laws v T id

def ProvisionResult.Settled (res : ProvisionResult) : Prop :=
  ProvisionBridge.already res.record.migrationState = true ∧
    (res.alreadyProvisioned = false → res.record.migrationState = .provisioned)

/-- The call has read the row and moved it along the happy path towards `next`. -/
def Advances (v : Setting sys) (T T' : Trace sys) (id : Text) (next : MigrationState) : Prop :=
  ∃ T₁ r s, Reads laws v T T₁ id r ∧ T₁ <+: T' ∧ AtState laws T' id s ∧
    stateOrder s = max (stateOrder r.migrationState) (stateOrder next) ∧
    (stateOrder next ≤ stateOrder r.migrationState → T' = T₁)

/-- The call has found the row not yet provisioned, has moved it on to PROVISIONING and
has read it again. -/
def Advanced (v : Setting sys) (T T' : Trace sys) (id : Text) (r' : Record) : Prop :=
  ∃ T₁ r T₂ T₃ T₄, Reads laws v T T₁ id r ∧ ProvisionBridge.already r.migrationState = false ∧
    Advances laws v T₁ T₂ id .validated ∧ Advances laws v T₂ T₃ id .ready ∧
      Advances laws v T₃ T₄ id .provisioning ∧
    Reads laws v T₄ T' id r'

variable {laws}

include grows in
theorem Advances.sub {next : MigrationState} (h : Advances laws v T T' id next) : T <+: T' := by
  obtain ⟨T₁, r, s, reads, more, -⟩ := h
  exact (reads.sub grows).trans more

theorem JustRead.at_state {r : Record} {i : Nat} (h : JustRead laws T i id r) : AtState laws T id r.migrationState := by
  obtain ⟨x, found, equal⟩ := h.row
  exact ⟨x, found, Record.utc_state equal⟩

theorem JustLeft.at_state {r : Record} {i : Nat} (h : JustLeft laws T i r) (named : r.migrationID = id) :
    AtState laws T id r.migrationState := by
  obtain ⟨x, found, state, -⟩ := h.row
  rw [named] at found
  exact ⟨x, found, state⟩

theorem MayProvision.later (h : MayProvision laws v policy T id) (sub : T <+: T') :
    MayProvision laws v policy T' id where
  moves next hn := (h.moves next hn).later sub
  binds := h.binds.later sub
  codes := h.codes.later sub

theorem nextHappy_order {s next : MigrationState} (h : nextHappy s = some next) :
    stateOrder next = stateOrder s + 1 ∧
      next ∈ [MigrationState.validated, .ready, .provisioning, .provisioned] := by
  cases s <;> simp only [nextHappy, Option.some.injEq, reduceCtorEq] at h <;> subst h <;> simp [stateOrder]

variable (laws)

include grows idle

/-- The loop ends at the order it aims for, or at once when the row is beyond it. -/
theorem wp_advance {next : MigrationState} {Q : Post sys Unit} (may : MayProvision laws v policy T id)
    (failed : Accepts T Q) (passes : Nat) (state : MigrationState) (here : AtState laws T id state)
    (ok : ∀ T' L' s, T <+: T' → AtState laws T' id s → stateOrder s = max (stateOrder state) (stateOrder next) →
      Q T' L' (.ok ())) : wp v (ProvisionBridge.advance store policy id next passes state) T L Q := by
  induction passes generalizing T L state with
  | zero =>
    unfold ProvisionBridge.advance
    split
    · split
      · exact failed.now L _
      · exact failed.now L _
      · rename_i impossible _
        cases impossible
    · exact ok T L state (List.prefix_refl T) here (by omega)
  | succ passes ih =>
    unfold ProvisionBridge.advance
    split
    · rename_i below
      split
      · exact failed.now L _
      · exact failed.now L _
      · rename_i step impossible happy
        cases impossible
        obtain ⟨order, member⟩ := nextHappy_order happy
        apply wp_then
        apply wp_applyTransition_left laws grows idle (may.moves _ (by simp at member ⊢; tauto)) failed.andThen
        intro T₁ L₁ r sub₁ left named state₁
        apply ih (may.later sub₁) (failed.later sub₁) r.migrationState (left.at_state named)
        intro T' L' s sub at_ reached
        apply ok T' L' s (sub₁.trans sub) at_
        rw [state₁, order] at reached
        omega
    · exact ok T L state (List.prefix_refl T) here (by omega)

theorem wp_advanceTo {next : MigrationState} {Q : Post sys Unit} (may : MayProvision laws v policy T id)
    (failed : Accepts T Q) (ok : ∀ T' L', Advances laws v T T' id next → Q T' L' (.ok ())) :
    wp v (ProvisionBridge.advanceTo store policy id next) T L Q := by
  unfold ProvisionBridge.advanceTo
  apply wp_get_then laws grows idle failed
  intro T₁ L₁ r reads sub₁ failed₁
  have here := reads.just.at_state
  split
  · rename_i beyond
    apply ok T₁ L₁
    refine ⟨T₁, r, r.migrationState, reads, List.prefix_refl T₁, here, ?_, fun _ => rfl⟩
    simp only [Bool.or_eq_true, decide_eq_true_eq] at beyond
    rcases beyond with same | beyond
    · rw [same]
      omega
    · omega
  · rename_i below
    apply wp_advance laws grows idle (may.later sub₁) (failed.later sub₁) _ _ here
    refine fun T' L' s sub at_ order => ok T' L' ⟨T₁, r, s, reads, sub, at_, order, fun beyond => ?_⟩
    simp [beyond] at below

theorem wp_failTransition {code : Text} {r : Record} {next : MigrationState} {Q : Post sys Unit}
    (move : MayMove laws v policy T id next) (codes : MayCode laws v T id) (read : OwnRead laws T v.thread id r)
    (failed : Accepts T Q) (ok : ∀ T' L', T <+: T' → Q T' L' (.ok ())) :
    wp v (ProvisionBridge.failTransition store policy id code r next) T L Q := by
  unfold ProvisionBridge.failTransition
  apply wp_then
  apply (wp_attempt _).mpr
  apply wp_applyTransition_left laws grows idle move
  · intro T₁ L₁ e sub₁
    simp only [andThen_ok]
    apply wp_then
    apply (wp_attempt _).mpr
    apply wp_put_own laws grows idle
    · exact fun T' more => codes T' r code (sub₁.trans (grows _ _ more)) (read.mono (sub₁.trans (grows _ _ more)))
    · exact fun T' L' e' sub => failed T' L' _ (sub₁.trans sub)
    · exact fun T' L' n put => failed T' L' _ (sub₁.trans put.sub)
  · exact fun T₁ L₁ r' sub₁ _ _ _ => ok T₁ L₁ sub₁

theorem wp_provisionFail {code : Text} {Q : Post sys Unit} (may : MayProvision laws v policy T id)
    (failed : Accepts T Q) (ok : ∀ T' L', T <+: T' → Q T' L' (.ok ())) :
    wp v (ProvisionBridge.fail store policy id code) T L Q := by
  -- the handler ends by putting the code on the row as it is then
  have ends : ∀ T₁ L₁, T <+: T₁ → wp v (do
      let r ← store.get id
      let _ ← store.put { r with lastErrorCode := code }
      return ()) T₁ L₁ Q := by
    intro T₁ L₁ sub₁
    apply wp_then
    apply wp_get_own laws grows idle (failed.later sub₁).andThen
    intro T₂ L₂ r reads
    have sub₂ := sub₁.trans (reads.sub grows)
    apply wp_then
    apply wp_put_own laws grows idle
    · exact fun T' more => may.codes T' r code (sub₂.trans (grows _ _ more)) (reads.just.own.mono (grows _ _ more))
    · exact (failed.later sub₂).andThen
    · exact fun T' L' n put => ok T' L' (sub₂.trans put.sub)
  unfold ProvisionBridge.fail
  apply wp_get_then laws grows idle failed
  intro T₁ L₁ r reads sub₁ failed₁
  apply wp_when_then
  · intro _
    apply wp_failTransition laws grows idle _ (may.codes.later sub₁) reads.just.own (failed.later sub₁).andThen
    · exact fun T' L' sub => ends T' L' (sub₁.trans sub)
    · split
      · exact (may.moves _ (by simp)).later sub₁
      · exact (may.moves _ (by simp)).later sub₁
  · exact fun _ => ends T₁ L₁ sub₁

theorem wp_provisionRow (b : ProvisionBridge) {Q : Post sys ProvisionResult} (may : MayProvision laws v policy T id)
    (provides : ∀ T₁ r, Reads laws v T T₁ id r → b.Callable r → Provides v T₁) (failed : Accepts T Q)
    (ok : ∀ T' L' res, T <+: T' → JustLeft laws T' v.thread res.record → res.record.migrationID = id →
      res.Settled → Q T' L' (.ok res)) : wp v (b.provisionRow store policy id) T L Q := by
  have handled : ∀ T₁ L₁ code e, T <+: T₁ → wp v (do
      let _ ← (ProvisionBridge.fail store policy id code).attempt
      .fail e) T₁ L₁ Q := by
    intro T₁ L₁ code e sub₁
    apply wp_then
    apply (wp_attempt _).mpr
    apply wp_provisionFail laws grows idle (may.later sub₁)
    · exact fun T' L' e' sub => failed T' L' _ (sub₁.trans sub)
    · exact fun T' L' sub => failed T' L' _ (sub₁.trans sub)
  unfold ProvisionBridge.provisionRow
  apply wp_get_then laws grows idle failed
  intro T₁ L₁ r reads sub₁ failed₁
  apply wp_then
  apply (wp_attempt _).mpr
  apply wp_provisionTarget grows b (provides T₁ r reads)
  · exact fun T₂ L₂ e sub₂ => handled T₂ L₂ _ _ (sub₁.trans sub₂)
  · intro T₂ L₂ made sub₂
    have sub := sub₁.trans sub₂
    apply wp_then
    apply (wp_attempt _).mpr
    apply wp_setTargetBinding laws grows idle (may.binds.later sub)
    · exact fun T₃ L₃ e sub₃ => handled T₃ L₃ _ _ (sub.trans sub₃)
    · intro T₃ L₃ _ sub₃
      apply wp_then
      apply wp_applyTransition_left laws grows idle ((may.moves _ (by simp)).later (sub.trans sub₃))
      · exact (failed.later (sub.trans sub₃)).andThen
      · intro T' L' out sub' left named state
        exact ok T' L' _ ((sub.trans sub₃).trans sub') left named
          ⟨by simp [state, ProvisionBridge.already], fun _ => state⟩

theorem wp_provision (b : ProvisionBridge) {Q : Post sys ProvisionResult}
    (may : ∀ T₁ r, Reads laws v T T₁ id r → ProvisionBridge.already r.migrationState = false →
      MayProvision laws v policy T₁ id)
    (provides : ∀ T' r, Advanced laws v T T' id r → b.Callable r → Provides v T') (failed : Accepts T Q)
    (ok : ∀ T' L' res, T <+: T' → JustLeft laws T' v.thread res.record → res.record.migrationID = id →
      res.Settled → Q T' L' (.ok res)) : wp v (b.provision store policy id) T L Q := by
  unfold ProvisionBridge.provision
  apply wp_get_then laws grows idle failed
  intro T₁ L₁ r reads sub₁ failed₁
  apply wp_require_or failed₁
  intro _
  apply wp_require_or failed₁
  intro _
  split
  · rename_i found
    simp only [Bool.and_eq_true] at found
    exact ok T₁ L₁ _ sub₁ reads.just.left reads.just.own.id_eq ⟨found.2, by simp⟩
  · rename_i fresh
    have early : ProvisionBridge.already r.migrationState = false := by
      cases h : r.migrationState <;> simp [h, targetOptional, ProvisionBridge.already] at fresh ⊢
    have may₁ := may T₁ r reads early
    apply wp_then
    apply wp_advanceTo laws grows idle may₁ failed₁.andThen
    intro T₂ L₂ to₂
    have sub₂ := to₂.sub grows
    apply wp_then
    apply wp_advanceTo laws grows idle (may₁.later sub₂) (failed₁.later sub₂).andThen
    intro T₃ L₃ to₃
    have sub₃ := sub₂.trans (to₃.sub grows)
    apply wp_then
    apply wp_advanceTo laws grows idle (may₁.later sub₃) (failed₁.later sub₃).andThen
    intro T₄ L₄ to₄
    have sub₄ := sub₃.trans (to₄.sub grows)
    apply wp_provisionRow laws grows idle b (may₁.later sub₄)
    · exact fun T₅ r₅ reads₅ => provides T₅ r₅ ⟨T₁, r, T₂, T₃, T₄, reads,
        early, to₂, to₃, to₄, reads₅⟩
    · exact failed₁.later sub₄
    · exact fun T' L' res sub => ok T' L' res ((sub₁.trans sub₄).trans sub)

end Bridge

end Migration
