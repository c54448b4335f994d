import BaobabIam.Ory.Clients

/-! Federated clients and clients with a secret, over sequences of calls. A client with
a secret is never made federated. A federated client stays one as long as nobody
provisions its identifier as a plain workload: that update does not look at the
kind of the client it replaces. -/
namespace Ory.Clients

open Interleaving

section Kinds

def Federated (c : Client) : Prop := c.tokenEndpointAuthMethod = "none".toList ∧
    "client_credentials".toList ∉ c.grantTypes

def SecretBacked (c : Client) : Prop :=
  c.tokenEndpointAuthMethod = "client_secret_post".toList ∨ c.tokenEndpointAuthMethod = "private_key_jwt".toList

def Stored (kind : Client → Prop) (id : Text) (s : Store) : Prop := ∃ c, s.clients id = some c ∧ kind c

/-- A call that makes the client a plain workload, whatever it was. -/
def Downgrades (server : Server) (call : Call) (id : Text) : Prop :=
  ∃ spec, call = .provisionWorkload spec ∧ spec.validate = .ok () ∧ spec.requireNew = false ∧
    server.resource spec.logicalClientID = id

structure Kept (server : Server) (call : Call) (id : Text) (c c' : Client) : Prop where
  secret : SecretBacked c → SecretBacked c'
  federated : Federated c → ¬ Downgrades server call id → Federated c'
  rotated : Federated c → (∃ ref, call = .rotate ref) → c' = c

def Changes (server : Server) (call : Call) (s s' : Store) : Prop :=
  ∀ id c, s.clients id = some c → ∃ c', s'.clients id = some c' ∧ Kept server call id c c'

variable {server : Server} {call : Call} {s s' : Store} {id : Text}

theorem Kept.refl (c : Client) : Kept server call id c c := ⟨fun h => h, fun h _ => h, fun _ _ => rfl⟩

theorem changes_of_clients (same : s'.clients = s.clients) : Changes server call s s' := by
  intro id c found
  exact ⟨c, by rw [same]; exact found, .refl c⟩

theorem changes_set {c : Client} (kept : ∀ old, s.clients id = some old → Kept server call id old c) :
    Changes server call s (s.setClient id c) := by
  intro other old found
  by_cases here : other = id
  · subst here
    exact ⟨c, Function.update_self _ _ _, kept old found⟩
  · exact ⟨old, (Function.update_of_ne here _ _).trans found, .refl old⟩

theorem Changes.clients {s'' : Store} (h : Changes server call s s') (same : s''.clients = s'.clients) :
    Changes server call s s'' := by
  unfold Changes
  rw [same]
  exact h

theorem federated_not_secret {c : Client} (h : Federated c) : ¬ SecretBacked c := by
  intro secret
  have method := h.1
  rcases secret with secret | secret <;> rw [secret] at method <;> cases method

theorem authMethodText_secret {c : Client} {m : Migration.WorkloadAuth}
    (h : c.tokenEndpointAuthMethod = authMethodText m) : SecretBacked c := by
  unfold authMethodText at h
  split at h
  · exact .inr h
  · exact .inl h

end Kinds

section Requests

variable {server : Server} {allowed : Allowed ports} {s : Store}

variable {operation : String} {Q : Store → Except Refusal Unit → Prop} {body : Client}

theorem after_reading {α : Type} {f : Store → α} {Q : Store → Except Refusal α → Prop}
    (fails : Fails s Q) (done : Q s (.ok (f s))) : after allowed (reading operation f) s Q := by
  intro L
  apply Tx.wp_ask_then
  intro outcome _
  apply Tx.wp_require_else (fails _)
  intro _
  exact done

theorem after_writing {refusal : Refusal} {accepts : Store → Bool} {f : Store → Store} (fails : Fails s Q)
    (lost : accepts s = true → Fails (f s) Q)
    (done : accepts s = true → Q (f s) (.ok ())) : after allowed (writing operation refusal accepts f) s Q := by
  apply after_then
  intro L
  apply Tx.wp_ask_then
  intro outcome _
  apply Tx.wp_require_else (fails _)
  intro _
  apply Tx.wp_read_then
  apply Tx.wp_require_else (fails _)
  intro accepted
  apply Tx.wp_write_then
  change after allowed (Prog.require _ _) _ Q
  cases decide (outcome = .applied) with
  | true => exact done accepted
  | false => exact lost accepted _

theorem after_verify {spec : WorkloadProvisioningSpec} :
    after allowed (verifyWorkloadConfiguration server spec) s (fun s' _ => s' = s) := by
  have fails : Fails s (fun s' (_ : Except Refusal Unit) => s' = s) := fun _ => rfl
  unfold verifyWorkloadConfiguration
  split
  · rfl
  · apply after_then
    apply after_reading fails.followed
    apply after_ofExcept_then fails
    intro observed _
    apply after_require_then fails
    intro _
    apply after_require_then fails
    intro _
    apply after_require_then fails
    intro _
    unfold Prog.require
    split <;> rfl

theorem after_ensure {spec : FederatedWorkloadTrustSpec} :
    after allowed (ensureTrustedJWTIssuer spec) s (fun s' _ => s'.clients = s.clients) := by
  have fails : ∀ t : Store, t.clients = s.clients →
      Fails t (fun (s' : Store) (_ : Except Refusal Text) => s'.clients = s.clients) := fun _ same _ => same
  apply after_then
  apply after_reading (fails s rfl).followed
  apply followed_ok.mpr
  unfold ensureAmong
  split
  · rename_i item _
    cases matchTrust spec item <;> rfl
  · apply after_question_then
    intro id _
    apply after_then
    apply after_writing (fails s rfl).followed
    · intro _
      exact Fails.followed (fails _ rfl)
    · intro _
      refine after_require_then (fails (s.addIssuer _) rfl) ?_
      intro _
      rfl

theorem after_putClient (call : Call) {id : Text} {c : Client}
    (found : s.clients (server.resource id) = some c)
    (kept : ∀ secret, Kept server call (server.resource id) c { body with clientID := id, clientSecret := secret })
    (post : ∀ (s' : Store) r, Changes server call s s' →
      (r = .ok () → ∃ secret, s'.clients (server.resource id) =
        some { body with clientID := id, clientSecret := secret }) →
      Q s' r) : after allowed (putClient server id body) s Q := by
  have changed : Changes server call s
      (s.setClient (server.resource id) (server.replaced (s.clients (server.resource id)) id body)) := by
    apply changes_set
    intro old there
    rw [found] at there
    cases there
    exact kept _
  apply after_writing
  · exact fun e => post _ _ (changes_of_clients rfl) (by rintro ⟨⟩)
  · exact fun _ e => post _ _ changed (by rintro ⟨⟩)
  · exact fun _ => post _ _ changed (fun _ => ⟨_, Function.update_self _ _ _⟩)

theorem after_postClient (call : Call)
    (post : ∀ (s' : Store) r, Changes server call s s' →
      (r = .ok () → s'.clients body.clientID = some body) → Q s' r) :
    after allowed (postClient body) s Q := by
  have changed : s.clients body.clientID = none → Changes server call s (s.setClient body.clientID body) := by
    intro free
    apply changes_set
    intro old there
    rw [free] at there
    cases there
  apply after_writing
  · exact fun e => post _ _ (changes_of_clients rfl) (by rintro ⟨⟩)
  · exact fun free e => post _ _ (changed (Option.isNone_iff_eq_none.mp free)) (by rintro ⟨⟩)
  · exact fun free => post _ _ (changed (Option.isNone_iff_eq_none.mp free)) (fun _ => Function.update_self _ _ _)

theorem after_referenced {ref : Reference} {Q : Store → Except Refusal Client → Prop} (fails : Fails s Q)
    (found : ∀ c, s.clients (server.resource ref.clientID) = some c → Q s (.ok (server.shown c))) :
    after allowed (referenced server ref) s Q := by
  apply after_require_then fails
  intro _
  apply after_then
  apply after_reading fails.followed
  cases there : s.clients (server.resource ref.clientID) with
  | none => exact fails _
  | some c => exact found c there

end Requests

section Calls

variable {server : Server} {issuer : Text} {allowed : Allowed ports} {s : Store}

/-- A call changes clients only as its kind allows, and a success leaves the kind
that it is for. -/
structure Post (server : Server) (call : Call) (s s' : Store) (succeeded : Bool) : Prop where
  changes : Changes server call s s'
  secret : ∀ spec, call = .provisionWorkload spec → succeeded = true →
    Stored SecretBacked spec.logicalClientID s' ∨ Stored SecretBacked (server.resource spec.logicalClientID) s'
  federated : ∀ spec, call = .provisionFederatedWorkload spec → succeeded = true →
    Stored Federated spec.logicalClientID s' ∨ Stored Federated (server.resource spec.logicalClientID) s'

def ended {α : Type} : Except Refusal α → Bool
  | .ok _ => true
  | .error _ => false

theorem Post.failed {call : Call} {s' : Store} (changes : Changes server call s s') : Post server call s s' false :=
  ⟨changes, by rintro _ _ ⟨⟩, by rintro _ _ ⟨⟩⟩

theorem provisionWorkload_post (spec : WorkloadProvisioningSpec) :
    after allowed (provisionClient server issuer spec) s (fun s' r =>
      Post server (.provisionWorkload spec) s s' (ended r)) := by
  have fails : ∀ t, Changes server (.provisionWorkload spec) s t →
    Fails t (fun s' (r : Except Refusal ProviderWorkload) =>
      Post server (.provisionWorkload spec) s s' (ended r)) := fun t changed e => .failed changed
  have unchanged : Changes server (.provisionWorkload spec) s s := changes_of_clients rfl
  -- what follows the write of the document leaves the store alone
  have rest : ∀ (secret : Text) (t : Store), Changes server (.provisionWorkload spec) s t →
      (Stored SecretBacked spec.logicalClientID t ∨ Stored SecretBacked (server.resource spec.logicalClientID) t) →
      after allowed (do
        verifyWorkloadConfiguration server spec
        let now : Time ← Prog.question (I := ports) .now
        return provisioned issuer spec secret now) t
        (fun s' r => Post server (.provisionWorkload spec) s s' (ended r)) := by
    intro secret t changed stored
    apply after_then
    apply after_mono after_verify
    rintro _ r rfl
    cases r with
    | error e => exact fails _ changed e
    | ok _ =>
      apply after_question_then
      intro now _
      refine ⟨changed, ?_, by rintro _ ⟨⟩⟩
      rintro _ ⟨⟩ _
      exact stored
  apply after_ofExcept_then (fails s unchanged)
  intro _ valid
  apply after_require_then (fails s unchanged)
  intro _
  apply after_then
  apply after_reading (fails s unchanged).followed
  apply after_require_then (fails s unchanged)
  intro fresh
  cases there : s.clients (server.resource spec.logicalClientID) with
  | none =>
    apply after_then
    have created : ∀ secret, after allowed (do
        postClient (newWorkload spec secret)
        verifyWorkloadConfiguration server spec
        let now : Time ← Prog.question (I := ports) .now
        return provisioned issuer spec secret now) s
        (fun s' r => Post server (.provisionWorkload spec) s s' (ended r)) := by
      intro secret
      apply after_then
      apply after_postClient (.provisionWorkload spec)
      intro t r changed done
      cases r with
      | error e => exact fails t changed e
      | ok _ => exact rest secret t changed (.inl ⟨_, done rfl, authMethodText_secret rfl⟩)
    unfold newSecret
    split
    · exact created []
    · apply after_question_then
      intro secret _
      cases secret with
      | none => exact fails s unchanged _
      | some secret => exact created secret
  | some c =>
    rw [there] at fresh
    have again : spec.requireNew = false := by simpa using fresh
    apply after_then
    apply after_putClient (.provisionWorkload spec) there
    · intro secret
      refine ⟨fun _ => authMethodText_secret rfl, ?_, ?_⟩
      · intro _ plain
        exact absurd ⟨spec, rfl, mapError_eq_ok valid, again, rfl⟩ plain
      · rintro _ ⟨ref, ⟨⟩⟩
    · intro t r changed done
      cases r with
      | error e => exact fails t changed e
      | ok _ =>
        obtain ⟨secret, stored⟩ := done rfl
        exact rest [] t changed (.inr ⟨_, stored, authMethodText_secret rfl⟩)

theorem provisionFederated_post (spec : FederatedWorkloadTrustSpec) :
    after allowed (provisionFederatedWorkload server issuer spec) s
      (fun s' r => Post server (.provisionFederatedWorkload spec) s s' (ended r)) := by
  have fails : ∀ t, Changes server (.provisionFederatedWorkload spec) s t →
      Fails t (fun s' (r : Except Refusal FederatedWorkloadTrust) =>
        Post server (.provisionFederatedWorkload spec) s s' (ended r)) := fun t changed e => .failed changed
  have unchanged : Changes server (.provisionFederatedWorkload spec) s s := changes_of_clients rfl
  have fresh : ∀ c, c.tokenEndpointAuthMethod = "none".toList → c.grantTypes = [jwtBearerGrantType] →
      Federated c := by
    intro c method grants
    refine ⟨method, ?_⟩
    rw [grants]
    decide
  have rest : ∀ t, Changes server (.provisionFederatedWorkload spec) s t →
      (Stored Federated spec.logicalClientID t ∨ Stored Federated (server.resource spec.logicalClientID) t) →
      after allowed (do
        let trustID ← ensureTrustedJWTIssuer
          { spec with allowedScopes := Migration.normalizeAllowedScopes spec.allowedScopes }
        return ⟨spec.logicalClientID, spec.logicalClientID, trustID, issuer, status spec.lifecycleStatus,
          spec.assertionIssuer, spec.assertionSubject, Migration.normalizeAllowedScopes spec.allowedScopes,
          spec.intendedAudiences, spec.trustExpiresAt⟩) t
        (fun s' (r : Except Refusal FederatedWorkloadTrust) =>
          Post server (.provisionFederatedWorkload spec) s s' (ended r)) := by
    intro t changed stored
    apply after_then
    apply after_mono after_ensure
    intro t' r same
    cases r with
    | error e => exact fails t' (changed.clients same) e
    | ok trustID =>
      refine ⟨changed.clients same, by rintro _ ⟨⟩, ?_⟩
      rintro _ ⟨⟩ _
      unfold Stored
      rw [same]
      exact stored
  apply after_question_then
  intro now _
  apply after_ofExcept_then (fails s unchanged)
  intro _ _
  apply after_then
  apply after_then
  apply after_reading (fails s unchanged).followed.followed
  apply followed_ok.mpr
  cases there : s.clients (server.resource spec.logicalClientID) with
  | none =>
    apply after_postClient (.provisionFederatedWorkload spec)
    intro t r changed done
    cases r with
    | error e => exact fails t changed e
    | ok _ => exact rest t changed (.inl ⟨_, done rfl, fresh _ rfl rfl⟩)
  | some c =>
    apply after_require_then (fails s unchanged).followed
    intro open_
    apply after_require_then (fails s unchanged).followed
    intro _
    have plain : ¬ SecretBacked c := by
      simp only [Server.shown, Bool.or_eq_true, List.isEmpty_iff, beq_iff_eq] at open_
      rintro (secret | secret) <;> rw [secret] at open_ <;> revert open_ <;> decide
    apply after_putClient (.provisionFederatedWorkload spec) there
    · intro secret
      refine ⟨fun bound => absurd bound plain, fun _ _ => fresh _ rfl rfl, ?_⟩
      rintro _ ⟨ref, ⟨⟩⟩
    · intro t r changed done
      cases r with
      | error e => exact fails t changed e
      | ok _ =>
        obtain ⟨secret, stored⟩ := done rfl
        exact rest t changed (.inr ⟨_, stored, fresh _ rfl rfl⟩)

theorem disable_post (ref : Reference) : after allowed (disableClient server ref) s
    (fun s' r => Post server (.disable ref) s s' (ended r)) := by
  apply after_then
  apply after_referenced
  · exact fun e => .failed (changes_of_clients rfl)
  intro c there
  apply after_putClient (.disable ref) there
  · intro secret
    refine ⟨fun bound => bound, fun federated _ => ⟨federated.1, List.not_mem_nil⟩, ?_⟩
    rintro _ ⟨_, ⟨⟩⟩
  · intro t r changed _
    exact ⟨changed, by rintro _ ⟨⟩, by rintro _ ⟨⟩⟩

theorem rotate_post (ref : Reference) : after allowed (rotateClientCredentials server issuer ref) s
    (fun s' r => Post server (.rotate ref) s s' (ended r)) := by
  have fails : ∀ t, Changes server (.rotate ref) s t → Fails t (fun s' (r : Except Refusal ProviderWorkload) =>
      Post server (.rotate ref) s s' (ended r)) := fun t changed e => .failed changed
  have unchanged : Changes server (.rotate ref) s s := changes_of_clients rfl
  apply after_then
  apply after_referenced (fails s unchanged).followed
  intro c there
  apply after_require_then (fails s unchanged)
  intro plain
  have other : ¬ Federated c := by
    intro federated
    simp [isFederatedJWTBearerClient, Server.shown, federated.1] at plain
  apply after_then
  apply after_question_then
  intro secret _
  cases secret with
  | none => exact fails s unchanged _
  | some secret =>
    apply after_then
    apply after_putClient (.rotate ref) there
    · intro _
      exact ⟨fun bound => bound, fun federated => absurd federated other, fun federated => absurd federated other⟩
    · intro t r changed _
      cases r with
      | error e => exact fails t changed e
      | ok _ =>
        apply after_question_then
        intro now _
        exact ⟨changed, by rintro _ ⟨⟩, by rintro _ ⟨⟩⟩

theorem code_post (call : Call) : after allowed (call.code server issuer) s
    (fun s' r => Post server call s s' (ended r)) := by
  cases call with
  | provisionWorkload spec => exact provisionWorkload_post spec
  | provisionFederatedWorkload spec => exact provisionFederated_post spec
  | disable ref => exact disable_post ref
  | rotate ref => exact rotate_post ref

end Calls

section Obliging

def obliging : (q : Query) → q.Answer
  | .exchange => .applied
  | .random => some "secret"
  | .now => ⟨0, 0⟩
  | .trustID => "trust"

variable {server : Server} {issuer : Text} {s : Store} {id : Text} {call : Call}

theorem obliged_reading {α : Type} {operation : String} {f : Store → α} {Q : Store → Except Refusal α → Prop}
    (done : Q s (.ok (f s))) : after (fun q a => a = obliging q) (reading operation f) s Q := by
  intro L
  apply Tx.wp_ask_then
  rintro _ rfl
  exact done

theorem obliged_writing {operation : String} {refusal : Refusal} {accepts : Store → Bool} {f : Store → Store}
    {Q : Store → Except Refusal Unit → Prop} (accepted : accepts s = true) (done : Q (f s) (.ok ())) :
    after (fun q a => a = obliging q) (writing operation refusal accepts f) s Q := by
  apply after_then
  intro L
  apply Tx.wp_ask_then
  rintro _ rfl
  apply Tx.wp_require_pass rfl
  apply Tx.wp_read_then
  apply Tx.wp_require_pass accepted
  exact done

/-- The update of a plain workload does not look at the kind of the client. -/
theorem downgrade_succeeds (there : Stored Federated id s) (down : Downgrades server call id) :
    after (fun q a => a = obliging q) (call.code server issuer) s (fun s' _ => Stored SecretBacked id s') := by
  obtain ⟨spec, rfl, valid, again, rfl⟩ := down
  obtain ⟨c, found, -⟩ := there
  have method : (spec.authMethod != .federatedJWTBearer) = true := by
    have checked := Migration.firstFailure_ok.mp valid
    simp only [List.forall_mem_cons] at checked
    simpa using checked.2.2.1
  apply after_ofExcept_pass (by rw [valid]; rfl)
  apply after_require_pass method
  apply after_then
  apply obliged_reading
  apply after_require_pass (by rw [again]; rfl)
  rw [found]
  apply after_then
  apply obliged_writing (by rw [found]; rfl)
  apply after_then
  apply after_mono after_verify
  rintro _ r rfl
  have stored : Stored SecretBacked (server.resource spec.logicalClientID)
    (s.setClient (server.resource spec.logicalClientID)
      (server.replaced (s.clients (server.resource spec.logicalClientID)) spec.logicalClientID
        (updatedWorkload (server.shown c) spec))) :=
    ⟨_, Function.update_self _ _ _, authMethodText_secret rfl⟩
  cases r with
  | error e => exact stored
  | ok _ =>
    apply followed_ok.mpr
    apply after_question_then
    intro now _
    exact stored

end Obliging

section Sequences

variable {server : Server} {issuer : Text} {s s' : Store} {id : Text}

theorem Ends.changes {call : Call} {r : Except Refusal call.Result} (h : Ends (system server issuer) s call r s') :
    Post server call s s' (ended r) :=
  h.post (fun _ _ _ _ => rfl) (code_post call)

theorem Post.stored_federated {call : Call} {b : Bool} (h : Post server call s s' b) (there : Stored Federated id s)
    (spared : ¬ Downgrades server call id) : Stored Federated id s' := by
  obtain ⟨c, found, federated⟩ := there
  obtain ⟨c', found', kept⟩ := h.changes id c found
  exact ⟨c', found', kept.federated federated spared⟩

theorem Post.stored_secret {call : Call} {b : Bool} (h : Post server call s s' b) (there : Stored SecretBacked id s) :
    Stored SecretBacked id s' := by
  obtain ⟨c, found, bound⟩ := there
  obtain ⟨c', found', kept⟩ := h.changes id c found
  exact ⟨c', found', kept.secret bound⟩

theorem federated_not_stored_secret (federated : Stored Federated id s) : ¬ Stored SecretBacked id s := by
  rintro ⟨c, found, bound⟩
  obtain ⟨c', found', federated⟩ := federated
  rw [found] at found'
  cases found'
  exact federated_not_secret federated bound

/-- A federated client stays federated through a call exactly when the call is not a
plain provisioning of its identifier; so it does through every sequence without
one. A client with a secret is never made federated. -/
theorem federated_iff_not_downgraded (server : Server) (issuer : Text) :
    (∀ s id call, Stored Federated id s →
      ((∀ r s', Ends (system server issuer) s call r s' → Stored Federated id s') ↔
        ¬ Downgrades server call id)) ∧
    (∀ s calls s' id, Reaches (system server issuer) s calls s' → Stored Federated id s →
      (∀ c ∈ calls, ¬ Downgrades server c id) → Stored Federated id s') ∧
    (∀ s ref r s' id c, Ends (system server issuer) s (.rotate ref) r s' → s.clients id = some c → Federated c →
      s'.clients id = some c) ∧
    (∀ s calls s' id, Reaches (system server issuer) s calls s' → Stored SecretBacked id s →
      Stored SecretBacked id s' ∧ ¬ Stored Federated id s') ∧
    (∀ s spec r s', Ends (system server issuer) s (.provisionFederatedWorkload spec) (.ok r) s' →
      Stored Federated spec.logicalClientID s' ∨ Stored Federated (server.resource spec.logicalClientID) s') ∧
    (∀ s spec r s', Ends (system server issuer) s (.provisionWorkload spec) (.ok r) s' →
      Stored SecretBacked spec.logicalClientID s' ∨
        Stored SecretBacked (server.resource spec.logicalClientID) s') := by
  refine ⟨?_, ?_, ?_, ?_, ?_, ?_⟩
  · intro s id call there
    constructor
    · intro keeps down
      have happens : after (fun q a => a = obliging q) ((system server issuer).code call) s
          (fun s' _ => Stored SecretBacked id s') := downgrade_succeeds there down
      have obeys : ∀ q, (fun q a => a = obliging q : Allowed ports) q (obliging q) := fun _ => rfl
      obtain ⟨r, s', ended, bound⟩ := ends_of_after (fun _ _ _ _ => rfl) obliging obeys happens
      exact federated_not_stored_secret (keeps r s' ended) bound
    · intro spared r s' ended
      exact (Ends.changes ended).stored_federated there spared
  · intro s calls s' id reached there spared
    apply reached.keeps _ there
    intro c hc s r s' there ended
    exact (Ends.changes ended).stored_federated there (spared c hc)
  · intro s ref r s' id c ended found federated
    obtain ⟨c', found', kept⟩ := (Ends.changes ended).changes id c found
    rw [found', kept.rotated federated ⟨ref, rfl⟩]
  · intro s calls s' id reached there
    have bound : Stored SecretBacked id s' := by
      apply reached.keeps _ there
      intro c _ s r s' there ended
      exact (Ends.changes ended).stored_secret there
    exact ⟨bound, fun federated => federated_not_stored_secret federated bound⟩
  · intro s spec r s' ended
    exact (Ends.changes ended).federated spec rfl rfl
  · intro s spec r s' ended
    exact (Ends.changes ended).secret spec rfl rfl

def plainServer : Server := ⟨fun id => id, false, true, fun _ => none⟩

def federatedSpec : FederatedWorkloadTrustSpec where
  logicalClientID := "workload"
  displayName := []
  allowedScopes := ["billing:read"]
  intendedAudiences := ["billing"]
  lifecycleStatus := .unset
  assertionIssuer := "https://issuer.example"
  assertionSubject := "service"
  assertionJWK := [("kid", .str "key-1")]
  trustExpiresAt := ⟨10, 0⟩
  metadata := []

def workloadSpec : WorkloadProvisioningSpec :=
  { logicalClientID := "workload", displayName := [], allowedScopes := ["billing:read"], authMethod := .clientSecret,
    lifecycleStatus := .unset, metadata := [], audiences := ["billing"] }

/-- A federated client is provisioned again as a plain workload, and gets a secret. -/
theorem federated_client_downgraded : ∃ s₁ s₂ s₃ r₁ r₂ r₃ c c',
    Ends (system plainServer []) ⟨fun _ => none, []⟩ (.provisionFederatedWorkload federatedSpec) (.ok r₁) s₁ ∧
    Stored Federated "workload" s₁ ∧
    Ends (system plainServer []) s₁ (.provisionWorkload workloadSpec) (.ok r₂) s₂ ∧
    s₂.clients "workload" = some c ∧ c.grantTypes = ["client_credentials".toList] ∧
    c.tokenEndpointAuthMethod = "client_secret_post".toList ∧
    Ends (system plainServer []) s₂ (.rotate ⟨"workload", []⟩) (.ok r₃) s₃ ∧
    s₃.clients "workload" = some c' ∧ c'.clientSecret = "secret".toList := by
  refine ⟨_, _, _, _, _, _, _, _, ⟨fun _ q => obliging q, 8, _, rfl, rfl⟩, ⟨_, rfl, rfl, by decide⟩,
    ⟨fun _ q => obliging q, 8, _, rfl, rfl⟩, rfl, rfl, rfl, ⟨fun _ q => obliging q, 8, _, rfl, rfl⟩, rfl, rfl⟩

end Sequences

end Ory.Clients
