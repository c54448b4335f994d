import BaobabIam.Ory.Clients

/-! The scopes that end up at the authorization server. Normalising keeps the first
occurrence of every trimmed entry; the result is registered as one text, which the
server splits at white space. A stored scope text always comes from an accepted
specification, but an entry with white space inside is split into several scopes. -/
namespace Ory.Clients

open Interleaving
open Migration (normalizeAllowedScopes normalizeFrom)

section Normal

variable {seen scopes : List Text} {s : Text}

/-- An entry without white space at its ends; one retired name is translated. -/
def canonicalScope (s : Text) : Text :=
  if Text.trimSpace s = "context-resolve".toList then "context:resolve" else Text.trimSpace s

theorem canonicalScope_trimmed (s : Text) : Text.trimSpace (canonicalScope s) = canonicalScope s := by
  unfold canonicalScope
  split
  · decide
  · exact Text.trimSpace_trimSpace s

theorem canonicalScope_idem (s : Text) : canonicalScope (canonicalScope s) = canonicalScope s := by
  have current : canonicalScope s ≠ "context-resolve".toList := by
    unfold canonicalScope
    split
    · decide
    · assumption
  rw [canonicalScope, canonicalScope_trimmed, if_neg current]

theorem canonicalScope_nil_iff (s : Text) : canonicalScope s = [] ↔ Text.trimSpace s = [] := by
  unfold canonicalScope
  split
  · rename_i retired
    rw [retired]
    decide +kernel
  · exact Iff.rfl

theorem normalizeFrom_cons (seen : List Text) (s : Text) (scopes : List Text) :
    normalizeFrom seen (s :: scopes) =
      if canonicalScope s = [] ∨ canonicalScope s ∈ seen then normalizeFrom seen scopes
      else canonicalScope s :: normalizeFrom (canonicalScope s :: seen) scopes := by
  rw [normalizeFrom]
  simp only [Bool.or_eq_true, decide_eq_true_eq, List.contains_iff_mem, canonicalScope_nil_iff]
  rfl

theorem normalizeFrom_spec : (normalizeFrom seen scopes).Nodup ∧
    ∀ t ∈ normalizeFrom seen scopes, t ∉ seen ∧ t ≠ [] ∧ ∃ s ∈ scopes, t = canonicalScope s := by
  induction scopes generalizing seen with
  | nil => simp [normalizeFrom]
  | cons s scopes ih =>
    rw [normalizeFrom_cons]
    split
    · refine ⟨ih.1, ?_⟩
      intro t ht
      obtain ⟨new, nonempty, s', hs', same⟩ := ih.2 t ht
      exact ⟨new, nonempty, s', List.mem_cons_of_mem _ hs', same⟩
    · rename_i fresh
      rw [not_or] at fresh
      obtain ⟨nodup, rest⟩ := @ih (canonicalScope s :: seen)
      constructor
      · apply List.nodup_cons.mpr
        exact ⟨fun again => (rest _ again).1 List.mem_cons_self, nodup⟩
      · intro t ht
        rcases List.mem_cons.mp ht with rfl | later
        · exact ⟨fresh.2, fresh.1, s, List.mem_cons_self, rfl⟩
        · obtain ⟨new, nonempty, s', hs', same⟩ := rest t later
          exact ⟨fun old => new (List.mem_cons_of_mem _ old), nonempty, s', List.mem_cons_of_mem _ hs', same⟩

theorem normalizeFrom_fixed (nodup : scopes.Nodup)
    (canonical : ∀ t ∈ scopes, t ∉ seen ∧ t ≠ [] ∧ canonicalScope t = t) :
    normalizeFrom seen scopes = scopes := by
  induction scopes generalizing seen with
  | nil => rfl
  | cons t scopes ih =>
    obtain ⟨new, nonempty, same⟩ := canonical t List.mem_cons_self
    obtain ⟨first, rest⟩ := List.nodup_cons.mp nodup
    rw [normalizeFrom_cons, same, if_neg (not_or.mpr ⟨nonempty, new⟩), ih rest]
    intro u hu
    obtain ⟨newer, others⟩ := canonical u (List.mem_cons_of_mem _ hu)
    refine ⟨?_, others⟩
    intro old
    rcases List.mem_cons.mp old with rfl | old
    · exact first hu
    · exact newer old

def entries (scopes : List Text) : List Text := (scopes.map canonicalScope).filter (fun t => !t.isEmpty)

theorem normalizeFrom_firsts (seen scopes : List Text) :
    normalizeFrom seen scopes = ((entries scopes).filter (fun t => !seen.contains t)).eraseDups := by
  induction scopes generalizing seen with
  | nil => rfl
  | cons s scopes ih =>
    rw [normalizeFrom_cons]
    by_cases empty : canonicalScope s = []
    · rw [if_pos (.inl empty), ih]
      simp [entries, empty]
    · have head : entries (s :: scopes) = canonicalScope s :: entries scopes := by simp [entries, empty]
      rw [head]
      by_cases old : canonicalScope s ∈ seen
      · rw [if_pos (.inr old), ih]
        simp [old]
      · rw [if_neg (not_or.mpr ⟨empty, old⟩), ih,
          List.filter_cons_of_pos (by simpa using old), List.eraseDups_cons,
          List.filter_filter]
        congr 3
        funext t
        simp only [List.contains_cons, Bool.not_or]

structure Normal (scopes normal : List Text) : Prop where
  idempotent : normalizeAllowedScopes normal = normal
  nodup : normal.Nodup
  trimmed : ∀ t ∈ normal, t ≠ [] ∧ Text.trimSpace t = t
  firsts : normal = (entries scopes).eraseDups

theorem normalize_normal (scopes : List Text) : Normal scopes (normalizeAllowedScopes scopes) := by
  obtain ⟨nodup, rest⟩ := @normalizeFrom_spec [] scopes
  refine ⟨?_, nodup, ?_, ?_⟩
  · apply normalizeFrom_fixed nodup
    intro t ht
    obtain ⟨new, nonempty, s, -, rfl⟩ := rest t ht
    exact ⟨new, nonempty, canonicalScope_idem s⟩
  · intro t ht
    obtain ⟨-, nonempty, s, -, rfl⟩ := rest t ht
    exact ⟨nonempty, canonicalScope_trimmed s⟩
  · rw [normalizeAllowedScopes, normalizeFrom_firsts]
    simp

def Solid (scopes : List Text) : Prop := ∀ s ∈ scopes, ∀ c ∈ Text.trimSpace s, Text.isSpace c = false

theorem canonicalScope_solid_iff (s : Text) :
    (∀ c ∈ canonicalScope s, Text.isSpace c = false) ↔ ∀ c ∈ Text.trimSpace s, Text.isSpace c = false := by
  have solid : ∀ t : Text, t.all (fun c => !Text.isSpace c) = true → ∀ c ∈ t, Text.isSpace c = false := by
    simp
  unfold canonicalScope
  split
  · rename_i retired
    rw [retired]
    exact iff_of_true (solid _ rfl) (solid _ rfl)
  · exact Iff.rfl

/-- The registered text is split into the normalised list exactly when no entry has
white space inside. -/
theorem fields_joinScopes_iff (scopes : List Text) :
    Text.fields (joinScopes (normalizeAllowedScopes scopes)) = normalizeAllowedScopes scopes ↔ Solid scopes := by
  have normal := normalize_normal scopes
  rw [joinScopes, Text.fields_join_iff]
  constructor
  · intro words s hs c hc
    have nonempty : canonicalScope s ≠ [] := by
      rw [ne_eq, canonicalScope_nil_iff]
      intro nil
      rw [nil] at hc
      cases hc
    have member : canonicalScope s ∈ normalizeAllowedScopes scopes := by
      rw [normal.firsts, List.mem_eraseDups, entries, List.mem_filter]
      exact ⟨List.mem_map_of_mem hs, by simpa using nonempty⟩
    exact (canonicalScope_solid_iff s).mp (words _ member).2 c hc
  · intro solid t ht
    obtain ⟨-, nonempty, s, hs, rfl⟩ := (@normalizeFrom_spec [] scopes).2 t ht
    exact ⟨nonempty, (canonicalScope_solid_iff s).mpr (solid s hs)⟩

end Normal

section Steps

/-- The call provisions a client with these scopes, by a specification that validation
accepts. -/
inductive Registers : Call → List Text → Prop
  | workload (spec : WorkloadProvisioningSpec) (valid : spec.validate = .ok ()) :
      Registers (.provisionWorkload spec) spec.allowedScopes
  | federated (spec : FederatedWorkloadTrustSpec) (now : Time) (valid : spec.validate now = .ok ()) :
      Registers (.provisionFederatedWorkload spec) spec.allowedScopes

variable {server : Server} {issuer : Text} {i : Nat} {c : Call} {T : Trace (system server issuer)}
  {L : Log ports}

/-- A document comes from a specification, or keeps the scope of one that was read. -/
def Step (T : Trace (system server issuer)) (e : Entry (system server issuer)) : Prop :=
  ∀ id doc, e.after.clients id = some doc → e.before.clients id = some doc ∨
    (∃ scopes, Registers e.call scopes ∧ doc.scope = joinScopes (normalizeAllowedScopes scopes)) ∨
    ∃ a ∈ T, ∃ id' old, a.before.clients id' = some old ∧ doc.scope = old.scope

def post (c : Call) (_ : Nat) : Interleaving.Post (system server issuer) ((system server issuer).Result c) :=
  fun _ _ _ => True

variable {e : Entry (system server issuer)} {id : Text} {operation : String}
    {Q : Interleaving.Post (system server issuer) Unit} {body : Client}

theorem step_idle (same : e.after.clients = e.before.clients) : Step T e := by
  intro id doc found
  rw [same] at found
  exact .inl found

theorem step_set {doc : Client} {s : Store}
    (after : e.after = s.setClient id doc) (before : e.before = s)
    (origin : (∃ scopes, Registers e.call scopes ∧ doc.scope = joinScopes (normalizeAllowedScopes scopes)) ∨
      ∃ a ∈ T, ∃ id' old, a.before.clients id' = some old ∧ doc.scope = old.scope) : Step T e := by
  intro other d found
  rw [after] at found
  by_cases here : other = id
  · rw [here] at found
    change Function.update s.clients id (some doc) id = some d at found
    rw [Function.update_self] at found
    cases found
    exact .inr origin
  · rw [before]
    exact .inl ((Function.update_of_ne here _ _).symm.trans found)

theorem wp_reading {α : Type} {f : Store → α} {Q : Interleaving.Post (system server issuer) α} (quiet : Quiet Q)
    (h : ∀ T' e L', Others i T T' → e.before = last T' → Q (T' ++ [e]) L' (.ok (f (last T')))) :
    wp (safe Step i c) (reading operation f) T L Q := by
  intro T' others
  apply Tx.wp_ask_then
  intro outcome _
  apply Tx.wp_require_else
  · exact ⟨step_idle rfl, quiet _ _ _⟩
  · intro _
    exact ⟨step_idle rfl, h T' _ _ others rfl⟩

theorem wp_writing {refusal : Refusal} {accepts : Store → Bool} {f : Store → Store} (quiet : Quiet Q)
    (writes : ∀ T' e, Others i T T' → e.call = c → e.before = last T' → e.after = f (last T') → Step T' e)
    (h : ∀ T' L', T <+: T' → Q T' L' (.ok ())) : wp (safe Step i c)
    (writing operation refusal accepts f) T L Q := by
  apply wp_then
  intro T' others
  apply Tx.wp_ask_then
  intro outcome _
  apply Tx.wp_require_else
  · exact ⟨step_idle rfl, quiet _ _ _⟩
  intro _
  apply Tx.wp_read_then
  apply Tx.wp_require_else
  · exact ⟨step_idle rfl, quiet _ _ _⟩
  intro _
  apply Tx.wp_write_then
  refine ⟨writes T' _ others rfl rfl rfl, ?_⟩
  apply (wp_require _ _).mpr
  obtain ⟨D, rfl, -⟩ := others
  exact ⟨fun _ => h _ _ ⟨_, (List.append_assoc _ _ _).symm⟩, fun _ => quiet _ _ _⟩

theorem wp_putClient (quiet : Quiet Q)
    (origin : (∃ scopes, Registers c scopes ∧ body.scope = joinScopes (normalizeAllowedScopes scopes)) ∨
      ∃ a ∈ T, ∃ id' old, a.before.clients id' = some old ∧ body.scope = old.scope)
    (h : ∀ T' L', T <+: T' → Q T' L' (.ok ())) : wp (safe Step i c) (putClient server id body) T L Q := by
  apply wp_writing quiet _ h
  intro T' e others call before after
  apply step_set after before
  rcases origin with spec | ⟨a, ha, kept⟩
  · rw [call]
    exact .inl spec
  · exact .inr ⟨a, others.mem ha, kept⟩

theorem wp_postClient (quiet : Quiet Q)
    (origin : ∃ scopes, Registers c scopes ∧ body.scope = joinScopes (normalizeAllowedScopes scopes))
    (h : ∀ T' L', T <+: T' → Q T' L' (.ok ())) : wp (safe Step i c) (postClient body) T L Q := by
  apply wp_writing quiet _ h
  intro T' e _ call before after
  apply step_set after before
  rw [call]
  exact .inl origin

theorem wp_verify {spec : WorkloadProvisioningSpec} (quiet : Quiet Q)
    (h : ∀ T' L', Q T' L' (.ok ())) : wp (safe Step i c) (verifyWorkloadConfiguration server spec) T L Q := by
  unfold verifyWorkloadConfiguration
  split
  · exact h T L
  · apply wp_then
    apply wp_reading quiet.andThen
    intro T' e L' _ _
    apply wp_ofExcept_then quiet
    intro observed _
    apply wp_require_then quiet
    intro _
    apply wp_require_then quiet
    intro _
    apply wp_require_then quiet
    intro _
    exact (wp_require _ _).mpr ⟨fun _ => h _ _, fun _ => quiet _ _ _⟩

theorem wp_generateClientSecret {Q : Interleaving.Post (system server issuer) Text} (quiet : Quiet Q)
    (h : ∀ secret L', Q T L' (.ok secret)) : wp (safe Step i c) generateClientSecret T L Q := by
  apply wp_question_then
  intro secret _
  apply (wp_ofExcept _).mpr
  cases secret with
  | none => exact quiet _ _ _
  | some secret => exact h secret _

theorem wp_referenced {ref : Reference} {Q : Interleaving.Post (system server issuer) Client} (quiet : Quiet Q)
    (h : ∀ T' L' existing, (∃ a ∈ T', ∃ id old, a.before.clients id = some old ∧
      existing.scope = old.scope) → Q T' L' (.ok existing)) : wp (safe Step i c) (referenced server ref) T L Q := by
  apply wp_require_then quiet
  intro _
  apply wp_then
  apply wp_reading quiet.andThen
  intro T' e L' _ before
  apply (wp_ofExcept _).mpr
  cases found : (last T').clients (server.resource ref.clientID) with
  | none => exact quiet _ _ _
  | some old =>
    apply h
    exact ⟨e, by simp, server.resource ref.clientID, old, by rw [before]; exact found, rfl⟩

theorem provision_steps (spec : WorkloadProvisioningSpec) : wp (safe Step i (.provisionWorkload spec))
    (provisionClient server issuer spec) T L (@post server issuer (.provisionWorkload spec) i) := by
  have quiet : Quiet (@post server issuer (.provisionWorkload spec) i) := fun _ _ _ => trivial
  have rest : ∀ (secret : Text) T' L', wp (safe Step i (.provisionWorkload spec)) (do
      verifyWorkloadConfiguration server spec
      let now : Time ← Prog.question (I := ports) .now
      return provisioned issuer spec secret now) T' L' (@post server issuer (.provisionWorkload spec) i) := by
    intro secret T' L'
    apply wp_then
    apply wp_verify quiet.andThen
    intro T'' L'' now _
    trivial
  apply wp_ofExcept_then quiet
  intro _ valid
  have registers : Registers (.provisionWorkload spec) spec.allowedScopes := .workload spec (mapError_eq_ok valid)
  apply wp_require_then quiet
  intro _
  apply wp_then
  apply wp_reading quiet.andThen
  intro T₁ e L₁ _ _
  apply wp_require_then quiet
  intro _
  cases (last T₁).clients (server.resource spec.logicalClientID) with
  | none =>
    apply wp_then
    have created : ∀ secret T' L', wp (safe Step i (.provisionWorkload spec)) (do
        postClient (newWorkload spec secret)
        verifyWorkloadConfiguration server spec
        let now : Time ← Prog.question (I := ports) .now
        return provisioned issuer spec secret now) T' L' (@post server issuer (.provisionWorkload spec) i) := by
      intro secret T' L'
      apply wp_then
      apply wp_postClient quiet.andThen ⟨_, registers, rfl⟩
      intro T'' L'' _
      exact rest secret T'' L''
    unfold newSecret
    split
    · exact created [] _ _
    · apply wp_generateClientSecret quiet.andThen
      intro secret L'
      exact created secret _ L'
  | some old =>
    apply wp_then
    apply wp_putClient quiet.andThen (.inl ⟨_, registers, rfl⟩)
    intro T'' L'' _
    exact rest [] T'' L''

theorem federate_steps (spec : FederatedWorkloadTrustSpec) : wp (safe Step i (.provisionFederatedWorkload spec))
    (provisionFederatedWorkload server issuer spec) T L (@post server issuer (.provisionFederatedWorkload spec) i) := by
  have quiet : Quiet (@post server issuer (.provisionFederatedWorkload spec) i) := fun _ _ _ => trivial
  have trusted : ∀ spec' T' L', wp (safe Step i (.provisionFederatedWorkload spec)) (do
      let trustID ← ensureTrustedJWTIssuer spec'
      return (⟨spec.logicalClientID, spec.logicalClientID, trustID, issuer, status spec.lifecycleStatus,
        spec.assertionIssuer, spec.assertionSubject, normalizeAllowedScopes spec.allowedScopes, spec.intendedAudiences,
        spec.trustExpiresAt⟩ : FederatedWorkloadTrust)) T' L'
          (@post server issuer (.provisionFederatedWorkload spec) i) := by
    intro spec' T' L'
    apply wp_then
    apply wp_then
    apply wp_reading (Quiet.andThen quiet.andThen)
    intro T₁ e L₁ _ _
    change wp _ (ensureAmong spec' _) _ _ _
    unfold ensureAmong
    split
    · exact (wp_ofExcept _).mpr (by cases matchTrust spec' _ <;> trivial)
    · apply wp_question_then
      intro id _
      apply wp_then
      apply wp_writing (Quiet.andThen quiet.andThen)
      · intro T' e _ _ before after
        apply step_idle
        rw [after, before]
        rfl
      · intro T₂ L₂ _
        apply wp_require_then quiet.andThen
        intro _
        trivial
  apply wp_question_then
  intro now _
  apply wp_ofExcept_then quiet
  intro _ valid
  have registers : Registers (.provisionFederatedWorkload spec) spec.allowedScopes :=
    .federated spec now (mapError_eq_ok valid)
  apply wp_then
  apply wp_then
  apply wp_reading (Quiet.andThen quiet.andThen)
  intro T₁ e L₁ _ _
  cases (last T₁).clients (server.resource spec.logicalClientID) with
  | none =>
    apply wp_postClient quiet.andThen ⟨_, registers, rfl⟩
    intro T'' L'' _
    exact trusted _ T'' L''
  | some old =>
    apply wp_require_then quiet.andThen
    intro _
    apply wp_require_then quiet.andThen
    intro _
    apply wp_putClient quiet.andThen (.inl ⟨_, registers, rfl⟩)
    intro T'' L'' _
    exact trusted _ T'' L''

theorem disable_steps (ref : Reference) : wp (safe Step i (.disable ref)) (disableClient server ref) T L
    (@post server issuer (.disable ref) i) := by
  have quiet : Quiet (@post server issuer (.disable ref) i) := fun _ _ _ => trivial
  apply wp_then
  apply wp_referenced quiet.andThen
  intro T' L' existing read
  refine wp_putClient quiet (.inr ?_) ?_
  · exact read
  · intro T'' L'' _
    exact True.intro

theorem rotate_steps (ref : Reference) : wp (safe Step i (.rotate ref)) (rotateClientCredentials server issuer ref) T L
    (@post server issuer (.rotate ref) i) := by
  have quiet : Quiet (@post server issuer (.rotate ref) i) := fun _ _ _ => trivial
  apply wp_then
  apply wp_referenced quiet.andThen
  intro T' L' existing read
  apply wp_require_then quiet
  intro _
  refine wp_then (wp_generateClientSecret quiet.andThen ?_)
  intro secret L''
  refine wp_then (wp_putClient quiet.andThen (.inr ?_) ?_)
  · exact read
  · intro T'' L'' _ now _
    exact True.intro

theorem code_steps (i : Nat) (c : Call) (T : Trace (system server issuer)) :
    wp (safe Step i c) ((system server issuer).code c) T [] (post c i) := by
  cases c with
  | provisionWorkload spec => exact provision_steps spec
  | provisionFederatedWorkload spec => exact federate_steps spec
  | disable ref => exact disable_steps ref
  | rotate ref => exact rotate_steps ref

end Steps

section Registered

variable {server : Server} {issuer : Text} {T : Trace (system server issuer)}

def Specified (T : Trace (system server issuer)) (scope : Text) : Prop :=
  ∃ a ∈ T, ∃ scopes, Registers a.call scopes ∧ scope = joinScopes (normalizeAllowedScopes scopes)

theorem Specified.mono {T' : Trace (system server issuer)} {scope : Text} (h : Specified T scope)
    (sub : T ⊆ T') : Specified T' scope := by
  obtain ⟨a, ha, rest⟩ := h
  exact ⟨a, sub ha, rest⟩

theorem all_specified (valid : Valid Step T) :
    (∀ id doc, (last T).clients id = some doc → Specified T doc.scope) ∧
    ∀ a ∈ T, ∀ id doc, a.before.clients id = some doc → Specified T doc.scope := by
  induction valid with
  | nil =>
    constructor
    · rintro id doc ⟨⟩
    · simp
  | @snoc T e valid from_last meets ih =>
    obtain ⟨now, earlier⟩ := ih
    have grown : T ⊆ T ++ [e] := List.subset_append_left T [e]
    have before : ∀ id doc, e.before.clients id = some doc → Specified (T ++ [e]) doc.scope := by
      intro id doc found
      rw [from_last] at found
      exact (now id doc found).mono grown
    constructor
    · intro id doc found
      rw [last_append] at found
      rcases meets id doc found with same | ⟨scopes, registers, scope⟩ | ⟨a, ha, id', old, there, scope⟩
      · exact before id doc same
      · exact ⟨e, by simp, scopes, registers, scope⟩
      · rw [scope]
        exact (earlier a ha id' old there).mono grown
    · intro a ha id doc found
      rcases List.mem_append.mp ha with ha | ha
      · exact (earlier a ha id doc found).mono grown
      · rw [List.mem_singleton.mp ha] at found
        exact before id doc found

/-- Normalising yields the first occurrences of the trimmed entries. In every run, what
a stored client has as its scope comes from an accepted specification, and the server
reads exactly the normalised list in it if and only if no entry of the specification
has white space inside. -/
theorem scopes_registered_exactly_iff (server : Server) (issuer : Text)
    (schedule : List (Action (system server issuer))) :
    (∀ scopes, Normal scopes (normalizeAllowedScopes scopes)) ∧
    (∀ scopes, Text.fields (joinScopes (normalizeAllowedScopes scopes)) = normalizeAllowedScopes scopes ↔
      Solid scopes) ∧
    ∀ id doc, (exec (system server issuer) schedule).store.clients id = some doc →
      ∃ a ∈ (exec (system server issuer) schedule).trace, ∃ scopes, Registers a.call scopes ∧
        doc.scope = joinScopes (normalizeAllowedScopes scopes) ∧
        (Text.fields doc.scope = normalizeAllowedScopes scopes ↔ Solid scopes) := by
  refine ⟨normalize_normal, fields_joinScopes_iff, ?_⟩
  intro id doc found
  have sound : Sound Step post (exec _ schedule) :=
    exec_sound (fun i c T _ => code_steps i c T) schedule
  rw [sound.store] at found
  obtain ⟨a, ha, scopes, registers, scope⟩ := (all_specified sound.valid).1 id doc found
  refine ⟨a, ha, scopes, registers, scope, ?_⟩
  rw [scope]
  exact fields_joinScopes_iff scopes

end Registered

section Sample

def sampleServer : Server := ⟨id, false, true, fun _ => none⟩

def sampleSpec : WorkloadProvisioningSpec :=
  { logicalClientID := "orders", displayName := [], allowedScopes := ["orders:read admin"],
    authMethod := .clientSecret, lifecycleStatus := .provisioned, metadata := [], audiences := [] }

def sampleOracle : Oracle ports := fun _ q =>
  match q with
  | .exchange => .applied
  | .random => some "secret".toList
  | .now => ⟨0, 0⟩
  | .trustID => []

def sampleRun : List (Action (system sampleServer [])) :=
  .begin (.provisionWorkload sampleSpec) :: List.replicate 4 (.step 0 sampleOracle)

/-- An accepted specification of one scope registers two others. -/
theorem blank_registers_two : sampleSpec.validate = .ok () ∧
    normalizeAllowedScopes sampleSpec.allowedScopes = ["orders:read admin".toList] ∧
    ∃ doc, (exec (system sampleServer []) sampleRun).store.clients "orders".toList = some doc ∧
      Text.fields doc.scope = ["orders:read".toList, "admin".toList] := by
  refine ⟨by decide, by decide, ?_⟩
  exact ⟨_, rfl, by decide⟩

end Sample

end Ory.Clients
