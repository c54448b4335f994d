import BaobabIam.Federation.OidcSteps

/-! The OIDC event ledger over whole runs. A request is begun under a drawn id, burnt
by one callback, and leaves at most one event, which is returned at most once. A
fence keeps its raw token out for as long as the token could be accepted; when it
is pruned, the durable clock has passed the token's end. -/
namespace Federation.OIDCEvents

open Wire Interleaving

variable {cfg : Settings} {T : Trace (system cfg)} {e : Entry (system cfg)} {id raw : Text}

def Begins (id : Text) (e : Entry (system cfg)) : Prop := ¬ Open id e.before ∧ Open id e.after

section Records

variable {s s' : Store}

theorem Open.same (h : Open id s') (same : s'.requests.get id = s.requests.get id) : Open id s := by
  unfold Open Requested at h ⊢
  rwa [same] at h

theorem Unused.same (h : Unused id s') (same : s'.events.get id = s.events.get id) : Unused id s := by
  unfold Unused Recorded at h ⊢
  rwa [same] at h

theorem Open.kept (h : Open id s') (kept : ∀ v, s'.requests.get id = some v → s.requests.get id = some v) :
    Open id s := by
  obtain ⟨q, found, live⟩ := h
  obtain ⟨v, there, decoded⟩ := Option.bind_eq_some_iff.mp found
  exact ⟨q, Option.bind_eq_some_iff.mpr ⟨v, kept v there, decoded⟩, live⟩

theorem Unused.kept (h : Unused id s') (kept : ∀ v, s'.events.get id = some v → s.events.get id = some v) :
    Unused id s := by
  obtain ⟨q, found, live⟩ := h
  obtain ⟨v, there, decoded⟩ := Option.bind_eq_some_iff.mp found
  exact ⟨q, Option.bind_eq_some_iff.mpr ⟨v, kept v there, decoded⟩, live⟩

end Records

section Inversions

theorem Looks.no_transaction (h : Looks id e) : ¬ AsksStorage e.start e.finish := by
  rintro ⟨a, D, grown⟩
  obtain ⟨_, _, _, _, answer, -, finish⟩ := h
  rw [finish, List.append_assoc] at grown
  have tips := List.append_cancel_left grown
  cases tips

/-- The keys are asked for by a call that has burnt the request, and asked once. -/
theorem Step.lookup (h : Step T e) (looks : Looks id e) :
    (∃ a ∈ T, a.thread = e.thread ∧ Burns id a) ∧ ∀ a ∈ T, a.thread = e.thread → ¬ Looks id a := by
  rcases h with ⟨asks, -⟩ | lookup
  · exact absurd asks looks.no_transaction
  · refine ⟨lookup.burnt id looks, ?_⟩
    intro a ha mine other
    exact other.no_transaction (lookup.first a ha mine)

/-- A request appears under an id that its call has drawn, in the first transaction
after the draw. -/
theorem Step.begins (h : Step T e) (begins : Begins id e) :
    id ∈ drawnIDs e.start ∧ ∀ a ∈ T, a.thread = e.thread → drawnIDs a.start = [] := by
  obtain ⟨closed, opened⟩ := begins
  rcases h with ⟨-, change⟩ | lookup
  · cases change with
    | idle same => exact absurd (same ▸ opened) closed
    | pruned r ticks swept => exact absurd (opened.kept (swept.kept .requests id)) closed
    | begun q r ticks new drawn first after =>
      by_cases same : id = q.id
      · exact ⟨same ▸ drawn, first⟩
      · refine absurd (opened.same ?_) closed
        rw [after]
        exact Bucket.get_put_ne _ _ same
    | burnt id' q r ticks call found live after =>
      by_cases same : id = id'
      · subst same
        exact absurd opened (burn_closes call found live (by rw [after])).after
      · refine absurd (opened.same ?_) closed
        rw [after]
        exact Bucket.get_put_ne _ _ same
    | stored id' raw event r expiry ticks step => exact absurd (opened.same (by rw [step.after]; rfl)) closed
    | verified id' event r ticks found live after => exact absurd (opened.same (by rw [after]; rfl)) closed
  · exact absurd (lookup.same ▸ opened) closed

theorem Step.stores (h : Step T e) (stores : Stores id e) :
    ∃ raw event r expiry, Ticks e.before.maintenance r ∧ StoreStep T e id raw event r expiry := by
  obtain ⟨free, v, found⟩ := stores
  have unchanged : e.after.events.get id ≠ e.before.events.get id := by
    rw [free, found]
    exact Option.some_ne_none v
  rcases h with ⟨-, change⟩ | lookup
  · cases change with
    | idle same => exact absurd (by rw [same]) unchanged
    | pruned r ticks swept =>
      have before := swept.kept .events id v found
      rw [show Kind.get .events (ticked e.before r) = e.before.events from rfl, free] at before
      cases before
    | begun q r ticks new drawn first after => exact absurd (by rw [after]; rfl) unchanged
    | burnt id' q r ticks call found live after => exact absurd (by rw [after]; rfl) unchanged
    | stored id' raw event r expiry ticks step =>
      by_cases same : id = id'
      · subst same
        exact ⟨raw, event, r, expiry, ticks, step⟩
      · refine absurd ?_ unchanged
        rw [step.after]
        exact Bucket.get_put_ne _ _ same
    | verified id' event r ticks found live after =>
      have other : id ≠ id' := by
        rintro rfl
        unfold Recorded at found
        rw [free] at found
        cases found
      refine absurd ?_ unchanged
      rw [after]
      exact Bucket.get_put_ne _ _ other
  · exact absurd (by rw [lookup.same]) unchanged

theorem Step.unused (h : Step T e) (unused : Unused id e.after) : Unused id e.before ∨ Stores id e := by
  rcases h with ⟨-, change⟩ | lookup
  · cases change with
    | idle same => exact .inl (same ▸ unused)
    | pruned r ticks swept => exact .inl (unused.kept (swept.kept .events id))
    | begun q r ticks new drawn first after => exact .inl (unused.same (by rw [after]; rfl))
    | burnt id' q r ticks call found live after => exact .inl (unused.same (by rw [after]; rfl))
    | stored id' raw event r expiry ticks step =>
      by_cases same : id = id'
      · subst same
        refine .inr ⟨step.free, marshal event, ?_⟩
        rw [step.after]
        exact Bucket.get_put_self _ _ _
      · refine .inl (unused.same ?_)
        rw [step.after]
        exact Bucket.get_put_ne _ _ same
    | verified id' event r ticks found live after =>
      by_cases same : id = id'
      · subst same
        exact .inl ⟨event, found, live⟩
      · refine .inl (unused.same ?_)
        rw [after]
        exact Bucket.get_put_ne _ _ same
  · exact .inl (lookup.same ▸ unused)

/-- The fence of a token outlives every transaction, or the clock passes it. -/
theorem Step.fenced {key : Text} {x : Time} (h : Step T e)
    (fenced : Fenced e.before.replay e.before.maintenance key x) :
    Fenced e.after.replay e.after.maintenance key x := by
  rcases h with ⟨-, change⟩ | lookup
  · cases change with
    | idle same => rwa [same]
    | pruned r ticks swept =>
      apply fenced.drop ticks
      · unfold watermark
        rw [swept.clock]
        exact watermark_tick _ ticks.representable_utc
      · intro v found
        exact swept.expired .replay key v found
    | begun q r ticks new drawn first after =>
      rw [after]
      exact fenced.tick ticks
    | burnt id' q r ticks call found live after =>
      rw [after]
      exact fenced.tick ticks
    | stored id' raw event r expiry ticks step =>
      rw [step.after]
      exact (fenced.tick ticks).put step.unknown
    | verified id' event r ticks found live after =>
      rw [after]
      exact fenced.tick ticks
  · rwa [lookup.same]

end Inversions

section Once

theorem burning (id : Text) : Lifecycle (@Step cfg) (Open id) (Begins id) (Burns id) where
  start := by
    rintro ⟨q, found, -⟩
    cases found
  spends _ _ _ burns := ⟨burns.before, burns.after⟩
  appears _ e _ opened := by
    by_cases before : Open id e.before
    · exact .inl before
    · exact .inr ⟨before, opened⟩

theorem returning (id : Text) : Lifecycle (@Step cfg) (Unused id) (Stores id) (Uses id) where
  start := by
    rintro ⟨event, found, -⟩
    cases found
  spends _ _ _ uses := ⟨uses.before, uses.after⟩
  appears _ _ step unused := step.unused unused

theorem looks_once (valid : Valid Step T) (once : AtMostOnce (Burns id) T) : AtMostOnce (Looks id) T :=
  once_after valid (fun _ _ step looks => (step.lookup looks).1) (fun _ _ step looks => (step.lookup looks).2) once

theorem stores_once (valid : Valid Step T) (once : AtMostOnce (Looks id) T) : AtMostOnce (Stores id) T := by
  apply once_after valid _ _ once
  · intro T e step stores
    obtain ⟨raw, event, r, expiry, -, stored⟩ := step.stores stores
    exact stored.looked
  · rintro T e step stores a ha mine ⟨free, v, found⟩
    obtain ⟨raw, event, r, expiry, -, stored⟩ := step.stores stores
    rw [stored.first a ha mine, free] at found
    cases found

theorem Step.storesFrom (h : Step T e) (stores : StoresFrom raw e) :
    ∃ id event r expiry, Ticks e.before.maintenance r ∧ StoreStep T e id raw event r expiry := by
  obtain ⟨id, state, secret, s, call, stores⟩ := stores
  obtain ⟨raw', event, r, expiry, ticks, step⟩ := h.stores stores
  obtain ⟨state', secret', s', call'⟩ := step.call
  rw [call] at call'
  cases call'
  exact ⟨id, event, r, expiry, ticks, step⟩

theorem stored_fenced (valid : Valid Step T) (stored : ∃ e ∈ T, StoresFrom raw e) :
    ∃ x, tokenExpiry cfg.library raw = some x ∧
      Fenced (last T).replay (last T).maintenance (secretDigest raw) x := by
  induction valid with
  | nil => simp at stored
  | @snoc T e valid from_last meets ih =>
    obtain ⟨a, ha, stores⟩ := stored
    rw [last_append]
    rcases List.mem_append.mp ha with ha | ha
    · obtain ⟨x, own, fenced⟩ := ih ⟨a, ha, stores⟩
      rw [← from_last] at fenced
      exact ⟨x, own, meets.fenced fenced⟩
    · rw [List.mem_singleton.mp ha] at stores
      obtain ⟨id, event, r, expiry, ticks, step⟩ := meets.storesFrom stores
      refine ⟨expiry, step.accepted.own, .inl ⟨expiry.format, ?_, ?_⟩⟩
      · rw [step.after]
        exact Bucket.get_put_self _ _ _
      · intro y read
        rw [step.accepted.back y read]

theorem storesFrom_once (valid : Valid Step T) (raw : Text) : AtMostOnce (StoresFrom raw) T := by
  induction valid with
  | nil => exact List.Pairwise.nil
  | @snoc T e valid from_last meets ih =>
    apply ih.snoc
    intro here a ha there
    obtain ⟨x, own, fenced⟩ := stored_fenced valid ⟨a, ha, there⟩
    obtain ⟨id, event, r, expiry, ticks, step⟩ := meets.storesFrom here
    rw [← from_last] at fenced
    have late := fenced.passed step.unknown ticks
    have live := step.live
    have bound := step.accepted.late
    have same := step.accepted.own
    rw [own] at same
    cases same
    omega

end Once

/-- Every request reaches the verification of a token at most once; the event that
comes of it is stored by that same call, once, and returned once; and no raw
token is the source of two stored events. -/
theorem evidence_used_once (cfg : Settings) (schedule : List (Action (system cfg))) :
    (∀ id, AtMostOnce (Burns id) (exec (system cfg) schedule).trace ∧
      AtMostOnce (Looks id) (exec (system cfg) schedule).trace ∧
      AtMostOnce (Stores id) (exec (system cfg) schedule).trace) ∧
    (∀ id, ∀ b ∈ (exec (system cfg) schedule).trace, ∀ e ∈ (exec (system cfg) schedule).trace,
      Burns id b → Looks id e ∨ Stores id e → e.thread = b.thread) ∧
    (∀ (id : Text) (s s' : TrustSnapshot) (L L' : Log ports) (i j : Nat) (x y : ExternalPrincipal × Assurance),
      (exec (system cfg) schedule).threads[i]? = some ⟨.verify id s, L, .ret x⟩ →
      (exec (system cfg) schedule).threads[j]? = some ⟨.verify id s', L', .ret y⟩ → i = j) ∧
    (∀ raw, AtMostOnce (StoresFrom raw) (exec (system cfg) schedule).trace) := by
  have sound : Sound Step post (exec _ schedule) := exec_sound code_steps schedule
  have valid := sound.valid
  have drawn : Drawn idKey (exec _ schedule) :=
    exec_drawn (fun logs L q a admitted => drawRule_id (Bool.and_eq_true_iff.mp admitted).2) schedule
  have burnt : ∀ id, AtMostOnce (Burns id) (exec _ schedule).trace := by
    intro id
    apply (burning id).once valid
    apply drawn.happens_once valid
    intro U e step begins
    obtain ⟨mine, first⟩ := step.begins begins
    exact ⟨mine, fun a ha same _ => by rw [← drawnIDs, first a ha same]; exact List.not_mem_nil⟩
  have looked := fun id => looks_once valid (burnt id)
  have stored := fun id => stores_once valid (looked id)
  refine ⟨fun id => ⟨burnt id, looked id, stored id⟩, ?_, ?_, storesFrom_once valid⟩
  · intro id b hb e he burns later
    have looking : ∀ e ∈ (exec _ schedule).trace, Looks id e → e.thread = b.thread := by
      intro e he looks
      obtain ⟨U, sub, -, -, met⟩ := valid.mem he
      obtain ⟨a, ha, mine, burns'⟩ := (met.lookup looks).1
      have inside : a ∈ (exec _ schedule).trace := ((List.prefix_append U [e]).trans sub).subset ha
      rw [← mine, (burnt id).eq inside hb burns' burns]
    rcases later with looks | stores
    · exact looking e he looks
    · obtain ⟨U, sub, -, -, met⟩ := valid.mem he
      obtain ⟨raw, event, r, expiry, -, step⟩ := met.stores stores
      obtain ⟨a, ha, mine, looks⟩ := step.looked
      have inside : a ∈ (exec _ schedule).trace := ((List.prefix_append U [e]).trans sub).subset ha
      rw [← mine]
      exact looking a inside looks
  · intro id s s' L L' i j x y returned returned'
    obtain ⟨T, others, a, ha, mine, uses⟩ := sound.calls i _ returned
    obtain ⟨T', others', b, hb, mine', uses'⟩ := sound.calls j _ returned'
    have once := (returning id).once valid (stored id)
    rw [← mine, ← mine', once.eq (others.mem ha) (others'.mem hb) uses uses']

end Federation.OIDCEvents
