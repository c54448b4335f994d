import BaobabIam.Federation.BrokerIndex

/-! Requests of the broker ledger are used once. A callback is accepted by burning its
request, and the code exchange comes after that; a request is open from the Begin that
drew its nonce until it is burnt or dropped, so no run burns it twice. -/
namespace Federation.BrokerEvents

open Wire Interleaving Relation

variable {id k : Text} {s s' : Store} {cfg : Settings}

/-- The request that was begun under nonce `k` is stored as `id` and not burnt. -/
def Open (id k : Text) (s : Store) : Prop :=
  ∃ q, Requested s id q ∧ q.request.nonceDigest = k ∧ q.request.consumed = false

def Burns (id k : Text) (e : Entry (system cfg)) : Prop :=
  ∃ q, Requested e.before id q ∧ q.request.nonceDigest = k ∧ q.request.consumed = false ∧
    e.after.requests = e.before.requests.put id (marshal q.burn)

theorem Requested.burn {q q' : BrokerRequest} (h : Requested s id q) {old : Bucket}
    (put : s.requests = old.put id (marshal q'.burn)) : q = q'.burn := by
  rw [Requested, put, Bucket.get_put_self] at h
  exact (decodeAuthority_inv h).1

theorem Move.closes (h : Move s s') (opened : Open id k s') : Open id k s := by
  obtain ⟨q, found, nonce, live⟩ := opened
  cases h with
  | same requests nonces => exact ⟨q, by rwa [Requested, requests] at found, nonce, live⟩
  | burnt id' q' _ requests nonces =>
    by_cases here : id = id'
    · subst here
      rw [found.burn requests] at live
      cases live
    · refine ⟨q, ?_, nonce, live⟩
      rwa [Requested, requests, Bucket.get_put_ne _ _ here] at found
  | dropped id' q' _ requests nonces =>
    refine ⟨q, ?_, nonce, live⟩
    rw [Requested, requests, Bucket.get_delete] at found
    split at found
    · cases found
    · exact found

theorem moves_closes (h : ReflTransGen Move s s') (opened : Open id k s') : Open id k s := by
  induction h with
  | refl => exact opened
  | tail _ step ih => exact ih (step.closes opened)

variable {T : Trace (system cfg)}

/-- Only the Begin that drew the nonce opens the request. -/
theorem Change.opens {e : Entry (system cfg)} (step : Change T e) (closed : ¬ Open id k e.before)
    (opened : Open id k e.after) : k ∈ draws (I := ports) nonceKey e.start ∧ Own e.thread (Moved Move) T := by
  cases step with
  | moved h => exact absurd (moves_closes h opened) closed
  | begun r _ _ requests _ mine first =>
    obtain ⟨q, found, nonce, live⟩ := opened
    by_cases here : id = r.request.id
    · subst here
      rw [Requested, requests, Bucket.get_put_self] at found
      rw [(decodeAuthority_inv found).1] at nonce
      exact ⟨nonce ▸ mine, first⟩
    · rw [Requested, requests, Bucket.get_put_ne _ _ here] at found
      exact absurd ⟨q, found, nonce, live⟩ closed

/-- No run burns a request twice. -/
theorem requests_burnt_once (cfg : Settings) (schedule : List (Action (system cfg))) (id k : Text) :
    AtMostOnce (Burns id k) (exec (system cfg) schedule).trace := by
  have sound : Sound Change (fun _ _ _ _ _ => True) (exec _ schedule) := exec_sound code_changes schedule
  have slot : Lifecycle (@Change cfg) (Open id k) (fun e => ¬ Open id k e.before ∧ Open id k e.after)
      (Burns id k) := by
    refine ⟨?_, ?_, ?_⟩
    · rintro ⟨q, ⟨⟩, -⟩
    · rintro T e - ⟨q, found, nonce, live, after⟩
      refine ⟨⟨q, found, nonce, live⟩, ?_⟩
      rintro ⟨q', found', -, live'⟩
      rw [found'.burn after] at live'
      cases live'
    · intro T e _ opened
      by_cases before : Open id k e.before
      · exact .inl before
      · exact .inr ⟨before, opened⟩
  apply slot.once sound.valid
  apply (exec_drawn draws_fresh schedule).happens_once sound.valid
  rintro U e step ⟨closed, opened⟩
  obtain ⟨mine, first⟩ := step.opens closed opened
  exact ⟨mine, fun a ha same opens => absurd (moves_closes (first a ha same) opens.2) opens.1⟩

end Federation.BrokerEvents
