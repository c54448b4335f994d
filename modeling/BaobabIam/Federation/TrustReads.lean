import BaobabIam.Federation.TrustProvenance

/-! Reads of a trust. A returned snapshot is the record that was current at the
call's last read, and it had not expired at a reading after that; the durable
clock keeps an expired snapshot from coming back. -/
namespace Federation.TrustLedger

open Wire Interleaving

variable {id : Text} {s : TrustStore} {c : CommittedTrust} {log : Records}

theorem exec_returned (schedule : List (Action system)) {i : Nat} {L : Log ports} {s : TrustSnapshot}
    (returned : (exec system schedule).threads[i]? = some ⟨.trust id, L, .ret s⟩) :
    Returned i id s (exec system schedule).trace L := by
  obtain ⟨T, ⟨D, split_, others⟩, h⟩ := (exec_sound code_steps schedule).calls i _ returned
  obtain ⟨A, B, C, fence, read, w, c, r, hT, fenceBy, readBy, quiet, rest⟩ := Returned.last h
  refine ⟨A, B, C ++ D, fence, read, w, c, r, ?_, fenceBy, readBy, ?_, rest⟩
  · rw [split_, hT]
    simp
  · intro e he
    rcases List.mem_append.mp he with he | he
    · exact quiet e he
    · exact others e he

theorem sameSnapshot_revision {a b : TrustSnapshot} (h : sameSnapshot a b = true) :
    a.approvedRevision = b.approvedRevision := by
  simp only [sameSnapshot, Bool.and_eq_true, beq_iff_eq] at h
  exact h.1.1.1

theorem current_of_bind
    (h : (s.trusts.get id).bind decodeAuthority = some c) : Current s id (some c) :=
  Option.bind_eq_some_iff.mp h

theorem Represents.current_revision
    (rep : Represents s log) (h : Current s id (some c)) :
    c.snapshot.approvedRevision.toNat = (log id).length := by
  have found := rep.current_some h
  have member := List.mem_of_getLast? found
  rw [((rep.holds id).committed c member).revision]
  have number := (rep.holds id).revisions ((log id).length - 1) c (by rwa [← List.getLast?_eq_getElem?])
  have pos := List.length_pos_of_mem member
  omega

theorem Represents.longer {s' : TrustStore} {log' : Records} (rep : Represents s log)
    (rep' : Represents s' log') (grown : log id <+: log' id) (changed : s'.trusts.get id ≠ s.trusts.get id) :
    (log id).length < (log' id).length := by
  refine lt_of_le_of_ne grown.length_le ?_
  intro same
  have equal : log id = log' id := grown.eq_of_length same
  exact changed ((rep.holds id).bytes (equal ▸ rep'.holds id)).2

/-- A returned trust is the record that is current at the call's last read, and
is not expired at a reading taken after it; a record that was replaced before
that read is not returned. -/
theorem trust_returns_current (schedule : List (Action system)) (i : Nat) (id : Text) (L : Log ports)
    (s : TrustSnapshot) (returned : (exec system schedule).threads[i]? = some ⟨.trust id, L, .ret s⟩) :
    ∃ (before after : Trace) (read : Entry system) (c : CommittedTrust) (r : Reading),
      (exec system schedule).trace = before ++ read :: after ∧ read.thread = i ∧
      (∀ e ∈ after, e.thread ≠ i) ∧ read.after = read.before ∧
      (read.before.trusts.get id).bind decodeAuthority = some c ∧ sameSnapshot s c.snapshot = true ∧
      L = read.finish ++ [⟨Query.now, r⟩] ∧ r.time.ns < s.validUntil.ns ∧
      (∀ e ∈ before, ∀ old : CommittedTrust, (e.before.trusts.get id).bind decodeAuthority = some old →
        e.after.trusts.get id ≠ e.before.trusts.get id → sameSnapshot s old.snapshot = false) := by
  obtain ⟨A, B, C, fence, read, w, c, r, trace, -, readBy, quiet, -, -, idle, current, same, log_eq, -, early⟩ :=
    (exec_returned schedule returned).last
  refine ⟨A ++ fence :: B, C, read, c, r, trace, readBy, quiet, idle, Option.bind_eq_some_iff.mpr current, same,
    log_eq, early, ?_⟩
  intro e he old found changed
  have valid := (exec_sound code_steps schedule).valid
  rw [trace] at valid
  obtain ⟨earlier, from_last, -⟩ := (valid.restrict (T := A ++ fence :: B ++ [read]) (by simp)).snoc_inv
  obtain ⟨U, sub, validU, before, -⟩ := earlier.mem he
  obtain ⟨log₀, rep₀, -⟩ := valid_represents validU
  obtain ⟨log₁, rep₁, -⟩ := valid_represents (earlier.restrict sub)
  obtain ⟨log₂, rep₂, -⟩ := valid_represents earlier
  have step := (valid_grows (earlier.restrict sub) (List.prefix_append U [e]) rep₀ rep₁ id).1
  have rest := (valid_grows earlier sub rep₁ rep₂ id).1
  rw [← before] at rep₀
  rw [← from_last] at rep₂
  rw [last_append] at rep₁
  have longer := (rep₀.longer rep₁ step changed).trans_le rest.length_le
  have oldNumber := rep₀.current_revision (current_of_bind found)
  have newNumber := rep₂.current_revision current
  by_contra returns_old
  rw [Bool.not_eq_false] at returns_old
  have revisions := (sameSnapshot_revision returns_old).symm.trans (sameSnapshot_revision same)
  rw [revisions] at oldNumber
  omega

section Expiry

variable {T U : Trace} {e : Entry system} {p q : TrustProposal} {r w : Time} {id : Text}

theorem Step.keeps (h : Step T e) (id : Text)
    (stored : e.before.proposals.get id ≠ none) : e.after.proposals.get id ≠ none := by
  have put : ∀ key data, (e.before.proposals.put key data).get id ≠ none := by
    intro key data
    rw [Bucket.get_put]
    split
    · simp
    · exact stored
  cases h with
  | idle same => rwa [same]
  | ticked r _ after => rwa [after]
  | proposed p r step => rw [step.after]; exact put _ _
  | rejected pid digest p q r step after => rw [after]; exact put _ _
  | approved pid digest p q r step commit => rw [commit.after]; exact put _ _
  | contained cid revision status c value r step => rwa [step.after]

theorem valid_keeps {T' : Trace} (h : Valid Step T') (sub : T <+: T') (id : Text)
    (stored : (last T).proposals.get id ≠ none) : (last T').proposals.get id ≠ none := by
  have evolves := h.evolves (R := fun s s' => s.proposals.get id ≠ none → s'.proposals.get id ≠ none) ?_ ?_ ?_ sub
  · exact evolves stored
  · exact fun _ stored => stored
  · exact fun _ _ _ first second stored => second (first stored)
  · exact fun T e _ _ step => step.keeps id

theorem propose_unique {V : Trace} {d : Entry system} {t : Time}
    (h : Valid Step T) (subU : U ++ [d] <+: T) (subV : V ++ [e] <+: T) (made : ProposeStep d p r)
    (made' : ProposeStep e q t) (same : p.id = q.id) : p.snapshot = q.snapshot := by
  have apart : ∀ {U V : Trace} {d e : Entry system} {p q : TrustProposal} {r t : Time}, U ++ [d] <+: T →
      V ++ [e] <+: T → ProposeStep d p r → ProposeStep e q t → p.id = q.id → ¬ U.length < V.length := by
    intro U V d e p q r t subU subV made made' same shorter
    have inside : U ++ [d] <+: V := by
      refine List.prefix_of_prefix_length_le subU ((List.prefix_append V [e]).trans subV) ?_
      simp only [List.length_append, List.length_singleton]
      omega
    obtain ⟨validV, before, -⟩ := (h.restrict subV).snoc_inv
    refine valid_keeps validV inside q.id ?_ (before ▸ made'.free)
    rw [last_append, made.after, ← same]
    simp
  have lengths : U.length = V.length :=
    Nat.le_antisymm (Nat.le_of_not_lt (apart subV subU made' made same.symm))
      (Nat.le_of_not_lt (apart subU subV made made' same))
  have whole : U ++ [d] = V ++ [e] := by
    refine List.IsPrefix.eq_of_length ?_ (by simp [lengths])
    exact List.prefix_of_prefix_length_le subU subV (by simp [lengths])
  obtain ⟨-, entry⟩ := List.append_inj' whole rfl
  cases entry
  have calls := made.call.symm.trans made'.call
  injection calls

/-- The proposal that Decide read has the snapshot of the one it replaces. -/
theorem DecideStep.same_snapshot {digest : Text} {approve : Bool}
    {stored : TrustProposal} (h : Valid Step T) (from_last : e.before = last T)
    (step : DecideStep T e id digest approve p q r)
    (found : (e.before.proposals.get id).bind decodeAuthority = some stored) :
    p.snapshot = stored.snapshot := by
  obtain ⟨U, d, p₁, r₁, sub, made, hid, -, form⟩ := step.origin (valid_known h)
  obtain ⟨raw, present, decoded⟩ := Option.bind_eq_some_iff.mp found
  rw [from_last] at present
  obtain ⟨V, d', p₂, r₂, q₂, sub', made', hid', rfl, form'⟩ := (valid_origin h).1 id raw present
  obtain ⟨rfl, -⟩ := decodeAuthority_inv decoded
  have read : p.snapshot = p₁.snapshot := by rw [form]
  have replaced : stored.snapshot = p₂.snapshot := by rw [form']
  rw [read, replaced]
  exact propose_unique h sub sub' made made' (hid.trans hid'.symm)

theorem Valid.later_entry {D : Trace} (h : Valid Step (T ++ D)) (he : e ∈ D)
    (mark : watermark (last T).clock = some w) :
    ∃ U, Valid Step U ∧ e.before = last U ∧ Step U e ∧
      ∀ r, Ticks e.before.clock r → w.ns ≤ r.ns := by
  obtain ⟨A, B, rfl⟩ := List.append_of_mem he
  have sub : T ++ A ++ [e] <+: T ++ (A ++ e :: B) := ⟨B, by simp⟩
  obtain ⟨valid, before, step⟩ := (h.restrict sub).snoc_inv
  refine ⟨T ++ A, valid, before, step, ?_⟩
  intro r ticks
  obtain ⟨w', mark', le⟩ := valid_later valid (List.prefix_append T A) w mark
  rw [← before] at mark'
  exact le.trans (ticks.watermark_le mark')

/-- A snapshot that has expired at `w` is neither proposed nor decided. -/
def KeepsOut (w : Time) (e : Entry system) : Prop :=
  (∀ pid s want, e.call = .propose pid s want → s.validUntil.ns ≤ w.ns →
    e.after.proposals = e.before.proposals) ∧
  (∀ pid digest approve (p : TrustProposal), e.call = .decide pid digest approve →
    (e.before.proposals.get pid).bind decodeAuthority = some p → p.snapshot.validUntil.ns ≤ w.ns →
    e.after.proposals = e.before.proposals ∧ e.after.trusts = e.before.trusts ∧
    e.after.history = e.before.history)

theorem Step.not_expired (valid : Valid Step U) (before : e.before = last U) (h : Step U e)
    (order : InOrder e.finish) (clock : ∀ r, Ticks e.before.clock r → w.ns ≤ r.ns) :
    KeepsOut w e := by
  have decided : ∀ {id digest approve p q r}, DecideStep U e id digest approve p q r → KeepsOut w e := by
    intro id digest approve p q r step
    refine ⟨?_, ?_⟩
    · intro pid s want call
      rw [step.call] at call
      cases call
    · intro pid digest' approve p' call found expired
      rw [step.call] at call
      injection call with same _ _
      subst same
      have inTime := step.inTime order
      rw [step.same_snapshot valid before found] at inTime
      have reached := clock r step.ticks
      omega
  cases h with
  | idle same =>
    rw [KeepsOut, same]
    exact ⟨fun _ _ _ _ _ => rfl, fun _ _ _ _ _ _ _ => ⟨rfl, rfl, rfl⟩⟩
  | ticked r _ after =>
    rw [KeepsOut, after]
    exact ⟨fun _ _ _ _ _ => rfl, fun _ _ _ _ _ _ _ => ⟨rfl, rfl, rfl⟩⟩
  | proposed p r step =>
    refine ⟨?_, ?_⟩
    · intro pid s want call expired
      rw [step.call] at call
      injection call with _ same _
      have inTime := step.inTime order
      have reached := clock r step.ticks
      rw [same] at inTime
      omega
    · intro pid digest approve p' call
      rw [step.call] at call
      cases call
  | rejected id digest p q r step after => exact decided step
  | approved id digest p q r step commit => exact decided step
  | contained id revision status c value r step =>
    refine ⟨?_, ?_⟩
    · intro pid s want call
      rw [step.call] at call
      cases call
    · intro pid digest approve p' call
      rw [step.call] at call
      cases call

/-- A Trust call after the watermark was stored returns no snapshot that had
expired by then, unless all its readings lie before the watermark. -/
theorem exec_unexpired (schedule later : List (Action system))
    (mark : watermark (exec system schedule).store.clock = some w) {i : Nat} {L : Log ports} (inOrder : InOrder L)
    {s : TrustSnapshot} (returned : (exec system (schedule ++ later)).threads[i]? = some ⟨.trust id, L, .ret s⟩) :
    w.ns < s.validUntil.ns ∨
      i < (exec system schedule).threads.length ∧ ∀ t ∈ readings L, t.ns < w.ns := by
  obtain ⟨A, B, C, fence, read, w', c, r, trace, own, -, -, -, ticks, -, -, -, log_eq, fenced, early⟩ :=
    (exec_returned (schedule ++ later) returned).last
  have order : ∀ t ∈ readings read.finish, t.ns ≤ r.time.ns :=
    fun t ht => inOrder.le (log_eq ▸ List.prefix_refl _) ht
  rcases Int.lt_or_le r.time.ns w.ns with before | reached
  · right
    have all : ∀ t ∈ readings L, t.ns < w.ns := by
      intro t ht
      rw [log_eq, readings_append] at ht
      rcases List.mem_append.mp ht with ht | ht
      · exact (order t ht).trans_lt before
      · simp only [readings, List.filterMap_cons, List.filterMap_nil, List.mem_singleton] at ht
        rw [ht]
        exact before
    refine ⟨?_, all⟩
    have sound := exec_sound code_steps schedule
    have valid := (exec_sound code_steps (schedule ++ later)).valid
    obtain ⟨D, split_⟩ := exec_trace schedule later
    have member : fence ∈ (exec system schedule).trace ++ D := by
      rw [split_, trace]
      simp
    rcases List.mem_append.mp member with old | new
    · rw [← own]
      exact sound.threads fence old
    · -- a fence at this point would have read a time that is not before the watermark
      rw [← split_] at valid
      obtain ⟨-, -, -, -, clock⟩ := Valid.later_entry valid new (sound.store ▸ mark)
      have := clock w' ticks
      have := order w' fenced
      omega
  · exact .inl (reached.trans_lt early)

/-- Durable expiry. Once the watermark `w` is stored it never decreases, no
snapshot that ends at or before `w` is proposed or decided, and Trust returns
such a snapshot only in a call that began before and reads no time from `w` on. -/
theorem expiry_is_durable (schedule later : List (Action system))
    (clocked : Clocked (exec system (schedule ++ later))) (w : Time)
    (mark : watermark (exec system schedule).store.clock = some w) :
    (∃ w', watermark (exec system (schedule ++ later)).store.clock = some w' ∧ w.ns ≤ w'.ns) ∧
    (∃ D, (exec system (schedule ++ later)).trace = (exec system schedule).trace ++ D ∧ ∀ e ∈ D,
      (∀ pid s want, e.call = .propose pid s want → s.validUntil.ns ≤ w.ns →
        e.after.proposals = e.before.proposals) ∧
      (∀ pid digest approve (p : TrustProposal), e.call = .decide pid digest approve →
        (e.before.proposals.get pid).bind decodeAuthority = some p → p.snapshot.validUntil.ns ≤ w.ns →
        e.after.proposals = e.before.proposals ∧ e.after.trusts = e.before.trusts ∧
        e.after.history = e.before.history)) ∧
    (∀ i id L s, (exec system (schedule ++ later)).threads[i]? = some ⟨.trust id, L, .ret s⟩ →
      s.validUntil.ns ≤ w.ns →
      i < (exec system schedule).threads.length ∧ ∀ t ∈ readings L, t.ns < w.ns) := by
  have valid := (exec_sound code_steps (schedule ++ later)).valid
  refine ⟨?_, ?_, ?_⟩
  · rw [exec_store] at mark ⊢
    exact valid_later valid (exec_trace schedule later) w mark
  · obtain ⟨D, split_⟩ := exec_trace schedule later
    refine ⟨D, split_.symm, ?_⟩
    intro e he
    rw [← split_] at valid
    rw [exec_store] at mark
    obtain ⟨U, validU, before, step, clock⟩ := Valid.later_entry valid he mark
    exact step.not_expired validU before (exec_inOrder clocked e (by rw [← split_]; simp [he])) clock
  · intro i id L s returned expired
    have inOrder := clocked _ (List.mem_of_getElem? returned)
    rcases exec_unexpired schedule later mark inOrder returned with live | old
    · omega
    · exact old

end Expiry

section InFlight

/-- A call that has passed its second fence returns a snapshot that the clock of
another call has meanwhile overtaken: the watermark is stored, and only then does
Trust return, at a reading that its own call has not seen exceeded. -/
theorem overtaken_sample : ∃ (schedule later : List (Action system)) (w : Time) (i : Nat) (id : Text)
    (L : Log ports) (s : TrustSnapshot), Clocked (exec system (schedule ++ later)) ∧
    watermark (exec system schedule).store.clock = some w ∧
    (∀ L' s', (exec system schedule).threads[i]? ≠ some ⟨.trust id, L', .ret s'⟩) ∧
    (exec system (schedule ++ later)).threads[i]? = some ⟨.trust id, L, .ret s⟩ ∧
    s.validUntil.ns ≤ w.ns := by
  obtain ⟨-, -, -, mark, running, done, -, clocked⟩ := Sample.runs
  obtain ⟨w, mark, ns⟩ := Option.map_eq_some_iff.mp mark
  obtain ⟨t, found, ended⟩ := Option.bind_eq_some_iff.mp done
  obtain ⟨L, rfl⟩ := Sample.returned_eq ended
  refine ⟨Sample.overtaken, Sample.closing, w, 8, Sample.trustID, L, Sample.snapshot 3,
    clocked, mark, ?_, found, ?_⟩
  · intro L' s' early
    rw [early] at running
    cases running
  · rw [ns]
    decide

/-- Expiry does not reach a call that has passed its last fence. -/
theorem expiry_misses_running_call : ¬ ∀ (schedule later : List (Action system)) (w : Time) (i : Nat) (id : Text)
    (L : Log ports) (s : TrustSnapshot), Clocked (exec system (schedule ++ later)) →
    watermark (exec system schedule).store.clock = some w →
    (∀ L' s', (exec system schedule).threads[i]? ≠ some ⟨.trust id, L', .ret s'⟩) →
    (exec system (schedule ++ later)).threads[i]? = some ⟨.trust id, L, .ret s⟩ → w.ns < s.validUntil.ns := by
  intro claim
  obtain ⟨schedule, later, w, i, id, L, s, clocked, mark, running, returned, expired⟩ := overtaken_sample
  exact absurd (claim schedule later w i id L s clocked mark running returned) (not_lt.mpr expired)

theorem expiry_is_durable_sample : ∃ (schedule later : List (Action system)) (w : Time) (i : Nat) (id : Text)
    (L : Log ports) (s : TrustSnapshot), Clocked (exec system (schedule ++ later)) ∧
    watermark (exec system schedule).store.clock = some w ∧
    (exec system (schedule ++ later)).threads[i]? = some ⟨.trust id, L, .ret s⟩ ∧ s.validUntil.ns ≤ w.ns ∧
    i < (exec system schedule).threads.length ∧ ∀ t ∈ readings L, t.ns < w.ns := by
  obtain ⟨schedule, later, w, i, id, L, s, clocked, mark, -, returned, expired⟩ := overtaken_sample
  exact ⟨schedule, later, w, i, id, L, s, clocked, mark, returned, expired,
    (expiry_is_durable schedule later clocked w mark).2.2 i id L s returned expired⟩

theorem trust_returns_current_sample : ∃ (schedule : List (Action system)) (i : Nat) (id : Text) (L : Log ports)
    (s : TrustSnapshot), (exec system schedule).threads[i]? = some ⟨.trust id, L, .ret s⟩ ∧
    ∃ read ∈ (exec system schedule).trace, read.thread = i ∧ ∃ c : CommittedTrust,
      (read.before.trusts.get id).bind decodeAuthority = some c ∧ sameSnapshot s c.snapshot = true := by
  obtain ⟨schedule, later, w, i, id, L, s, -, -, -, returned, -⟩ := overtaken_sample
  obtain ⟨before, after, read, c, r, trace, own, -, -, current, same, -⟩ :=
    trust_returns_current (schedule ++ later) i id L s returned
  refine ⟨schedule ++ later, i, id, L, s, returned, read, ?_, own, c, current, same⟩
  rw [trace]
  simp

end InFlight

end Federation.TrustLedger
