import BaobabIam.Federation.TrustClock
import BaobabIam.Federation.TrustHistory

/-! What the trust ledger does when nothing outside it refuses. A call that runs
alone, with a live context, a clock that is not behind the watermark and an actor
whose grant lasts through the call, gets past every check that the stored records
can pass, and a containment wins. -/
namespace Federation.TrustLedger

open Wire Interleaving

/-- Nothing outside the ledger refuses: readings lie between `w` and `limit`, the
storage engine runs, and every actor is granted what it asks for until `limit`. -/
def Accepts (w limit : Int) (L : Log ports) : (q : Query) → q.Answer → Prop
  | .now, r => clockRule L .now r = true ∧ w ≤ r.time.ns ∧ r.time.ns < limit
  | .cancelled, ended => ended = false
  | .storage, answer => answer = .ok ()
  | .authorizeApproval _ _, answer =>
    ∃ a, answer = .ok a ∧ uuidPattern a.principalID = true ∧ limit ≤ a.validUntil.ns
  | .randomUUID, drawn => drawn.isSome = true
  | _, _ => True

/-- The watermark is not ahead of `w`, or of a reading of the call itself. -/
def Behind (clock : Bucket) (w : Int) (L : Log ports) : Prop :=
  ∀ raw, clock.get clockKey = some raw →
    ∃ t, Time.parse raw = some t ∧ (t.ns ≤ w ∨ ∃ t' ∈ readings L, t.ns ≤ t'.ns)

section Clock

variable {clock : Bucket} {w limit : Int} {L L' : Log ports}

theorem Behind.mono (h : Behind clock w L) (grown : L <+: L') : Behind clock w L' := by
  intro raw found
  obtain ⟨t, parsed, early⟩ := h raw found
  refine ⟨t, parsed, early.imp_right ?_⟩
  rintro ⟨t', seen, le⟩
  exact ⟨t', readings_mono grown seen, le⟩

theorem Behind.ticks {r : Reading} (h : Behind clock w L) (accepted : Accepts w limit L .now r) :
    Ticks clock r.time := by
  refine ⟨r.representable, r.representable_utc, ?_⟩
  intro raw found
  obtain ⟨t, parsed, early⟩ := h raw found
  refine ⟨t, parsed, ?_⟩
  rcases early with early | ⟨t', seen, le⟩
  · exact early.trans accepted.2.1
  · exact le.trans (clockRule_le accepted.1 seen)

theorem behind_tick (clock : Bucket) (w : Int) (L : Log ports) (r : Reading) :
    Behind (tick clock r.time) w (L ++ [⟨Query.now, r⟩]) := by
  intro raw found
  simp only [tick, Bucket.get_put_self, Option.some.injEq] at found
  subst found
  exact ⟨r.time.utc, Time.parse_format _ r.representable_utc, .inr ⟨r.time, reading_mem L r, le_refl _⟩⟩

theorem pass_observeClock {rule : Rule ports} {s : TrustStore}
    {Q : Except Fault (Unit × TrustStore) → Log ports → Prop}
    (accepts : ∀ L q a, rule L q a → Accepts w limit L q a) (behind : Behind s.clock w L)
    (h : ∀ r : Reading, Accepts w limit L .now r → Behind (tick s.clock r.time) w (L ++ [⟨Query.now, r⟩]) →
      Q (.ok ((), ticked s r.time)) (L ++ [⟨Query.now, r⟩])) : observeClock.wp rule s L Q := by
  refine Ledger.wp_now_then ?_
  intro r hr
  refine Tx.wp_read_then ?_
  rw [(behind.ticks (accepts _ _ _ hr)).advance]
  exact h r (accepts _ _ _ hr) (behind_tick _ w L r)

end Clock

section Calls

variable {β : Type} {rule : Rule ports} {w limit : Int} {i : Nat} {c : Call} {T : Trace} {L : Log ports}
  {Q : Post system β} (accepts : ∀ L q a, rule L q a → Accepts w limit L q a)

include accepts

theorem pass_transaction {translate : Fault → Fault} {body : Body β}
    (h : body.wp rule (last T) (L ++ [⟨Query.storage, .ok ()⟩]) (fun r L' => ∃ b s', r = .ok (b, s') ∧
      ∀ e : Entry system, e.after = s' → Q (T ++ [e]) L' (.ok b))) :
    wp (alone rule i c) (transaction translate body) T L Q := by
  rintro T' rfl
  refine (Tx.wp_bind _ _ _).mpr ((Tx.wp_bind _ _ _).mpr ?_)
  intro answer hanswer
  obtain rfl : answer = .ok () := accepts _ _ _ hanswer
  refine (?_ : body.wp rule (last T') (L ++ [⟨Query.storage, .ok ()⟩]) _)
  refine Tx.wp_mono h ?_
  rintro r L' ⟨b, s', rfl, next⟩
  exact ⟨trivial, next _ rfl⟩

theorem pass_fence {Q : Post system Unit}
    (behind : Behind (last T).clock w L)
    (h : ∀ (e : Entry system) r L', L <+: L' → e.after = ticked (last T) r →
      Behind e.after.clock w L' → Q (T ++ [e]) L' (.ok ())) :
    wp (alone rule i c) fence T L Q := by
  refine pass_transaction accepts ?_
  refine pass_observeClock accepts (behind.mono (by simp)) ?_
  intro r _ behind'
  refine ⟨(), _, rfl, ?_⟩
  intro e after
  exact h e r.time _ (by simp) after (by rw [after]; exact behind')

theorem pass_actor {Q : Post system ApprovalActor} {action : ApprovalAction} {want : ReferenceExpectation}
    (behind : Behind (last T).clock w L)
    (h : ∀ (e : Entry system) r L' a, L <+: L' → e.after = ticked (last T) r → Behind e.after.clock w L' →
      uuidPattern a.principalID = true → limit ≤ a.validUntil.ns → Q (T ++ [e]) L' (.ok a)) :
    wp (alone rule i c) (actor action want) T L Q := by
  refine wp_cancelled_then ?_
  intro ended hended
  obtain rfl : ended = false := accepts _ _ _ hended
  refine wp_require_pass rfl (wp_then (pass_fence accepts (behind.mono (by simp)) ?_))
  intro e r L' grown after behind'
  refine wp_question_then ?_
  intro answer hanswer
  obtain ⟨a, rfl, uuid, until_⟩ := accepts _ _ _ hanswer
  refine wp_require_pass uuid (wp_now_then ?_)
  intro t ht
  refine wp_require_pass (Time.before_iff.mpr ((accepts _ _ _ ht).2.2.trans_le until_)) ?_
  have more : L' <+: L' ++ [⟨Query.authorizeApproval action want, .ok a⟩] ++ [⟨Query.now, t⟩] := by simp
  exact h e r _ a ((List.prefix_append _ _).trans (grown.trans more)) after (behind'.mono more)
    uuid until_

theorem pass_read {Q : Post system CommittedTrust} {id : Text} {value : CommittedTrust}
    (committed : Committed id value)
    (stored : (last T).trusts.get id = some (marshal value))
    (h : ∀ (e : Entry system) L', L <+: L' → e.after = last T → Q (T ++ [e]) L' (.ok value)) :
    wp (alone rule i c) (read id) T L Q := by
  have ok := committed.readable
  have uuid : uuidPattern id = true := by
    simp only [readable, validateTrust, Bool.and_eq_true, beq_iff_eq] at ok
    rw [← ok.1.1.1.1.1.1.1]
    exact ok.1.1.1.1.2.1.1.1.1.1.1.1.1.1
  refine wp_cancelled_then ?_
  intro ended hended
  obtain rfl : ended = false := accepts _ _ _ hended
  refine wp_require_pass (by simp [uuid]) (wp_then (pass_transaction accepts ?_))
  refine Tx.wp_read_then (Ledger.wp_orFail_pass_then stored ?_)
  refine Ledger.wp_orFail_pass committed.decodes ⟨value, last T, rfl, ?_⟩
  intro e after
  refine wp_require_pass ok ?_
  exact h e _ (by simp) after

end Calls

theorem contained_edge {t : Trust} (status : TrustStatus) (valid : validLifecycle t = true)
    (live : t.status ≠ .revoked) (target : status = .revoked ∨ status = .suspended ∧ t.status = .active) :
    (if t.status == status then t.status != .active else (allowedStatus t.status).contains status) = true := by
  rcases target with rfl | ⟨rfl, active⟩
  · cases now : t.status with
    | revoked => exact absurd now live
    | other => simp [validLifecycle, now] at valid
    | _ => decide
  · rw [active]
    decide

variable {status : TrustStatus} {id : Text} {c : CommittedTrust}

/-- A later update with the status of a containment keeps the lifecycle. -/
theorem contained_lifecycle {t : Trust} {at_ : Time} (revision : UInt64)
    (valid : validLifecycle t = true) (live : t.status ≠ .revoked)
    (target : status = .revoked ∨ status = .suspended) (late : t.updatedAt.ns ≤ at_.ns) :
    validLifecycle { t with
      revision := revision
      status := status
      updatedAt := at_
      revokedAt := if status = .revoked then some at_ else t.revokedAt } = true := by
  simp only [validLifecycle, Bool.and_eq_true, Bool.not_eq_true', Time.before_false] at valid ⊢
  obtain ⟨⟨⟨⟨⟨created, updated⟩, activated⟩, -⟩, evidence⟩, revoked⟩ := valid
  have none_yet : t.revokedAt.isNone = true := by
    revert revoked live
    cases t.status <;> simp
  have active : ∀ a, t.activatedAt = some a → t.createdAt.ns ≤ a.ns ∧ a.ns ≤ at_.ns := by
    intro a found
    simp only [found, Bool.and_eq_true, Bool.not_eq_true', Time.before_false, Time.after_false] at activated
    exact ⟨activated.1, activated.2.trans late⟩
  have inactive : (status != .active || t.activatedAt.isSome && validRef t.activationEvidenceReference) = true := by
    rcases target with rfl | rfl <;> rfl
  refine ⟨⟨⟨⟨⟨created, updated.trans late⟩, ?_⟩, inactive⟩, evidence⟩, ?_⟩
  · cases found : t.activatedAt with
    | none => rfl
    | some a => simpa using active a found
  · rcases target with rfl | rfl
    · simp only [if_true, Bool.and_eq_true, Bool.not_eq_true', Time.before_false, Time.after_false]
      refine ⟨⟨updated.trans late, le_refl _⟩, ?_⟩
      cases found : t.activatedAt with
      | none => rfl
      | some a => simpa using (active a found).2
    · simpa using none_yet

/-- What a containment writes passes the checks when its time is not before the
last update. -/
theorem containable {t : Time} (committed : Committed id c)
    (live : c.snapshot.trust.status ≠ .revoked) (room : c.snapshot.trust.revision ≠ 0xFFFFFFFFFFFFFFFF)
    (target : status = .revoked ∨ status = .suspended ∧ c.snapshot.trust.status = .active)
    (late : c.snapshot.trust.updatedAt.ns ≤ t.ns) (drawn principal : Text) :
    trustTransition c.snapshot.trust (containedTrust c status t drawn principal).snapshot.trust = true ∧
    validateTrust (containedTrust c status t drawn principal).snapshot.trust = true := by
  have ok := committed.readable
  simp only [readable, Bool.and_eq_true] at ok
  have valid := ok.1.1.1.1.2
  simp only [validateTrust, Bool.and_eq_true, decide_eq_true_eq] at valid
  obtain ⟨⟨⟨⟨⟨⟨⟨⟨⟨uuid, binding⟩, -⟩, orgs⟩, estates⟩, policy⟩, mapping⟩,
    provisioning⟩, issuer⟩, lifecycle⟩ := valid
  constructor
  · simp only [trustTransition, containedTrust, Bool.and_eq_true, beq_self_eq_true, true_and, and_true, bne_iff_ne,
      ne_eq, Time.equal_iff, Bool.not_eq_true', Time.before_false]
    exact ⟨⟨⟨room, late⟩, live⟩, contained_edge _ lifecycle live target⟩
  · have above : 1 ≤ c.snapshot.trust.revision + 1 := by
      have small := c.snapshot.trust.revision.toNat_lt
      have notMax : c.snapshot.trust.revision.toNat ≠ 2 ^ 64 - 1 := by
        intro full
        exact room (UInt64.toNat_inj.mp full)
      rw [UInt64.le_iff_toNat_le, UInt64.toNat_add]
      change 1 ≤ (c.snapshot.trust.revision.toNat + 1) % 2 ^ 64
      omega
    simp only [validateTrust, Bool.and_eq_true, decide_eq_true_eq]
    refine ⟨⟨⟨⟨⟨⟨⟨⟨⟨uuid, binding⟩, above⟩, orgs⟩, estates⟩, policy⟩, mapping⟩,
      provisioning⟩, issuer⟩, ?_⟩
    exact contained_lifecycle _ lifecycle live (target.imp_right And.left) late

theorem Holds.free {s : TrustStore} {records : List CommittedTrust}
    (h : Holds s id records) (ext : Extends id records c) :
    s.history.get (historyKey id c.snapshot.approvedRevision) = none := by
  have number := ext.number h
  rw [h.stored, ext.committed.revision]
  split
  · rfl
  · rw [number, Nat.add_sub_cancel, List.getElem?_eq_none (le_refl _)]
    rfl

section Current

variable {s : TrustStore} {log : Records}

theorem Represents.stored (rep : Represents s log) (found : (log id).getLast? = some c) :
    s.trusts.get id = some (marshal c) := by
  rw [(rep.holds id).current, found]
  rfl

theorem Represents.committed (rep : Represents s log) (found : (log id).getLast? = some c) : Committed id c :=
  (rep.holds id).committed c (List.mem_of_getLast? found)

end Current

section Contain

variable {rule : Rule ports} {w limit : Int} {i : Nat} {call : Call} {T : Trace} {log : Records} {id : Text}
  {c : CommittedTrust} {status : TrustStatus}

/-- A containment that runs alone on a record that is not revoked commits. -/
theorem pass_contain (accepts : ∀ L q a, rule L q a → Accepts w limit L q a) (rep : Represents (last T) log)
    (current : (log id).getLast? = some c) (behind : Behind (last T).clock w [])
    (live : c.snapshot.trust.status ≠ .revoked) (room : c.snapshot.trust.revision ≠ 0xFFFFFFFFFFFFFFFF)
    (target : status = .revoked ∨ status = .suspended ∧ c.snapshot.trust.status = .active)
    (late : c.snapshot.trust.updatedAt.ns ≤ w) :
    wp (alone rule i call) (contain id c.snapshot.approvedRevision status) T [] (fun T' _ r =>
      r = .ok () ∧ ∃ c', (last T').trusts.get id = some (marshal c') ∧ Committed id c' ∧
        c'.snapshot.trust.status = status ∧
        c'.snapshot.trust.revision = c.snapshot.trust.revision + 1) := by
  have committed := rep.committed current
  have stored := rep.stored current
  refine wp_require_pass ?_ (wp_then (pass_read accepts committed stored ?_))
  · rcases target with rfl | ⟨rfl, -⟩ <;> rfl
  intro e₁ L₁ _ after₁
  refine wp_require_pass ?_ (wp_then (pass_actor accepts ?_ ?_))
  · simp only [beq_self_eq_true, Bool.true_and, Bool.and_eq_true, bne_iff_ne, ne_eq, Bool.or_eq_true, beq_iff_eq]
    refine ⟨live, ?_⟩
    rcases target with rfl | ⟨-, active⟩
    · exact .inl (by decide)
    · exact .inr active
  · rw [last_append, after₁]
    exact behind.mono (List.nil_prefix)
  intro e₂ r L₂ a _ after₂ behind₂ uuid until_
  rw [last_append, after₁] at after₂
  refine wp_now_then ?_
  intro t ht
  refine wp_then ?_
  intro drawn hdrawn
  obtain ⟨bits, rfl⟩ := Option.isSome_iff_exists.mp (accepts _ _ _ hdrawn)
  have checks := containable committed live room target (late.trans (accepts _ _ _ ht).2.1) (uuidText bits)
    a.principalID
  have ext : Extends id (log id) (containedTrust c status t.time (uuidText bits) a.principalID) := by
    refine ⟨contained_committed committed checks.2 t.representable uuid, ?_, ?_⟩
    · intro empty
      rw [empty] at current
      cases current
    · intro l hl
      rw [Option.mem_def, current] at hl
      cases hl
      exact checks.1
  refine wp_require_pass (by rw [checks.1, checks.2]; rfl) (pass_transaction accepts ?_)
  rw [last_append]
  refine (Tx.wp_bind _ _ _).mpr (pass_observeClock accepts (behind₂.mono (by simp)) ?_)
  intro r' _ _
  refine Ledger.wp_cancelled_then ?_
  intro ended hended
  obtain rfl : ended = false := accepts _ _ _ hended
  refine Tx.wp_require_pass rfl (Ledger.wp_now_then ?_)
  intro t' ht'
  refine Tx.wp_require_pass (Time.before_iff.mpr ((accepts _ _ _ ht').2.2.trans_le until_)) (Tx.wp_read_then ?_)
  have found : (ticked e₂.after r'.time).trusts.get id = some (marshal c) := by
    rw [after₂]
    exact stored
  refine Ledger.wp_orFail_pass_then (by rw [found]; exact committed.decodes) ?_
  refine Tx.wp_require_pass (by simp) (Tx.wp_read_then (Tx.wp_require_pass ?_ ?_))
  · rw [after₂]
    exact Option.isNone_iff_eq_none.mpr ((rep.holds id).free ext)
  refine ⟨(), _, rfl, ?_⟩
  intro e after
  refine ⟨rfl, _, ?_, ext.committed, rfl, rfl⟩
  rw [last_append, after]
  simp

end Contain

namespace Sample

/- One trust that is requested, configured, verified and activated, with a clock
that stands still; then it is read while the clock of another call has overtaken it. -/

def reading : Reading := ⟨⟨Time.second, 0⟩, second_representable, second_representable⟩
def later : Time := ⟨2 * Time.second, 0⟩
def ahead : Reading := ⟨⟨3 * Time.second, 0⟩, by decide, by decide⟩

def trustID : Text := uuidText 1

def trust (n : Nat) : Trust :=
  { id := trustID, protocol := .oidc, upstreamIssuer := "https://a", organisationIDs := ["o".toList],
    estateIDs := ["est".toList], providerBinding := ⟨"provider_a", "ei_abc", "ref_conf", "ref_keys"⟩,
    status := [TrustStatus.requested, .configuring, .verifying].getD n .active,
    assurancePolicyReference := "ref_abcd", attributeMappingReference := "ref_abcd",
    provisioningPolicyReference := "ref_abcd", revision := UInt64.ofNat (n + 1), createdAt := reading.time,
    updatedAt := reading.time, activationEvidenceReference := "ref_abcd", activatedAt := some reading.time,
    revokedAt := none }

def snapshot (n : Nat) : TrustSnapshot := ⟨trust n, UInt64.ofNat (n + 1), uuidText 2, later⟩

def want (n : Nat) : ReferenceExpectation :=
  { id := "ref_abcd", kind := .federationActivation, trustID, snapshotID := uuidText 2,
    trustRevision := UInt64.ofNat (n + 1), providerID := "provider_a", engineInstanceID := "ei_abc",
    scope := ⟨"o", "est"⟩ }

def proposalID (n : Nat) : Text := uuidText (BitVec.ofNat 128 (10 + n))

def who : ApprovalAction → Text
  | .propose => uuidText 3
  | _ => uuidText 4

/-- Everything is granted for two seconds more; the clock stands at `r`. -/
def oracle (r : Reading) (digest : Text) : Oracle ports := fun _ q =>
  match q with
  | .now => r
  | .cancelled => false
  | .storage => .ok ()
  | .authorizeApproval action _ => .ok ⟨who action, r.time.add later.ns⟩
  | .resolveApprovedTarget _ => .ok digest
  | .reference want => .ok ⟨want, "APPROVED", true, r.time, r.time.add later.ns⟩
  | .randomUUID => some 5
  | q => refusal r q

theorem oracle_readings {r : Reading} {digest : Text} {L : Log ports} (h : AnsweredBy (oracle r digest) L) :
    ∀ t ∈ readings L, t = r.time := by
  induction h with
  | nil => simp [readings]
  | snoc h q ih =>
    intro t ht
    rw [readings_append] at ht
    rcases List.mem_append.mp ht with ht | ht
    · exact ih t ht
    · cases q with
      | now => exact List.mem_singleton.mp ht
      | _ => cases ht

theorem oracle_clock {r : Reading} {digest : Text} {L : Log ports} (h : AnsweredBy (oracle r digest) L) :
    clockRule L .now r = true := by
  refine List.all_eq_true.mpr ?_
  intro t ht
  rw [oracle_readings h t ht]
  simp

theorem oracle_accepts (r : Reading) (digest : Text) (L : Log ports) (q : Query)
    (h : AnsweredBy (oracle r digest) L) : Accepts r.time.ns (r.time.ns + 1) L q (oracle r digest L q) := by
  have ends : r.time.ns + 1 ≤ (r.time.add later.ns).ns := by
    have : later.ns = 2000000000 := by decide
    simp only [Time.add_ns]
    omega
  cases q with
  | now => exact ⟨oracle_clock h, le_refl _, Int.lt_succ _⟩
  | cancelled => rfl
  | storage => rfl
  | authorizeApproval action want =>
    refine ⟨_, rfl, ?_, ends⟩
    cases action <;> exact uuidText_pattern _
  | randomUUID => rfl
  | _ => trivial

def digest (n : Nat) : Text :=
  [("sha256:dcc23efd074832ca66a9c17c807e8bce965e4e9dacff21689d6b9ae2c058547f" : Text),
    "sha256:0be5085ede6c8a8aef9f4e216101dd69d807f7c63d620b9837ec20efce6071da",
    "sha256:591035900374bd53d3d2036638ee899385225eeaee6faaf84edaff1051f002d0",
    "sha256:a8202537a9c3a90202c637e69cfe43c887e96a0a82b7f35ce4cfcefa0b78c9bf"].getD n []

/-- Revision `n + 1` is proposed and approved. -/
def approval (n steps : Nat) : List (Action system) :=
  .begin (.propose (proposalID n) (snapshot n) (want n)) ::
    List.replicate 13 (.step (2 * n) (oracle reading (digest n))) ++
    .begin (.decide (proposalID n) (digest n) true) ::
      List.replicate steps (.step (2 * n + 1) (oracle reading (digest n)))

def activated : List (Action system) := approval 0 13 ++ approval 1 13 ++ approval 2 13 ++ approval 3 25

/-- A call has passed its last fence when another one stores a time after the snapshot's end. -/
def overtaken : List (Action system) :=
  activated ++ .begin (.trust trustID) :: List.replicate 17 (.step 8 (oracle reading [])) ++
    .begin (.trust trustID) :: List.replicate 3 (.step 9 (oracle ahead []))

def closing : List (Action system) := List.replicate 3 (.step 8 (oracle reading []))

def returned : Thread system → Option TrustSnapshot
  | ⟨.trust id, _, .ret s⟩ => if id = trustID then some s else none
  | _ => none

theorem returned_eq {t : Thread system} {s : TrustSnapshot} (h : returned t = some s) :
    ∃ L, t = ⟨.trust trustID, L, .ret s⟩ := by
  unfold returned at h
  split at h
  · rename_i id L s'
    split at h
    · rename_i same
      cases h
      exact ⟨L, by rw [same]⟩
    · cases h
  · cases h

-- evaluated at once: the runs share their first part
theorem runs :
    (((exec system activated).store.history.get (historyKey trustID 4)).bind decodeAuthority).map
      CommittedTrust.snapshot = some (snapshot 3) ∧
    (((exec system activated).store.trusts.get trustID).bind decodeAuthority).map CommittedTrust.snapshot =
      some (snapshot 3) ∧
    (watermark (exec system activated).store.clock).map Time.ns = some Time.second ∧
    (watermark (exec system overtaken).store.clock).map Time.ns = some ahead.time.ns ∧
    (exec system overtaken).threads[8]?.bind returned = none ∧
    (exec system (overtaken ++ closing)).threads[8]?.bind returned = some (snapshot 3) ∧
    (∀ t ∈ (exec system activated).threads, InOrder t.log) ∧
    ∀ t ∈ (exec system (overtaken ++ closing)).threads, InOrder t.log := by
  decide +kernel

end Sample

end Federation.TrustLedger
