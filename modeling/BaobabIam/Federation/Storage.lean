import BaobabIam.Base.Bucket
import BaobabIam.Base.Sequence
import BaobabIam.Federation.Configuration

/-! What the ledgers share: the questions they ask, transactions that the storage
engine may refuse, and the durable clock. -/
namespace Federation

open Wire Interleaving

structure ApprovalActor where
  principalID : Text
  validUntil : Time
  deriving DecidableEq, Repr

inductive ApprovalAction where
  | propose | decide | revoke
  deriving DecidableEq, Repr

/-- A clock reading: years 1 to 9999, in its own zone and in UTC. -/
structure Reading where
  time : Time
  representable : time.Representable
  representable_utc : time.utc.Representable
  deriving DecidableEq

theorem second_representable : Time.Representable ⟨Time.second, 0⟩ := by decide

inductive Query where
  | now
  /-- Whether the caller's context has ended. -/
  | cancelled
  /-- Whether the storage engine runs and commits the transaction. -/
  | storage
  | authorizeApproval (action : ApprovalAction) (want : ReferenceExpectation)
  | resolveApprovedTarget (want : ReferenceExpectation)
  | reference (want : ReferenceExpectation)
  /-- Sixteen random bytes. -/
  | randomUUID
  /-- Thirty-two random bytes. -/
  | randomString
  | oidcConfiguration (s : TrustSnapshot)
  | brokerConfiguration (s : TrustSnapshot)
  | mapAssurance (s : TrustSnapshot) (p : ExternalPrincipal) (a : Assurance)
  /-- The broker's token endpoint, with the client's own credentials. -/
  | tokenEndpoint (c : BrokerConfiguration) (code verifier : Text)
  /-- The SAML library's verdict on a response, for one of the certificates. -/
  | samlResponse (c : BrokerConfiguration) (issuer raw requestID certificate : Text)
  deriving DecidableEq

abbrev Query.Answer : Query → Type
  | .now => Reading
  | .cancelled => Bool
  | .storage => Except Fault Unit
  | .authorizeApproval _ _ => Except Fault ApprovalActor
  | .resolveApprovedTarget _ => Except Fault Text
  | .reference _ => Except Fault ApprovedReference
  | .randomUUID => Option (BitVec 128)
  | .randomString => Option (BitVec 256)
  | .oidcConfiguration _ => Except Fault OIDCConfiguration
  | .brokerConfiguration _ => Except Fault BrokerConfiguration
  | .mapAssurance _ _ _ => Except Fault Assurance
  | .tokenEndpoint _ _ _ => Except Fault Text
  | .samlResponse _ _ _ _ _ => Option SAMLAssertion

def ports : Interface := ⟨Query, Query.Answer⟩

/-- The answers of surroundings that refuse everything and whose clock stands. -/
def refusal (r : Reading) : (q : Query) → q.Answer
  | .now => r
  | .cancelled => true
  | .storage => .error .unavailable
  | .authorizeApproval _ _ => .error .unavailable
  | .resolveApprovedTarget _ => .error .unavailable
  | .reference _ => .error .unavailable
  | .randomUUID => none
  | .randomString => none
  | .oidcConfiguration _ => .error .unavailable
  | .brokerConfiguration _ => .error .unavailable
  | .mapAssurance _ _ _ => .error .unavailable
  | .tokenEndpoint _ _ _ => .error .unavailable
  | .samlResponse _ _ _ _ _ => none

def readings (L : Log ports) : List Time :=
  L.filterMap (fun a =>
    match a with
    | ⟨.now, r⟩ => some r.time
    | _ => none)

def clockRule (L : Log ports) : (q : Query) → q.Answer → Bool
  | .now, r => (readings L).all (fun t => !r.time.before t)
  | _, _ => true

theorem readings_append (L L' : Log ports) : readings (L ++ L') = readings L ++ readings L' := by
  simp [readings]

theorem readings_mono {L L' : Log ports} (h : L <+: L') {t : Time} (ht : t ∈ readings L) :
    t ∈ readings L' := by
  obtain ⟨D, rfl⟩ := h
  rw [readings_append]
  exact List.mem_append_left _ ht

theorem reading_mem (L : Log ports) (r : Reading) : r.time ∈ readings (L ++ [⟨Query.now, r⟩]) := by
  simp [readings]

theorem clockRule_le {L : Log ports} {r : Reading} (h : clockRule L .now r = true) {t : Time}
    (ht : t ∈ readings L) : t.ns ≤ r.time.ns := by
  have all := List.all_eq_true.mp h t ht
  simpa using all

/-- The readings of a call do not decrease. -/
def InOrder (L : Log ports) : Prop := (readings L).Pairwise (fun a b => a.ns ≤ b.ns)

instance (L : Log ports) : Decidable (InOrder L) :=
  inferInstanceAs (Decidable ((readings L).Pairwise (fun a b => a.ns ≤ b.ns)))

theorem InOrder.le {L L₀ : Log ports} (h : InOrder L) {r : Reading}
    (sub : L₀ ++ [⟨Query.now, r⟩] <+: L) {t : Time}
    (ht : t ∈ readings L₀) : t.ns ≤ r.time.ns := by
  obtain ⟨D, rfl⟩ := sub
  rw [InOrder, readings_append, readings_append] at h
  exact (List.pairwise_append.mp (List.pairwise_append.mp h).1).2.2 t ht _ (by simp [readings])

theorem InOrder.mono {L L' : Log ports} (h : InOrder L') (sub : L <+: L') : InOrder L := by
  obtain ⟨D, rfl⟩ := sub
  rw [InOrder, readings_append] at h
  exact (List.pairwise_append.mp h).1

def clockKey : Text := "clock-high-water"

def watermark (clock : Bucket) : Option Time := (clock.get clockKey).bind Time.parse

/-- Record a reading in UTC unless it lies before the watermark. -/
def advanceClock (clock : Bucket) (now : Time) : Option Bucket :=
  match clock.get clockKey with
  | none => some (clock.put clockKey now.format)
  | some raw =>
    match Time.parse raw with
    | none => none
    | some previous => if now.before previous then none else some (clock.put clockKey now.format)

section Programs

variable {S : Type}

def now : Prog ports S Fault Time := do
  let r ← Prog.question (I := ports) .now
  return r.time

def cancelled : Prog ports S Fault Bool := Prog.question (I := ports) .cancelled

def authorizeApproval (action : ApprovalAction) (want : ReferenceExpectation) :
    Prog ports S Fault (Except Fault ApprovalActor) :=
  Prog.question (I := ports) (.authorizeApproval action want)

def resolveApprovedTarget (want : ReferenceExpectation) : Prog ports S Fault (Except Fault Text) :=
  Prog.question (I := ports) (.resolveApprovedTarget want)

def referencePort (want : ReferenceExpectation) : Prog ports S Fault (Except Fault ApprovedReference) :=
  Prog.question (I := ports) (.reference want)

def randomUUID : Prog ports S Fault Text := do
  let drawn ← Prog.question (I := ports) .randomUUID
  match drawn with
  | none => .fail .unavailable
  | some b => return uuidText b

namespace Ledger

def now : Tx ports S Fault Time := do
  let r ← Tx.ask (I := ports) .now
  return r.time

def cancelled : Tx ports S Fault Bool := Tx.ask (I := ports) .cancelled

def storage : Tx ports S Fault Unit := do
  let answer ← Tx.ask (I := ports) .storage
  match answer with
  | .ok _ => return ()
  | .error e => .fail e

def orFail {α : Type} (e : Fault) : Option α → Tx ports S Fault α
  | some a => pure a
  | none => .fail e

end Ledger

def transaction {α : Type} (translate : Fault → Fault) (body : Tx ports S Fault α) :
    Prog ports S Fault α :=
  .atomic (Ledger.storage >>= fun _ => body) (fun r =>
    match r with
    | .ok a => .ret a
    | .error e => .fail (translate e))

end Programs

section Rules

variable {S α β : Type} {sys : System ports S Fault} {v : Setting sys} {T : Trace sys}
  {L : Log ports} {Q : Post sys β}

theorem wp_now_then {f : Time → Prog ports S Fault β}
    (h : ∀ r : Reading, v.rule L Query.now r → wp v (f r.time) T (L ++ [⟨Query.now, r⟩]) Q) :
    wp v (now >>= f) T L Q := wp_then h

theorem wp_cancelled_then {f : Bool → Prog ports S Fault β}
    (h : ∀ b : Bool, v.rule L Query.cancelled b → wp v (f b) T (L ++ [⟨Query.cancelled, b⟩]) Q) :
    wp v (cancelled >>= f) T L Q := wp_then h

theorem wp_now_checked {c : Time → Bool} {e : Fault} {f : Time → Unit → Prog ports S Fault β} (quiet : Quiet Q)
    (h : ∀ r : Reading, v.rule L Query.now r → c r.time = true →
      wp v (f r.time ()) T (L ++ [⟨Query.now, r⟩]) Q) :
    wp v (now >>= fun t => Prog.require (c t) e >>= f t) T L Q :=
  wp_now_then fun r hr => wp_require_then quiet (h r hr)

theorem wp_cancelled_checked {c : Bool → Bool} {e : Fault} {f : Bool → Unit → Prog ports S Fault β}
    (quiet : Quiet Q) (h : ∀ b : Bool, c b = true → wp v (f b ()) T (L ++ [⟨Query.cancelled, b⟩]) Q) :
    wp v (cancelled >>= fun b => Prog.require (c b) e >>= f b) T L Q :=
  wp_cancelled_then fun b _ => wp_require_then quiet (h b)

theorem wp_randomUUID_then {f : Text → Prog ports S Fault β} (quiet : Quiet Q)
    (h : ∀ b : BitVec 128, v.rule L Query.randomUUID (some b) →
      wp v (f (uuidText b)) T (L ++ [⟨Query.randomUUID, some b⟩]) Q) :
    wp v (randomUUID >>= f) T L Q := by
  refine wp_then ?_
  intro drawn hr
  cases drawn with
  | none => exact quiet _ _ _
  | some b => exact h b hr

def AsksStorage (start finish : Log ports) : Prop := ∃ a, start ++ [⟨Query.storage, a⟩] <+: finish

variable {translate : Fault → Fault} {body : Tx ports S Fault β}

/-- A transaction either leaves an idle entry or commits what its body reaches, and
its log shows that it was one. -/
theorem wp_transaction_logged (quiet : Quiet Q)
    (idle : ∀ T e, e.after = e.before → AsksStorage e.start e.finish → v.spec T e)
    (h : ∀ T', v.others T T' → body.wp v.rule (last T') (L ++ [⟨Query.storage, .ok ()⟩]) (fun r L' =>
      ∀ b s', r = .ok (b, s') → AsksStorage L L' → v.spec T' ⟨v.thread, v.call, last T', s', L, L'⟩ ∧
        Q (T' ++ [⟨v.thread, v.call, last T', s', L, L'⟩]) L' (.ok b))) :
    wp v (transaction translate body) T L Q := by
  intro T' hT'
  refine (Tx.wp_bind _ _ _).mpr ((Tx.wp_bind _ _ _).mpr ?_)
  intro answer _
  cases answer with
  | error e => exact ⟨idle _ _ rfl ⟨_, List.prefix_refl _⟩, quiet _ _ _⟩
  | ok u =>
    refine (?_ : body.wp v.rule (last T') (L ++ [⟨Query.storage, .ok u⟩]) _)
    refine Dialogue.wp_grow (Dialogue.wp_mono (h T' hT') ?_)
    intro r L' hr grown
    have asks : AsksStorage L L' := ⟨_, grown⟩
    cases r with
    | error e => exact ⟨idle _ _ rfl asks, quiet _ _ _⟩
    | ok p => exact hr p.1 p.2 rfl asks

theorem wp_transaction_all
    (refused : ∀ T', v.others T T' → ∀ e, v.rule L Query.storage (.error e) →
      v.spec T' ⟨v.thread, v.call, last T', last T', L, L ++ [⟨Query.storage, .error e⟩]⟩ ∧
      Q (T' ++ [⟨v.thread, v.call, last T', last T', L, L ++ [⟨Query.storage, .error e⟩]⟩])
        (L ++ [⟨Query.storage, .error e⟩]) (.error (translate e)))
    (h : ∀ T', v.others T T' → body.wp v.rule (last T') (L ++ [⟨Query.storage, .ok ()⟩]) (fun r L' =>
      v.spec T' (v.entry T' L L' r) ∧ Q (T' ++ [v.entry T' L L' r]) L' ((outcome r).mapError translate))) :
    wp v (transaction translate body) T L Q := by
  intro T' hT'
  apply (Tx.wp_bind _ _ _).mpr
  apply (Tx.wp_bind _ _ _).mpr
  intro answer given
  cases answer with
  | error e => exact refused T' hT' e given
  | ok u =>
    change body.wp v.rule (last T') (L ++ [⟨Query.storage, .ok u⟩]) _
    apply Tx.wp_mono (h T' hT')
    intro r L' hr
    cases r with
    | error e => exact hr
    | ok p => exact hr

theorem wp_transaction (quiet : Quiet Q)
    (idle : ∀ T e, e.after = e.before → v.spec T e)
    (h : ∀ T', v.others T T' → body.wp v.rule (last T') (L ++ [⟨Query.storage, .ok ()⟩]) (fun r L' =>
      ∀ b s', r = .ok (b, s') → v.spec T' ⟨v.thread, v.call, last T', s', L, L'⟩ ∧
        Q (T' ++ [⟨v.thread, v.call, last T', s', L, L'⟩]) L' (.ok b))) :
    wp v (transaction translate body) T L Q := by
  apply wp_transaction_logged quiet (fun T e same _ => idle T e same)
  intro T' others
  apply Tx.wp_mono (h T' others)
  intro r L' hr b s' done _
  exact hr b s' done

end Rules

section BodyRules

variable {S α β : Type} {rule : Rule ports} {s : S} {L : Log ports}
  {Q : Except Fault (β × S) → Log ports → Prop}

theorem Ledger.wp_now_then {f : Time → Tx ports S Fault β}
    (h : ∀ r : Reading, rule L Query.now r → (f r.time).wp rule s (L ++ [⟨Query.now, r⟩]) Q) :
    (Ledger.now >>= f).wp rule s L Q := (Tx.wp_bind _ _ _).mpr h

theorem Ledger.wp_cancelled_then {f : Bool → Tx ports S Fault β}
    (h : ∀ b : Bool, rule L Query.cancelled b → (f b).wp rule s (L ++ [⟨Query.cancelled, b⟩]) Q) :
    (Ledger.cancelled >>= f).wp rule s L Q := (Tx.wp_bind _ _ _).mpr h

variable {e : Fault} {o : Option β} {f : α → Tx ports S Fault β}

theorem Ledger.wp_now_checked {c : Time → Bool} {f : Time → Unit → Tx ports S Fault β} (quiet : Tx.Quiet Q)
    (h : ∀ r : Reading, rule L Query.now r → c r.time = true →
      (f r.time ()).wp rule s (L ++ [⟨Query.now, r⟩]) Q) :
    (Ledger.now >>= fun t => Tx.require (c t) e >>= f t).wp rule s L Q :=
  Ledger.wp_now_then fun r hr => Tx.wp_require_then quiet (h r hr)

theorem Ledger.wp_cancelled_checked {c : Bool → Bool} {f : Bool → Unit → Tx ports S Fault β} (quiet : Tx.Quiet Q)
    (h : ∀ b : Bool, c b = true → (f b ()).wp rule s (L ++ [⟨Query.cancelled, b⟩]) Q) :
    (Ledger.cancelled >>= fun b => Tx.require (c b) e >>= f b).wp rule s L Q :=
  Ledger.wp_cancelled_then fun b _ => Tx.wp_require_then quiet (h b)

theorem Ledger.wp_orFail (quiet : Tx.Quiet Q)
    (h : ∀ b, o = some b → Q (.ok (b, s)) L) : (Ledger.orFail e o).wp rule s L Q := by
  cases o with
  | none => exact quiet _ _
  | some b => exact h b rfl

theorem Ledger.wp_orFail_then {o : Option α}
    (quiet : Tx.Quiet Q) (h : ∀ a, o = some a → (f a).wp rule s L Q) :
    (Ledger.orFail e o >>= f).wp rule s L Q := by
  refine (Tx.wp_bind _ _ _).mpr ?_
  cases o with
  | none => exact quiet _ _
  | some a => exact h a rfl

theorem Ledger.wp_orFail_pass {b : β} (found : o = some b) (h : Q (.ok (b, s)) L) :
    (Ledger.orFail e o).wp rule s L Q := by
  subst found
  exact h

theorem Ledger.wp_orFail_pass_then {o : Option α} {a : α}
    (found : o = some a) (h : (f a).wp rule s L Q) : (Ledger.orFail e o >>= f).wp rule s L Q := by
  subst found
  exact (Tx.wp_bind _ _ _).mpr h

end BodyRules

section Alone

variable {S β : Type} {s : S}

/-- The clock stands at `t`, the caller's context is live and the engine commits. -/
def during (t : Reading) : Allowed ports
  | .now, r => r = t
  | .cancelled, ended => ended = false
  | .storage, answer => answer = .ok ()
  | _, _ => True

theorem during_answers (t : Reading) (q : Query) : ∃ a, during t q a := by
  have other : q.Answer := refusal t q
  cases q with
  | now => exact ⟨t, rfl⟩
  | cancelled => exact ⟨false, rfl⟩
  | storage => exact ⟨.ok (), rfl⟩
  | _ => exact ⟨other, trivial⟩

variable {allowed : Allowed ports} {translate : Fault → Fault} {body : Tx ports S Fault β}
    {Q : S → Except Fault β → Prop}

/-- A transaction of a call that runs alone: the engine refuses or commits it. -/
theorem after_transaction_else (refused : ∀ e, allowed Query.storage (.error e) → Q s (.error (translate e)))
    (h : ∀ L, body.wp (fun _ => allowed) s L (fun r _ => Q (committed s r) ((outcome r).mapError translate))) :
    after allowed (transaction translate body) s Q := by
  intro L
  apply (Tx.wp_bind _ _ _).mpr
  apply (Tx.wp_bind _ _ _).mpr
  intro answer given
  cases answer with
  | error e => exact refused e given
  | ok _ =>
    change body.wp _ s (L ++ [⟨Query.storage, .ok ()⟩]) _
    apply Tx.wp_mono (h _)
    intro r L' hr
    cases r with
    | error e => exact hr
    | ok p => exact hr

theorem after_transaction (commits : ∀ a, allowed Query.storage a → a = .ok ())
    (h : ∀ L, body.wp (fun _ => allowed) s L (fun r _ => Q (committed s r) ((outcome r).mapError translate))) :
    after allowed (transaction translate body) s Q := by
  apply after_transaction_else _ h
  intro e given
  cases commits _ given

end Alone

section Clock

structure Ticks (clock : Bucket) (r : Time) : Prop where
  representable : r.Representable
  representable_utc : r.utc.Representable
  readable : ∀ raw, clock.get clockKey = some raw → ∃ w, Time.parse raw = some w ∧ w.ns ≤ r.ns

def tick (clock : Bucket) (r : Time) : Bucket := clock.put clockKey r.utc.format

theorem advanceClock_ticks {clock clock' : Bucket} (r : Reading)
    (h : advanceClock clock r.time.utc = some clock') : Ticks clock r.time ∧ clock' = tick clock r.time := by
  unfold advanceClock at h
  refine ⟨⟨r.representable, r.representable_utc, ?_⟩, ?_⟩
  · intro raw hraw
    rw [hraw] at h
    simp only at h
    split at h
    · cases h
    · rename_i w hw
      refine ⟨w, hw, ?_⟩
      split at h
      · cases h
      · rename_i hb
        simpa using hb
  · split at h
    · cases h; rfl
    · split at h
      · cases h
      · split at h
        · cases h
        · cases h; rfl

theorem Ticks.advance {clock : Bucket} {r : Time} (h : Ticks clock r) :
    advanceClock clock r.utc = some (tick clock r) := by
  unfold advanceClock
  split
  · rfl
  · rename_i raw hraw
    obtain ⟨w, hw, hle⟩ := h.readable raw hraw
    have late : r.utc.before w = false := by simpa using hle
    simp only [hw, late, Bool.false_eq_true, if_false]
    rfl

theorem watermark_tick (clock : Bucket) {r : Time} (h : r.utc.Representable) :
    watermark (tick clock r) = some r.utc := by
  simp [watermark, tick, Time.parse_format _ h]

theorem Ticks.watermark_le {clock : Bucket} {r w : Time} (h : Ticks clock r)
    (hw : watermark clock = some w) : w.ns ≤ r.ns := by
  obtain ⟨raw, hraw, hp⟩ := Option.bind_eq_some_iff.mp hw
  obtain ⟨w', hw', hle⟩ := h.readable raw hraw
  rw [hp] at hw'
  cases hw'
  exact hle

end Clock

end Federation
