import BaobabIam.Base.Moves
import BaobabIam.Federation.BrokerEvents

/-! The requests of the broker event ledger and the nonces that find them. Abstractly a
ledger holds a map from ids to requests: one bucket holds the requests of the map, the
other is its inverse through their nonces. A request is begun under a nonce that nobody
drew before; every other transaction burns a request or drops one together with its
nonce, so the two buckets stay in step in every run. -/
namespace Federation.BrokerEvents

open Wire Interleaving Relation

def Requested (s : Store) (id : Text) (q : BrokerRequest) : Prop :=
  (s.requests.get id).bind decodeAuthority = some q

def BrokerRequest.burn (q : BrokerRequest) : BrokerRequest := { q with request := { q.request with consumed := true } }

/-- What a transaction does to requests and nonces unless it begins a request. -/
inductive Move (s s' : Store) : Prop
  | same (requests : s'.requests = s.requests) (nonces : s'.nonces = s.nonces)
  | burnt (id : Text) (q : BrokerRequest) (found : Requested s id q)
      (requests : s'.requests = s.requests.put id (marshal q.burn)) (nonces : s'.nonces = s.nonces)
  | dropped (id : Text) (q : BrokerRequest) (found : Requested s id q) (requests : s'.requests = s.requests.delete id)
      (nonces : s'.nonces = s.nonces.delete q.request.nonceDigest)

section Bodies

variable {α : Type} {rule : Rule ports} {st : Store} {L : Log ports} {s : TrustSnapshot} {c : BrokerConfiguration}

@[simp] theorem wp_orFail {e : Fault} {o : Option α} {Q : Except Fault (α × Store) → Log ports → Prop} :
    (Ledger.orFail e o).wp rule st L Q ↔ (∀ a, o = some a → Q (.ok (a, st)) L) ∧
    (o = none → Q (.error e) L) := by
  cases o <;> simp [Ledger.orFail]

@[simp] theorem wp_now {Q : Except Fault (Time × Store) → Log ports → Prop} : (Ledger.now).wp rule st L Q ↔
    ∀ r : Reading, rule L Query.now r → Q (.ok (r.time, st)) (L ++ [⟨Query.now, r⟩]) := Iff.rfl

@[simp] theorem wp_cancelled {Q : Except Fault (Bool × Store) → Log ports → Prop} :
    (Ledger.cancelled).wp rule st L Q ↔
    ∀ b : Bool, rule L Query.cancelled b → Q (.ok (b, st)) (L ++ [⟨Query.cancelled, b⟩]) := Iff.rfl

@[simp] theorem same_moves {s s' : Store} (requests : s'.requests = s.requests) (nonces : s'.nonces = s.nonces) :
    ReflTransGen Move s s' := .single (.same requests nonces)

theorem observeClock_moves : (observeClock clock).Moves Move := by
  simp [Tx.Moves, observeClock, observeClockAt, clock]

@[simp] theorem findBody_moves (nonce : Text) : (findBody s c nonce).Moves Move := by
  simp [Tx.Moves, findBody, request]

@[simp] theorem captureBody_moves (cfg : Settings) (id : Text) (x : BrokerCapture) :
    (captureBody cfg s c id x).Moves Move := by
  simp [Tx.Moves, captureBody, observeClock, observeClockAt, request, clock]

@[simp] theorem storeBody_moves (id : Text) (event : StoredEvent) : (storeBody id event).Moves Move := by
  simp [Tx.Moves, storeBody, observeClock, observeClockAt, clock]

@[simp] theorem verifyBody_moves (id : Text) : (verifyBody id s).Moves Move := by
  simp [Tx.Moves, verifyBody, observeClock, observeClockAt, clock]

@[simp] theorem burnBody_moves (input : BrokerCallback) : (burnBody s c input).Moves Move := by
  refine .bind observeClock_moves fun _ rule st L => ?_
  apply (Tx.wp_bind _ _ _).mpr
  apply Tx.wp_read_then
  apply Ledger.wp_orFail_then (by rintro e L a s' ⟨⟩)
  intro q decoded
  have found : Requested st input.eventID q := bind_of_getD decoded
  have burnt : ∀ s' : Store, s'.requests = st.requests.put input.eventID (marshal q.burn) →
      s'.nonces = st.nonces → ReflTransGen Move st s' :=
    fun s' requests nonces => .single (.burnt input.eventID q found requests nonces)
  unfold BrokerRequest.burn at burnt
  simp [burnt]

end Bodies

section Sweeps

variable {kind : Kind} {s : Store} {k v : Text} {x : Time}

theorem Kind.get_set (kind : Kind) (b : Bucket) (s : Store) : kind.get (kind.set b s) = b := by
  cases kind <;> rfl

theorem Kind.get_release (kind : Kind) (v : Text) (s : Store) : kind.get (kind.release v s) = kind.get s := by
  cases kind with
  | requests =>
    dsimp only [Kind.release]
    cases decodeAuthority (α := BrokerRequest) v <;> rfl
  | _ => rfl

theorem drop_move (found : (kind.get s).get k = some v) (read : kind.expiry v = some x) :
    Move s (kind.set ((kind.get (kind.release v s)).delete k) (kind.release v s)) := by
  cases kind with
  | requests =>
    obtain ⟨q, decoded, -⟩ := Option.map_eq_some_iff.mp read
    have released : Kind.release .requests v s = { s with nonces := s.nonces.delete q.request.nonceDigest } := by
      simp only [Kind.release, decoded]
    rw [released]
    refine .dropped k q ?_ rfl rfl
    exact (congrArg (fun o => Option.bind o decodeAuthority) found).trans decoded
  | _ => exact .same rfl rfl

theorem scan_moves {now : Time} {limit removed : Nat} {es : List (Text × Text)} {rule : Rule ports} {L : Log ports}
    (sorted : es.Pairwise (fun a b => keyLt a.1 b.1 = true)) (current : ∀ e ∈ es, (kind.get s).get e.1 = some e.2) :
    (scan kind now limit es removed).wp rule s L (fun r _ => ∀ n s', r = .ok (n, s') → ReflTransGen Move s s') := by
  induction es generalizing removed s L with
  | nil => simp [scan]
  | cons e es ih =>
    obtain ⟨first, rest⟩ := List.pairwise_cons.mp sorted
    have others : ∀ d ∈ es, (kind.get s).get d.1 = some d.2 := fun d hd => current d (List.mem_cons_of_mem _ hd)
    unfold scan
    split
    · apply Ledger.wp_cancelled_checked (Tx.quiet_ok _)
      rintro ended -
      apply Ledger.wp_orFail_then (Tx.quiet_ok _)
      intro x read
      split
      · exact ih rest others
      · have dropped := drop_move (current e List.mem_cons_self) read
        apply Tx.wp_write_then
        apply Tx.wp_write_then
        refine Tx.wp_mono (ih rest ?_) ?_
        · intro d hd
          rw [Kind.get_set, Kind.get_release, Bucket.get_delete, if_neg]
          · exact others d hd
          · intro same
            have below := first d hd
            rw [same, keyLt_irrefl] at below
            cases below
        · intro r _ reached n s' done
          exact .head dropped (reached n s' done)
    · simp

theorem sweep_moves (kind : Kind) (now : Time) (limit removed : Nat) : (sweep kind now limit removed).Moves Move := by
  intro rule s L
  apply Tx.wp_read_then
  exact scan_moves (kind.get s).sorted fun e he => (Bucket.mem_entries _ e.1 e.2).mp he

@[simp] theorem pruneBody_moves (limit : Nat) : (pruneBody limit).Moves Move := by
  refine .bind observeClock_moves fun _ => .bind (by simp [Tx.Moves]) fun now => ?_
  refine .bind (sweep_moves _ _ _ _) fun _ => .bind (sweep_moves _ _ _ _) fun _ => ?_
  exact .bind (sweep_moves _ _ _ _) fun _ => sweep_moves _ _ _ _

end Sweeps

section Calls

variable {cfg : Settings} {α : Type}

@[simp] theorem transaction_moves {body : Body α} {Q : α → Prop} (h : body.Moves Move) :
    (transaction authorityError body).Every (Tx.Moves Move) Q ↔ ∀ a, Q a := by
  constructor
  · exact fun h a => h.2 (.ok a)
  · refine fun holds => ⟨.bind ?_ fun _ => h, ?_⟩
    · rintro rule s L (e | u) -
      · rintro a s' ⟨⟩
      · rintro a s' ⟨⟩
        exact .refl
    · intro r
      cases r with
      | ok a => exact holds a
      | error e => trivial

@[simp] theorem now_moves {Q : Time → Prop} : (now : Op Time).Every (Tx.Moves Move) Q ↔
    ∀ r : Reading, Q r.time := Iff.rfl

@[simp] theorem cancelled_moves {Q : Bool → Prop} : (cancelled : Op Bool).Every (Tx.Moves Move) Q ↔ ∀ b, Q b :=
  Iff.rfl

@[simp] theorem question_moves {q : Query} {Q : ports.Answer q → Prop} :
    (Prog.question (I := ports) q : Op (ports.Answer q)).Every (Tx.Moves Move) Q ↔ ∀ a, Q a := Iff.rfl

@[simp] theorem tokenEndpoint_moves {c : BrokerConfiguration} {code verifier : Text} {Q : Except Fault Text → Prop} :
    (tokenEndpoint c code verifier).Every (Tx.Moves Move) Q ↔ ∀ a, Q a := Prog.every_effect (Tx.moves_ask _)

variable {s : TrustSnapshot}

theorem prune_moves (limit : Nat) : (prune limit).Every (Tx.Moves Move) fun _ => True := by
  simp [prune]

@[simp] theorem configuration_moves : (configuration cfg s).Every (Tx.Moves Move) fun _ => True := by
  unfold configuration
  cases s.trust.protocol <;> simp

@[simp] theorem recheck_moves (c : BrokerConfiguration) : (recheck cfg s c).Every (Tx.Moves Move) fun _ => True := by
  refine Prog.every_bind.mpr (Prog.every_mono (Prog.every_attempt.mpr configuration_moves) ?_)
  rintro (e | current) <;> simp

@[simp] theorem samlResponse_moves (c : BrokerConfiguration) (issuer raw id : Text) (certificates : List Text) :
    (samlResponse c issuer raw id certificates : Op SAMLAssertion).Every (Tx.Moves Move) fun _ => True := by
  induction certificates with
  | nil => trivial
  | cons certificate rest ih =>
    intro answer
    cases answer with
    | some a => trivial
    | none => exact ih

@[simp] theorem captureEvidence_moves (c : BrokerConfiguration) (input : BrokerEvidence) (id : Text)
    (req : BrokerRequest)
    (now : Time) : (captureEvidence cfg s c input id req now).Every (Tx.Moves Move) fun _ => True := by
  unfold captureEvidence
  cases s.trust.protocol <;> simp [captureSAML, verifyBrokerSAML]

theorem capture_moves (input : BrokerEvidence) : (capture cfg s input).Every (Tx.Moves Move) fun _ => True := by
  simp [capture]

theorem complete_moves (input : BrokerCallback) : (complete cfg s input).Every (Tx.Moves Move) fun _ => True := by
  simp [complete, exchange, mapAssurance]

theorem verify_moves (id : Text) : (verify id s).Every (Tx.Moves Move) fun _ => True := by
  simp [verify]

/-- What a transaction can do to requests and nonces. A call begins one request, under a nonce it drew. -/
inductive Change (T : Trace (system cfg)) (e : Entry (system cfg)) : Prop
  | moved (h : Moved Move e)
  | begun (r : BrokerRequest) (room : e.before.requests.keyN < 4096) (free : e.before.requests.get r.request.id = none)
      (requests : e.after.requests = e.before.requests.put r.request.id (marshal r))
      (nonces : e.after.nonces = e.before.nonces.put r.request.nonceDigest r.request.id)
      (drawn : r.request.nonceDigest ∈ draws (I := ports) nonceKey e.start) (first : Own e.thread (Moved Move) T)

variable {i : Nat} {call : Call} {T : Trace (system cfg)} {L : Log ports}

theorem begin_changes (s : TrustSnapshot) (sessionDigest : Text) (own : Own i (Moved Move) T) :
    wp (safe Change i call) (begin cfg s sessionDigest) T L (fun _ _ _ => True) := by
  have quiet : Quiet (fun (_ : Trace (system cfg)) _ (_ : Except Fault BrokerChallenge) => True) :=
    fun _ _ _ => trivial
  apply wp_require_then quiet
  rintro -
  apply wp_moves_then quiet (fun _ _ => .moved) configuration_moves own
  intro c T₁ L₁ own
  apply wp_moves_then quiet (fun _ _ => .moved) (prune_moves 128) own
  intro _ T₂ L₂ own
  apply wp_randomUUID_then quiet
  rintro id -
  apply wp_randomString_then quiet
  rintro state -
  apply wp_randomString_then quiet
  rintro nonce -
  apply wp_randomString_then quiet
  rintro verifier -
  apply wp_now_checked quiet
  rintro created - -
  apply wp_then
  apply wp_transaction quiet.andThen
  · intro T e same
    apply Change.moved
    rw [Moved, same]
  intro T' others
  apply wp_observeClock_then (Tx.quiet_ok _)
  rintro r - -
  apply Ledger.wp_cancelled_checked (Tx.quiet_ok _)
  rintro ended -
  apply Ledger.wp_now_checked (Tx.quiet_ok _)
  rintro current - -
  apply Tx.wp_read_then
  apply Tx.wp_require_then (Tx.quiet_ok _)
  intro room
  apply Tx.wp_require_then (Tx.quiet_ok _)
  rintro free b s' ⟨⟩
  refine ⟨.begun _ (of_decide_eq_true room) (Option.isNone_iff_eq_none.mp free) rfl rfl ?_
    (own.others others), trivial⟩
  exact List.mem_filterMap.mpr ⟨⟨Query.randomString, some nonce⟩, by simp, rfl⟩

theorem code_changes (i : Nat) (c : Call) (T : Trace (system cfg)) (clean : ∀ e ∈ T, e.thread ≠ i) :
    wp (safe Change i c) ((system cfg).code c) T [] (fun _ _ _ => True) := by
  have moves : ∀ {α : Type} {p : Op α}, p.Every (Tx.Moves Move) (fun _ => True) →
      wp (safe Change i c) p T [] (fun _ _ _ => True) :=
    fun h => wp_moves (fun _ _ => .moved) h (.start clean) fun _ _ _ _ => trivial
  cases c with
  | begin s sessionDigest => exact begin_changes s sessionDigest (.start clean)
  | capture s input => exact moves (capture_moves input)
  | complete s input => exact moves (complete_moves input)
  | verify id s => exact moves (verify_moves id)
  | prune limit => exact moves (prune_moves limit)

end Calls

section Index

variable {index : Text → Option BrokerRequest} {s s' : Store}

/-- The requests of the map are stored, and the nonces are its inverse. -/
structure Represents (index : Text → Option BrokerRequest) (s : Store) : Prop where
  stored : ∀ id, s.requests.get id = (index id).map marshal
  named : ∀ id q, index id = some q → q.request.id = id
  indexed : ∀ k id, s.nonces.get k = some id ↔ ∃ q, index id = some q ∧ q.request.nonceDigest = k

theorem Represents.found (h : Represents index s) {id : Text} {q : BrokerRequest} (found : Requested s id q) :
    index id = some q := by
  rw [Requested, h.stored id] at found
  cases held : index id with
  | none => simp [held] at found
  | some p =>
    rw [held] at found
    rw [(decodeAuthority_inv found).1]

theorem Represents.burnt (h : Represents index s) {id : Text} {q : BrokerRequest} (held : index id = some q)
    (requests : s'.requests = s.requests.put id (marshal q.burn)) (nonces : s'.nonces = s.nonces) :
    Represents (fun id' => if id' = id then some q.burn else index id') s' := by
  obtain ⟨stored, named, indexed⟩ := h
  have same : q.burn.request.id = q.request.id ∧ q.burn.request.nonceDigest = q.request.nonceDigest := ⟨rfl, rfl⟩
  constructor <;> grind [Bucket.get_put]

theorem Represents.dropped (h : Represents index s) {id : Text} {q : BrokerRequest} (held : index id = some q)
    (requests : s'.requests = s.requests.delete id) (nonces : s'.nonces = s.nonces.delete q.request.nonceDigest) :
    Represents (fun id' => if id' = id then none else index id') s' := by
  obtain ⟨stored, named, indexed⟩ := h
  have own := (indexed q.request.nonceDigest id).mpr ⟨q, held, rfl⟩
  constructor <;> grind [Bucket.get_delete]

theorem Represents.begun (h : Represents index s) {r : BrokerRequest} (free : s.requests.get r.request.id = none)
    (unused : s.nonces.get r.request.nonceDigest = none)
    (requests : s'.requests = s.requests.put r.request.id (marshal r))
    (nonces : s'.nonces = s.nonces.put r.request.nonceDigest r.request.id) :
    Represents (fun id' => if id' = r.request.id then some r else index id') s' := by
  obtain ⟨stored, named, indexed⟩ := h
  constructor <;> grind [Bucket.get_put]

theorem Represents.nonces_le (h : Represents index s) : s.nonces.keyN ≤ s.requests.keyN := by
  obtain ⟨stored, -, indexed⟩ := h
  apply Bucket.keyN_le (fun k => (s.nonces.get k).getD [])
  · intro k hk
    obtain ⟨id, there⟩ := Bucket.mem_keys.mp hk
    obtain ⟨q, held, -⟩ := (indexed k id).mp there
    exact Bucket.mem_keys.mpr ⟨marshal q, by simp [there, stored, held]⟩
  · intro k hk k' hk' same
    obtain ⟨id, there⟩ := Bucket.mem_keys.mp hk
    obtain ⟨id', there'⟩ := Bucket.mem_keys.mp hk'
    grind

def Consistent (s : Store) : Prop := (∃ index, Represents index s) ∧ s.requests.keyN ≤ 4096

theorem Move.consistent (h : Move s s') (start : Consistent s) : Consistent s' := by
  obtain ⟨⟨index, holds⟩, bounded⟩ := start
  cases h with
  | same requests nonces =>
    refine ⟨⟨index, fun id => by rw [requests, holds.stored], holds.named,
      fun k id => by rw [nonces, holds.indexed]⟩, ?_⟩
    rwa [requests]
  | burnt id q found requests nonces =>
    have held := holds.found found
    refine ⟨⟨_, holds.burnt held requests nonces⟩, le_trans ?_ bounded⟩
    rw [requests]
    apply Bucket.keyN_put_le
    rw [holds.stored, held]
    rfl
  | dropped id q found requests nonces =>
    refine ⟨⟨_, holds.dropped (holds.found found) requests nonces⟩, le_trans ?_ bounded⟩
    rw [requests]
    exact List.length_filter_le _ _

theorem Move.nonce (h : Move s s') {k id : Text} (there : s'.nonces.get k = some id) : s.nonces.get k = some id := by
  cases h <;> grind [Bucket.get_delete]

theorem moves_consistent (h : ReflTransGen Move s s') (start : Consistent s) : Consistent s' := by
  induction h with
  | refl => exact start
  | tail _ step ih => exact step.consistent ih

theorem moves_nonce (h : ReflTransGen Move s s') {k id : Text} (there : s'.nonces.get k = some id) :
    s.nonces.get k = some id := by
  induction h with
  | refl => exact there
  | tail _ step ih => exact ih (step.nonce there)

variable {cfg : Settings} {T : Trace (system cfg)} {e : Entry (system cfg)}

theorem draws_fresh : FreshDraws (system cfg) nonceKey := by
  intro logs L q a admitted k drawn L' hL' again
  have key : nonceKey (⟨q, a⟩ : Σ q : Query, q.Answer) = some k := drawn
  have all := (Bool.and_eq_true_iff.mp admitted).2
  rw [key] at all
  have new := List.all_eq_true.mp all L' hL'
  simp only [Bool.not_eq_true', List.contains_eq_mem, decide_eq_false_iff_not] at new
  exact new again

/-- The nonce of a new request finds nothing: whoever stored it before drew it too, and the call itself stored none. -/
theorem nonce_unused {run : Config (system cfg)} (drawn : Drawn nonceKey run) (valid : Valid Change T)
    (sub : T ++ [e] <+: run.trace) (from_last : e.before = last T) {k : Text}
    (mine : k ∈ draws (I := ports) nonceKey e.start) (first : Own e.thread (Moved Move) T) :
    e.before.nonces.get k = none := by
  cases held : e.before.nonces.get k with
  | none => rfl
  | some id =>
    rw [from_last] at held
    obtain ⟨U, a, D, rfl, -, -, met, before, id', after⟩ :=
      valid.crossing (P := fun s => ∃ id, s.nonces.get k = some id) List.nil_prefix
        (by rintro ⟨id, ⟨⟩⟩) ⟨id, held⟩
    have ha : a ∈ U ++ a :: D := by simp
    have added : ¬ Moved Move a := fun moved => before ⟨id', moves_nonce moved after⟩
    cases met with
    | moved h => exact absurd h added
    | begun r _ _ _ nonces theirs _ =>
      by_cases same : k = r.request.nonceDigest
      · rw [← same] at theirs
        have thread := drawn.same_thread (sub.subset (List.mem_append_left _ ha)) (sub.subset (by simp)) theirs mine
        exact absurd (first a ha thread) added
      · rw [nonces, Bucket.get_put_ne _ _ same] at after
        exact absurd ⟨id', after⟩ before

theorem exec_consistent (schedule : List (Action (system cfg))) : Consistent (exec _ schedule).store := by
  have sound : Sound Change (fun _ _ _ _ _ => True) (exec _ schedule) := exec_sound code_changes schedule
  have drawn := exec_drawn draws_fresh schedule
  rw [sound.store]
  suffices along : ∀ T, Valid Change T → T <+: (exec _ schedule).trace → Consistent (last T) from
    along _ sound.valid (List.prefix_refl _)
  intro T valid
  induction valid with
  | nil => exact fun _ => ⟨⟨fun _ => none, fun _ => rfl, nofun, fun k id => by simp [system, Store.empty]⟩,
      Nat.zero_le _⟩
  | @snoc T e valid from_last meets ih =>
    intro sub
    have start := ih ((List.prefix_append _ _).trans sub)
    rw [← from_last] at start
    rw [last_append]
    cases meets with
    | moved h => exact moves_consistent h start
    | begun r room free requests nonces mine first =>
      obtain ⟨⟨index, holds⟩, -⟩ := start
      have unused := nonce_unused drawn valid sub from_last mine first
      refine ⟨⟨_, holds.begun free unused requests nonces⟩, ?_⟩
      rw [requests]
      exact (Bucket.keyN_put_succ _ _ _).trans room

/-- In every run each stored request has exactly one nonce, its own, and each nonce belongs to
a stored request; there are at most 4096 of either. -/
theorem requests_indexed (cfg : Settings) (schedule : List (Action (system cfg))) :
    (∀ id raw, (exec (system cfg) schedule).store.requests.get id = some raw →
      ∃ q : BrokerRequest, raw = marshal q ∧ q.request.id = id ∧
        ∀ k, (exec (system cfg) schedule).store.nonces.get k = some id ↔ k = q.request.nonceDigest) ∧
    (∀ k id, (exec (system cfg) schedule).store.nonces.get k = some id →
      ∃ q : BrokerRequest, (exec (system cfg) schedule).store.requests.get id = some (marshal q) ∧
        q.request.nonceDigest = k) ∧
    (exec (system cfg) schedule).store.requests.keyN ≤ 4096 ∧
    (exec (system cfg) schedule).store.nonces.keyN ≤ 4096 := by
  obtain ⟨⟨index, holds⟩, bounded⟩ := exec_consistent schedule
  refine ⟨?_, ?_, bounded, holds.nonces_le.trans bounded⟩
  · intro id raw found
    rw [holds.stored] at found
    obtain ⟨q, held, rfl⟩ := Option.map_eq_some_iff.mp found
    refine ⟨q, rfl, holds.named id q held, ?_⟩
    intro k
    rw [holds.indexed, held]
    simp only [Option.some.injEq, exists_eq_left', eq_comm]
  · intro k id there
    obtain ⟨q, held, digest⟩ := (holds.indexed k id).mp there
    exact ⟨q, by rw [holds.stored, held]; rfl, digest⟩

end Index

end Federation.BrokerEvents
