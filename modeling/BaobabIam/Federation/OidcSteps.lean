import BaobabIam.Federation.OidcEvents

/-! What a transaction of the OIDC event ledger can do, and that each call meets it
in any interleaving. -/
namespace Federation.OIDCEvents

open Wire Interleaving

def Requested (s : Store) (id : Text) (q : StoredRequest) : Prop :=
  (s.requests.get id).bind decodeAuthority = some q

def Recorded (s : Store) (id : Text) (event : StoredEvent) : Prop :=
  (s.events.get id).bind decodeAuthority = some event

def Open (id : Text) (s : Store) : Prop := ∃ q, Requested s id q ∧ q.consumed = false

def Unused (id : Text) (s : Store) : Prop := ∃ event, Recorded s id event ∧ event.consumed = false

def tokenExpiry (lib : TokenLibrary) (raw : Text) : Option Time :=
  (lib.parseSigned raw).bind (fun signed => (lib.idToken signed.payload).map IDToken.expiry)

/-- Records are only deleted, and only expired ones; the durable clock stands. -/
structure Swept (now : Time) (s s' : Store) : Prop where
  kept : ∀ kind k v, (Kind.get kind s').get k = some v → (Kind.get kind s).get k = some v
  expired : ∀ kind k v, (Kind.get kind s).get k = some v →
    (Kind.get kind s').get k = some v ∨ ∃ x, kind.expiry v = some x ∧ x.ns ≤ now.ns
  clock : s'.maintenance.get clockKey = s.maintenance.get clockKey

section Sweeps

variable {now : Time} {s s' s'' : Store} {rule : Rule ports} {L : Log ports}

theorem Swept.refl (now : Time) (s : Store) : Swept now s s :=
  ⟨fun _ _ _ h => h, fun _ _ _ h => .inl h, rfl⟩

theorem Swept.trans (h : Swept now s s') (h' : Swept now s' s'') : Swept now s s'' := by
  refine ⟨fun kind k v found => h.kept kind k v (h'.kept kind k v found), ?_, h'.clock.trans h.clock⟩
  intro kind k v found
  rcases h.expired kind k v found with still | gone
  · exact h'.expired kind k v still
  · exact .inr gone

@[simp] theorem Kind.get_set (kind : Kind) (b : Bucket) (s : Store) : kind.get (kind.set b s) = b := by
  cases kind <;> rfl

variable {kind : Kind} {limit : Nat} {Q : Except Fault (Nat × Store) → Log ports → Prop}

theorem Kind.get_set_ne {other : Kind} (h : other ≠ kind) (b : Bucket) (s : Store) :
    other.get (kind.set b s) = other.get s := by
  cases kind <;> cases other <;> first | rfl | exact absurd rfl h

@[simp] theorem Kind.set_maintenance (kind : Kind) (b : Bucket) (s : Store) :
    (kind.set b s).maintenance = s.maintenance := by
  cases kind <;> rfl

theorem Swept.delete {k v : Text} {x : Time} (found : (kind.get s).get k = some v)
    (read : kind.expiry v = some x) (late : x.ns ≤ now.ns) :
    Swept now s (kind.set ((kind.get s).delete k) s) := by
  refine ⟨?_, ?_, by rw [Kind.set_maintenance]⟩
  · intro other k' v' there
    by_cases same : other = kind <;> grind [Kind.get_set, Kind.get_set_ne, Bucket.get_delete]
  · intro other k' v' there
    by_cases same : other = kind <;> grind [Kind.get_set, Kind.get_set_ne, Bucket.get_delete]

/-- A scan stops at a record that has no expiry; otherwise it sweeps. -/
theorem wp_scan {left : Nat} {es : List (Text × Text)} {lastKey : Option Text} {deleted : Nat}
    {Q : Except Fault ((Option Text × Bool × Nat) × Store) → Log ports → Prop}
    (sorted : es.Pairwise (fun a b => keyLt a.1 b.1 = true)) (current : ∀ e ∈ es, (kind.get s).get e.1 = some e.2)
    (ended : ∀ L, rule L Query.cancelled true → Q (.error .unavailable) (L ++ [⟨Query.cancelled, true⟩]))
    (poison : ∀ e ∈ es, (∀ x, kind.expiry e.2 = some x → x.isZero = true) → ∀ L, Q (.error .invalid) L)
    (h : ∀ r s' L', Swept now s s' → Q (.ok (r, s')) L') :
    (scan kind now left es lastKey deleted).wp rule s L Q := by
  induction left generalizing es lastKey deleted s L with
  | zero =>
    cases es with
    | nil => exact h _ _ _ (Swept.refl now s)
    | cons e es => exact h _ _ _ (Swept.refl now s)
  | succ left ih =>
    cases es with
    | nil => exact h _ _ _ (Swept.refl now s)
    | cons e es =>
      obtain ⟨first, rest⟩ := List.pairwise_cons.mp sorted
      have here := current e List.mem_cons_self
      have others : ∀ d ∈ es, (kind.get s).get d.1 = some d.2 := fun d hd => current d (List.mem_cons_of_mem _ hd)
      have poison' : ∀ d ∈ es, (∀ x, kind.expiry d.2 = some x → x.isZero = true) →
          ∀ L, Q (.error .invalid) L :=
        fun d hd => poison d (List.mem_cons_of_mem _ hd)
      apply Ledger.wp_cancelled_then
      intro stop admitted
      cases stop with
      | true => exact (Tx.wp_bind _ _ _).mpr (ended L admitted)
      | false =>
        apply Tx.wp_require_pass rfl
        cases read : kind.expiry e.2 with
        | none => exact (Tx.wp_bind _ _ _).mpr (poison e List.mem_cons_self (by simp [read]) _)
        | some x =>
          apply Ledger.wp_orFail_pass_then rfl
          cases zero : x.isZero with
          | true =>
            refine (Tx.wp_bind _ _ _).mpr ((Tx.wp_require _ _ _).mpr ⟨fun ok => (by cases ok), fun _ => ?_⟩)
            exact poison e List.mem_cons_self (by simpa [read] using zero) _
          | false =>
            apply Tx.wp_require_pass rfl
            split
            · exact ih rest others poison' h
            · rename_i late
              have swept := Swept.delete here read (by simpa using late)
              apply Tx.wp_write_then
              apply ih rest _ poison' (fun r s' L' more => h r s' L' (swept.trans more))
              intro d hd
              rw [Kind.get_set, Bucket.get_delete, if_neg]
              · exact others d hd
              · intro same
                have below := first d hd
                rw [same, keyLt_irrefl] at below
                cases below

theorem resumed_mem {b : Bucket} {cursor : Option Text} {e : Text × Text} (h : e ∈ resumed b cursor) :
    b.get e.1 = some e.2 := by
  apply (Bucket.mem_entries b e.1 e.2).mp
  cases cursor with
  | none => exact h
  | some k => exact List.mem_of_mem_filter h

theorem resumed_sorted (b : Bucket) (cursor : Option Text) :
    (resumed b cursor).Pairwise (fun a b => keyLt a.1 b.1 = true) := by
  cases cursor with
  | none => exact b.sorted
  | some k => exact b.sorted.filter _

theorem cursorKey_ne (kind : Kind) : clockKey ≠ cursorKey kind := by
  cases kind <;> decide

theorem wp_sweep
    (ended : ∀ L, rule L Query.cancelled true → Q (.error .unavailable) (L ++ [⟨Query.cancelled, true⟩]))
    (poison : ∀ k v, (kind.get s).get k = some v → (∀ x, kind.expiry v = some x → x.isZero = true) →
      ∀ L, Q (.error .invalid) L)
    (h : ∀ n s' L', Swept now s s' → Q (.ok (n, s')) L') : (sweep kind now limit).wp rule s L Q := by
  apply Tx.wp_read_then
  apply Tx.wp_read_then
  refine (Tx.wp_bind _ _ _).mpr (wp_scan (resumed_sorted _ _) (fun e he => resumed_mem he) ended
    (fun e he => poison e.1 e.2 (resumed_mem he)) ?_)
  rintro ⟨lastKey, more, deleted⟩ s' L' swept
  apply Tx.wp_write_then
  apply h
  refine swept.trans ⟨?_, ?_, ?_⟩
  · intro other k v found
    cases other <;> exact found
  · intro other k v found
    left
    cases other <;> exact found
  · cases more with
    | false => exact (Bucket.get_delete _ _ _).trans (if_neg (cursorKey_ne kind))
    | true =>
      cases lastKey with
      | none => rfl
      | some k => exact Bucket.get_put_ne _ _ (cursorKey_ne kind)

def ticked (s : Store) (r : Time) : Store := { s with maintenance := tick s.maintenance r }

theorem wp_pruneBody
    (back : ∀ r : Reading, rule L Query.now r → ¬ Ticks s.maintenance r.time →
      Q (.error .denied) (L ++ [⟨Query.now, r⟩]))
    (ended : ∀ L, rule L Query.cancelled true → Q (.error .unavailable) (L ++ [⟨Query.cancelled, true⟩]))
    (poison : ∀ kind k v, (Kind.get kind s).get k = some v → (∀ x, kind.expiry v = some x → x.isZero = true) →
      ∀ L, Q (.error .invalid) L)
    (h : ∀ (r : Reading) n s' L', rule L Query.now r → Ticks s.maintenance r.time →
      Swept r.time (ticked s r.time) s' → Q (.ok (n, s')) L') :
    (pruneBody limit).wp rule s L Q := by
  apply Ledger.wp_now_then
  intro r admitted
  apply wp_observeClockAt (back r admitted)
  intro ticks
  have poisoned : ∀ kind s' k v, Swept r.time (ticked s r.time) s' → (Kind.get kind s').get k = some v →
      (∀ x, kind.expiry v = some x → x.isZero = true) → ∀ L, Q (.error .invalid) L := by
    intro kind s' k v swept found
    have before := swept.kept kind k v found
    cases kind <;> exact poison _ k v before
  refine (Tx.wp_bind _ _ _).mpr (wp_sweep ended (fun k v => poisoned _ _ k v (Swept.refl _ _)) ?_)
  intro a s₁ L₁ swept₁
  refine (Tx.wp_bind _ _ _).mpr (wp_sweep ended (fun k v => poisoned _ _ k v swept₁) ?_)
  intro b s₂ L₂ swept₂
  have both := swept₁.trans swept₂
  refine (Tx.wp_bind _ _ _).mpr (wp_sweep ended (fun k v => poisoned _ _ k v both) ?_)
  intro c s₃ L₃ swept₃
  exact h r _ _ _ admitted ticks (both.trans swept₃)

end Sweeps

section Steps

variable {cfg : Settings}

/-- Call `e` completes request `id`. -/
def Completing (id : Text) (e : Entry (system cfg)) : Prop :=
  ∃ state secret raw s, e.call = .complete id state secret raw s

structure Burns (id : Text) (e : Entry (system cfg)) : Prop where
  call : Completing id e
  before : Open id e.before
  after : ¬ Open id e.after

def Looks (id : Text) (e : Entry (system cfg)) : Prop :=
  ∃ state secret raw s a, e.call = .complete id state secret raw s ∧
    e.finish = e.start ++ [⟨Query.oidcConfiguration s, a⟩]

def Stores (id : Text) (e : Entry (system cfg)) : Prop :=
  e.before.events.get id = none ∧ ∃ raw, e.after.events.get id = some raw

def StoresFrom (raw : Text) (e : Entry (system cfg)) : Prop :=
  ∃ id state secret s, e.call = .complete id state secret raw s ∧ Stores id e

structure Uses (id : Text) (e : Entry (system cfg)) : Prop where
  before : Unused id e.before
  after : ¬ Unused id e.after

/-- What Complete has established about a token whose evidence ends at `until_`. -/
structure Accepted (lib : TokenLibrary) (raw : Text) (until_ expiry : Time) : Prop where
  own : tokenExpiry lib raw = some expiry
  late : until_.ns ≤ expiry.ns
  back : ∀ y, Time.parse expiry.format = some y → y = expiry

structure StoreStep (T : Trace (system cfg)) (e : Entry (system cfg)) (id raw : Text) (event : StoredEvent)
    (r expiry : Time) : Prop where
  call : ∃ state secret s, e.call = .complete id state secret raw s
  accepted : Accepted cfg.library raw event.bundle.assurance.expiresAt expiry
  live : r.ns < event.bundle.assurance.expiresAt.ns
  looked : ∃ a ∈ T, a.thread = e.thread ∧ Looks id a
  first : ∀ a ∈ T, a.thread = e.thread → a.after.events = a.before.events
  unknown : e.before.replay.get (secretDigest raw) = none
  free : e.before.events.get id = none
  after : e.after = { ticked e.before r with
    replay := e.before.replay.put (secretDigest raw) expiry.format
    events := e.before.events.put id (marshal event) }

inductive Change (T : Trace (system cfg)) (e : Entry (system cfg)) : Prop
  | idle (same : e.after = e.before)
  | pruned (r : Time) (ticks : Ticks e.before.maintenance r) (swept : Swept r (ticked e.before r) e.after)
  | begun (q : StoredRequest) (r : Time) (ticks : Ticks e.before.maintenance r) (new : q.consumed = false)
      (drawn : q.id ∈ drawnIDs e.start) (first : ∀ a ∈ T, a.thread = e.thread → drawnIDs a.start = [])
      (after : e.after = { ticked e.before r with requests := e.before.requests.put q.id (marshal q) })
  | burnt (id : Text) (q : StoredRequest) (r : Time) (ticks : Ticks e.before.maintenance r)
      (call : Completing id e) (found : Requested e.before id q) (live : q.consumed = false)
      (after : e.after = { ticked e.before r with
        requests := e.before.requests.put id (marshal { q with consumed := true }) })
  | stored (id raw : Text) (event : StoredEvent) (r expiry : Time) (ticks : Ticks e.before.maintenance r)
      (step : StoreStep T e id raw event r expiry)
  | verified (id : Text) (event : StoredEvent) (r : Time) (ticks : Ticks e.before.maintenance r)
      (found : Recorded e.before id event) (live : event.consumed = false)
      (after : e.after = { ticked e.before r with
        events := e.before.events.put id (marshal { event with consumed := true }) })

/-- The keys are asked for by a call that has burnt its request, once. -/
structure Lookup (T : Trace (system cfg)) (e : Entry (system cfg)) : Prop where
  same : e.after = e.before
  asks : ∃ id, Looks id e
  burnt : ∀ id, Looks id e → ∃ a ∈ T, a.thread = e.thread ∧ Burns id a
  first : ∀ a ∈ T, a.thread = e.thread → AsksStorage a.start a.finish

def Step (T : Trace (system cfg)) (e : Entry (system cfg)) : Prop :=
  (AsksStorage e.start e.finish ∧ Change T e) ∨ Lookup T e

def post (c : Call) (i : Nat) : Post (system cfg) ((system cfg).Result c) := fun T _ r =>
  match c, r with
  | .verify id _, .ok _ => ∃ e ∈ T, e.thread = i ∧ Uses id e
  | _, _ => True

end Steps

section Calls

variable {cfg : Settings} {i : Nat} {c : Call} {T : Trace (system cfg)} {L : Log ports}

theorem step_idle (T : Trace (system cfg)) (e : Entry (system cfg)) (same : e.after = e.before)
    (asks : AsksStorage e.start e.finish) : (safe Step i c).spec T e := .inl ⟨asks, .idle same⟩

theorem wp_prune {limit : Nat} {Q : Post (system cfg) Nat} (quiet : Quiet Q)
    (h : ∀ T' e L' n, Others i T T' → e.thread = i → (∃ b, e.start = L ++ [⟨Query.cancelled, b⟩]) →
      Q (T' ++ [e]) L' (.ok n)) : wp (safe Step i c) (prune limit) T L Q := by
  apply wp_cancelled_checked quiet
  intro b _
  apply wp_transaction_logged quiet step_idle
  intro T' others
  apply wp_pruneBody
  · rintro r _ _ n s' ⟨⟩
  · rintro L' _ n s' ⟨⟩
  · rintro kind k v _ _ L' n s' ⟨⟩
  · rintro r n s' L' _ ticks swept m s'' ⟨⟩ asks
    exact ⟨.inl ⟨asks, .pruned r.time ticks swept⟩, h T' _ L' n others rfl ⟨b, rfl⟩⟩

theorem prune_steps (limit : Nat) :
    wp (safe Step i (.prune limit)) (prune limit) T L (@post cfg (.prune limit) i) := by
  apply wp_prune
  · intro T' L' e
    trivial
  · intros
    trivial

theorem begin_steps (s : TrustSnapshot) (sessionDigest : Text) (clean : ∀ e ∈ T, e.thread ≠ i) :
    wp (safe Step i (.begin s sessionDigest)) (begin s sessionDigest) T []
      (@post cfg (.begin s sessionDigest) i) := by
  have quiet : Quiet (@post cfg (.begin s sessionDigest) i) := fun _ _ _ => trivial
  apply wp_cancelled_checked quiet
  intro b _
  apply wp_now_checked quiet
  intro start _ _
  refine wp_then (wp_prune quiet.andThen ?_)
  rintro T₁ pruned L₁ _ others mine ⟨b', from_⟩
  have own : Own i (fun a => drawnIDs a.start = []) (T₁ ++ [pruned]) := by
    refine Own.snoc ((Own.start clean).others others) ?_
    rw [from_]
    rfl
  apply wp_randomUUID_then quiet
  intro id _
  apply wp_randomString_then quiet
  intro state _
  apply wp_randomString_then quiet
  intro nonce _
  apply wp_now_then
  intro created _
  refine wp_then (wp_transaction_logged quiet.andThen step_idle ?_)
  intro T₂ others₂
  apply wp_observeClock_then (Tx.quiet_ok _)
  intro r _ ticks
  apply Ledger.wp_cancelled_checked (Tx.quiet_ok _)
  intro _ _
  apply Ledger.wp_now_checked (Tx.quiet_ok _)
  rintro _ _ _ _ _ ⟨⟩ asks
  refine ⟨.inl ⟨asks, .begun (newRequest (uuidText id) s sessionDigest (randomText state) (randomText nonce)
    created.time) r.time ticks rfl ?_ ?_ rfl⟩, trivial⟩
  · exact drawnID_mem ⟨_, by simp only [List.append_assoc]; rfl⟩
  · exact own.others others₂

theorem Looks.unique {e : Entry (system cfg)} {id id' : Text} (h : Looks id e) (h' : Looks id' e) : id' = id := by
  obtain ⟨_, _, _, _, _, call, -⟩ := h
  obtain ⟨_, _, _, _, _, call', -⟩ := h'
  rw [call] at call'
  cases call'
  rfl

section Completion

variable {id state secret raw : Text} {s : TrustSnapshot}

theorem wp_configuration {Q : Post (system cfg) OIDCConfiguration} (quiet : Quiet Q)
    (burnt : ∃ a ∈ T, a.thread = i ∧ Burns id a) (own : Own i (fun a => AsksStorage a.start a.finish) T)
    (h : ∀ T' e L' c, Others i T T' → e.thread = i → Looks id e → e.after = e.before →
      Q (T' ++ [e]) L' (.ok c)) :
    wp (safe Step i (.complete id state secret raw s)) (configuration s) T L Q := by
  apply wp_then
  intro T' others answer _
  have looks : @Looks cfg id ⟨i, .complete id state secret raw s, last T', last T', L,
      L ++ [⟨Query.oidcConfiguration s, answer⟩]⟩ := ⟨state, secret, raw, s, answer, rfl, rfl⟩
  constructor
  · refine .inr ⟨rfl, ⟨id, looks⟩, ?_, own.others others⟩
    intro id' other
    obtain ⟨a, ha, mine, did⟩ := burnt
    rw [looks.unique other]
    exact ⟨a, others.mem ha, mine, did⟩
  · apply wp_ofExcept_then quiet
    intro c _
    apply wp_require_then quiet
    intro _
    apply wp_now_checked quiet
    intro _ _ _
    exact h T' _ _ c others rfl looks rfl

theorem accepted_of_checks (id : Text) {c : OIDCConfiguration} {req : StoredRequest} {t : IDToken} {payload : Json}
    {k : TokenClaims} {checked : Time} (now : Reading)
    (verified : verifiedToken cfg.library s.trust.upstreamIssuer c.clientID c.signingAlgorithm c.jwks raw checked =
      .ok (t, payload))
    (holds : tokenHolds s.trust.upstreamIssuer c.clientID req.nonceDigest req.createdAt now.time cfg.maxLifetime t k =
      true) : Accepted cfg.library raw (principal cfg id s c req t now.time).expiresAt t.expiry := by
  obtain ⟨signed, parsed, rfl, read⟩ := verifiedToken_ok verified
  obtain ⟨-, -, near⟩ := tokenHolds_expiry holds
  have zone := cfg.library.localZone _ t read
  refine ⟨?_, (minimum_le t.expiry _).1, ?_⟩
  · rw [tokenExpiry, parsed, Option.bind_some, read]
    rfl
  · intro y back
    apply Time.parse_format_eq zone _ back
    apply Time.year_bound now.representable zone
    have bounded := cfg.bounded
    unfold Time.dayLength
    unfold Time.minute Time.second at bounded
    omega

theorem wp_evidence {Q : Post (system cfg) (ExternalPrincipal × Assurance × Time)} {req : StoredRequest}
    (quiet : Quiet Q) (burnt : ∃ a ∈ T, a.thread = i ∧ Burns id a)
    (own : Own i (fun a => AsksStorage a.start a.finish) T)
    (h : ∀ T' e L' p a expiry, Others i T T' → e.thread = i → Looks id e → e.after = e.before →
      Accepted cfg.library raw a.expiresAt expiry → Q (T' ++ [e]) L' (.ok (p, a, expiry))) :
    wp (safe Step i (.complete id state secret raw s)) (evidence cfg id raw s req) T L Q := by
  refine wp_then (wp_configuration quiet.andThen burnt own ?_)
  intro T' e L' c others mine looks same
  apply wp_now_then
  intro checked _
  apply wp_ofExcept_then quiet
  rintro ⟨t, payload⟩ verified
  apply wp_ofExcept_then quiet
  intro k _
  apply wp_now_checked quiet
  intro now _ checks
  rw [Bool.and_eq_true] at checks
  apply wp_require_then quiet
  intro _
  exact h T' e _ _ _ _ others mine looks same (accepted_of_checks id now verified checks.1)

theorem wp_mapAssurance {Q : Post (system cfg) Assurance} {p : ExternalPrincipal} {a : Assurance} (quiet : Quiet Q)
    (h : ∀ L' mapped, mapped.expiresAt.ns ≤ a.expiresAt.ns → Q T L' (.ok mapped)) :
    wp (safe Step i c) (mapAssurance s p a) T L Q := by
  apply wp_question_then
  intro answer _
  apply wp_ofExcept_then quiet
  intro mapped _
  apply wp_require_then quiet
  intro checks
  simp only [Bool.and_eq_true, Bool.not_eq_true', Time.after_false] at checks
  exact h _ mapped checks.1.2

theorem burn_closes {id : Text} {q : StoredRequest} {e : Entry (system cfg)} {b : Bucket} (call : Completing id e)
    (found : Requested e.before id q) (live : q.consumed = false)
    (after : e.after.requests = b.put id (marshal { q with consumed := true })) : Burns id e := by
  refine ⟨call, ⟨q, found, live⟩, ?_⟩
  rintro ⟨q', found', live'⟩
  unfold Requested at found'
  rw [after, Bucket.get_put_self, Option.bind_some] at found'
  obtain ⟨rfl, -⟩ := decodeAuthority_inv found'
  cases live'

theorem wp_burn {Q : Post (system cfg) StoredRequest} (quiet : Quiet Q)
    (h : ∀ T' e L' q, Others i T T' → e.thread = i → AsksStorage e.start e.finish →
      e.after.events = e.before.events → Burns id e → Q (T' ++ [e]) L' (.ok q)) :
    wp (safe Step i (.complete id state secret raw s)) (transaction authorityError (burnBody id state secret s))
      T L Q := by
  apply wp_transaction_logged quiet step_idle
  intro T' others
  apply wp_observeClock_then (Tx.quiet_ok _)
  intro r _ ticks
  apply Tx.wp_read_then
  apply Ledger.wp_orFail_then (Tx.quiet_ok _)
  intro q decoded
  apply Tx.wp_require_then (Tx.quiet_ok _)
  intro checks
  simp only [Bool.and_eq_true, Bool.not_eq_true'] at checks
  apply Ledger.wp_now_checked (Tx.quiet_ok _)
  intro _ _ _
  apply Tx.wp_write_then
  rintro _ _ ⟨⟩ asks
  have live : q.consumed = false := checks.1.1.1
  have found := bind_of_getD decoded
  constructor
  · exact .inl ⟨asks, .burnt id q r.time ticks ⟨state, secret, raw, s, rfl⟩ found live rfl⟩
  · exact h T' _ _ q others rfl asks rfl (burn_closes ⟨state, secret, raw, s, rfl⟩ found live rfl)

/-- The event is stored by a call that has looked the keys up, while it is valid. -/
theorem wp_store {event : StoredEvent} {expiry : Time} {Q : Post (system cfg) Unit} (quiet : Quiet Q)
    (accepted : Accepted cfg.library raw event.bundle.assurance.expiresAt expiry)
    (looked : ∃ a ∈ T, a.thread = i ∧ Looks id a) (own : Own i (fun a => a.after.events = a.before.events) T)
    (h : ∀ T' L', Q T' L' (.ok ())) :
    wp (safe Step i (.complete id state secret raw s)) (transaction authorityError (storeBody id raw event expiry))
      T L Q := by
  apply wp_transaction_logged quiet step_idle
  intro T' others
  apply wp_observeClock_then (Tx.quiet_ok _)
  intro r _ ticks
  apply Ledger.wp_cancelled_checked (Tx.quiet_ok _)
  intro _ _
  apply Ledger.wp_now_checked (Tx.quiet_ok _)
  rintro now ⟨logs, admitted⟩ live
  apply Tx.wp_read_then
  apply Tx.wp_read_then
  apply Tx.wp_require_then (Tx.quiet_ok _)
  rintro absent _ _ ⟨⟩ asks
  simp only [Bool.and_eq_true, Option.isNone_iff_eq_none] at absent
  have later : r.time.ns ≤ now.time.ns := clockRule_le (Bool.and_eq_true_iff.mp admitted).1
    (readings_mono (List.prefix_append _ _) (reading_mem _ r))
  obtain ⟨a, ha, mine, looks⟩ := looked
  constructor
  · exact .inl ⟨asks, .stored id raw event r.time expiry ticks ⟨⟨state, secret, s, rfl⟩, accepted,
      later.trans_lt (Time.before_iff.mp live), ⟨a, others.mem ha, mine, looks⟩, own.others others,
      absent.1, absent.2,
      rfl⟩⟩
  · exact h _ _

theorem complete_steps (id state secret raw : Text) (s : TrustSnapshot) (clean : ∀ e ∈ T, e.thread ≠ i) :
    wp (safe Step i (.complete id state secret raw s)) (complete cfg id state secret raw s) T L
      (@post cfg (.complete id state secret raw s) i) := by
  have quiet : Quiet (@post cfg (.complete id state secret raw s) i) := fun _ _ _ => trivial
  apply wp_cancelled_checked quiet
  intro _ _
  apply wp_now_checked quiet
  intro _ _ _
  apply wp_require_then quiet
  intro _
  refine wp_then (wp_burn quiet.andThen ?_)
  intro T₁ burn L₁ q others₁ mine₁ asks kept burns
  refine wp_then (wp_evidence quiet.andThen ⟨burn, by simp, mine₁, burns⟩
    (Own.snoc ((Own.start clean).others others₁) asks) ?_)
  intro T₂ look L₂ p a expiry others₂ mine₂ looks same accepted
  have own : Own i (fun a => a.after.events = a.before.events) (T₂ ++ [look]) := by
    refine Own.snoc (Own.others (Own.snoc ((Own.start clean).others others₁) kept) others₂) ?_
    rw [same]
  refine wp_then (wp_mapAssurance quiet.andThen ?_)
  intro L₃ mapped shorter
  apply wp_store quiet ⟨accepted.own, shorter.trans accepted.late, accepted.back⟩
    ⟨look, by simp, mine₂, looks⟩ own
  intro T' L'
  trivial

end Completion

theorem verify_steps (id : Text) (s : TrustSnapshot) :
    wp (safe Step i (.verify id s)) (verify id s) T L (@post cfg (.verify id s) i) := by
  have quiet : Quiet (@post cfg (.verify id s) i) := fun _ _ _ => trivial
  apply wp_cancelled_checked quiet
  intro _ _
  apply wp_require_then quiet
  intro _
  refine wp_then (wp_transaction_logged quiet.andThen step_idle ?_)
  intro T' others
  apply wp_observeClock_then (Tx.quiet_ok _)
  intro r _ ticks
  apply Tx.wp_read_then
  apply Ledger.wp_orFail_then (Tx.quiet_ok _)
  intro event decoded
  apply Tx.wp_require_then (Tx.quiet_ok _)
  intro checks
  simp only [Bool.and_eq_true, Bool.not_eq_true'] at checks
  apply Ledger.wp_now_checked (Tx.quiet_ok _)
  intro _ _ _
  apply Ledger.wp_now_checked (Tx.quiet_ok _)
  intro _ _ _
  apply Tx.wp_require_then (Tx.quiet_ok _)
  intro _
  apply Tx.wp_write_then
  rintro _ _ ⟨⟩ asks
  have live : event.consumed = false := checks.1.1.1
  have found := bind_of_getD decoded
  constructor
  · exact .inl ⟨asks, .verified id event r.time ticks found live rfl⟩
  · refine ⟨_, List.mem_concat_self, rfl, ⟨event, found, live⟩, ?_⟩
    rintro ⟨event', found', live'⟩
    unfold Recorded at found'
    rw [Bucket.get_put_self, Option.bind_some] at found'
    obtain ⟨rfl, -⟩ := decodeAuthority_inv found'
    cases live'

theorem code_steps (i : Nat) (c : Call) (T : Trace (system cfg)) (clean : ∀ e ∈ T, e.thread ≠ i) :
    wp (safe Step i c) ((system cfg).code c) T [] (post c i) := by
  cases c with
  | begin s sessionDigest => exact begin_steps s sessionDigest clean
  | complete id state secret raw s => exact complete_steps id state secret raw s clean
  | verify id s => exact verify_steps id s
  | prune limit => exact prune_steps limit

end Calls

end Federation.OIDCEvents
