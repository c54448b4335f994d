import BaobabIam.Base.Once
import BaobabIam.Federation.NativeTargets

/-! Native targets over whole runs. Buckets only grow, so a registration that succeeded
is there for ever, and what is there is what a read needs: the sizes of valid
expectations keep every stored record readable. -/
namespace Federation.NativeTargetLedger

open Wire Interleaving

section Records

theorem digestPattern_hex (t : Text) : digestPattern ("sha256:".toList ++ Sha256.hex t) = true := by
  have lower : ∀ d : Fin 16, isLowerHex (Text.digitChar d) = true := by decide
  have classes : ∀ (n : Nat) (cs : Text), cs.length = n → (∀ c ∈ cs, isLowerHex c = true) →
      matchClasses (List.replicate n isLowerHex) cs = true := by
    intro n
    induction n with
    | zero =>
      intro cs length _
      rw [List.length_eq_zero_iff.mp length]
      rfl
    | succ n ih =>
      intro cs length all
      cases cs with
      | nil => cases length
      | cons c cs =>
        rw [List.replicate_succ, matchClasses, all c List.mem_cons_self]
        exact ih cs (Nat.succ.inj length) (fun c hc => all c (List.mem_cons_of_mem _ hc))
  unfold digestPattern
  rw [List.drop_left' (by decide)]
  simp only [Bool.and_eq_true, List.isPrefixOf_iff_prefix, List.prefix_append, true_and]
  apply classes
  · exact Text.padded_length 16 64 _
  · intro c hc
    obtain ⟨d, -, rfl⟩ := Text.padded_mem (by decide) (by decide) hc
    exact lower d

theorem nativeTargetDigest_pattern (content : Text) : digestPattern (nativeTargetDigest content) = true := by
  unfold nativeTargetDigest
  exact digestPattern_hex content

theorem record_storable {w : ReferenceExpectation} (valid : validExpectation w = true) (content : Text) :
    Storable (newRecord w content) := by
  refine ⟨rfl, ?_⟩
  simp only [validExpectation, Bool.and_eq_true] at valid
  have ref : validRef w.id = true := valid.1.1.1.1.1.1.1
  have classified : nativeTargetClassification.size ≤ 10 := by decide
  have bound : jsonSize (newRecord w content) ≤ 2 + namesSize NativeTargetRecord.fields + List.sum _ :=
    record_size_le NativeTargetRecord.fields (newRecord w content) _
      (.cons (size_text_le _ (validRef_size ref)) (.cons (size_kind_le _) (.cons (size_text_le _ classified)
        (.cons (size_text_le _ (digest_size (nativeTargetDigest_pattern content))) .nil))))
  exact bound.trans (by decide)

theorem binding_storable {w : ReferenceExpectation} (valid : validExpectation w = true) (content : Text) :
    Storable (newBinding w content) := by
  refine ⟨rfl, ?_⟩
  have bound : jsonSize (newBinding w content) ≤ 2 + namesSize NativeTargetBinding.fields + List.sum _ :=
    record_size_le NativeTargetBinding.fields (newBinding w content) _
      (.cons (size_expectation_le valid)
        (.cons (size_text_le _ (digest_size (nativeTargetDigest_pattern content))) .nil))
  exact bound.trans (by decide)

end Records

section Stores

structure Grows (s s' : Store) : Prop where
  records : ∀ k v, s.records.get k = some v → s'.records.get k = some v
  bytes : ∀ k v, s.bytes.get k = some v → s'.bytes.get k = some v
  bindings : ∀ k v, s.bindings.get k = some v → s'.bindings.get k = some v

structure Registered (s : Store) (w : ReferenceExpectation) (content : Text) : Prop where
  record : (s.records.get w.id).bind decodeAuthority = some (newRecord w content)
  bytes : s.bytes.get w.id = some content
  binding : (s.bindings.get (nativeTargetBindingKey w)).bind decodeAuthority = some (newBinding w content)

/-- Something else is stored for the reference or the expectation. -/
structure Taken (s : Store) (w : ReferenceExpectation) (content : Text) : Prop where
  other : ¬ Registered s w content
  stored : s.records.get w.id ≠ none ∨ s.bytes.get w.id ≠ none ∨
    s.bindings.get (nativeTargetBindingKey w) ≠ none

def readTarget (fits : Text → Bool) (s : Store) (w : ReferenceExpectation) : Option Text :=
  (storedTarget s w).bind (fun p => if verifiedTarget fits w p.1 p.2.1 p.2.2 then some p.2.2 else none)

variable {s s' s'' : Store} {w : ReferenceExpectation} {content : Text} {fits : Text → Bool}

theorem Grows.refl (s : Store) : Grows s s := ⟨fun _ _ h => h, fun _ _ h => h, fun _ _ h => h⟩

theorem Grows.trans (h : Grows s s') (h' : Grows s' s'') : Grows s s'' where
  records k v found := h'.records k v (h.records k v found)
  bytes k v found := h'.bytes k v (h.bytes k v found)
  bindings k v found := h'.bindings k v (h.bindings k v found)

theorem get_put_free {b : Bucket} {k v k' v' : Text} (free : b.get k = none) (found : b.get k' = some v') :
    (b.put k v).get k' = some v' := by
  rw [Bucket.get_put]
  split
  · rename_i same
    rw [same, free] at found
    cases found
  · exact found

theorem grows_putTarget {record : Text} (free : s.records.get w.id = none) (unused : s.bytes.get w.id = none) :
    Grows s (s.putTarget w.id record content) where
  records _ _ found := get_put_free free found
  bytes _ _ found := get_put_free unused found
  bindings _ _ found := found

theorem grows_putBinding {key binding : Text} (free : s.bindings.get key = none) :
    Grows s (s.putBinding key binding) where
  records _ _ found := found
  bytes _ _ found := found
  bindings _ _ found := get_put_free free found

theorem bind_grows {b b' : Bucket} {k : Text} {α : Type} {f : Text → Option α} {a : α}
    (grows : ∀ k v, b.get k = some v → b'.get k = some v) (found : (b.get k).bind f = some a) :
    (b'.get k).bind f = some a := by
  obtain ⟨raw, there, decoded⟩ := Option.bind_eq_some_iff.mp found
  rw [grows k raw there]
  exact decoded

theorem Registered.grow (h : Registered s w content) (grows : Grows s s') : Registered s' w content where
  record := bind_grows grows.records h.record
  bytes := grows.bytes _ _ h.bytes
  binding := bind_grows grows.bindings h.binding

theorem Registered.read (h : Registered s w content) (valid : validateNativeTargetJSON fits content = true) :
    readTarget fits s w = some content := by
  have stored : storedTarget s w = some (newBinding w content, newRecord w content, content) := by
    unfold storedTarget
    rw [h.binding, h.record, h.bytes]
    rfl
  unfold readTarget
  rw [stored]
  have passes : verifiedTarget fits w (newBinding w content) (newRecord w content) content = true := by
    simp [verifiedTarget, newBinding, newRecord, valid, nativeTargetDigest_pattern]
  simp [passes]

end Stores

section Bodies

variable {rule : Rule ports} {s : Store} {w : ReferenceExpectation} {content : Text} {L : Log ports}

structure Wrote (s s' : Store) (w : ReferenceExpectation) (content : Text) : Prop where
  grows : Grows s s'
  registered : Registered s' w content
  again : Registered s w content → s' = s

variable {Q : Except Fault (Unit × Store) → Log ports → Prop}

theorem wp_registerTarget (valid : validExpectation w = true)
    (denied : ∀ e, Taken s w content → Q (.error e) L)
    (done : ∀ s', Grows s s' → s'.bindings = s.bindings →
      (s'.records.get w.id).bind decodeAuthority = some (newRecord w content) → s'.bytes.get w.id = some content →
      (Registered s w content → s' = s) → Q (.ok ((), s')) L) : (registerTarget w content).wp rule s L Q := by
  apply Tx.wp_read_then
  simp only [id]
  cases found : s.records.get w.id with
  | some raw =>
    apply (Tx.wp_require _ _ _).mpr
    constructor
    · intro same
      simp only [Bool.and_eq_true, decide_eq_true_eq, beq_iff_eq] at same
      apply done s (.refl s) rfl _ same.2 (fun _ => rfl)
      rw [found]
      exact same.1
    · intro other
      apply denied
      refine ⟨?_, .inl (by rw [found]; simp)⟩
      intro registered
      have record := registered.record
      rw [found, Option.bind_some] at record
      simp [record, registered.bytes] at other
  | none =>
    have new : ¬ Registered s w content := by
      intro registered
      have record := registered.record
      rw [found] at record
      cases record
    apply (Tx.wp_bind _ _ _).mpr
    apply (Tx.wp_require _ _ _).mpr
    refine ⟨?_, fun used => denied _ ⟨new, .inr (.inl (by intro unused; rw [unused] at used; cases used))⟩⟩
    intro unused
    have unused := Option.isNone_iff_eq_none.mp unused
    apply done _ (grows_putTarget found unused) rfl
    · simp only [Store.putTarget, Bucket.get_put_self, Option.bind_some]
      exact decodeAuthority_marshal (record_storable valid content)
    · exact Bucket.get_put_self _ _ _
    · exact fun registered => absurd registered new

theorem wp_registerBinding (valid : validExpectation w = true)
    (denied : ∀ e, s.bindings.get (nativeTargetBindingKey w) ≠ none →
      (s.bindings.get (nativeTargetBindingKey w)).bind decodeAuthority ≠ some (newBinding w content) →
      Q (.error e) L)
    (done : ∀ s', Grows s s' → s'.records = s.records → s'.bytes = s.bytes →
      (s'.bindings.get (nativeTargetBindingKey w)).bind decodeAuthority = some (newBinding w content) →
      ((s.bindings.get (nativeTargetBindingKey w)).isSome = true → s' = s) → Q (.ok ((), s')) L) :
    (registerBinding w content).wp rule s L Q := by
  apply Tx.wp_read_then
  simp only [id]
  cases found : s.bindings.get (nativeTargetBindingKey w) with
  | some raw =>
    apply (Tx.wp_require _ _ _).mpr
    rw [found, Option.bind_some] at denied
    constructor
    · intro same
      apply done s (.refl s) rfl rfl _ (fun _ => rfl)
      rw [found]
      exact decide_eq_true_eq.mp same
    · intro other
      exact denied _ (by simp) (decide_eq_false_iff_not.mp other)
  | none =>
    apply done _ (grows_putBinding found) rfl rfl
    · simp only [Store.putBinding, Bucket.get_put_self, Option.bind_some]
      exact decodeAuthority_marshal (binding_storable valid content)
    · rw [found]
      rintro ⟨⟩

theorem wp_registerBody (valid : validExpectation w = true)
    (denied : ∀ e (b : Bool), rule L Query.cancelled b → b = true ∨ Taken s w content →
      Q (.error e) (L ++ [⟨Query.cancelled, b⟩]))
    (done : ∀ s' b, Wrote s s' w content → Q (.ok ((), s')) (L ++ [⟨Query.cancelled, b⟩])) :
    (registerBody w content).wp rule s L Q := by
  apply Ledger.wp_cancelled_then
  intro ended given
  apply (Tx.wp_bind _ _ _).mpr
  apply (Tx.wp_require _ _ _).mpr
  refine ⟨fun _ => ?_, fun late => denied _ ended given (.inl (by simpa using late))⟩
  apply (Tx.wp_bind _ _ _).mpr
  apply wp_registerTarget valid
  · exact fun e taken => denied e ended given (.inr taken)
  intro s₁ grows bindings record bytes same
  apply wp_registerBinding valid
  · rw [bindings]
    intro e there other
    exact denied e ended given (.inr ⟨fun registered => other registered.binding, .inr (.inr there)⟩)
  intro s₂ grows' records' bytes' binding same'
  apply done
  refine ⟨grows.trans grows', ⟨by rw [records']; exact record, by rw [bytes']; exact bytes, binding⟩, ?_⟩
  intro registered
  have first := same registered
  subst first
  apply same'
  obtain ⟨raw, there, -⟩ := Option.bind_eq_some_iff.mp registered.binding
  rw [there]
  rfl

end Bodies

section Calls

variable {fits : Text → Bool}

def calm : (Σ q : Query, q.Answer) → Bool
  | ⟨.cancelled, ended⟩ => !ended
  | ⟨.storage, .error _⟩ => false
  | _ => true

def Disturbed (L : Log ports) : Prop := ∃ x ∈ L, calm x = false

def snapshotTarget (w : ReferenceExpectation) (snapshot : TrustSnapshot) : Option Text :=
  if snapshotMatches w snapshot then (Codec.encode (canonicalSnapshot snapshot)).map render else none

def Call.target : Call → Option (ReferenceExpectation × Text)
  | .register w b => some (w, b)
  | .registerSnapshot w snapshot => (snapshotTarget w snapshot).map (w, ·)
  | .content _ => none

/-- The store grows, and only by what the call registers and was not yet registered. -/
structure Step (T : Trace (system fits)) (e : Entry (system fits)) : Prop where
  grows : Grows e.before e.after
  reads : Call.target e.call = none → e.after = e.before
  again : ∀ w content, Call.target e.call = some (w, content) → Registered e.before w content → e.after = e.before

variable {T : Trace (system fits)} {e : Entry (system fits)} {snapshot : TrustSnapshot}

theorem Step.idle (same : e.after = e.before) : Step T e :=
  ⟨same ▸ .refl _, fun _ => same, fun _ _ _ _ => same⟩

theorem Wrote.step {w : ReferenceExpectation}
    {content : Text} (wrote : Wrote e.before e.after w content) (target : Call.target e.call = some (w, content)) :
    Step T e where
  grows := wrote.grows
  reads unnamed := by
    rw [target] at unnamed
    cases unnamed
  again w' content' same registered := by
    rw [target] at same
    cases same
    exact wrote.again registered

def Refused (fits : Text → Bool) (i : Nat) (c : Call) (T : Trace (system fits)) (L : Log ports) : Prop :=
  Own i (fun e => e.after = e.before) T ∧ ∀ w content, c.target = some (w, content) →
    registrable fits w content = false ∨ Disturbed L ∨ ∃ e ∈ T, e.thread = i ∧ Taken e.before w content

def Left (fits : Text → Bool) (i : Nat) (w : ReferenceExpectation) (content : Text) (T : Trace (system fits)) :
    Prop :=
  registrable fits w content = true ∧ ∃ e ∈ T, e.thread = i ∧ Registered e.after w content

def postRegister (fits : Text → Bool) (i : Nat) (c : Call) : Post (system fits) Text := fun T L r =>
  match r with
  | .ok d => ∃ w content, c.target = some (w, content) ∧ d = nativeTargetDigest content ∧ Left fits i w content T
  | .error _ => Refused fits i c T L

def postContent (fits : Text → Bool) (i : Nat) (w : ReferenceExpectation) : Post (system fits) Text := fun T L r =>
  match r with
  | .ok b => ∃ e ∈ T, e.thread = i ∧ readTarget fits e.before w = some b
  | .error _ => (validExpectation w && iamOwnedNativeTargetKind w.kind) = false ∨ Disturbed L ∨
      ∃ e ∈ T, e.thread = i ∧ readTarget fits e.before w = none

variable {v : Setting (system fits)} {T : Trace (system fits)} {L : Log ports} {w : ReferenceExpectation}
  {content : Text}

theorem disturbed_cancelled (L : Log ports) : Disturbed (L ++ [⟨Query.cancelled, true⟩]) :=
  ⟨_, List.mem_concat_self, rfl⟩

theorem disturbed_storage (L : Log ports) (e : Fault) : Disturbed (L ++ [⟨Query.storage, .error e⟩]) :=
  ⟨_, List.mem_concat_self, rfl⟩

theorem wp_registerNonSecretTarget (others : ∀ T T', v.others T T' → Others v.thread T T')
    (spec : ∀ T e, e.call = v.call → Step T e → v.spec T e) (target : Call.target v.call = some (w, content))
    (clean : ∀ e ∈ T, e.thread ≠ v.thread) :
    wp v (registerNonSecretTarget fits w content) T L (postRegister fits v.thread v.call) := by
  have own : Own v.thread (fun e => e.after = e.before) T := Own.start clean
  -- There is one reason to look for: the call names one target.
  have refuse : ∀ {T : Trace (system fits)} {L : Log ports}, Own v.thread (fun e => e.after = e.before) T →
      (registrable fits w content = false ∨ Disturbed L ∨ ∃ e ∈ T, e.thread = v.thread ∧
        Taken e.before w content) →
      Refused fits v.thread v.call T L := by
    intro T L own why
    refine ⟨own, ?_⟩
    intro w' content' same
    rw [target] at same
    cases same
    exact why
  apply wp_cancelled_then
  intro ended _
  apply wp_then
  apply (wp_require _ _).mpr
  constructor
  · intro passed
    obtain ⟨-, registrable⟩ := Bool.and_eq_true_iff.mp passed
    have valid : validExpectation w = true := by
      simp only [NativeTargetLedger.registrable, Bool.and_eq_true] at registrable
      exact registrable.1.1
    apply wp_then
    apply wp_transaction_all
    · intro T' foreign e _
      refine ⟨spec _ _ rfl (.idle rfl), refuse ((own.others (others _ _ foreign)).snoc rfl) (.inr (.inl ?_))⟩
      exact disturbed_storage _ e
    · intro T' foreign
      apply wp_registerBody valid
      · intro e b _ why
        refine ⟨spec _ _ rfl (.idle rfl), refuse ((own.others (others _ _ foreign)).snoc rfl) (.inr ?_)⟩
        rcases why with rfl | taken
        · exact .inl (disturbed_cancelled _)
        · exact .inr ⟨_, List.mem_concat_self, rfl, taken⟩
      · intro s' b wrote
        refine ⟨spec _ _ rfl (wrote.step target), w, content, target, rfl, registrable, ?_⟩
        exact ⟨_, List.mem_concat_self, rfl, wrote.registered⟩
  · intro refused
    apply refuse own
    rcases Bool.and_eq_false_iff.mp refused with late | unfit
    · have late : ended = true := by simpa using late
      subst late
      exact .inr (.inl (disturbed_cancelled _))
    · exact .inl unfit

theorem trustSnapshotDigest_canonical (s : TrustSnapshot) :
    trustSnapshotDigest (canonicalSnapshot s) = trustSnapshotDigest s := by
  have idem : canonicalSnapshot (canonicalSnapshot s) = canonicalSnapshot s := by
    have twice : ∀ t : Time, t.utc.utc = t.utc := fun _ => rfl
    simp [canonicalSnapshot, canonicalTrust, Function.comp_def, twice]
  change "sha256:".toList ++ Sha256.hex (marshal (canonicalSnapshot (canonicalSnapshot s))) = _
  rw [idem]
  rfl

theorem snapshotTarget_some (target : snapshotTarget w snapshot = some content) :
    snapshotMatches w snapshot = true ∧ content = marshal (canonicalSnapshot snapshot) ∧
      nativeTargetDigest content = trustSnapshotDigest snapshot := by
  unfold snapshotTarget at target
  split at target
  · rename_i matched
    obtain ⟨j, encoded, rfl⟩ := Option.map_eq_some_iff.mp target
    have bytes := marshal_encode encoded
    refine ⟨matched, bytes.symm, ?_⟩
    unfold nativeTargetDigest
    rw [← bytes]
    rfl
  · cases target

theorem wp_registerTrustSnapshotTarget (others : ∀ T T', v.others T T' → Others v.thread T T')
    (spec : ∀ T e, e.call = v.call → Step T e → v.spec T e) (call : v.call = Call.registerSnapshot w snapshot)
    (clean : ∀ e ∈ T, e.thread ≠ v.thread) :
    wp v (registerTrustSnapshotTarget fits w snapshot) T L (postRegister fits v.thread v.call) := by
  have target : Call.target v.call = (snapshotTarget w snapshot).map (w, ·) := congrArg Call.target call
  have refuse : snapshotTarget w snapshot = none → Refused fits v.thread v.call T L := by
    intro nothing
    refine ⟨Own.start clean, ?_⟩
    intro w' content' same
    rw [target, nothing] at same
    cases same
  apply wp_then
  apply (wp_require _ _).mpr
  constructor
  · intro matched
    have bytes : snapshotTarget w snapshot = (Codec.encode (canonicalSnapshot snapshot)).map render := if_pos matched
    apply wp_then
    apply (wp_ofExcept _).mpr
    rw [← bytes]
    cases found : snapshotTarget w snapshot with
    | none => exact refuse found
    | some content =>
      rw [found] at target
      apply wp_then
      apply wp_mono (wp_registerNonSecretTarget others spec target clean)
      intro T' L' r done
      cases r with
      | error e => exact done
      | ok d =>
        have agrees : (d == trustSnapshotDigest (canonicalSnapshot snapshot)) = true := by
          obtain ⟨w', content', same, rfl, -⟩ := done
          rw [target] at same
          cases same
          rw [trustSnapshotDigest_canonical, (snapshotTarget_some found).2.2]
          exact beq_self_eq_true _
        exact wp_require_pass agrees done
  · intro unmatched
    apply refuse
    unfold snapshotTarget
    rw [unmatched]
    rfl

theorem wp_nativeTargetContent (spec : ∀ T e, e.call = v.call → e.after = e.before → v.spec T e) :
    wp v (nativeTargetContent fits w) T L (postContent fits v.thread w) := by
  apply wp_cancelled_then
  intro ended _
  apply wp_then
  apply (wp_require _ _).mpr
  constructor
  · intro _
    apply wp_then
    apply wp_transaction_all
    · intro T' _ e _
      exact ⟨spec _ _ rfl rfl, .inr (.inl (disturbed_storage _ e))⟩
    · intro T' _
      apply Ledger.wp_cancelled_then
      intro late _
      apply (Tx.wp_bind _ _ _).mpr
      apply (Tx.wp_require _ _ _).mpr
      constructor
      · intro _
        apply Tx.wp_read_then
        change (Ledger.orFail Fault.unverified (storedTarget (last T') w)).wp v.rule (last T') _ _
        have read : readTarget fits (last T') w =
            (storedTarget (last T') w).bind (fun p =>
              if verifiedTarget fits w p.1 p.2.1 p.2.2 then some p.2.2 else none) := rfl
        cases stored : storedTarget (last T') w with
        | none =>
          rw [stored] at read
          exact ⟨spec _ _ rfl rfl, .inr (.inr ⟨_, List.mem_concat_self, rfl, read⟩)⟩
        | some p =>
          rw [stored, Option.bind_some] at read
          refine ⟨spec _ _ rfl rfl, ?_⟩
          apply wp_then
          apply (wp_require _ _).mpr
          constructor
          · intro verified
            rw [verified] at read
            exact ⟨_, List.mem_concat_self, rfl, read⟩
          · intro unverified
            rw [unverified] at read
            exact .inr (.inr ⟨_, List.mem_concat_self, rfl, read⟩)
      · intro gone
        have gone : late = true := by simpa using gone
        subst gone
        exact ⟨spec _ _ rfl rfl, .inr (.inl (disturbed_cancelled _))⟩
  · intro refused
    rw [Bool.and_assoc] at refused
    rcases Bool.and_eq_false_iff.mp refused with late | unfit
    · have late : ended = true := by simpa using late
      subst late
      exact .inr (.inl (disturbed_cancelled _))
    · exact .inl unfit

def post (fits : Text → Bool) : (c : Call) → Nat → Post (system fits) Text
  | .content w, i => postContent fits i w
  | c, i => postRegister fits i c

theorem wp_code (others : ∀ T T', v.others T T' → Others v.thread T T')
    (spec : ∀ T e, e.call = v.call → Step T e → v.spec T e)
    (clean : ∀ e ∈ T, e.thread ≠ v.thread) : wp v (code fits v.call) T L (post fits v.call v.thread) := by
  obtain ⟨i, c, rule, apart, meets⟩ := v
  cases c with
  | register w content => exact wp_registerNonSecretTarget others spec rfl clean
  | registerSnapshot w snapshot => exact wp_registerTrustSnapshotTarget others spec rfl clean
  | content w => exact wp_nativeTargetContent (fun T e call same => spec T e call (.idle same))

end Calls

section Runs

variable {fits : Text → Bool}

theorem code_steps (i : Nat) (c : Call) (T : Trace (system fits)) (clean : ∀ e ∈ T, e.thread ≠ i) :
    wp (safe Step i c : Setting (system fits)) (code fits c) T [] (post fits c i) :=
  wp_code (fun _ _ h => h) (fun _ _ _ h => h) clean

/-- From here on the call ends with this result unless it is disturbed, it changes
nothing, and it ends when it is left alone. -/
structure Always (fits : Text → Bool) (schedule : List (Action (system fits))) (c : Call) (d : Text) : Prop where
  result : ∀ later i L r, (exec _ schedule).threads.length ≤ i →
    (exec _ (schedule ++ later)).threads[i]? = some ⟨c, L, Prog.ofExcept r⟩ → r = .ok d ∨ Disturbed L
  unchanged : ∀ later, ∀ e ∈ (exec _ (schedule ++ later)).trace, (exec _ schedule).threads.length ≤ e.thread →
    e.call = c → e.after = e.before
  ends : ∀ later oracle, (∀ L q, calm ⟨q, oracle L q⟩ = true) →
    ∃ n L, (exec _ (thenAlone (schedule ++ later) c n oracle)).threads[(exec _ (schedule ++ later)).threads.length]? =
      some ⟨c, L, .ret d⟩

theorem valid_grows {T T' : Trace (system fits)} (h : Valid Step T') (sub : T <+: T') :
    Grows (last T) (last T') :=
  Valid.evolves Grows.refl (fun _ _ _ => Grows.trans) (fun _ _ _ _ step => step.grows) h sub

theorem exec_grows (schedule later : List (Action (system fits))) :
    Grows (exec _ schedule).store (exec _ (schedule ++ later)).store := by
  have sound := exec_sound code_steps (schedule ++ later)
  rw [exec_store, sound.store]
  exact valid_grows sound.valid (exec_trace schedule later)

theorem found_later (schedule later : List (Action (system fits))) {w : ReferenceExpectation} {content : Text}
    (registered : Registered (exec _ schedule).store w content) {e : Entry (system fits)}
    (he : e ∈ (exec _ (schedule ++ later)).trace) (new : (exec _ schedule).threads.length ≤ e.thread) :
    Registered e.before w content ∧ ∃ T, Step T e := by
  obtain ⟨U, sub, valid, before, step⟩ :=
    (exec_sound code_steps schedule).later (exec_sound code_steps (schedule ++ later)) he new
  refine ⟨?_, U, step⟩
  rw [before]
  rw [exec_store] at registered
  exact registered.grow (valid_grows valid sub)

theorem ends_alone (schedule : List (Action (system fits))) (c : Call) (oracle : Oracle ports)
    (quiet : ∀ L q, calm ⟨q, oracle L q⟩ = true) :
    ∃ n L r, (exec _ (thenAlone schedule c n oracle)).threads[(exec _ schedule).threads.length]? =
      some ⟨c, L, Prog.ofExcept r⟩ ∧ ¬ Disturbed L := by
  have clean : ∀ e ∈ (exec _ schedule).trace, e.thread ≠ (exec _ schedule).threads.length :=
    fun e he same => absurd ((exec_sound code_steps schedule).threads e he) (by rw [same]; exact Nat.lt_irrefl _)
  have alone : wp
      (alone (fun _ q a => calm ⟨q, a⟩ = true) (exec _ schedule).threads.length c : Setting (system fits))
      (code fits c) (exec _ schedule).trace []
      (fun T L r => post fits c (exec _ schedule).threads.length T L r ∧ ∀ x ∈ L, calm x = true) :=
    wp_answers (fun _ _ _ h => h) (by simp)
      (wp_code (fun T T' (h : T' = T) => by rw [h]; exact Others.refl _ T) (fun _ _ _ _ => trivial) clean)
  obtain ⟨n, L, r, ended, -, -, all⟩ :=
    solo_call (fun L q _ => quiet L q) schedule (fun _ _ _ _ _ _ => rfl) c _ alone
  refine ⟨n, L, r, by rw [ended]; simp, ?_⟩
  rintro ⟨x, hx, loud⟩
  rw [all x hx] at loud
  cases loud

variable {c : Call} {d : Text} {i : Nat} {L : Log ports}

/-- What a call answers when it begins after a registration settles the rest. -/
theorem Always.mk_result {schedule : List (Action (system fits))}
    (result : ∀ later i L r, (exec _ schedule).threads.length ≤ i →
      (exec _ (schedule ++ later)).threads[i]? = some ⟨c, L, Prog.ofExcept r⟩ → r = .ok d ∨ Disturbed L)
    (unchanged : ∀ later, ∀ e ∈ (exec _ (schedule ++ later)).trace,
      (exec _ schedule).threads.length ≤ e.thread →
      e.call = c → e.after = e.before) : Always fits schedule c d := by
  refine ⟨result, unchanged, ?_⟩
  intro later oracle quiet
  obtain ⟨n, L, r, ended, calm⟩ := ends_alone (schedule ++ later) c oracle quiet
  refine ⟨n, L, ?_⟩
  obtain ⟨rest, split⟩ := thenAlone_later (schedule ++ later) c n oracle
  have again : (exec _ (schedule ++ (later ++ rest))).threads[(exec _ (schedule ++ later)).threads.length]? =
      some ⟨c, L, Prog.ofExcept r⟩ := by
    rw [← List.append_assoc, ← split]
    exact ended
  rcases result (later ++ rest) _ L r (exec_threads schedule later) again with rfl | loud
  · exact ended
  · exact absurd loud calm

variable {schedule : List (Action (system fits))} {w : ReferenceExpectation} {content : Text}

theorem always_content (fit : registrable fits w content = true)
    (registered : Registered (exec _ schedule).store w content) :
    Always fits schedule (.content w) content := by
  simp only [registrable, Bool.and_eq_true] at fit
  obtain ⟨⟨valid, owned⟩, json⟩ := fit
  apply Always.mk_result
  · intro later i L r new ended
    obtain ⟨T, others, done⟩ := (exec_sound code_steps (schedule ++ later)).ended ended
    cases r with
    | ok b =>
      obtain ⟨e, he, rfl, read⟩ := done
      have found := (found_later schedule later registered (others.mem he) new).1
      rw [found.read json] at read
      cases read
      exact .inl rfl
    | error e =>
      rcases done with unfit | loud | ⟨e, he, rfl, unread⟩
      · rw [valid, owned] at unfit
        cases unfit
      · exact .inr loud
      · have found := (found_later schedule later registered (others.mem he) new).1
        rw [found.read json] at unread
        cases unread
  · intro later e he new call
    obtain ⟨-, T, step⟩ := found_later schedule later registered he new
    apply step.reads
    rw [call]
    rfl

theorem always_register (target : c.target = some (w, content)) (fit : registrable fits w content = true)
    (registered : Registered (exec _ schedule).store w content) :
    Always fits schedule c (nativeTargetDigest content) := by
  apply Always.mk_result
  · intro later i L r new ended
    obtain ⟨T, others, done⟩ := (exec_sound code_steps (schedule ++ later)).ended ended
    have done : postRegister fits i c T L r := by
      cases c with
      | content w => cases target
      | register w content => exact done
      | registerSnapshot w snapshot => exact done
    cases r with
    | ok d =>
      obtain ⟨w', content', same, rfl, -⟩ := done
      rw [target] at same
      cases same
      exact .inl rfl
    | error e =>
      rcases done.2 w content target with unfit | loud | ⟨e, he, rfl, taken⟩
      · rw [fit] at unfit
        cases unfit
      · exact .inr loud
      · exact absurd (found_later schedule later registered (others.mem he) new).1 taken.other
  · intro later e he new call
    obtain ⟨found, T, step⟩ := found_later schedule later registered he new
    exact step.again w content (call ▸ target) found

theorem snapshot_read_back {snapshot : TrustSnapshot} (target : snapshotTarget w snapshot = some content)
    (fit : registrable fits w content = true) : decodeAuthority content = some (canonicalSnapshot snapshot) := by
  unfold snapshotTarget at target
  split at target
  · obtain ⟨j, encoded, rfl⟩ := Option.map_eq_some_iff.mp target
    simp only [registrable, validateNativeTargetJSON, Bool.and_eq_true, decide_eq_true_eq] at fit
    have small := fit.2.1.2
    rw [← marshal_encode encoded] at small ⊢
    apply decodeAuthority_marshal
    exact ⟨by rw [encoded]; rfl, by rw [← size_marshal]; exact small⟩
  · cases target

theorem registered_of_ret
    (found : (exec _ schedule).threads[i]? = some ⟨c, L, .ret d⟩)
    (target : c.target = some (w, content)) :
    d = nativeTargetDigest content ∧ registrable fits w content = true ∧
      Registered (exec _ schedule).store w content := by
  have sound := exec_sound code_steps schedule
  obtain ⟨T, others, done⟩ := sound.ended (r := .ok d) found
  have done : postRegister fits i c T L (.ok d) := by
    cases c with
    | content w => cases target
    | register w content => exact done
    | registerSnapshot w snapshot => exact done
  obtain ⟨w', content', same, rfl, fit, e, he, -, registered⟩ := done
  rw [target] at same
  cases same
  refine ⟨rfl, fit, ?_⟩
  obtain ⟨U, sub, -, -, -⟩ := sound.valid.mem (others.mem he)
  rw [← last_append U e] at registered
  rw [sound.store]
  exact registered.grow (valid_grows sound.valid sub)

theorem failed_unchanged {e : Fault}
    (found : (exec _ schedule).threads[i]? = some ⟨c, L, .fail e⟩) :
    Own i (fun e => e.after = e.before) (exec _ schedule).trace := by
  have sound := exec_sound code_steps schedule
  obtain ⟨T, others, done⟩ := sound.ended (r := .error e) found
  cases c with
  | register w content => exact done.1.others others
  | registerSnapshot w snapshot => exact done.1.others others
  | content w =>
    intro a ha mine
    obtain ⟨U, -, -, -, step⟩ := sound.valid.mem ha
    obtain ⟨t, at_, call, -⟩ := exec_entries schedule a ha
    rw [mine, found] at at_
    cases at_
    apply step.reads
    rw [← call]
    rfl

theorem native_targets_immutable (fits : Text → Bool) (schedule : List (Action (system fits))) :
    (∀ later, Grows (exec (system fits) schedule).store (exec (system fits) (schedule ++ later)).store) ∧
    (∀ (i : Nat) (c : Call) (L : Log ports) (d : Text) (w : ReferenceExpectation) (content : Text),
      (exec (system fits) schedule).threads[i]? = some ⟨c, L, .ret d⟩ → Call.target c = some (w, content) →
      d = nativeTargetDigest content ∧ Always fits schedule (.content w) content ∧
      ∀ c', Call.target c' = some (w, content) → Always fits schedule c' d) ∧
    (∀ (i : Nat) (c : Call) (L : Log ports) (e : Fault),
      (exec (system fits) schedule).threads[i]? = some ⟨c, L, .fail e⟩ →
      Own i (fun e => e.after = e.before) (exec (system fits) schedule).trace) ∧
    (∀ (i : Nat) (w : ReferenceExpectation) (snapshot : TrustSnapshot) (L : Log ports) (d : Text),
      (exec (system fits) schedule).threads[i]? = some ⟨.registerSnapshot w snapshot, L, .ret d⟩ →
      ∃ content, Call.target (.registerSnapshot w snapshot) = some (w, content) ∧
        content = marshal (canonicalSnapshot snapshot) ∧
          decodeAuthority content = some (canonicalSnapshot snapshot) ∧
        d = trustSnapshotDigest snapshot ∧ Always fits schedule (.content w) content) := by
  refine ⟨exec_grows schedule, ?_, fun i c L e => failed_unchanged, ?_⟩
  · intro i c L d w content found target
    obtain ⟨rfl, fit, registered⟩ := registered_of_ret found target
    exact ⟨rfl, always_content fit registered, fun c' again => always_register again fit registered⟩
  · intro i w snapshot L d found
    obtain ⟨T, others, w', content, target, -⟩ := (exec_sound code_steps schedule).ended (r := .ok d) found
    obtain ⟨bytes, made, pair⟩ := Option.map_eq_some_iff.mp target
    cases pair
    obtain ⟨rfl, fit, registered⟩ := registered_of_ret found target
    obtain ⟨-, marshalled, digest⟩ := snapshotTarget_some made
    exact ⟨_, target, marshalled, snapshot_read_back made fit, digest, always_content fit registered⟩

end Runs

end Federation.NativeTargetLedger
