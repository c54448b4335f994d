import Mathlib.Data.List.Nodup
import Mathlib.Data.List.Perm.Subperm
import BaobabIam.Federation.NativeTargetRuns

/-! Looking up an assurance decision in the ledger of native targets. The bindings are
scanned one after the other for the one whose expectation, its id aside, is the query.
A reachable ledger holds nothing but bindings that a registration wrote, each of which
can be read, so that the scan can fail for two reasons only: there is not exactly one
such binding, or there are more bindings than the scan looks at. -/
namespace Federation.NativeTargetLedger

open Wire Interleaving

section Search

def unnamed (w : ReferenceExpectation) : ReferenceExpectation := { w with id := [] }

/-- `found` has no id until a binding has matched. -/
def scanBindings (want : ReferenceExpectation) :
    Nat → ReferenceExpectation → List (Text × Text) → Body ReferenceExpectation
  | _, found, [] => pure found
  | count, found, e :: rest => do
    Tx.require (count + 1 ≤ 10000) .unavailable
    let ended ← Ledger.cancelled
    Tx.require (!ended) .unavailable
    let binding ← Ledger.orFail .unverified (decodeAuthority (α := NativeTargetBinding) e.2)
    if unnamed binding.expectation = want then do
      Tx.require found.id.isEmpty .unverified
      Tx.require (validRef binding.expectation.id) .unverified
      scanBindings want (count + 1) binding.expectation rest
    else scanBindings want (count + 1) found rest

def findAssuranceDecision (want : ReferenceExpectation) : Op ReferenceExpectation := do
  let ended ← cancelled
  Prog.require (!ended && want.id.isEmpty && want.kind == .assuranceMappingDecision) .invalid
  let found ← transaction authorityError (do
    let bindings ← Tx.read Store.bindings
    scanBindings want 0 ReferenceExpectation.zero bindings.entries)
  Prog.require (!found.id.isEmpty) .unverified
  return found

end Search

section Scans

variable {rule : Rule ports} {s : Store} {L : Log ports} {want found : ReferenceExpectation} {count : Nat}
  {es : List (Text × Text)} {Q : Except Fault (ReferenceExpectation × Store) → Log ports → Prop}

def bindingOf (e : Text × Text) : NativeTargetBinding := (decodeAuthority e.2).getD ⟨.zero, []⟩

def Legible (e : Text × Text) : Prop :=
  decodeAuthority e.2 = some (bindingOf e) ∧ validRef (bindingOf e).expectation.id = true

/-- The expectations that the query asks for, in the order of the scan. -/
def candidates (want : ReferenceExpectation) (es : List (Text × Text)) : List ReferenceExpectation :=
  (es.map (fun e => (bindingOf e).expectation)).filter (fun w => decide (unnamed w = want))

theorem candidates_match {e : Text × Text} (same : unnamed (bindingOf e).expectation = want)
    (es : List (Text × Text)) : candidates want (e :: es) = (bindingOf e).expectation :: candidates want es := by
  unfold candidates
  rw [List.map_cons, List.filter_cons_of_pos (by rwa [decide_eq_true_iff])]

theorem candidates_skip {e : Text × Text} (other : unnamed (bindingOf e).expectation ≠ want)
    (es : List (Text × Text)) : candidates want (e :: es) = candidates want es := by
  unfold candidates
  rw [List.map_cons, List.filter_cons_of_neg (by rwa [decide_eq_true_iff])]

theorem id_of_ref {w : ReferenceExpectation} (valid : validRef w.id = true) : w.id.isEmpty = false := by
  cases empty : w.id with
  | nil =>
    rw [empty] at valid
    cases valid
  | cons c t => rfl

theorem wp_scan_cons {e : Text × Text} (live : ∀ L, ¬ rule L Query.cancelled true) (legible : Legible e)
    (small : count < 10000)
    (again : unnamed (bindingOf e).expectation = want → found.id.isEmpty = false → ∀ x L, Q (.error x) L)
    (hit : unnamed (bindingOf e).expectation = want → found.id.isEmpty = true →
      ∀ L, (scanBindings want (count + 1) (bindingOf e).expectation es).wp rule s L Q)
    (miss : unnamed (bindingOf e).expectation ≠ want →
      ∀ L, (scanBindings want (count + 1) found es).wp rule s L Q) :
    (scanBindings want count found (e :: es)).wp rule s L Q := by
  obtain ⟨decoded, named⟩ := legible
  apply Tx.wp_require_pass (decide_eq_true small)
  apply Ledger.wp_cancelled_then
  intro ended admitted
  cases ended with
  | true => exact absurd admitted (live L)
  | false =>
    apply Tx.wp_require_pass rfl
    apply Ledger.wp_orFail_pass_then decoded
    by_cases same : unnamed (bindingOf e).expectation = want
    · rw [if_pos same]
      cases first : found.id.isEmpty with
      | false =>
        apply Tx.wp_require_else (again same first _ _)
        rintro ⟨⟩
      | true =>
        apply Tx.wp_require_pass rfl
        apply Tx.wp_require_pass named
        exact hit same first _
    · rw [if_neg same]
      exact miss same _

theorem wp_scan_long (live : ∀ L, ¬ rule L Query.cancelled true) (legible : ∀ e ∈ es, Legible e)
    (long : 10000 < count + es.length) (few : count ≤ 10000) (fails : ∀ x L, Q (.error x) L) :
    (scanBindings want count found es).wp rule s L Q := by
  induction es generalizing count found L with
  | nil =>
    rw [List.length_nil] at long
    omega
  | cons e es ih =>
    rw [List.length_cons] at long
    by_cases small : count < 10000
    · have rest : ∀ found L, (scanBindings want (count + 1) found es).wp rule s L Q := fun found L =>
        ih (fun d hd => legible d (List.mem_cons_of_mem _ hd)) (by omega) small
      apply wp_scan_cons live (legible e List.mem_cons_self) small
      · exact fun _ _ => fails
      · exact fun _ _ => rest _
      · exact fun _ => rest _
    · apply Tx.wp_require_else (fails _ _)
      intro more
      have := of_decide_eq_true more
      omega

theorem wp_scan_matched (live : ∀ L, ¬ rule L Query.cancelled true) (legible : ∀ e ∈ es, Legible e)
    (short : count + es.length ≤ 10000) (named : found.id.isEmpty = false)
    (alone : candidates want es = [] → ∀ L, Q (.ok (found, s)) L)
    (more : candidates want es ≠ [] → ∀ x L, Q (.error x) L) :
    (scanBindings want count found es).wp rule s L Q := by
  induction es generalizing count L with
  | nil => exact alone rfl L
  | cons e es ih =>
    rw [List.length_cons] at short
    apply wp_scan_cons live (legible e List.mem_cons_self) (by omega)
    · intro same _
      apply more
      rw [candidates_match same]
      exact List.cons_ne_nil _ _
    · intro _ unset
      rw [named] at unset
      cases unset
    · intro other L
      rw [candidates_skip other] at alone more
      exact ih (fun d hd => legible d (List.mem_cons_of_mem _ hd)) (by omega) alone more

theorem wp_scan_short (live : ∀ L, ¬ rule L Query.cancelled true) (legible : ∀ e ∈ es, Legible e)
    (short : count + es.length ≤ 10000) (unset : found.id.isEmpty = true)
    (none : candidates want es = [] → ∀ L, Q (.ok (found, s)) L)
    (one : ∀ w, candidates want es = [w] → ∀ L, Q (.ok (w, s)) L)
    (more : 1 < (candidates want es).length → ∀ x L, Q (.error x) L) :
    (scanBindings want count found es).wp rule s L Q := by
  induction es generalizing count L with
  | nil => exact none rfl L
  | cons e es ih =>
    have others := fun d hd => legible d (List.mem_cons_of_mem e hd)
    rw [List.length_cons] at short
    apply wp_scan_cons live (legible e List.mem_cons_self) (by omega)
    · intro _ set
      rw [unset] at set
      cases set
    · intro same _ L
      rw [candidates_match same] at one more
      apply wp_scan_matched live others (by omega) (id_of_ref (legible e List.mem_cons_self).2)
      · intro last
        exact one _ (by rw [last])
      · intro again
        apply more
        rw [List.length_cons]
        have := List.length_pos_of_ne_nil again
        omega
    · intro other L
      rw [candidates_skip other] at none one more
      exact ih others (by omega) none one more

def AllLegible (s : Store) : Prop := ∀ e ∈ s.bindings.entries, Legible e

theorem find_alone {t : Reading} {R : Store → Except Fault ReferenceExpectation → Prop} (legible : AllLegible s)
    (unnamed_ : want.id = []) (kind : want.kind = .assuranceMappingDecision)
    (one : ∀ w, s.bindings.keyN ≤ 10000 → candidates want s.bindings.entries = [w] →
      w.id.isEmpty = false → R s (.ok w))
    (fails : (∀ w, s.bindings.keyN ≤ 10000 → candidates want s.bindings.entries ≠ [w]) →
      ∀ x, R s (.error x)) :
    after (during t) (findAssuranceDecision want) s R := by
  have live : ∀ L : Log ports, ¬ (fun _ => during t : Rule ports) L Query.cancelled true := by
    intro L ended
    cases ended
  apply after_question_then
  rintro ended rfl
  apply after_require_pass
  · rw [unnamed_, kind]
    rfl
  apply after_then
  apply after_transaction (fun _ committed => committed)
  intro L
  apply Tx.wp_read_then
  by_cases short : s.bindings.keyN ≤ 10000
  · apply wp_scan_short live legible (by rw [Nat.zero_add]; exact short) rfl
    · intro none L
      apply fails
      intro w _ only
      rw [none] at only
      cases only
    · intro w only L
      have there : w ∈ candidates want s.bindings.entries := by
        rw [only]
        exact List.mem_cons_self
      obtain ⟨e, he, rfl⟩ := List.mem_map.mp (List.mem_of_mem_filter there)
      have named := id_of_ref (legible e he).2
      apply after_require_pass (by rw [named]; rfl)
      exact one _ short only named
    · intro several x L
      apply fails
      intro w _ only
      rw [only] at several
      exact absurd several (Nat.lt_irrefl 1)
  · apply wp_scan_long live legible (by rw [Nat.zero_add]; exact Nat.lt_of_not_le short) (Nat.zero_le _)
    intro x L
    apply fails
    intro w small
    exact absurd small short

end Scans

section Origins

/-- A store holds what it held, or what a registration of `w` writes. -/
structure Added (s s' : Store) (w : ReferenceExpectation) (content : Text) : Prop where
  records : ∀ k v, s'.records.get k = some v → s.records.get k = some v ∨ k = w.id
  bytes : ∀ k v, s'.bytes.get k = some v → s.bytes.get k = some v ∨ k = w.id
  bindings : ∀ k v, s'.bindings.get k = some v →
    s.bindings.get k = some v ∨ (k = nativeTargetBindingKey w ∧ v = marshal (newBinding w content))

variable {s s' s'' : Store} {w : ReferenceExpectation} {content : Text} {fits : Text → Bool}

theorem Added.refl (s : Store) (w : ReferenceExpectation) (content : Text) : Added s s w content :=
  ⟨fun _ _ h => .inl h, fun _ _ h => .inl h, fun _ _ h => .inl h⟩

theorem Added.trans (h : Added s s' w content) (h' : Added s' s'' w content) : Added s s'' w content where
  records k v found := (h'.records k v found).elim (h.records k v) .inr
  bytes k v found := (h'.bytes k v found).elim (h.bytes k v) .inr
  bindings k v found := (h'.bindings k v found).elim (h.bindings k v) .inr

theorem get_put_cases {b : Bucket} {k v k' v' : Text} (found : (b.put k v).get k' = some v') :
    b.get k' = some v' ∨ (k' = k ∧ v' = v) := by
  rw [Bucket.get_put] at found
  split at found
  · rename_i same
    exact .inr ⟨same, (Option.some.inj found).symm⟩
  · exact .inl found

theorem added_putTarget (s : Store) (w : ReferenceExpectation) (record content : Text) :
    Added s (s.putTarget w.id record content) w content where
  records _ _ found := (get_put_cases found).imp_right And.left
  bytes _ _ found := (get_put_cases found).imp_right And.left
  bindings _ _ found := .inl found

theorem added_putBinding (s : Store) (w : ReferenceExpectation) (content : Text) :
    Added s (s.putBinding (nativeTargetBindingKey w) (marshal (newBinding w content))) w content where
  records _ _ found := .inl found
  bytes _ _ found := .inl found
  bindings _ _ found := get_put_cases found

theorem registerBody_adds {rule : Rule ports} {L : Log ports} :
    (registerBody w content).wp rule s L (fun r _ => ∀ u s', r = .ok (u, s') → Added s s' w content) := by
  apply Ledger.wp_cancelled_checked (Tx.quiet_ok _)
  intro ended _
  have target : (registerTarget w content).wp rule s (L ++ [⟨Query.cancelled, ended⟩])
      (fun r _ => ∀ u s', r = .ok (u, s') → Added s s' w content) := by
    apply Tx.wp_read_then
    simp only [id]
    cases s.records.get w.id with
    | some raw =>
      apply (Tx.wp_require _ _ _).mpr
      constructor
      · rintro _ u s' ⟨⟩
        exact .refl _ _ _
      · rintro _ u s' ⟨⟩
    | none =>
      apply Tx.wp_require_then (Tx.quiet_ok _)
      rintro _ u s' ⟨⟩
      exact added_putTarget _ _ _ _
  apply Tx.wp_then (Tx.quiet_ok _)
  apply Tx.wp_mono target
  intro r L' first u s₁ done
  have first := first u s₁ done
  apply Tx.wp_read_then
  simp only [id]
  cases s₁.bindings.get (nativeTargetBindingKey w) with
  | some raw =>
    apply (Tx.wp_require _ _ _).mpr
    constructor
    · rintro _ u s' ⟨⟩
      exact first
    · rintro _ u s' ⟨⟩
  | none =>
    rintro u s' ⟨⟩
    exact first.trans (added_putBinding _ _ _)

def Adds (_ : Trace (system fits)) (e : Entry (system fits)) : Prop :=
  e.after = e.before ∨ ∃ w content, Call.target e.call = some (w, content) ∧ validExpectation w = true ∧
    Added e.before e.after w content

theorem adds_idle (T : Trace (system fits)) (e : Entry (system fits)) (same : e.after = e.before) : Adds T e :=
  .inl same

variable {T : Trace (system fits)} {L : Log ports} {i : Nat}

theorem register_adds {c : Call} {Q : Post (system fits) Text} (quiet : Quiet Q)
    (target : c.target = some (w, content)) (h : ∀ T L d, Q T L (.ok d)) :
    wp (safe Adds i c) (registerNonSecretTarget fits w content) T L Q := by
  apply wp_cancelled_checked quiet
  intro ended passed
  have valid : validExpectation w = true := by
    simp only [registrable, Bool.and_eq_true] at passed
    exact passed.2.1.1
  apply wp_then
  apply wp_transaction quiet.andThen adds_idle
  intro T' _
  apply Tx.wp_mono registerBody_adds
  intro r L' added u s' done
  exact ⟨.inr ⟨w, content, target, valid, added u s' done⟩, h _ _ _⟩

theorem code_adds (i : Nat) (c : Call) (T : Trace (system fits)) :
    wp (safe Adds i c) (code fits c) T [] (fun _ _ _ => True) := by
  have quiet : Quiet (fun _ _ _ => True : Post (system fits) Text) := fun _ _ _ => trivial
  cases c with
  | register w content => exact register_adds quiet rfl (fun _ _ _ => trivial)
  | registerSnapshot w snapshot =>
    apply wp_require_then quiet
    intro matched
    apply wp_ofExcept_then quiet
    intro content made
    apply wp_then
    have bytes : snapshotTarget w snapshot = some content := by
      unfold snapshotTarget
      rw [if_pos matched, elim_eq_ok made]
    have target : Call.target (.registerSnapshot w snapshot) = some (w, content) := congrArg (Option.map (w, ·)) bytes
    apply register_adds quiet.andThen target
    intro T L d
    apply wp_require_then quiet
    intro _
    trivial
  | content w =>
    apply wp_cancelled_checked quiet
    intro ended _
    apply wp_then
    apply wp_transaction quiet.andThen adds_idle
    intro T' _
    apply Ledger.wp_cancelled_checked (Tx.quiet_ok _)
    intro late _
    apply Tx.wp_read_then
    apply Ledger.wp_orFail (Tx.quiet_ok _)
    rintro p _ b s' ⟨⟩
    refine ⟨.inl rfl, ?_⟩
    apply wp_require_then quiet
    intro _
    trivial

end Origins

section Decisions

variable {fits : Text → Bool} {s : Store} {w want : ReferenceExpectation} {T : Trace (system fits)}

def Binds (e : Entry (system fits)) (w : ReferenceExpectation) : Prop :=
  ∃ content, Call.target e.call = some (w, content) ∧
    (e.after.bindings.get (nativeTargetBindingKey w)).bind decodeAuthority = some (newBinding w content)

/-- Expectation `w` has been registered in the run and is one that the query asks for. -/
def Decided (schedule : List (Action (system fits))) (want w : ReferenceExpectation) : Prop :=
  unnamed w = want ∧ ∃ e ∈ (exec _ schedule).trace, Binds e w

def Originates (T : Trace (system fits)) (k v : Text) : Prop :=
  ∃ w content, validExpectation w = true ∧ k = nativeTargetBindingKey w ∧ v = marshal (newBinding w content) ∧
    ∃ e ∈ T, Call.target e.call = some (w, content) ∧ e.after.bindings.get k = some v

theorem valid_originates (h : Valid Adds T) (k v : Text) (found : (last T).bindings.get k = some v) :
    Originates T k v := by
  revert k v
  refine h.invariant (P := fun T => ∀ k v, (last T).bindings.get k = some v → Originates T k v) ?_ ?_
  · intro k v found
    cases (Bucket.get_empty k).symm.trans found
  · intro T e _ ih before adds k v found
    have grow : Originates T k v → Originates (T ++ [e]) k v := by
      rintro ⟨w, content, valid, key, value, a, ha, rest⟩
      exact ⟨w, content, valid, key, value, a, List.mem_append_left _ ha, rest⟩
    rw [last_append] at found
    rcases adds with same | ⟨w, content, target, valid, added⟩
    · rw [same, before] at found
      exact grow (ih k v found)
    · rcases added.bindings k v found with old | ⟨rfl, rfl⟩
      · rw [before] at old
        exact grow (ih k v old)
      · exact ⟨w, content, valid, rfl, rfl, e, List.mem_concat_self, target, found⟩

variable {k v : Text}

theorem bindingOf_marshal (valid : validExpectation w = true) (k content : Text) :
    decodeAuthority (marshal (newBinding w content)) = some (newBinding w content) ∧
      bindingOf (k, marshal (newBinding w content)) = newBinding w content := by
  have read := decodeAuthority_marshal (binding_storable valid content)
  refine ⟨read, ?_⟩
  unfold bindingOf
  rw [read]
  rfl

theorem originates_legible (h : Originates T k v) :
    Legible (k, v) ∧ k = nativeTargetBindingKey (bindingOf (k, v)).expectation := by
  obtain ⟨w, content, valid, rfl, rfl, -⟩ := h
  obtain ⟨read, same⟩ := bindingOf_marshal valid (nativeTargetBindingKey w) content
  have named : validRef w.id = true := by
    simp only [validExpectation, Bool.and_eq_true] at valid
    exact valid.1.1.1.1.1.1.1
  refine ⟨⟨?_, ?_⟩, ?_⟩
  · rw [same]
    exact read
  · rw [same]
    exact named
  · rw [same]
    rfl

variable (schedule : List (Action (system fits)))

theorem exec_originates (found : (exec _ schedule).store.bindings.get k = some v) :
    Originates (exec _ schedule).trace k v := by
  have sound := exec_sound (fun i c T _ => code_adds i c T) schedule
  rw [sound.store] at found
  exact valid_originates sound.valid k v found

theorem exec_legible : AllLegible (exec _ schedule).store := by
  rintro ⟨k, v⟩ he
  exact (originates_legible (exec_originates schedule ((Bucket.mem_entries _ k v).mp he))).1

theorem mem_of_bound {s : Store} {content : Text}
    (bound : (s.bindings.get (nativeTargetBindingKey w)).bind decodeAuthority = some (newBinding w content)) :
    w ∈ s.bindings.entries.map (fun e => (bindingOf e).expectation) := by
  obtain ⟨raw, found, read⟩ := Option.bind_eq_some_iff.mp bound
  refine List.mem_map.mpr ⟨(nativeTargetBindingKey w, raw), (Bucket.mem_entries _ _ _).mpr found, ?_⟩
  unfold bindingOf
  rw [read]
  rfl

theorem mem_expectations (w : ReferenceExpectation) :
    w ∈ (exec _ schedule).store.bindings.entries.map (fun e => (bindingOf e).expectation) ↔
      ∃ e ∈ (exec _ schedule).trace, Binds e w := by
  constructor
  · intro there
    obtain ⟨⟨k, v⟩, he, rfl⟩ := List.mem_map.mp there
    obtain ⟨w, content, valid, rfl, rfl, e, inside, target, left⟩ :=
      exec_originates schedule ((Bucket.mem_entries _ k v).mp he)
    obtain ⟨read, same⟩ := bindingOf_marshal valid (nativeTargetBindingKey w) content
    have exactly : (bindingOf (nativeTargetBindingKey w, marshal (newBinding w content))).expectation = w := by
      rw [same]
      rfl
    rw [exactly]
    refine ⟨e, inside, content, target, ?_⟩
    rw [left, Option.bind_some]
    exact read
  · rintro ⟨e, inside, content, -, bound⟩
    have sound := exec_sound code_steps schedule
    obtain ⟨U, sub, -, -, -⟩ := sound.valid.mem inside
    have grows := valid_grows sound.valid sub
    rw [last_append, ← sound.store] at grows
    exact mem_of_bound (bind_grows grows.bindings bound)

theorem expectations_nodup :
    ((exec _ schedule).store.bindings.entries.map (fun e => (bindingOf e).expectation)).Nodup := by
  apply List.Nodup.of_map nativeTargetBindingKey
  have keys : ((exec _ schedule).store.bindings.entries.map (fun e => (bindingOf e).expectation)).map
      nativeTargetBindingKey = (exec _ schedule).store.bindings.keys := by
    unfold Bucket.keys
    rw [List.map_map]
    apply List.map_congr_left
    rintro ⟨k, v⟩ he
    exact (originates_legible (exec_originates schedule ((Bucket.mem_entries _ k v).mp he))).2.symm
  rw [keys]
  exact Bucket.keys_nodup _

theorem mem_candidates (want w : ReferenceExpectation) :
    w ∈ candidates want (exec _ schedule).store.bindings.entries ↔ Decided schedule want w := by
  unfold candidates Decided
  rw [List.mem_filter, mem_expectations, decide_eq_true_iff, and_comm]

/-- One registration answers the query exactly when the scan meets one candidate. -/
theorem candidates_singleton (want w : ReferenceExpectation) :
    candidates want (exec _ schedule).store.bindings.entries = [w] ↔
      Decided schedule want w ∧ ∀ w', Decided schedule want w' → w' = w := by
  constructor
  · intro only
    have members := mem_candidates schedule want
    rw [only] at members
    exact ⟨(members w).mp List.mem_cons_self, fun w' h => List.mem_singleton.mp ((members w').mpr h)⟩
  · rintro ⟨there, unique⟩
    apply List.perm_singleton.mp
    apply (List.perm_ext_iff_of_nodup ((expectations_nodup schedule).filter _) (List.nodup_singleton w)).mpr
    intro w'
    rw [List.mem_singleton]
    constructor
    · exact fun found => unique w' ((mem_candidates schedule want w').mp found)
    · rintro rfl
      exact (mem_candidates schedule want w').mpr there

def Finds (schedule : List (Action (system fits))) (t : Reading) (want : ReferenceExpectation) : Prop :=
  (∀ w, Decided schedule want w → (∀ w', Decided schedule want w' → w' = w) →
    after (during t) (findAssuranceDecision want) (exec _ schedule).store
      (fun s' r => s' = (exec _ schedule).store ∧ r = .ok w)) ∧
  ((¬ ∃! w, Decided schedule want w) →
    after (during t) (findAssuranceDecision want) (exec _ schedule).store
      (fun s' r => s' = (exec _ schedule).store ∧ ∃ x, r = .error x))

def decisionQuery (w : ReferenceExpectation) : ReferenceExpectation :=
  { w with id := [], kind := .assuranceMappingDecision }

/-- A query of the reachable ledger is answered as it should be unless it asks for a
decision that is there, in a ledger of more than ten thousand bindings. -/
theorem decision_found_iff (fits : Text → Bool) (schedule : List (Action (system fits))) (t : Reading)
    (want : ReferenceExpectation) :
    Finds schedule t (decisionQuery want) ↔
      ((exec (system fits) schedule).store.bindings.keyN ≤ 10000 ∨
        ¬ ∃! w, Decided schedule (decisionQuery want) w) := by
  have legible := exec_legible schedule
  have unique : ∀ {w}, candidates (decisionQuery want) (exec _ schedule).store.bindings.entries = [w] ↔
      Decided schedule (decisionQuery want) w ∧ ∀ w', Decided schedule (decisionQuery want) w' → w' = w :=
    candidates_singleton schedule _ _
  constructor
  · intro finds
    by_contra neither
    rw [not_or, not_not] at neither
    obtain ⟨long, w, there, only⟩ := neither
    have refused : after (during t) (findAssuranceDecision (decisionQuery want)) (exec _ schedule).store
        (fun _ r => ∃ x, r = .error x) := by
      apply find_alone legible rfl rfl
      · exact fun _ short => absurd short long
      · exact fun _ x => ⟨x, rfl⟩
    obtain ⟨s', r, ⟨-, rfl⟩, x, failed⟩ := after_meet (during_answers t) (finds.1 w there only) refused
    cases failed
  · intro either
    constructor
    · intro w there only
      have single := unique.mpr ⟨there, only⟩
      have short := either.resolve_right (fun several => several ⟨w, there, only⟩)
      apply find_alone legible rfl rfl
      · intro w' _ found _
        rw [single] at found
        cases found
        exact ⟨rfl, rfl⟩
      · intro none
        exact absurd single (none w short)
    · intro several
      apply find_alone legible rfl rfl
      · intro w _ found _
        exact absurd ⟨w, unique.mp found⟩ several
      · exact fun _ x => ⟨rfl, x, rfl⟩

end Decisions

section Overflow

variable {fits : Text → Bool} {w : ReferenceExpectation} {content : Text}

/-- A registration that is left alone, of a new reference and expectation. -/
theorem register_alone (schedule : List (Action (system fits))) (fit : registrable fits w content = true)
    (free : (exec _ schedule).store.records.get w.id = none)
    (unused : (exec _ schedule).store.bytes.get w.id = none)
    (unbound : (exec _ schedule).store.bindings.get (nativeTargetBindingKey w) = none)
    (oracle : Oracle ports) (quiet : ∀ L q, calm ⟨q, oracle L q⟩ = true) :
    ∃ later : List (Action (system fits)),
      Wrote (exec _ schedule).store (exec _ later).store w content ∧
      Added (exec _ schedule).store (exec _ later).store w content := by
  have valid : validExpectation w = true := by
    simp only [registrable, Bool.and_eq_true] at fit
    exact fit.1.1
  have sound := exec_sound code_steps schedule
  rw [sound.store] at free unused unbound ⊢
  have alone : wp (alone (fun _ q a => calm ⟨q, a⟩ = true) (exec _ schedule).threads.length
        (.register w content) : Setting (system fits))
      (code fits (.register w content)) (exec _ schedule).trace []
      (fun T _ _ => Wrote (last (exec _ schedule).trace) (last T) w content ∧
        Added (last (exec _ schedule).trace) (last T) w content) := by
    apply wp_cancelled_then
    intro ended given
    have live : (!ended) = true := given
    apply wp_require_pass (by rw [live, fit]; rfl)
    apply wp_then
    apply wp_transaction_all
    · rintro T' - e given
      have runs : calm ⟨.storage, .error e⟩ = true := given
      cases runs
    · rintro T' rfl
      apply Tx.wp_mono (Dialogue.wp_and (wp_registerBody (Q := fun r _ => ∃ s', r = .ok ((), s') ∧
        Wrote (last (exec _ schedule).trace) s' w content) valid ?_ ?_) registerBody_adds)
      · rintro r L' ⟨⟨s', rfl, wrote⟩, added⟩
        refine ⟨trivial, ?_⟩
        change Wrote _ (last (_ ++ [_])) _ _ ∧ Added _ (last (_ ++ [_])) _ _
        rw [last_append]
        exact ⟨wrote, added () s' rfl⟩
      · rintro e b given (rfl | taken)
        · have live : (!true) = true := given
          cases live
        · rcases taken.stored with there | there | there
          · exact absurd free there
          · exact absurd unused there
          · exact absurd unbound there
      · exact fun s' b wrote => ⟨s', rfl, wrote⟩
  obtain ⟨n, L, r, -, -, left⟩ := solo_call (fun L q _ => quiet L q) schedule (fun _ _ _ _ _ _ => rfl) _ _ alone
  refine ⟨thenAlone schedule (.register w content) n oracle, ?_⟩
  rw [(exec_sound code_steps (thenAlone schedule (.register w content) n oracle)).store]
  exact left

namespace Sample

def reference (n : Nat) : Text := "ref_".toList ++ Text.padded 10 5 n

def mapping : ReferenceExpectation :=
  { id := "ref_abcd", kind := .attributeMapping, trustID := uuidText 1, snapshotID := "s", trustRevision := 1,
    providerID := "provider_a", engineInstanceID := "ei_abc", scope := ⟨"o", "est"⟩ }

def decision : ReferenceExpectation :=
  { mapping with
    kind := .assuranceMappingDecision, eventID := uuidText 2, issuer := "https://a", subject := "sub",
    level := "BAOBAB-A1", evidenceDigest := "sha256:".toList ++ List.replicate 64 '0' }

/-- A decision on an event, then references that have nothing to do with it. -/
def target (n : Nat) : ReferenceExpectation := { (if n = 0 then decision else mapping) with id := reference n }

def bytes : Text := "\x7b\x7d"

def want : ReferenceExpectation := unnamed (target 0)

theorem reference_valid (n : Nat) : validRef (reference n) = true := by
  have digits : ∀ d : Fin 16, d.val < 10 → isLowerAlnum (Text.digitChar d) = true := by decide
  have size : (reference n).size = 9 := by
    unfold reference
    rw [Text.size_append, Text.padded_size (by decide) (by decide)]
    rfl
  have tail : (reference n).drop 4 = Text.padded 10 5 n := List.drop_left' rfl
  have named : refPattern (reference n) = true := by
    have nonempty : (Text.padded 10 5 n).isEmpty = false := by
      rw [← Bool.not_eq_true, List.isEmpty_iff_length_eq_zero, Text.padded_length]
      decide
    have lower : (Text.padded 10 5 n).all isLowerAlnum = true := by
      rw [List.all_eq_true]
      intro c hc
      obtain ⟨d, small, rfl⟩ := Text.padded_mem (by decide) (by decide) hc
      exact digits d small
    have begins : "ref_".toList.isPrefixOf (reference n) = true :=
      List.isPrefixOf_iff_prefix.mpr (List.prefix_append _ _)
    unfold refPattern prefixedName
    rw [begins]
    change (true && !((reference n).drop 4).isEmpty && ((reference n).drop 4).all isLowerAlnum) = true
    rw [tail, nonempty, lower]
    rfl
  unfold validRef
  rw [size, named]
  rfl

theorem valid_renamed {w : ReferenceExpectation} {ref : Text} (valid : validExpectation w = true)
    (named : validRef ref = true) : validExpectation { w with id := ref } = true := by
  simp only [validExpectation, Bool.and_eq_true] at valid ⊢
  exact ⟨⟨⟨⟨⟨⟨⟨named, valid.1.1.1.1.1.1.2⟩, valid.1.1.1.1.1.2⟩, valid.1.1.1.1.2⟩,
    valid.1.1.1.2⟩, valid.1.1.2⟩, valid.1.2⟩, valid.2⟩

theorem target_fits (n : Nat) : registrable (fun _ => true) (target n) bytes = true := by
  have json : validateNativeTargetJSON (fun _ => true) bytes = true := by decide
  unfold registrable target
  rw [json, Bool.and_true]
  by_cases first : n = 0
  · rw [if_pos first, valid_renamed (by decide) (reference_valid n)]
    rfl
  · rw [if_neg first, valid_renamed (by decide) (reference_valid n)]
    rfl

theorem reference_injective {i j : Nat} (hi : i ≤ 10000) (hj : j ≤ 10000) (same : reference i = reference j) :
    i = j := by
  apply Text.padded_inj (b := 10) (w := 5) (by decide) Text.decimal_digits (by omega) (by omega)
  exact List.append_cancel_left same

def answer : (q : Query) → q.Answer
  | .cancelled => false
  | .storage => .ok ()
  | q => refusal ⟨⟨Time.second, 0⟩, second_representable, second_representable⟩ q

theorem answer_calm (q : Query) : calm ⟨q, answer q⟩ = true := by
  cases q <;> rfl

/-- A run that has registered the first `n` targets and nothing else. -/
structure Holds (schedule : List (Action (system (fun _ => true)))) (n : Nat) : Prop where
  registered : ∀ j < n, Registered (exec _ schedule).store (target j) bytes
  records : ∀ k v, (exec _ schedule).store.records.get k = some v → ∃ j < n, k = reference j
  bytes : ∀ k v, (exec _ schedule).store.bytes.get k = some v → ∃ j < n, k = reference j
  bindings : ∀ k v, (exec _ schedule).store.bindings.get k = some v →
    ∃ j < n, k = nativeTargetBindingKey (target j)

def Distinct : Prop :=
  ∀ i j, i ≤ 10000 → j ≤ 10000 → nativeTargetBindingKey (target i) = nativeTargetBindingKey (target j) →
    i = j

theorem holds (distinct : Distinct) (n : Nat) (small : n ≤ 10001) : ∃ schedule, Holds schedule n := by
  induction n with
  | zero =>
    refine ⟨[], ?_, ?_, ?_, ?_⟩
    · intro j none
      cases none
    · intro k v found
      cases (Bucket.get_empty k).symm.trans found
    · intro k v found
      cases (Bucket.get_empty k).symm.trans found
    · intro k v found
      cases (Bucket.get_empty k).symm.trans found
  | succ n ih =>
    obtain ⟨schedule, h⟩ := ih (by omega)
    have free : ∀ {o : Option Text}, (∀ v, o = some v → ∃ j < n, reference n = reference j) → o = none := by
      intro o used
      cases o with
      | none => rfl
      | some v =>
        obtain ⟨j, less, same⟩ := used v rfl
        have := reference_injective (by omega) (by omega) same
        omega
    have unbound : (exec _ schedule).store.bindings.get (nativeTargetBindingKey (target n)) = none := by
      cases found : (exec _ schedule).store.bindings.get (nativeTargetBindingKey (target n)) with
      | none => rfl
      | some v =>
        obtain ⟨j, less, same⟩ := h.bindings _ v found
        have := distinct n j (by omega) (by omega) same
        omega
    obtain ⟨later, wrote, added⟩ :=
      register_alone schedule (target_fits n) (free (h.records _)) (free (h.bytes _)) unbound
      (fun _ => answer) (fun _ => answer_calm)
    refine ⟨later, ?_, ?_, ?_, ?_⟩
    · intro j less
      rcases Nat.lt_succ_iff_lt_or_eq.mp less with less | rfl
      · exact (h.registered j less).grow wrote.grows
      · exact wrote.registered
    · intro k v found
      rcases added.records k v found with old | rfl
      · obtain ⟨j, less, same⟩ := h.records k v old
        exact ⟨j, Nat.lt_succ_of_lt less, same⟩
      · exact ⟨n, Nat.lt_succ_self n, rfl⟩
    · intro k v found
      rcases added.bytes k v found with old | rfl
      · obtain ⟨j, less, same⟩ := h.bytes k v old
        exact ⟨j, Nat.lt_succ_of_lt less, same⟩
      · exact ⟨n, Nat.lt_succ_self n, rfl⟩
    · intro k v found
      rcases added.bindings k v found with old | ⟨rfl, -⟩
      · obtain ⟨j, less, same⟩ := h.bindings k v old
        exact ⟨j, Nat.lt_succ_of_lt less, same⟩
      · exact ⟨n, Nat.lt_succ_self n, rfl⟩

variable {schedule : List (Action (system (fun _ => true)))} {n : Nat}

theorem Holds.decided (h : Holds schedule (n + 1)) :
    Decided schedule want (target 0) ∧ ∀ w, Decided schedule want w → w = target 0 := by
  constructor
  · refine ⟨rfl, ?_⟩
    rw [← mem_expectations]
    exact mem_of_bound (h.registered 0 (Nat.succ_pos n)).binding
  · rintro w ⟨asked, registered⟩
    rw [← mem_expectations] at registered
    obtain ⟨⟨k, v⟩, he, rfl⟩ := List.mem_map.mp registered
    have found := (Bucket.mem_entries _ k v).mp he
    obtain ⟨j, less, rfl⟩ := h.bindings k v found
    -- the binding under the key of a target is the target's own
    have own := (h.registered j less).binding
    rw [found, Option.bind_some] at own
    have same : (bindingOf (nativeTargetBindingKey (target j), v)).expectation = target j := by
      unfold bindingOf
      rw [own]
      rfl
    rw [same] at asked ⊢
    by_cases first : j = 0
    · rw [first]
    · have kind := congrArg ReferenceExpectation.kind asked
      unfold unnamed target at kind
      rw [if_neg first] at kind
      cases kind

theorem Holds.size (distinct : Distinct) (small : n ≤ 10001)
    (h : Holds schedule n) : n ≤ (exec _ schedule).store.bindings.keyN := by
  have keys : ((List.range n).map (fun j => nativeTargetBindingKey (target j))).Nodup := by
    apply List.Nodup.map_on _ List.nodup_range
    intro i hi j hj same
    rw [List.mem_range] at hi hj
    exact distinct i j (by omega) (by omega) same
  have inside : (List.range n).map (fun j => nativeTargetBindingKey (target j)) ⊆
      (exec _ schedule).store.bindings.keys := by
    intro k hk
    obtain ⟨j, less, rfl⟩ := List.mem_map.mp hk
    obtain ⟨raw, found, -⟩ := Option.bind_eq_some_iff.mp (h.registered j (List.mem_range.mp less)).binding
    exact Bucket.mem_keys.mpr ⟨raw, found⟩
  have length := (List.subperm_of_subset keys inside).length_le
  unfold Bucket.keys at length
  rwa [List.length_map, List.length_map, List.length_range] at length

end Sample

/-- A decision is registered, then ten thousand other targets: the decision, still the only
one for its event, is not found any more. The only other way is that two of these targets
have the same digest. -/
theorem decision_lost :
    ¬ Sample.Distinct ∨ ∃ schedule : List (Action (system (fun _ => true))),
      (∃! w, Decided schedule Sample.want w) ∧
      ∀ t, after (during t) (findAssuranceDecision Sample.want) (exec _ schedule).store
        (fun s' r => s' = (exec _ schedule).store ∧ ∃ x, r = .error x) := by
  apply Classical.or_iff_not_imp_left.mpr
  intro same
  have distinct := Classical.not_not.mp same
  obtain ⟨schedule, h⟩ := Sample.holds distinct 10001 (Nat.le_refl _)
  refine ⟨schedule, ⟨_, h.decided⟩, ?_⟩
  intro t
  have long := h.size distinct (Nat.le_refl _)
  apply find_alone (exec_legible schedule) rfl rfl
  · intro w short
    omega
  · exact fun _ x => ⟨rfl, x, rfl⟩

end Overflow

end Federation.NativeTargetLedger
