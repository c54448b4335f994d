import BaobabIam.Base.Sweep
import BaobabIam.Federation.OidcSteps

/-! Pruning the OIDC event ledger, call after call. A call moves every bucket by one
batch of its sweep, so no expired record stays for ever, and records that have not
expired are never touched. -/
namespace Federation.OIDCEvents

open Wire Interleaving

theorem key_order : Sweep.StrictOrder keyLt := ⟨keyLt_irrefl, keyLt_trans, keyLt_total⟩

/-- The keys of a bucket and the one at which its last batch stopped. -/
def position (kind : Kind) (s : Store) : Sweep.State Text := ⟨(kind.get s).keys, s.maintenance.get (cursorKey kind)⟩

def due (kind : Kind) (now : Time) (s : Store) (k : Text) : Bool :=
  match ((kind.get s).get k).bind kind.expiry with
  | some x => !now.before x
  | none => false

def Readable (kind : Kind) (v : Text) : Prop := ∃ x, kind.expiry v = some x ∧ x.isZero = false

def batch (kind : Kind) (limit : Nat) (s : Store) : List Text := (position kind s).batch keyLt limit

def swept (kind : Kind) (now : Time) (limit : Nat) (s : Store) : Store :=
  { kind.set ((kind.get s).discard (fun k => due kind now s k && Sweep.within (batch kind limit s) k)) s with
    maintenance :=
      match (Sweep.step keyLt (due kind now s) limit (position kind s)).cursor with
      | none => s.maintenance.delete (cursorKey kind)
      | some k => s.maintenance.put (cursorKey kind) k }

section Batches

variable {kind : Kind} {now : Time} {s : Store} {rule : Rule ports} {L : Log ports}

theorem Kind.set_get (kind : Kind) (s : Store) : kind.set (kind.get s) s = s := by
  cases kind <;> rfl

theorem Kind.set_set (kind : Kind) (b c : Bucket) (s : Store) : kind.set b (kind.set c s) = kind.set b s := by
  cases kind <;> rfl

theorem last_cons (k : Text) (ks : List Text) (lastKey : Option Text) :
    (k :: ks).getLast?.or lastKey = ks.getLast?.or (some k) := by
  rw [List.getLast?_cons]
  cases ks.getLast? <;> rfl

theorem discard_nothing (b : Bucket) (gone : Text → Bool) : b.discard (fun k => gone k && Sweep.within [] k) = b := by
  simp only [Sweep.within_nil, Bool.and_false]
  exact Bucket.discard_none b

theorem wp_scan_exact {gone : Text → Bool} {left : Nat} {es : List (Text × Text)} {lastKey : Option Text}
    {deleted : Nat} {Q : Except Fault ((Option Text × Bool × Nat) × Store) → Log ports → Prop}
    (live : ∀ L, ¬ rule L Query.cancelled true)
    (readable : ∀ e ∈ es, ∃ x, kind.expiry e.2 = some x ∧ x.isZero = false ∧ gone e.1 = !now.before x)
    (h : ∀ n L', Q (.ok ((((es.map Prod.fst).take left).getLast?.or lastKey, decide (left < es.length), n),
      kind.set ((kind.get s).discard (fun k => gone k && Sweep.within ((es.map Prod.fst).take left) k)) s)) L') :
    (scan kind now left es lastKey deleted).wp rule s L Q := by
  induction left generalizing es lastKey deleted s L with
  | zero =>
    have same := h deleted L
    rw [List.take_zero, discard_nothing, Kind.set_get] at same
    cases es with
    | nil => exact same
    | cons e es => exact same
  | succ left ih =>
    cases es with
    | nil =>
      have same := h deleted L
      rw [List.map_nil, List.take_nil, discard_nothing, Kind.set_get] at same
      exact same
    | cons e es =>
      obtain ⟨x, read, nonzero, late⟩ := readable e List.mem_cons_self
      have others := fun d hd => readable d (List.mem_cons_of_mem e hd)
      have size : decide (left + 1 < (e :: es).length) = decide (left < es.length) := by simp
      simp only [List.map_cons, List.take_succ_cons, last_cons, size] at h
      apply Ledger.wp_cancelled_then
      intro stop admitted
      cases stop with
      | true => exact absurd admitted (live L)
      | false =>
        apply Tx.wp_require_pass rfl
        rw [read]
        apply Ledger.wp_orFail_pass_then rfl
        apply Tx.wp_require_pass (by rw [nonzero]; rfl)
        cases early : now.before x with
        | true =>
          rw [if_pos rfl]
          rw [early] at late
          apply ih others
          intro n L'
          have done := h n L'
          rw [Bucket.discard_congr (q := fun k => gone k && Sweep.within ((es.map Prod.fst).take left) k)] at done
          · exact done
          · intro k _
            by_cases first : k = e.1
            · rw [first, late]
              rfl
            · simp [Sweep.within_cons, first]
        | false =>
          rw [if_neg Bool.false_ne_true]
          rw [early] at late
          apply Tx.wp_write_then
          apply ih others
          intro n L'
          have done := h n L'
          rw [Kind.get_set, Kind.set_set, Bucket.delete_discard]
          rw [Bucket.discard_congr (q := fun k => decide (k = e.1) ||
            (gone k && Sweep.within ((es.map Prod.fst).take left) k))] at done
          · exact done
          · intro k _
            by_cases first : k = e.1
            · simp [Sweep.within_cons, first, late]
            · simp [Sweep.within_cons, first]

theorem resumed_keys (b : Bucket) (cursor : Option Text) :
    (resumed b cursor).map Prod.fst = Sweep.ahead keyLt b.keys cursor := by
  cases cursor with
  | none => rfl
  | some k =>
    change (b.entries.filter _).map Prod.fst = (b.entries.map Prod.fst).filter (keyLt k)
    rw [List.filter_map]
    rfl

theorem due_of_get {k v : Text} {x : Time} (found : (kind.get s).get k = some v) (read : kind.expiry v = some x) :
    due kind now s k = !now.before x := by
  unfold due
  rw [found]
  simp only [Option.bind_some, read]

theorem wp_sweep_exact {limit : Nat} {Q : Except Fault (Nat × Store) → Log ports → Prop} (positive : 0 < limit)
    (live : ∀ L, ¬ rule L Query.cancelled true)
    (readable : ∀ k v, (kind.get s).get k = some v → Readable kind v)
    (h : ∀ n L', Q (.ok (n, swept kind now limit s)) L') : (sweep kind now limit).wp rule s L Q := by
  have keys : (resumed (kind.get s) (s.maintenance.get (cursorKey kind))).map Prod.fst =
      (position kind s).ahead keyLt := resumed_keys _ _
  have size := congrArg List.length keys
  rw [List.length_map] at size
  apply Tx.wp_read_then
  apply Tx.wp_read_then
  apply (Tx.wp_bind _ _ _).mpr
  apply wp_scan_exact live
  · intro e he
    have found := resumed_mem he
    obtain ⟨x, read, nonzero⟩ := readable e.1 e.2 found
    exact ⟨x, read, nonzero, due_of_get found read⟩
  · intro n L'
    apply Tx.wp_write_then
    rw [keys, size]
    have done := h n L'
    unfold swept at done
    change Q (.ok (n, _)) L'
    rw [Kind.set_maintenance]
    by_cases few : ((position kind s).ahead keyLt).length ≤ limit
    · rw [Sweep.cursor_wrapped few] at done
      rw [decide_eq_false (Nat.not_lt.mpr few)]
      exact done
    · have more := Nat.lt_of_not_le few
      obtain ⟨front, stop, split⟩ := Sweep.batch_split positive more
      rw [Sweep.cursor_stopped more split] at done
      have last : (((position kind s).ahead keyLt).take limit).getLast?.or none = some stop := by
        change ((position kind s).batch keyLt limit).getLast?.or none = _
        rw [split]
        simp
      rw [decide_eq_true more, last]
      exact done

end Batches

section Sweeping

variable {now : Time} {limit : Nat} {s s' : Store}

variable {kind other : Kind}

theorem cursorKey_injective (h : cursorKey other = cursorKey kind) : other = kind := by
  revert h
  cases kind <;> cases other <;> decide

theorem get_swept (kind : Kind) (now : Time) (limit : Nat) (s : Store) :
    kind.get (swept kind now limit s) =
      (kind.get s).discard (fun k => due kind now s k && Sweep.within (batch kind limit s) k) := by
  cases kind <;> rfl

theorem get_swept_ne (h : other ≠ kind) (now : Time) (limit : Nat) (s : Store) :
    other.get (swept kind now limit s) = other.get s := by
  cases kind <;> cases other <;> first | rfl | exact absurd rfl h

theorem maintenance_swept_ne {k : Text} (h : k ≠ cursorKey kind) (now : Time) (limit : Nat) (s : Store) :
    (swept kind now limit s).maintenance.get k = s.maintenance.get k := by
  unfold swept
  dsimp only
  split
  · rw [Bucket.get_delete, if_neg h]
  · exact Bucket.get_put_ne _ _ h

theorem position_swept (kind : Kind) (now : Time) (limit : Nat) (s : Store) :
    position kind (swept kind now limit s) = Sweep.step keyLt (due kind now s) limit (position kind s) := by
  have cursor : (swept kind now limit s).maintenance.get (cursorKey kind) =
      (Sweep.step keyLt (due kind now s) limit (position kind s)).cursor := by
    unfold swept
    dsimp only
    split
    · rename_i wrapped
      rw [Bucket.get_delete, if_pos rfl, wrapped]
    · rename_i k stopped
      rw [Bucket.get_put_self, stopped]
  unfold position at cursor ⊢
  rw [cursor, get_swept, Bucket.keys_discard]
  rfl

theorem position_swept_ne (h : other ≠ kind) (now : Time) (limit : Nat) (s : Store) :
    position other (swept kind now limit s) = position other s := by
  unfold position
  rw [get_swept_ne h, maintenance_swept_ne (fun same => h (cursorKey_injective same))]

def pruned (now : Time) (limit : Nat) (s : Store) : Store :=
  swept .replay now limit (swept .events now limit (swept .requests now limit (ticked s now)))

theorem due_congr (same : kind.get s' = kind.get s) : due kind now s' = due kind now s := by
  unfold due
  rw [same]

theorem position_ticked (kind : Kind) (now : Time) (s : Store) : position kind (ticked s now) = position kind s := by
  have cursor : (ticked s now).maintenance.get (cursorKey kind) = s.maintenance.get (cursorKey kind) :=
    Bucket.get_put_ne _ _ (cursorKey_ne kind).symm
  unfold position
  rw [cursor]
  cases kind <;> rfl

theorem get_ticked (kind : Kind) (now : Time) (s : Store) : kind.get (ticked s now) = kind.get s := by
  cases kind <;> rfl

theorem position_pruned (kind : Kind) (now : Time) (limit : Nat) (s : Store) :
    position kind (pruned now limit s) = Sweep.step keyLt (due kind now s) limit (position kind s) := by
  have start : due kind now (ticked s now) = due kind now s := due_congr (get_ticked kind now s)
  unfold pruned
  cases kind with
  | requests =>
    rw [position_swept_ne (by decide), position_swept_ne (by decide), position_swept, position_ticked, start]
  | events =>
    rw [position_swept_ne (by decide), position_swept, due_congr (get_swept_ne (by decide) _ _ _),
      position_swept_ne (by decide), position_ticked, start]
  | replay =>
    rw [position_swept, due_congr ((get_swept_ne (by decide) _ _ _).trans (get_swept_ne (by decide) _ _ _)),
      position_swept_ne (by decide), position_swept_ne (by decide), position_ticked, start]

theorem swept_swept (kind : Kind) (now : Time) (limit : Nat) (s : Store) : Swept now s (swept kind now limit s) := by
  constructor
  · intro other k v found
    by_cases same : other = kind
    · subst same
      rw [get_swept, Bucket.get_discard] at found
      split at found
      · cases found
      · exact found
    · rwa [get_swept_ne same] at found
  · intro other k v found
    by_cases same : other = kind
    · subst same
      rw [get_swept, Bucket.get_discard]
      split
      · rename_i gone
        right
        have late := (Bool.and_eq_true_iff.mp gone).1
        unfold due at late
        rw [found] at late
        cases read : other.expiry v with
        | none => simp [read] at late
        | some x =>
          refine ⟨x, rfl, ?_⟩
          simpa [read] using late
      · exact .inl found
    · rw [get_swept_ne same]
      exact .inl found
  · exact maintenance_swept_ne (cursorKey_ne kind) now limit s

theorem pruned_swept (now : Time) (limit : Nat) (s : Store) : Swept now (ticked s now) (pruned now limit s) :=
  ((swept_swept _ _ _ _).trans (swept_swept _ _ _ _)).trans (swept_swept _ _ _ _)

end Sweeping

section Calls

variable {limit : Nat} {s : Store}

def AllReadable (s : Store) : Prop := ∀ kind k v, (Kind.get kind s).get k = some v → Readable kind v

variable {s' : Store} {now : Time} {t : Reading}

theorem AllReadable.swept (readable : AllReadable s) (h : Swept now s s') : AllReadable s' :=
  fun kind k v found => readable kind k v (h.kept kind k v found)

theorem AllReadable.ticked (readable : AllReadable s) (t : Time) : AllReadable (ticked s t) := by
  intro kind k v found
  rw [get_ticked] at found
  exact readable kind k v found

theorem live_during (t : Reading) (L : Log ports) : ¬ (fun _ => during t : Rule ports) L Query.cancelled true := by
  intro ended
  cases ended

theorem wp_pruneBody_exact {L : Log ports} {Q : Except Fault (Nat × Store) → Log ports → Prop}
    (positive : 0 < limit) (ticks : Ticks s.maintenance t.time) (readable : AllReadable s)
    (h : ∀ n L', Q (.ok (n, pruned t.time limit s)) L') : (pruneBody limit).wp (fun _ => during t) s L Q := by
  have live := live_during t
  have first := (readable.ticked t.time)
  have second := first.swept (swept_swept .requests t.time limit _)
  have third := second.swept (swept_swept .events t.time limit _)
  apply Ledger.wp_now_then
  rintro r rfl
  apply wp_observeClockAt (fun early => absurd ticks early)
  intro _
  apply (Tx.wp_bind _ _ _).mpr
  apply wp_sweep_exact positive live (first .requests)
  intro a L₁
  apply (Tx.wp_bind _ _ _).mpr
  apply wp_sweep_exact positive live (second .events)
  intro b L₂
  apply (Tx.wp_bind _ _ _).mpr
  apply wp_sweep_exact positive live (third .replay)
  intro c L₃
  exact h _ _

theorem prune_ends (low : 1 ≤ limit) (high : limit ≤ 4096) (ticks : Ticks s.maintenance t.time)
    (readable : AllReadable s) :
    after (during t) (prune limit) s (fun s' r => s' = pruned t.time limit s ∧ ∃ n, r = .ok n) := by
  apply after_question_then
  rintro ended rfl
  apply after_require_pass
  · simp [low, high]
  · apply after_transaction (fun _ committed => committed)
    intro L
    apply wp_pruneBody_exact low ticks readable
    intro n L'
    exact ⟨rfl, n, rfl⟩

/-- Records are as they were, and those that have not expired are all there. -/
structure Spares (now : Time) (s s' : Store) : Prop where
  same : ∀ kind k v, (Kind.get kind s').get k = some v → (Kind.get kind s).get k = some v
  unexpired : ∀ kind k v, (Kind.get kind s).get k = some v →
    (∀ x, kind.expiry v = some x → now.before x = true) →
    (Kind.get kind s').get k = some v

theorem Spares.refl (now : Time) (s : Store) : Spares now s s := ⟨fun _ _ _ h => h, fun _ _ _ h _ => h⟩

theorem Spares.trans {s'' : Store} (h : Spares now s s') (h' : Spares now s' s'') : Spares now s s'' :=
  ⟨fun kind k v found => h.same kind k v (h'.same kind k v found),
    fun kind k v found early => h'.unexpired kind k v (h.unexpired kind k v found early) early⟩

theorem Swept.spares (h : Swept now (ticked s now) s') : Spares now s s' := by
  constructor
  · intro kind k v found
    have before := h.kept kind k v found
    rwa [get_ticked] at before
  · intro kind k v found early
    rw [← get_ticked kind now s] at found
    rcases h.expired kind k v found with still | ⟨x, read, late⟩
    · exact still
    · have soon := early x read
      rw [Time.before_iff] at soon
      omega

theorem prune_spares (t : Reading) (limit : Nat) (s : Store) :
    after (during t) (prune limit) s (fun s' _ => Spares t.time s s') := by
  have failed : Fails s (fun s' (_ : Except Fault Nat) => Spares t.time s s') := fun _ => Spares.refl _ _
  apply after_question_then
  intro ended _
  apply after_require_then failed
  intro _
  apply after_transaction (fun _ committed => committed)
  intro L
  apply wp_pruneBody
  · intro r _ _
    exact Spares.refl _ _
  · intro L' _
    exact Spares.refl _ _
  · intro kind k v _ _ L'
    exact Spares.refl _ _
  · rintro r n s' L' rfl ticks swept
    exact swept.spares

theorem Ticks.pruned : Ticks (pruned t.time limit s).maintenance t.time := by
  refine ⟨t.representable, t.representable_utc, ?_⟩
  intro raw stored
  rw [(pruned_swept t.time limit s).clock] at stored
  have clock : (ticked s t.time).maintenance.get clockKey = some t.time.utc.format := Bucket.get_put_self _ _ _
  rw [clock] at stored
  obtain rfl := Option.some.inj stored
  exact ⟨_, Time.parse_format _ t.representable_utc, le_refl _⟩

theorem due_spares {kind : Kind} (h : Spares now s s') {k : Text}
    (left : k ∈ (position kind s').keys) : due kind now s' k = due kind now s k := by
  obtain ⟨v, found⟩ := Bucket.mem_keys.mp left
  unfold due
  rw [found, h.same kind k v found]

theorem position_iterate (kind : Kind) (now : Time) (limit : Nat) (h : Spares now s s') (j : Nat) :
    position kind ((pruned now limit)^[j] s') = (Sweep.step keyLt (due kind now s) limit)^[j] (position kind s') := by
  induction j generalizing s' with
  | zero => rfl
  | succ j ih =>
    rw [Function.iterate_succ_apply, Function.iterate_succ_apply, ih (h.trans (pruned_swept now limit s').spares),
      position_pruned, Sweep.step_congr (fun k left => due_spares h left)]

def largest (s : Store) : Nat := max s.requests.keyN (max s.events.keyN s.replay.keyN)

theorem keyN_le_largest (kind : Kind) (s : Store) : (position kind s).keys.length ≤ largest s := by
  have size : (position kind s).keys.length = (kind.get s).keyN := List.length_map _
  rw [size]
  unfold largest
  cases kind with
  | requests => exact Nat.le_max_left _ _
  | events => exact (Nat.le_max_left _ _).trans (Nat.le_max_right _ _)
  | replay => exact (Nat.le_max_right _ _).trans (Nat.le_max_right _ _)

theorem iterate_clean (kind : Kind) (now : Time) {limit : Nat} (s : Store) {j : Nat} (low : 1 ≤ limit)
    (enough : (largest s ⌈/⌉ limit) + 1 ≤ j) :
    ∀ k ∈ (position kind ((pruned now limit)^[j] s)).keys, due kind now s k = false := by
  have sorted : Sweep.Sorted keyLt (position kind s) := Bucket.keys_sorted _
  rw [position_iterate kind now limit (Spares.refl now s) j]
  apply Sweep.clean_later _ (Sweep.all_clean key_order low sorted)
  apply Nat.le_trans _ enough
  apply Nat.succ_le_succ
  apply Sweep.batches_le low
  exact (keyN_le_largest kind s).trans (Sweep.le_batches low _)

/-- Prune spares every record that has not expired, whatever the ledger holds. Where
every record tells when it expires, no expired record outlasts one call more than the
largest bucket fills. -/
theorem prune_spares_and_cleans (t : Reading) (limit : Nat) (s : Store) :
    after (during t) (prune limit) s (fun s' _ => Spares t.time s s') ∧
    (1 ≤ limit → limit ≤ 4096 → Ticks s.maintenance t.time → AllReadable s →
      ∃ stores : Nat → Store, stores 0 = s ∧
        (∀ j, after (during t) (prune limit) (stores j) (fun s' r => s' = stores (j + 1) ∧ ∃ n, r = .ok n)) ∧
        (∀ j, Spares t.time s (stores j)) ∧
        ∀ j, (largest s ⌈/⌉ limit) + 1 ≤ j → ∀ kind k v x, (Kind.get kind (stores j)).get k = some v →
          kind.expiry v = some x → t.time.before x = true) := by
  refine ⟨prune_spares t limit s, ?_⟩
  intro low high ticks readable
  have spared : ∀ j, Spares t.time s ((pruned t.time limit)^[j] s) := by
    intro j
    induction j with
    | zero => exact Spares.refl _ _
    | succ j ih =>
      rw [Function.iterate_succ_apply']
      exact ih.trans (pruned_swept t.time limit _).spares
  refine ⟨fun j => (pruned t.time limit)^[j] s, rfl, ?_, spared, ?_⟩
  · intro j
    have onTime : Ticks ((pruned t.time limit)^[j] s).maintenance t.time := by
      cases j with
      | zero => exact ticks
      | succ j =>
        rw [Function.iterate_succ_apply']
        exact Ticks.pruned
    have read : AllReadable ((pruned t.time limit)^[j] s) := fun kind k v found =>
      readable kind k v ((spared j).same kind k v found)
    have next := Function.iterate_succ_apply' (pruned t.time limit) j s
    exact after_mono (prune_ends low high onTime read) (fun s' r ended => ⟨ended.1.trans next.symm, ended.2⟩)
  · intro j enough kind k v x found read
    have clean := iterate_clean kind t.time s low enough k (Bucket.mem_keys.mpr ⟨v, found⟩)
    rw [due_of_get ((spared j).same kind k v found) read] at clean
    simpa using clean

/-- Two fences that have expired by the second second, one that has not, and a saved
key that is gone. -/
def fences : Store :=
  { Store.empty with
    replay := ((Bucket.empty.put "a" "0001-01-01T0:00:01,5Z").put "b" "9999-01-01T00:00:00Z").put "c"
      "0001-01-02T00:00:01+24:00"
    maintenance := Bucket.empty.put (cursorKey .replay) "aa" }

theorem fences_held {kind : Kind} {k v : Text} (found : (kind.get fences).get k = some v) : kind = .replay ∧
    (v = "0001-01-01T0:00:01,5Z" ∨ v = "9999-01-01T00:00:00Z" ∨ v = "0001-01-02T00:00:01+24:00") := by
  cases kind with
  | requests => cases found
  | events => cases found
  | replay =>
    have stored : fences.replay.get k = some v := found
    simp only [fences, Bucket.get_put, Bucket.get_empty] at stored
    split_ifs at stored <;> cases stored <;> simp

theorem fences_cleaned :
    ∃ (t : Reading) (stores : Nat → Store), stores 0 = fences ∧
      (∀ j, after (during t) (prune 1) (stores j) (fun s' r => s' = stores (j + 1) ∧ ∃ n, r = .ok n)) ∧
      (stores 4).replay.get "a" = none ∧ (stores 4).replay.get "b" = some "9999-01-01T00:00:00Z" ∧
      (stores 4).replay.get "c" = none := by
  have times : Time.parse "0001-01-01T0:00:01,5Z" = some ⟨1500000000, 0⟩ ∧
      Time.parse "9999-01-01T00:00:00Z" = some ⟨315506361600000000000, 0⟩ ∧
      Time.parse "0001-01-02T00:00:01+24:00" = some ⟨Time.second, 1440⟩ := by decide
  have onTime : Ticks fences.maintenance ⟨2 * Time.second, 0⟩ := by
    refine ⟨by decide, by decide, ?_⟩
    intro raw stored
    rw [fences, Bucket.get_put_ne _ _ (by decide)] at stored
    cases stored
  have readable : AllReadable fences := by
    intro kind k v found
    obtain ⟨rfl, rfl | rfl | rfl⟩ := fences_held found
    · exact ⟨_, times.1, rfl⟩
    · exact ⟨_, times.2.1, rfl⟩
    · exact ⟨_, times.2.2, rfl⟩
  obtain ⟨stores, start, ends, spares, clean⟩ :=
    (prune_spares_and_cleans ⟨⟨2 * Time.second, 0⟩, by decide, by decide⟩ 1 fences).2 (by decide)
    (by decide) onTime
      readable
  have gone : ∀ k v x, fences.replay.get k = some v → Time.parse v = some x → x.ns ≤ 2 * Time.second →
      (stores 4).replay.get k = none := by
    intro k v x held read late
    cases left : (stores 4).replay.get k with
    | none => rfl
    | some w =>
      have same := (spares 4).same .replay k w left
      obtain rfl : v = w := Option.some.inj (held.symm.trans same)
      have early := clean 4 (by decide) .replay k v x left read
      rw [Time.before_iff] at early
      exact absurd early (Int.not_lt.mpr late)
  refine ⟨_, stores, start, ends, gone "a" _ _ (by decide) times.1 (by decide), ?_,
    gone "c" _ _ (by decide) times.2.2 (by decide)⟩
  apply (spares 4).unexpired .replay "b" _ (by decide)
  intro x read
  rw [Kind.expiry, times.2.1] at read
  cases read
  decide

def zeroFence : Store := { Store.empty with replay := Bucket.empty.put "k" "0001-01-01T00:00:00Z" }

theorem zero_expiry_stays :
    ∃ (t : Reading) (s : Store), Ticks s.maintenance t.time ∧
      (∀ kind k v, (Kind.get kind s).get k = some v → ∃ x, kind.expiry v = some x ∧ t.time.before x = false) ∧
      (Kind.get .replay s).keyN = 1 ∧
      after (during t) (prune 1) s (fun s' r => s' = s ∧ r = .error .unavailable) := by
  have onTime : Ticks zeroFence.maintenance ⟨Time.second, 0⟩ := by
    refine ⟨by decide, by decide, ?_⟩
    rintro raw ⟨⟩
  refine ⟨⟨⟨Time.second, 0⟩, second_representable, second_representable⟩, zeroFence, onTime, ?_, rfl, ?_⟩
  · intro kind k v found
    cases kind with
    | requests => cases found
    | events => cases found
    | replay =>
      have value : v = "0001-01-01T00:00:00Z".toList := by
        have stored : zeroFence.replay.get k = some v := found
        unfold zeroFence at stored
        rw [Bucket.get_put] at stored
        split at stored
        · exact (Option.some.inj stored).symm
        · cases stored
      subst value
      exact ⟨⟨0, 0⟩, by decide, by decide⟩
  · apply after_question_then
    rintro ended rfl
    apply after_require_pass (by decide)
    apply after_transaction (fun _ committed => committed)
    intro L
    apply Ledger.wp_now_then
    rintro r rfl
    apply wp_observeClockAt
    · intro early
      exact absurd onTime early
    · intro _
      -- the first two buckets are empty; the fence is the first record of the third
      apply (Tx.wp_bind _ _ _).mpr
      apply wp_sweep_exact Nat.one_pos (live_during _)
      · intro k v found
        cases (Bucket.get_empty k).symm.trans found
      intro a L₁
      apply (Tx.wp_bind _ _ _).mpr
      apply wp_sweep_exact Nat.one_pos (live_during _)
      · intro k v found
        cases (Bucket.get_empty k).symm.trans found
      intro b L₂
      apply (Tx.wp_bind _ _ _).mpr
      apply Tx.wp_read_then
      apply Tx.wp_read_then
      rw [maintenance_swept_ne (by decide), maintenance_swept_ne (by decide)]
      apply (Tx.wp_bind _ _ _).mpr
      apply Ledger.wp_cancelled_then
      rintro stop rfl
      apply Tx.wp_require_pass rfl
      apply Ledger.wp_orFail_pass_then (show Kind.replay.expiry "0001-01-01T00:00:00Z" = some ⟨0, 0⟩ by decide)
      exact ⟨rfl, rfl⟩

end Calls

end Federation.OIDCEvents
