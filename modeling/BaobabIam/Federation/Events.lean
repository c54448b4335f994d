import BaobabIam.Base.Once
import BaobabIam.Federation.Tokens

/-! What the two event ledgers share: the request and the event that they store,
the random draws, and the durable clock inside a store. -/
namespace Federation

open Wire Interleaving

structure StoredRequest where
  id : Text
  trustID : Text
  snapshotID : Text
  revision : UInt64
  sessionDigest : Text
  stateDigest : Text
  nonceDigest : Text
  createdAt : Time
  expiresAt : Time
  consumed : Bool
  deriving DecidableEq

def StoredRequest.fields : List (RecordField StoredRequest) :=
  [.of "ID" StoredRequest.id (fun v r => { r with id := v }),
   .of "TrustID" StoredRequest.trustID (fun v r => { r with trustID := v }),
   .of "SnapshotID" StoredRequest.snapshotID (fun v r => { r with snapshotID := v }),
   .of "Revision" StoredRequest.revision (fun v r => { r with revision := v }),
   .of "SessionDigest" StoredRequest.sessionDigest (fun v r => { r with sessionDigest := v }),
   .of "StateDigest" StoredRequest.stateDigest (fun v r => { r with stateDigest := v }),
   .of "NonceDigest" StoredRequest.nonceDigest (fun v r => { r with nonceDigest := v }),
   .of "CreatedAt" StoredRequest.createdAt (fun v r => { r with createdAt := v }),
   .of "ExpiresAt" StoredRequest.expiresAt (fun v r => { r with expiresAt := v }),
   .of "Consumed" StoredRequest.consumed (fun v r => { r with consumed := v })]

def StoredRequest.zero : StoredRequest := ⟨[], [], [], 0, [], [], [], ⟨0, 0⟩, ⟨0, 0⟩, false⟩

instance : Codec StoredRequest :=
  recordCodec StoredRequest.fields StoredRequest.zero (by decide) (by intro r; cases r; rfl)

structure StoredEvent where
  snapshotID : Text
  revision : UInt64
  bundle : Bundle
  consumed : Bool
  deriving DecidableEq

def StoredEvent.fields : List (RecordField StoredEvent) :=
  [.of "SnapshotID" StoredEvent.snapshotID (fun v e => { e with snapshotID := v }),
   .of "Revision" StoredEvent.revision (fun v e => { e with revision := v }),
   .of "Bundle" StoredEvent.bundle (fun v e => { e with bundle := v }),
   .of "Consumed" StoredEvent.consumed (fun v e => { e with consumed := v })]

instance : Codec StoredEvent :=
  recordCodec StoredEvent.fields ⟨[], 0,
    ⟨Trust.zero, ExternalPrincipal.zero, Assurance.zero⟩, false⟩ (by decide)
    (by intro e; cases e; rfl)

/-- A mapper may supply the mapping and shorten the time, and nothing else. -/
def sameEvidence (a mapped : Assurance) : Bool :=
  marshal a == marshal { mapped with
    mappingStatus := a.mappingStatus
    level := a.level
    mappingEvidenceReference := a.mappingEvidenceReference
    expiresAt := a.expiresAt }

/-- The mapper is asked in the same way when either ledger completes a login. -/
def mapAssurance {S : Type} (s : TrustSnapshot) (p : ExternalPrincipal) (a : Assurance) :
    Prog ports S Fault Assurance := do
  let answer ← Prog.question (I := ports) (.mapAssurance s p a)
  let mapped ← Prog.ofExcept (answer.mapError authorityError)
  Prog.require (sameEvidence a mapped && !mapped.expiresAt.after a.expiresAt &&
    validateBundle ⟨s.trust, p, mapped⟩) .invalid
  return mapped

section Draws

def idKey : (Σ q : Query, q.Answer) → Option Text
  | ⟨.randomUUID, some b⟩ => some (uuidText b)
  | _ => none

def stringKey : (Σ q : Query, q.Answer) → Option (BitVec 256)
  | ⟨.randomString, some b⟩ => some b
  | _ => none

abbrev drawnIDs (L : Log ports) : List Text := draws (I := ports) idKey L

abbrev drawnStrings (L : Log ports) : List (BitVec 256) := draws (I := ports) stringKey L

/-- What is drawn was not drawn before, by any call. -/
def drawRule (logs : List (Log ports)) : (q : Query) → q.Answer → Bool
  | .randomUUID, some b => logs.all (fun L => !(drawnIDs L).contains (uuidText b))
  | .randomString, some b => logs.all (fun L => !(drawnStrings L).contains b)
  | _, _ => true

def eventRule (logs : List (Log ports)) (L : Log ports) (q : Query) (a : q.Answer) : Bool :=
  clockRule L q a && drawRule logs q a

theorem drawRule_id {logs : List (Log ports)} {q : Query} {a : q.Answer} (h : drawRule logs q a = true) :
    ∀ k ∈ idKey ⟨q, a⟩, ∀ L ∈ logs, k ∉ drawnIDs L := by
  intro k hk L hL
  cases q with
  | randomUUID =>
    cases a with
    | none => cases hk
    | some b =>
      cases hk
      have all := List.all_eq_true.mp h L hL
      simpa using all
  | _ => cases hk

theorem drawnID_mem {L L' : Log ports} {b : BitVec 128} (h : L ++ [⟨Query.randomUUID, some b⟩] <+: L') :
    uuidText b ∈ drawnIDs L' := by
  apply draws_mono h
  exact List.mem_filterMap.mpr ⟨⟨Query.randomUUID, some b⟩, List.mem_concat_self, rfl⟩

end Draws

section Programs

variable {S : Type}

def randomText (b : BitVec 256) : Text := Base64.rawURL (Base64.bytes 32 b.toNat)

def randomString : Prog ports S Fault Text := do
  let drawn ← Prog.question (I := ports) .randomString
  match drawn with
  | none => .fail .unavailable
  | some b => return randomText b

structure Clocked (S : Type) where
  get : S → Bucket
  set : Bucket → S → S

def observeClockAt (c : Clocked S) (now : Time) : Tx ports S Fault Unit := do
  let clock ← Tx.read c.get
  let clock ← Ledger.orFail .denied (advanceClock clock now)
  Tx.write (c.set clock)

def observeClock (c : Clocked S) : Tx ports S Fault Unit := do
  let now ← Ledger.now
  observeClockAt c now.utc

end Programs

section Rules

variable {S β : Type} {sys : System ports S Fault} {v : Setting sys} {T : Trace sys} {L : Log ports}
  {Q : Post sys β} {rule : Rule ports} {s : S} {R : Except Fault (β × S) → Log ports → Prop}

theorem wp_randomString_then {f : Text → Prog ports S Fault β} (quiet : Quiet Q)
    (h : ∀ b : BitVec 256, v.rule L Query.randomString (some b) →
      wp v (f (randomText b)) T (L ++ [⟨Query.randomString, some b⟩]) Q) :
    wp v (randomString >>= f) T L Q := by
  apply wp_then
  intro drawn hr
  cases drawn with
  | none => exact quiet _ _ _
  | some b => exact h b hr

variable {c : Clocked S} {f : Unit → Tx ports S Fault β} {r : Reading}

theorem wp_observeClockAt
    (back : ¬ Ticks (c.get s) r.time → R (.error .denied) L)
    (h : Ticks (c.get s) r.time → (f ()).wp rule (c.set (tick (c.get s) r.time) s) L R) :
    (observeClockAt c r.time.utc >>= f).wp rule s L R := by
  refine (Tx.wp_bind _ _ _).mpr (Tx.wp_read_then ?_)
  cases advanced : advanceClock (c.get s) r.time.utc with
  | none =>
    refine (Tx.wp_bind _ _ _).mpr (back ?_)
    intro ticks
    rw [ticks.advance] at advanced
    cases advanced
  | some clock =>
    obtain ⟨ticks, rfl⟩ := advanceClock_ticks r advanced
    exact Ledger.wp_orFail_pass_then rfl (h ticks)

theorem wp_observeClockAt_then (quiet : Tx.Quiet R)
    (h : Ticks (c.get s) r.time → (f ()).wp rule (c.set (tick (c.get s) r.time) s) L R) :
    (observeClockAt c r.time.utc >>= f).wp rule s L R := wp_observeClockAt (fun _ => quiet _ _) h

theorem wp_observeClock_then (quiet : Tx.Quiet R)
    (h : ∀ r : Reading, rule L Query.now r → Ticks (c.get s) r.time →
      (f ()).wp rule (c.set (tick (c.get s) r.time) s) (L ++ [⟨Query.now, r⟩]) R) :
    (observeClock c >>= f).wp rule s L R := by
  apply (Tx.wp_bind _ _ _).mpr
  apply Ledger.wp_now_then
  intro r hr
  apply (Tx.wp_bind _ _ _).mp
  exact wp_observeClockAt_then quiet (h r hr)

end Rules

section Fences

/-- What may not be used again before `x`: its fence stands until then or longer, or
the durable clock has passed that time. -/
def Fenced (replay clock : Bucket) (key : Text) (x : Time) : Prop :=
  (∃ v, replay.get key = some v ∧ ∀ y, Time.parse v = some y → x.ns ≤ y.ns) ∨
    ∃ w, watermark clock = some w ∧ x.ns ≤ w.ns

variable {replay clock : Bucket} {key : Text} {x r : Time}

theorem Fenced.passed (h : Fenced replay clock key x) (absent : replay.get key = none) (ticks : Ticks clock r) :
    x.ns ≤ r.ns := by
  rcases h with ⟨v, found, -⟩ | ⟨w, mark, late⟩
  · rw [absent] at found
    cases found
  · exact late.trans (ticks.watermark_le mark)

theorem Fenced.tick (h : Fenced replay clock key x) (ticks : Ticks clock r) :
    Fenced replay (tick clock r) key x := by
  rcases h with fence | ⟨w, mark, late⟩
  · exact .inl fence
  · exact .inr ⟨r.utc, watermark_tick clock ticks.representable_utc, late.trans (ticks.watermark_le mark)⟩

theorem Fenced.put (h : Fenced replay clock key x) {k v : Text} (absent : replay.get k = none) :
    Fenced (replay.put k v) clock key x := by
  rcases h with ⟨u, found, until_⟩ | passed
  · have other : key ≠ k := by
      rintro rfl
      rw [absent] at found
      cases found
    exact .inl ⟨u, (Bucket.get_put_ne _ _ other).trans found, until_⟩
  · exact .inr passed

theorem Fenced.drop {replay' clock' : Bucket} (h : Fenced replay clock key x) (ticks : Ticks clock r)
    (mark : watermark clock' = some r.utc)
    (drops : ∀ v, replay.get key = some v →
      replay'.get key = some v ∨ ∃ y, Time.parse v = some y ∧ y.ns ≤ r.ns) :
    Fenced replay' clock' key x := by
  rcases h with ⟨v, found, until_⟩ | ⟨w, old, late⟩
  · rcases drops v found with kept | ⟨y, read, gone⟩
    · exact .inl ⟨v, kept, until_⟩
    · exact .inr ⟨r.utc, mark, (until_ y read).trans gone⟩
  · exact .inr ⟨r.utc, mark, late.trans (ticks.watermark_le old)⟩

end Fences

end Federation
