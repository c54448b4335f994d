import BaobabIam.Migration.Calls

/-! Where the records that a service writes come from. Every write of a call is a
registration, a legal transition of a row it has read, a target it binds to such a
row or an error code it puts on one; everything else it does leaves the store as it
is. This holds for either store and whatever the other calls do in between. -/
namespace Migration

open Interleaving

section Stamp

variable (r : Record) (n : Time) (next : MigrationState)

@[simp] theorem Record.stamp_state : (r.stamp n next).migrationState = r.migrationState := by cases next <;> rfl
@[simp] theorem Record.stamp_target : (r.stamp n next).target = r.target := by cases next <;> rfl
@[simp] theorem Record.stamp_id : (r.stamp n next).migrationID = r.migrationID := by cases next <;> rfl
@[simp] theorem Record.stamp_revision : (r.stamp n next).revision = r.revision := by cases next <;> rfl
@[simp] theorem Record.stamp_class : (r.stamp n next).identityClass = r.identityClass := by cases next <;> rfl
@[simp] theorem Record.stamp_canonical : (r.stamp n next).canonicalIdentityID = r.canonicalIdentityID := by
  cases next <;> rfl

end Stamp

namespace ServiceCall

def Registers : ServiceCall → Record → Prop
  | .register given, r => r = given
  | .registerBatch req, r => ∃ b canonical identityClass, r = req.trimmed.newRecord b canonical identityClass
  | _, _ => False

def MovesTo : ServiceCall → Text → MigrationState → Prop
  | .applyTransition given next', id, next => id = given ∧ next = next'
  | .credentialApply given, id, next => id = given ∧ (next = .credentialPending ∨ next = .credentialReady)
  | .credentialMarkReady given, id, next => id = given ∧ next = .credentialReady
  | .verificationApply given, id, next => id = given ∧ next = .verificationPending
  | .verificationMarkVerified given, id, next => id = given ∧ next = .verified
  | .provision _ given, id, next => id = given ∧
      (next ∈ [.validated, .ready, .provisioning, .provisioned] ∨ next = .failedRetryable ∨
        next = .failedManualReview)
  | _, _, _ => False

def Binds : ServiceCall → Text → Prop
  | .setTargetBinding given _, id => id = given
  | .provision _ given, id => id = given
  | _, _ => False

def Codes : ServiceCall → Text → Prop
  | .provision _ given, id => id = given
  | _, _ => False

end ServiceCall

def Permits (policy : Policy) (next : MigrationState) : Prop :=
  policy = .phaseC → next ≠ .cutover ∧ next ≠ .legacyRetired

section Origins

variable {S : Type} {store : RecordStore S} (laws : Lawful store) {sys : System ports S Failure}

def OwnRead (T : Trace sys) (i : Nat) (id : Text) (r : Record) : Prop :=
  ∃ g ∈ T, g.thread = i ∧ ∃ x, laws.row g.before id = some x ∧ x.utc = r.utc

def JustRead (T : Trace sys) (i : Nat) (id : Text) (r : Record) : Prop :=
  ∃ A g, T = A ++ [g] ∧ g.thread = i ∧ g.after = g.before ∧ ∃ x, laws.row g.before id = some x ∧
    x.utc = r.utc

/-- The last transaction is one of call `i`, and it left the row in this state with this target. -/
def JustLeft (T : Trace sys) (i : Nat) (r : Record) : Prop :=
  ∃ A g, T = A ++ [g] ∧ g.thread = i ∧ ∃ x, laws.row g.after r.migrationID = some x ∧
    x.migrationState = r.migrationState ∧ x.target = r.target

/-- After `T₁`, the last transaction is the one in which call `i` wrote this record, or
found it written. -/
def JustPut (T₁ T : Trace sys) (i : Nat) (r : Record) : Prop :=
  ∃ A g, T₁ <+: A ∧ T = A ++ [g] ∧ g.thread = i ∧ g.before = last A ∧ (laws.puts r g.before g.after ∨
    (g.after = g.before ∧ ∃ x, laws.row g.before r.migrationID = some x ∧ x.utc = r.utc))

inductive Origin (c : ServiceCall) (policy : Policy) (T : Trace sys) (i : Nat) : Record → Prop
  | registered {r : Record} (created : Time) (named : c.Registers r) (valid : (r.defaulted created).Structural) :
      Origin c policy T i (r.defaulted created)
  | moved {id : Text} {r r' : Record} {next : MigrationState} (n : Time) (named : c.MovesTo id next)
      (permitted : Permits policy next) (read : OwnRead laws T i id r) (step : r.transition next = .ok r') :
      Origin c policy T i (r'.stamp n next)
  | bound {id : Text} {r : Record} (target : ProviderBinding) (named : c.Binds id) (read : OwnRead laws T i id r) :
      Origin c policy T i { r with target := target }
  | coded {id : Text} {r : Record} (code : Text) (named : c.Codes id) (read : OwnRead laws T i id r) :
      Origin c policy T i { r with lastErrorCode := code }

/-- A provisioning acts only on a row that it found not yet provisioned. -/
def Started (c : ServiceCall) (T : Trace sys) (i : Nat) : Prop :=
  ∀ b id, c = .provision b id → ∃ r, OwnRead laws T i id r ∧ ProvisionBridge.already r.migrationState = false

inductive ServiceStep (c : ServiceCall) (policy : Policy) (T : Trace sys) (e : Entry sys) : Prop
  | asks (same : e.after = e.before)
  | puts (r : Record) (write : laws.puts r e.before e.after) (origin : Origin laws c policy T e.thread r)
      (started : Started laws c T e.thread)

variable {laws} {T T' : Trace sys} {i : Nat} {id : Text} {r : Record}

theorem OwnRead.mono (h : OwnRead laws T i id r) (sub : T <+: T') : OwnRead laws T' i id r := by
  obtain ⟨g, hg, rest⟩ := h
  exact ⟨g, sub.subset hg, rest⟩

theorem JustRead.own (h : JustRead laws T i id r) : OwnRead laws T i id r := by
  obtain ⟨A, g, rfl, mine, -, rest⟩ := h
  exact ⟨g, by simp, mine, rest⟩

theorem OwnRead.id_eq (h : OwnRead laws T i id r) : r.migrationID = id := by
  obtain ⟨g, -, -, x, found, same⟩ := h
  rw [← Record.utc_id same]
  exact laws.row_id found

theorem JustRead.row (h : JustRead laws T i id r) : ∃ x, laws.row (last T) id = some x ∧ x.utc = r.utc := by
  obtain ⟨A, g, rfl, -, same, rest⟩ := h
  rwa [last_append, same]

theorem JustLeft.row (h : JustLeft laws T i r) : ∃ x, laws.row (last T) r.migrationID = some x ∧
    x.migrationState = r.migrationState ∧ x.target = r.target := by
  obtain ⟨A, g, rfl, -, rest⟩ := h
  rwa [last_append]

theorem JustPut.sub (h : JustPut laws T T' i r) : T <+: T' := by
  obtain ⟨A, g, sub, rfl, -⟩ := h
  exact sub.trans (List.prefix_append _ _)

theorem JustPut.left (h : JustPut laws T T' i r) (n : Int) : JustLeft laws T' i { r with revision := n } := by
  obtain ⟨A, g, -, eq, mine, -, put | ⟨same, x, found, equal⟩⟩ := h
  · obtain ⟨x, found, state, target, -⟩ := laws.puts_row put
    exact ⟨A, g, eq, mine, x, found, state, target⟩
  · have state := Record.utc_state equal
    have target := Record.utc_target equal
    refine ⟨A, g, eq, mine, x, ?_, state, target⟩
    rw [same]
    exact found

theorem JustRead.left (h : JustRead laws T i id r) : JustLeft laws T i r := by
  have named := h.own.id_eq
  obtain ⟨A, g, eq, mine, same, x, found, equal⟩ := h
  refine ⟨A, g, eq, mine, x, ?_, Record.utc_state equal, Record.utc_target equal⟩
  rw [same, named]
  exact found

end Origins

section Rules

/- A setting whose other calls only add to the trace, and whose specification lets
reads pass. -/
variable {S : Type} {store : RecordStore S} (laws : Lawful store) {sys : System ports S Failure} {v : Setting sys}
  (grows : ∀ T T', v.others T T' → T <+: T')
  (idle : ∀ T L L', StoreLog L L' → v.spec T (leaves v T (last T) L L'))
  {T T' : Trace sys} {L : Log ports}

def Writes (v : Setting sys) (T : Trace sys) (r : Record) : Prop :=
  ∀ L L' s, StoreLog L L' → laws.puts r (last T) s → v.spec T (leaves v T s L L')

def MayMove (v : Setting sys) (policy : Policy) (T : Trace sys) (id : Text) (next : MigrationState) : Prop :=
  ∀ T₁ T' r r' n, T <+: T₁ → JustRead laws T₁ v.thread id r → v.others T₁ T' → Permits policy next →
    r.transition next = .ok r' → Writes laws v T' (r'.stamp n next)

def MayBind (v : Setting sys) (T : Trace sys) (id : Text) : Prop :=
  ∀ T₁ T' r target, T <+: T₁ → JustRead laws T₁ v.thread id r → v.others T₁ T' →
    Writes laws v T' { r with target := target }

def MayCode (v : Setting sys) (T : Trace sys) (id : Text) : Prop :=
  ∀ T' r code, T <+: T' → OwnRead laws T' v.thread id r → Writes laws v T' { r with lastErrorCode := code }

def MayRegister (v : Setting sys) (T : Trace sys) (r : Record) : Prop :=
  ∀ T' created, T <+: T' → (r.defaulted created).Structural → Writes laws v T' (r.defaulted created)

def Reads (v : Setting sys) (T T₁ : Trace sys) (id : Text) (r : Record) : Prop :=
  ∃ A g, v.others T A ∧ T₁ = A ++ [g] ∧ g.thread = v.thread ∧ g.before = last A ∧ g.after = g.before ∧
    ∃ x, laws.row g.before id = some x ∧ x.utc = r.utc

def Accepts {α : Type} (T : Trace sys) (Q : Post sys α) : Prop := ∀ T' L' e, T <+: T' → Q T' L' (.error e)

def Returns {α : Type} (T : Trace sys) (Q : Post sys α) : Prop := ∀ T' L' a, T <+: T' → Q T' L' (.ok a)

section Later

variable {laws} {policy : Policy} {id : Text} {next : MigrationState} {r : Record} {α : Type} {Q : Post sys α}

theorem MayMove.later (h : MayMove laws v policy T id next) (sub : T <+: T') : MayMove laws v policy T' id next :=
  fun T₁ T₂ r r' n more => h T₁ T₂ r r' n (sub.trans more)

theorem MayBind.later (h : MayBind laws v T id) (sub : T <+: T') : MayBind laws v T' id :=
  fun T₁ T₂ r target more => h T₁ T₂ r target (sub.trans more)

theorem MayCode.later (h : MayCode laws v T id) (sub : T <+: T') : MayCode laws v T' id :=
  fun T₁ r code more => h T₁ r code (sub.trans more)

theorem MayRegister.later (h : MayRegister laws v T r) (sub : T <+: T') : MayRegister laws v T' r :=
  fun T₁ created more => h T₁ created (sub.trans more)

theorem Reads.just (h : Reads laws v T T' id r) : JustRead laws T' v.thread id r := by
  obtain ⟨A, g, -, eq, mine, -, rest⟩ := h
  exact ⟨A, g, eq, mine, rest⟩

include grows in
theorem Reads.sub (h : Reads laws v T T' id r) : T <+: T' := by
  obtain ⟨A, g, more, rfl, -⟩ := h
  exact (grows T A more).trans (List.prefix_append _ _)

theorem Accepts.later (h : Accepts T Q) (sub : T <+: T') : Accepts T' Q :=
  fun T'' L' e more => h T'' L' e (sub.trans more)

theorem Returns.later (h : Returns T Q) (sub : T <+: T') : Returns T' Q :=
  fun T'' L' a more => h T'' L' a (sub.trans more)

theorem Accepts.now (h : Accepts T Q) (L' : Log ports) (e : Failure) : Q T L' (.error e) :=
  h T L' e (List.prefix_refl T)

theorem Accepts.andThen {β : Type} {f : α → Op S β} {Q : Post sys β} (h : Accepts T Q) :
    Accepts T (andThen v f Q) :=
  fun T' L' e sub => h T' L' e sub

end Later

variable {β : Type} {Q : Post sys Record} {id : Text} {r : Record} {policy : Policy} {next : MigrationState}
    {req : BatchRegisterRequest}

theorem wp_require_or {c : Bool} {e : Failure} {f : Unit → Op S β} {Q : Post sys β} (failed : Accepts T Q)
    (h : c = true → wp v (f ()) T L Q) : wp v (Prog.require c e >>= f) T L Q :=
  wp_then ((wp_require c e).mpr ⟨h, fun _ => failed.now L e⟩)

theorem wp_ofExcept_or {α : Type} {x : Except Failure α} {f : α → Op S β} {Q : Post sys β} (failed : Accepts T Q)
    (h : ∀ a, x = .ok a → wp v (f a) T L Q) : wp v (Prog.ofExcept x >>= f) T L Q := by
  apply wp_then
  apply (wp_ofExcept x).mpr
  cases x with
  | ok a => exact h a rfl
  | error e => exact failed.now L e

include grows idle

theorem wp_get_own (failed : Accepts T Q)
    (ok : ∀ T' L' r, Reads laws v T T' id r → Q T' L' (.ok r)) : wp v (store.get id) T L Q := by
  apply laws.get_wp
  intro T' L' more asked
  have sub : T <+: T' ++ [leaves v T' (last T') L L'] := (grows T T' more).trans (List.prefix_append _ _)
  refine ⟨idle T' L L' asked, fun e => failed _ L' e sub, ?_⟩
  intro x r found read
  exact ok _ L' r ⟨T', leaves v T' (last T') L L', more, rfl, rfl, rfl, rfl, x, found, laws.hands_utc read⟩

theorem wp_get_then {f : Record → Op S β} {Q : Post sys β} (failed : Accepts T Q)
    (next : ∀ T' L' r, Reads laws v T T' id r → T <+: T' → Accepts T' Q → wp v (f r) T' L' Q) :
    wp v (store.get id >>= f) T L Q := by
  apply wp_then
  apply wp_get_own laws grows idle failed.andThen
  intro T' L' r reads
  exact next T' L' r reads (reads.sub grows) (failed.later (reads.sub grows))

theorem wp_put_own (write : ∀ T', v.others T T' → Writes laws v T' r)
    (failed : Accepts T Q)
    (ok : ∀ T' L' n, JustPut laws T T' v.thread r → Q T' L' (.ok { r with revision := n })) :
    wp v (store.put r) T L Q := by
  apply laws.put_wp
  · exact fun e => failed.now L e
  · intro T' L' more asked
    have sub : ∀ s, T <+: T' ++ [leaves v T' s L L'] := fun s => (grows T T' more).trans (List.prefix_append _ _)
    refine ⟨idle T' L L' asked, fun e => failed _ L' e (sub _), ?_, ?_⟩
    · intro x found same
      exact ok _ L' r.revision
        ⟨T', leaves v T' (last T') L L', grows T T' more, rfl, rfl, rfl, .inr ⟨rfl, x, found, same⟩⟩
    · intro s put
      refine ⟨write T' more L L' s asked put, fun e => failed _ L' e (sub s), ?_⟩
      intro n
      exact ok _ L' n ⟨T', leaves v T' s L L', grows T T' more, rfl, rfl, rfl, .inl put⟩

omit grows idle in
theorem wp_allowTransition {source : MigrationState} {Q : Post sys Unit}
    (failed : Accepts T Q) (ok : ∀ L', Permits policy next → Q T L' (.ok ())) :
    wp v (allowTransition policy id source next) T L Q := by
  cases policy with
  | phaseC =>
    unfold allowTransition
    simp only
    split
    · exact failed.now L _
    · rename_i allowed
      apply ok L
      intro _
      simpa [not_or] using allowed
  | allowAll => exact ok L (by rintro ⟨⟩)
  | custom =>
    unfold allowTransition
    intro answer _
    apply (wp_ofExcept answer).mpr
    cases answer with
    | ok _ => exact ok _ (by rintro ⟨⟩)
    | error e => exact failed.now _ e

theorem wp_applyTransition
    (may : MayMove laws v policy T id next) (failed : Accepts T Q)
    (ok : ∀ T₁ T' L' r r' n k, Reads laws v T T₁ id r → r.transition next = .ok r' →
      JustPut laws T₁ T' v.thread (r'.stamp n next) → Q T' L' (.ok { r'.stamp n next with revision := k })) :
    wp v (applyTransition store policy id next) T L Q := by
  unfold applyTransition
  apply wp_get_then laws grows idle failed
  intro T₁ L₁ r reads sub₁ failed₁
  apply wp_then
  apply wp_allowTransition failed₁.andThen
  intro L₂ permitted
  apply wp_ofExcept_or failed₁
  intro r' step
  apply wp_then
  intro n _
  apply wp_put_own laws grows idle
  · intro T' more
    exact may T₁ T' r r' n.utc sub₁ reads.just more permitted step
  · exact failed₁
  · exact fun T' L' k put => ok T₁ T' L' r r' n.utc k reads step put

theorem wp_applyTransition_left
    (may : MayMove laws v policy T id next) (failed : Accepts T Q)
    (ok : ∀ T' L' r, T <+: T' → JustLeft laws T' v.thread r → r.migrationID = id → r.migrationState = next →
      Q T' L' (.ok r)) : wp v (applyTransition store policy id next) T L Q := by
  apply wp_applyTransition laws grows idle may failed
  intro T₁ T' L' r r' n k reads step put
  obtain ⟨-, -, eq, -⟩ := Record.transition_ok step
  apply ok T' L' _ ((reads.sub grows).trans put.sub) (put.left k)
  · simp [eq, reads.just.own.id_eq]
  · simp [eq]

theorem wp_setTargetBinding {target : ProviderBinding} (may : MayBind laws v T id)
    (failed : Accepts T Q) (ok : Returns T Q) :
    wp v (setTargetBinding store id target) T L Q := by
  unfold setTargetBinding
  apply wp_require_or failed
  intro _
  apply wp_get_then laws grows idle failed
  intro T₁ L₁ r reads sub₁ failed₁
  apply wp_ofExcept_or failed₁
  intro _ _
  apply wp_put_own laws grows idle
  · intro T' more
    exact may T₁ T' r _ sub₁ reads.just more
  · exact failed₁
  · exact fun T' L' k put => ok T' L' _ (sub₁.trans put.sub)

theorem wp_registerRow (write : ∀ T', T <+: T' → r.Structural → Writes laws v T' r)
    (failed : Accepts T Q) (ok : Returns T Q) : wp v (registerRow store r) T L Q := by
  unfold registerRow
  apply wp_ofExcept_or failed
  intro _ valid
  apply wp_then
  apply (wp_attempt _).mpr
  apply wp_get_own laws grows idle
  · intro T₁ L₁ e sub₁
    simp only [andThen_ok]
    split
    · apply wp_put_own laws grows idle
      · intro T' more
        exact write T' (sub₁.trans (grows _ _ more)) (Record.validateStructural_ok.mp valid)
      · exact failed.later sub₁
      · exact fun T' L' k put => ok T' L' _ (sub₁.trans put.sub)
    · exact (failed.later sub₁).now L₁ _
  · exact fun T₁ L₁ _ reads => (failed.later (reads.sub grows)).now L₁ _

theorem wp_register (may : MayRegister laws v T r) (failed : Accepts T Q)
    (ok : Returns T Q) : wp v (register store r) T L Q := by
  unfold register
  split
  · intro t _
    exact wp_registerRow laws grows idle (fun T' sub => may T' t.utc sub) failed ok
  · exact wp_registerRow laws grows idle (fun T' sub => may T' r.createdAt sub) failed ok

theorem wp_registerBinding {index : Nat} {b : SourceBinding} {result : BatchRegisterResult}
    {Q : Post sys BatchRegisterResult}
    (may : ∀ canonical identityClass, MayRegister laws v T (req.newRecord b canonical identityClass))
    (failed : Accepts T Q) (ok : Returns T Q) :
    wp v (registerBinding store req index b result) T L Q := by
  -- what is left once the registration has answered
  have registered : ∀ T₁ L₁ canonical identityClass (after : BatchRegisterResult) (id : Text), T <+: T₁ →
      wp v (do
        let stored ← (register store (req.newRecord b canonical identityClass)).attempt
        let _ ← Prog.ofExcept (stored.mapError (.wrapped "migration: register %s: %w" [id]))
        return after) T₁ L₁ Q := by
    intro T₁ L₁ canonical identityClass after id sub₁
    apply wp_then
    apply (wp_attempt _).mpr
    apply wp_register laws grows idle
    · exact (may canonical identityClass).later sub₁
    · exact fun T' L' e sub => failed T' L' _ (sub₁.trans sub)
    · exact fun T' L' r sub => ok T' L' _ (sub₁.trans sub)
  unfold registerBinding
  apply wp_require_or failed
  intro _
  apply wp_then
  apply (wp_attempt _).mpr
  apply wp_get_own laws grows idle
  · intro T₁ L₁ e sub₁
    simp only [andThen_ok]
    split
    · apply wp_question_then
      intro answer _
      cases answer with
      | ok canonical => exact registered T₁ _ canonical _ _ _ sub₁
      | error e' =>
        simp only
        split
        · exact registered T₁ _ [] _ _ _ sub₁
        · exact (failed.later sub₁).now _ _
    · exact (failed.later sub₁).now L₁ _
  · intro T₁ L₁ existing reads
    have sub₁ := reads.sub grows
    have failed₁ := failed.later sub₁
    have checked : ∀ L' check (after : BatchRegisterResult),
        wp v (do Prog.ofExcept (firstFailure [check]); return after) T₁ L' Q := by
      intro L' check after
      exact wp_ofExcept_or failed₁ (fun _ _ => ok T₁ L' after sub₁)
    simp only [andThen_ok]
    apply wp_ofExcept_or failed₁
    intro _ _
    apply wp_question_then
    intro answer _
    cases answer with
    | ok canonical => exact checked _ _ _
    | error e' =>
      simp only
      split
      · exact checked _ _ _
      · exact failed₁.now _ _

theorem wp_registerBindings {Q : Post sys BatchRegisterResult}
    (may : ∀ b canonical identityClass, MayRegister laws v T (req.newRecord b canonical identityClass))
    (failed : Accepts T Q) (ok : Returns T Q) (index : Nat)
    (bindings : List SourceBinding) (result : BatchRegisterResult) :
    wp v (registerBindings store req index bindings result) T L Q := by
  induction bindings generalizing index result T L with
  | nil => exact ok T L result (List.prefix_refl T)
  | cons b rest ih =>
    apply wp_then
    apply wp_registerBinding laws grows idle
    · exact fun canonical identityClass => may b canonical identityClass
    · exact failed.andThen
    · intro T' L' result sub
      apply ih
      · exact fun b canonical identityClass => (may b canonical identityClass).later sub
      · exact failed.later sub
      · exact fun T'' L'' result more => ok T'' L'' result (sub.trans more)

theorem wp_registerBatch {Q : Post sys BatchRegisterResult}
    (may : ∀ b canonical identityClass, MayRegister laws v T (req.trimmed.newRecord b canonical identityClass))
    (failed : Accepts T Q) (ok : Returns T Q) :
    wp v (registerBatch store req) T L Q := by
  unfold registerBatch
  apply wp_ofExcept_or failed
  intro _ _
  apply wp_question_then
  intro answer _
  apply wp_ofExcept_or failed
  intro bindings _
  exact wp_registerBindings laws grows idle may failed ok 0 bindings _

end Rules

end Migration
