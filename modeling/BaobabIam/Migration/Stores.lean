import BaobabIam.Base.Turns
import BaobabIam.Migration.MemoryStore
import BaobabIam.Migration.PostgresStore

/-! What the service relies on, for either store: reading hands over the stored row,
and writing leaves the store as it was or moves it in the store's own way. -/
namespace Migration

open Interleaving

def Record.utc (r : Record) : Record :=
  { r with
    createdAt := r.createdAt.utc
    startedAt := r.startedAt.map Time.utc
    verifiedAt := r.verifiedAt.map Time.utc
    cutoverAt := r.cutoverAt.map Time.utc
    retiredAt := r.retiredAt.map Time.utc }

namespace Record

variable {x r : Record}

theorem utc_field {α : Type} (f : Record → α) (blind : ∀ r : Record, f r.utc = f r) (h : x.utc = r.utc) :
    f x = f r := by
  rw [← blind x, h, blind r]

theorem utc_revision (h : x.utc = r.utc) : x.revision = r.revision := utc_field _ (fun _ => rfl) h
theorem utc_state (h : x.utc = r.utc) : x.migrationState = r.migrationState := utc_field _ (fun _ => rfl) h
theorem utc_target (h : x.utc = r.utc) : x.target = r.target := utc_field _ (fun _ => rfl) h
theorem utc_class (h : x.utc = r.utc) : x.identityClass = r.identityClass := utc_field _ (fun _ => rfl) h
theorem utc_id (h : x.utc = r.utc) : x.migrationID = r.migrationID := utc_field _ (fun _ => rfl) h
theorem utc_canonical (h : x.utc = r.utc) : x.canonicalIdentityID = r.canonicalIdentityID :=
  utc_field _ (fun _ => rfl) h

end Record

def storeQuery : Query → Bool
  | .statement | .commit | .memory => true
  | _ => false

def StoreLog (L L' : Log ports) : Prop := ∃ D, L' = L ++ D ∧ ∀ a ∈ D, storeQuery a.1 = true

theorem StoreLog.refl (L : Log ports) : StoreLog L L := ⟨[], by simp⟩

theorem StoreLog.trans {L L' L'' : Log ports} (h : StoreLog L L') (h' : StoreLog L' L'') : StoreLog L L'' := by
  obtain ⟨D, rfl, only⟩ := h
  obtain ⟨D', rfl, only'⟩ := h'
  refine ⟨D ++ D', by simp, ?_⟩
  intro a ha
  rcases List.mem_append.mp ha with ha | ha
  · exact only a ha
  · exact only' a ha

theorem StoreLog.snoc {L L' : Log ports} (h : StoreLog L L') {q : Query} (a : q.Answer) (asked : storeQuery q = true) :
    StoreLog L (L' ++ [⟨q, a⟩]) := by
  obtain ⟨D, rfl, only⟩ := h
  refine ⟨D ++ [⟨q, a⟩], by simp, ?_⟩
  intro b hb
  rcases List.mem_append.mp hb with hb | hb
  · exact only b hb
  · rw [List.mem_singleton.mp hb]
    exact asked

theorem StoreLog.statement (L : Log ports) (a : Option SqlCode) : StoreLog L (L ++ [⟨Query.statement, a⟩]) :=
  (StoreLog.refl L).snoc (q := .statement) a rfl

theorem StoreLog.commit (L : Log ports) (a : Commit) : StoreLog L (L ++ [⟨Query.commit, a⟩]) :=
  (StoreLog.refl L).snoc (q := .commit) a rfl

variable {S : Type}

def leaves {sys : System ports S Failure} (v : Setting sys) (T : Trace sys) (s : S) (L L' : Log ports) :
    Entry sys := ⟨v.thread, v.call, last T, s, L, L'⟩

/-- No question of a store is answered by a failure. -/
def Undisturbed (rule : Rule ports) : Prop :=
  ∀ L, (∀ a, rule L Query.memory a → a = none) ∧ ∀ a, rule L Query.statement a → a = none

structure Lawful (store : RecordStore S) where
  row : S → Text → Option Record
  row_id : ∀ {s id x}, row s id = some x → x.migrationID = id
  /-- What a reading hands over of a stored row, if it does not refuse the row. -/
  hands : Record → Option Record
  hands_utc : ∀ {x r}, hands x = some r → x.utc = r.utc
  /-- How a write of the record may move the store. -/
  puts : Record → S → S → Prop
  get_wp : ∀ {sys : System ports S Failure} (v : Setting sys) (id : Text) (T : Trace sys) (L : Log ports)
    (Q : Post sys Record),
    (∀ T' L', v.others T T' → StoreLog L L' → v.spec T' (leaves v T' (last T') L L') ∧
      (∀ e, Q (T' ++ [leaves v T' (last T') L L']) L' (.error e)) ∧
      ∀ x r, row (last T') id = some x → hands x = some r → Q (T' ++ [leaves v T' (last T') L L']) L' (.ok r)) →
    wp v (store.get id) T L Q
  get_done : ∀ {sys : System ports S Failure} {rule : Rule ports} {i : Nat} {c : sys.Call} {id : Text}
    {T : Trace sys} {L : Log ports} {Q : Post sys Record} {x r : Record}, Undisturbed rule →
    row (last T) id = some x → hands x = some r →
    (∀ L', Q (T ++ [⟨i, c, last T, last T, L, L'⟩]) L' (.ok r)) → wp (alone rule i c) (store.get id) T L Q
  put_wp : ∀ {sys : System ports S Failure} (v : Setting sys) (r : Record) (T : Trace sys) (L : Log ports)
    (Q : Post sys Record), (∀ e, Q T L (.error e)) →
    (∀ T' L', v.others T T' → StoreLog L L' → v.spec T' (leaves v T' (last T') L L') ∧
      (∀ e, Q (T' ++ [leaves v T' (last T') L L']) L' (.error e)) ∧
      (∀ x, row (last T') r.migrationID = some x → x.utc = r.utc →
        Q (T' ++ [leaves v T' (last T') L L']) L' (.ok r)) ∧
      ∀ s, puts r (last T') s → v.spec T' (leaves v T' s L L') ∧
        (∀ e, Q (T' ++ [leaves v T' s L L']) L' (.error e)) ∧
        ∀ n, Q (T' ++ [leaves v T' s L L']) L' (.ok { r with revision := n })) →
    wp v (store.put r) T L Q
  /-- The row that a write leaves. -/
  puts_row : ∀ {r s s'}, puts r s s' → ∃ x, row s' r.migrationID = some x ∧
    x.migrationState = r.migrationState ∧
    x.target = r.target ∧ x.identityClass = r.identityClass ∧ x.canonicalIdentityID = r.canonicalIdentityID
  puts_other : ∀ {r s s' id}, puts r s s' → id ≠ r.migrationID → row s' id = row s id

namespace MemoryStore

theorem wp_fault_then {β : Type} {rule : Rule ports} {s : MemoryStore} {L : Log ports}
    {f : Unit → Body MemoryStore β} {Q : Except Failure (β × MemoryStore) → Log ports → Prop}
    (failed : ∀ L' e, StoreLog L L' → Q (.error e) L') (h : ∀ L', StoreLog L L' → (f ()).wp rule s L' Q) :
    (fault >>= f).wp rule s L Q := by
  rw [Tx.wp_bind]
  unfold fault
  rw [Tx.wp_bind]
  intro answer _
  have asked : StoreLog L (L ++ [⟨Query.memory, answer⟩]) := (StoreLog.refl L).snoc (q := .memory) answer rfl
  cases answer with
  | none => exact h _ asked
  | some e => exact failed _ e asked

def lawful : Lawful store where
  row := byID
  row_id := fun found => keyed _ _ _ found
  hands := some
  hands_utc := by rintro x r ⟨⟩; rfl
  puts r s s' := s' = s.insert r
  get_wp := by
    intro sys v id T L Q h T' hT'
    refine wp_fault_then ?_ ?_
    · intro L' e asked
      have here := h T' L' hT' asked
      exact ⟨here.1, here.2.1 e⟩
    · intro L' asked
      have here := h T' L' hT' asked
      apply Tx.wp_read_then
      cases found : (last T').byID id with
      | none => exact ⟨here.1, here.2.1 _⟩
      | some r => exact ⟨here.1, here.2.2 r r found rfl⟩
  get_done := by
    rintro sys rule i c id T L Q x _ undisturbed found ⟨⟩ h _ rfl
    apply (Tx.wp_bind _ _ _).mpr
    apply Tx.wp_ask_then
    intro a admitted
    obtain rfl := (undisturbed L).1 a admitted
    refine Tx.wp_read_then ?_
    rw [found]
    exact ⟨trivial, h _⟩
  put_wp := by
    intro sys v r T L Q refused h
    unfold store put
    apply wp_then
    apply (wp_ofExcept _).mpr
    cases r.validateStructural with
    | error e => exact refused e
    | ok _ =>
      intro T' hT'
      refine wp_fault_then ?_ ?_
      · intro L' e asked
        have here := h T' L' hT' asked
        exact ⟨here.1, here.2.1 e⟩
      · intro L' asked
        obtain ⟨spec, -, done⟩ := (h T' L' hT' asked).2.2.2 _ rfl
        exact ⟨spec, done r.revision⟩
  puts_row := by
    rintro r s s' rfl
    exact ⟨r, insert_self s r, rfl, rfl, rfl, rfl⟩
  puts_other := by
    rintro r s s' id rfl other
    exact insert_other s r other

end MemoryStore

section Rules

variable {α β : Type} {rule : Rule ports} {s : Database} {L : Log ports}
  {Q : Except Failure (β × Database) → Log ports → Prop}

theorem wp_statement_then {wrap : SqlCode → Failure} {f : Unit → Body Database β}
    (failed : ∀ code e, Q (.error e) (L ++ [⟨Query.statement, some code⟩]))
    (h : (f ()).wp rule s (L ++ [⟨Query.statement, none⟩]) Q) : (statement wrap >>= f).wp rule s L Q := by
  rw [Tx.wp_bind]
  unfold statement
  rw [Tx.wp_bind]
  intro answer _
  cases answer with
  | none => exact h
  | some code => exact failed code _

theorem wp_orFail_then {r : Except Failure α} {f : α → Body Database β}
    (failed : ∀ e, r = .error e → Q (.error e) L)
    (h : ∀ a, r = .ok a → (f a).wp rule s L Q) : (orFail r >>= f).wp rule s L Q := by
  rw [Tx.wp_bind]
  cases r with
  | ok a => exact h a rfl
  | error e => exact failed e rfl

end Rules

end Migration
