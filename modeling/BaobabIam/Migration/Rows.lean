import BaobabIam.Migration.Stores

/-! What one write does to the tables: the row it puts, the history it adds, and what
it leaves alone. Both stores obey the laws of the service. -/
namespace Migration

open Interleaving

namespace Database

variable {db db' : Database} {old : Option Record} {new : Record}

structure Written (db db' : Database) (old : Option Record) (new : Record) : Prop where
  audited : auditRecordRevision old new = true
  checked : new.checks = true
  absent : old = none → db.find new.migrationID = none
  apart : ∀ r ∈ db.records, r.migrationID ≠ new.migrationID → new.clashes r = false
  recorded : ∀ h ∈ db.history, h.migrationID = new.migrationID → h.revision ≠ new.revision
  result : db' = { db with records := place old new db.records, history := db.history ++ [historyRow old new] }

theorem write_ok (h : db.write old new = .ok db') : Written db db' old new := by
  unfold write at h
  split at h
  · cases h
  · split at h
    · cases h
    · rename_i audited
      split at h
      · cases h
      · rename_i checked
        split at h
        · cases h
        · rename_i absent
          split at h
          · cases h
          · rename_i apart
            split at h
            · cases h
            · rename_i recorded
              cases h
              simp only [List.any_eq_true, Bool.and_eq_true, decide_eq_true_eq, not_exists, not_and] at apart recorded
              refine ⟨by simpa using audited, by simpa using checked, ?_, ?_, recorded, rfl⟩
              · rintro rfl
                simpa using absent
              · intro r hr other
                simpa using apart r hr other

variable {id : Text} {row : Record}

theorem find_place_other (rows : List Record) (h : id ≠ new.migrationID) :
    (place old new rows).find? (fun r => r.migrationID = id) = rows.find? (fun r => r.migrationID = id) := by
  cases old with
  | none => simp [place, List.find?_append, Ne.symm h]
  | some row =>
    unfold place
    induction rows with
    | nil => rfl
    | cons r rows ih =>
      by_cases mine : r.migrationID = new.migrationID
      · have skip : r.migrationID ≠ id := by rw [mine]; exact Ne.symm h
        simp only [List.map_cons, if_pos mine]
        rw [List.find?_cons_of_neg (by simpa using Ne.symm h), List.find?_cons_of_neg (by simpa using skip)]
        exact ih
      · simp only [List.map_cons, if_neg mine, List.find?_cons]
        split
        · rfl
        · exact ih

theorem find_place_self (rows : List Record)
    (found : rows.find? (fun r => r.migrationID = new.migrationID) = old) :
    (place old new rows).find? (fun r => r.migrationID = new.migrationID) = some new := by
  cases old with
  | none => simp [place, List.find?_append, found]
  | some row =>
    unfold place
    induction rows with
    | nil => cases found
    | cons r rows ih =>
      by_cases mine : r.migrationID = new.migrationID
      · simp [mine]
      · simp only [List.map_cons, if_neg mine]
        rw [List.find?_cons_of_neg (by simpa using mine)]
        apply ih
        rwa [List.find?_cons_of_neg (by simpa using mine)] at found

theorem Written.find_self (h : Written db db' old new) (found : db.find new.migrationID = old) :
    db'.find new.migrationID = some new := by
  rw [h.result]
  exact find_place_self _ found

theorem Written.find_other (h : Written db db' old new) (other : id ≠ new.migrationID) :
    db'.find id = db.find id := by
  rw [h.result]
  exact find_place_other _ other

theorem find_id (h : db.find id = some row) : row.migrationID = id := by
  simpa using List.find?_some h

theorem find_mem (h : db.find id = some row) : row ∈ db.records :=
  List.mem_of_find?_eq_some h

end Database

/-- A new row in DISCOVERED, or a stored row along an edge of the state machine, with its
first target while it is PROVISIONING. -/
structure Legal (old : Option Record) (new : Record) : Prop where
  begins : old = none → new.migrationState = .discovered
  legal : ∀ row, old = some row →
    new.migrationState = row.migrationState ∨ canTransition row.migrationState new.migrationState = true
  target : ∀ row, old = some row → new.target = row.target ∨
    (row.target = {} ∧ new.target ≠ {} ∧ row.migrationState = .provisioning ∧
      new.migrationState = .provisioning)

structure RowWrite (db db' : Database) (old : Option Record) (new : Record) : Prop extends Legal old new where
  written : Database.Written db db' old new
  found : db.find new.migrationID = old

namespace PostgresStore

variable {d : Driver}

inductive Puts (r : Record) (db db' : Database) : Prop
  | insert (fresh : r.revision = 0) (write : RowWrite db db' none (inserted r))
  | update (row : Record) (current : row.revision = r.revision) (same : immutableN05 row r = true)
      (write : RowWrite db db' (some row) (updated row r))

theorem handed_utc (d : Driver) (row : Record) : (d.handed row).utc = row.utc := by
  have same : ∀ t : Option Time, (t.map (fun t => (⟨t.ns, d.localZone t.ns⟩ : Time))).map Time.utc =
      t.map Time.utc := by
    intro t
    cases t <;> rfl
  simp only [Driver.handed, Record.utc, same]
  rfl

theorem scanN05_ok {row : Option Record} {r : Record} (h : d.scanN05 row = .ok r) :
    ∃ x, row = some x ∧ r = d.handed x ∧ r.Structural := by
  cases row with
  | none => cases h
  | some x =>
    simp only [Driver.scanN05] at h
    split at h
    · rename_i valid
      cases h
      exact ⟨x, rfl, rfl, Record.validateStructural_ok.mp valid⟩
    · cases h

theorem immutableN05_fields {a b : Record} (h : immutableN05 a b = true) :
    a.migrationID = b.migrationID ∧ a.identityClass = b.identityClass ∧
      a.canonicalIdentityID = b.canonicalIdentityID := by
  simp only [immutableN05, Bool.and_eq_true, decide_eq_true_eq] at h
  exact ⟨h.1.1.1.1.1.1, h.1.1.2, h.1.1.1.1.2⟩

section Bodies

variable {rule : Rule ports} {s : Database} {L : Log ports}

theorem wp_writeRow {old : Option Record} {new : Record} {Q : Except Failure (Unit × Database) → Log ports → Prop}
    (failed : ∀ a e, Q (.error e) (L ++ [⟨Query.statement, a⟩]))
    (h : ∀ s', Database.Written s s' old new → Q (.ok ((), s')) (L ++ [⟨Query.statement, none⟩])) :
    (writeRow old new).wp rule s L Q := by
  unfold writeRow
  apply wp_statement_then (fun code e => failed _ e)
  apply Tx.wp_read_then
  apply wp_orFail_then (fun e _ => failed _ e)
  intro db stored
  exact h db (Database.write_ok (mapError_eq_ok stored))

theorem wp_commit {α : Type} {wrap : SqlCode → Failure} {a : α}
    {Q : Except Failure (Except Failure α × Database) → Log ports → Prop}
    (refused : ∀ code e, Q (.error e) (L ++ [⟨Query.commit, Commit.refused code⟩]))
    (lost : ∀ code e, Q (.ok (.error e, s)) (L ++ [⟨Query.commit, Commit.unacknowledged code⟩]))
    (done : Q (.ok (.ok a, s)) (L ++ [⟨Query.commit, Commit.done⟩])) : (commit wrap a).wp rule s L Q := by
  unfold commit
  rw [Tx.wp_bind]
  intro answer _
  cases answer with
  | done => exact done
  | refused code => exact refused code _
  | unacknowledged code => exact lost code _

structure PutPost (r : Record) (s : Database) (L : Log ports)
    (Q : Except Failure (Except Failure Record × Database) → Log ports → Prop) : Prop where
  failed : ∀ L' e, StoreLog L L' → Q (.error e) L'
  same : ∀ L' x, StoreLog L L' → s.find r.migrationID = some x → x.utc = r.utc → Q (.ok (.ok r, s)) L'
  lost : ∀ L' s' e, StoreLog L L' → Puts r s s' → Q (.ok (.error e, s')) L'
  done : ∀ L' s' n, StoreLog L L' → Puts r s s' → Q (.ok (.ok { r with revision := n }, s')) L'

theorem PutPost.later {r : Record} {L' : Log ports}
    {Q : Except Failure (Except Failure Record × Database) → Log ports → Prop}
    (h : PutPost r s L Q) (asked : StoreLog L L') : PutPost r s L' Q where
  failed L'' e more := h.failed L'' e (asked.trans more)
  same L'' x more := h.same L'' x (asked.trans more)
  lost L'' s' e more := h.lost L'' s' e (asked.trans more)
  done L'' s' n more := h.done L'' s' n (asked.trans more)

variable {r row : Record} {Q : Except Failure (Except Failure Record × Database) → Log ports → Prop}

theorem PutPost.commit {s' : Database} {n : Int} (h : PutPost r s L Q) (put : Puts r s s') :
    (commit n05WriteError { r with revision := n }).wp rule s' L Q :=
  wp_commit (fun _ e => h.failed _ e (.commit L _)) (fun _ e => h.lost _ s' e (.commit L _) put)
    (h.done _ s' n (.commit L _) put)

theorem wp_insertBody (absent : s.find r.migrationID = none) (h : PutPost r s L Q) :
    (insertBody r).wp rule s L Q := by
  unfold insertBody
  apply Tx.wp_require_else (h.failed L _ (.refl L))
  intro fresh
  simp only [Bool.and_eq_true, decide_eq_true_eq] at fresh
  apply (Tx.wp_bind _ _ _).mpr
  apply wp_writeRow (fun a e => h.failed _ e (.statement L a))
  intro s' written
  exact (h.later (.statement L none)).commit
    (.insert fresh.1 ⟨⟨fun _ => fresh.2, by simp, by simp⟩, written, absent⟩)

theorem wp_updateBody (found : s.find r.migrationID = some row) (h : PutPost r s L Q) :
    (updateBody d r row).wp rule s L Q := by
  have same := Database.find_id found
  unfold updateBody
  refine wp_orFail_then (fun e _ => h.failed L e (.refl L)) ?_
  intro old scanned
  obtain ⟨x, hx, rfl, -⟩ := scanN05_ok scanned
  cases hx
  have failed : ∀ e, Q (.error e) L := fun e => h.failed L e (.refl L)
  apply Tx.wp_require_else (failed _)
  intro current
  apply Tx.wp_require_else (failed _)
  intro bound
  apply Tx.wp_require_else (failed _)
  intro legal
  simp only [Bool.and_eq_true, Bool.or_eq_true, decide_eq_true_eq, emptyTargetN05] at current bound legal
  obtain ⟨⟨revision, immutable⟩, kept⟩ := current
  split
  · rename_i equal
    have eq := d.deepEqual_sound _ _ equal
    apply h.same L row (.refl L) found
    rw [← eq, handed_utc]
  · apply (Tx.wp_bind _ _ _).mpr
    apply wp_writeRow (fun a e => h.failed _ e (.statement L a))
    intro s' written
    have put : Puts r s s' := by
      refine .update row revision immutable ⟨⟨by simp, ?_, ?_⟩, written, (congrArg s.find same).trans found⟩
      · rintro _ ⟨⟩
        exact legal.imp Eq.symm id
      · rintro _ ⟨⟩
        rcases bound with equal | ⟨⟨after, before⟩, full⟩
        · exact .inl equal.symm
        · rcases kept with empty | equal
          · have complete : r.target ≠ {} := by simpa using full
            exact .inr ⟨empty, complete, before, after⟩
          · exact .inl equal.symm
    exact (h.later (.statement L none)).commit put

theorem wp_putBody (h : PutPost r s L Q) : (putBody d r).wp rule s L Q := by
  unfold putBody
  apply wp_statement_then (fun code e => h.failed _ e (.statement L _))
  have h₁ := h.later (.statement L none)
  apply wp_statement_then (fun code e => h₁.failed _ e (.statement _ _))
  have h₂ := h₁.later (.statement _ none)
  apply Tx.wp_read_then
  cases found : s.find r.migrationID with
  | none => exact wp_insertBody found h₂
  | some row => exact wp_updateBody found h₂

end Bodies

theorem puts_find {r : Record} {db db' : Database} (h : Puts r db db') :
    ∃ x, db'.find r.migrationID = some x ∧ x.migrationState = r.migrationState ∧ x.target = r.target ∧
      x.identityClass = r.identityClass ∧ x.canonicalIdentityID = r.canonicalIdentityID := by
  cases h with
  | insert fresh write => exact ⟨inserted r, write.written.find_self write.found, rfl, rfl, rfl, rfl⟩
  | update row current same write =>
    obtain ⟨id, identityClass, canonical⟩ := immutableN05_fields same
    refine ⟨updated row r, ?_, rfl, rfl, identityClass, canonical⟩
    have self := write.written.find_self write.found
    rwa [show (updated row r).migrationID = r.migrationID from id] at self

theorem puts_find_other {r : Record} {db db' : Database} {id : Text} (h : Puts r db db')
    (other : id ≠ r.migrationID) : db'.find id = db.find id := by
  cases h with
  | insert fresh write => exact write.written.find_other other
  | update row current same write =>
    apply write.written.find_other
    rwa [show (updated row r).migrationID = r.migrationID from (immutableN05_fields same).1]

def lawful (d : Driver) : Lawful (store d) where
  row := Database.find
  row_id := Database.find_id
  hands x := (d.scanN05 (some x)).toOption
  hands_utc := by
    intro x r read
    cases scanned : d.scanN05 (some x) with
    | error e =>
      rw [scanned] at read
      cases read
    | ok r' =>
      rw [scanned] at read
      cases read
      obtain ⟨_, ⟨⟩, rfl, -⟩ := scanN05_ok scanned
      exact (handed_utc d x).symm
  puts := Puts
  get_wp := by
    intro sys v id T L Q h T' hT'
    apply wp_statement_then
    · intro code e
      have here := h T' _ hT' (.statement L (some code))
      exact ⟨here.1, here.2.1 e⟩
    · have here := h T' _ hT' (.statement L none)
      apply Tx.wp_read_then
      cases scanned : d.scanN05 ((last T').find id) with
      | error e => exact ⟨here.1, here.2.1 e⟩
      | ok r =>
        obtain ⟨x, found, -, -⟩ := scanN05_ok scanned
        exact ⟨here.1, here.2.2 x r found (by rw [← found, scanned]; rfl)⟩
  get_done := by
    rintro sys rule i c id T L Q x r undisturbed found read h _ rfl
    apply (Tx.wp_bind _ _ _).mpr
    apply Tx.wp_ask_then
    intro a admitted
    obtain rfl := (undisturbed L).2 a admitted
    refine Tx.wp_read_then ?_
    rw [found]
    cases scanned : d.scanN05 (some x) with
    | error e =>
      rw [scanned] at read
      cases read
    | ok r' =>
      rw [scanned] at read
      cases read
      exact ⟨trivial, h _⟩
  put_wp := by
    intro sys v r T L Q refused h
    unfold store put
    apply wp_then
    apply (wp_ofExcept _).mpr
    cases r.validateStructural with
    | error e => exact refused e
    | ok _ =>
      apply wp_then
      apply (wp_require _ _).mpr
      refine ⟨?_, fun _ => refused _⟩
      intro _
      apply wp_then
      apply (wp_require _ _).mpr
      refine ⟨?_, fun _ => refused _⟩
      intro _ T' hT'
      apply wp_putBody
      constructor
      · intro L' e asked
        have here := h T' L' hT' asked
        exact ⟨here.1, here.2.1 e⟩
      · intro L' x asked found equal
        have here := h T' L' hT' asked
        exact ⟨here.1, here.2.2.1 x found equal⟩
      · intro L' s' e asked put
        have here := (h T' L' hT' asked).2.2.2 s' put
        exact ⟨here.1, here.2.1 e⟩
      · intro L' s' n asked put
        have here := (h T' L' hT' asked).2.2.2 s' put
        exact ⟨here.1, here.2.2 n⟩
  puts_row := puts_find
  puts_other := puts_find_other

end PostgresStore

end Migration
