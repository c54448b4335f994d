import BaobabIam.Federation.TrustRecords
import Mathlib.Data.List.Chain

/-! The trust ledger as an append-only log. Abstractly a ledger is a list of
records for each trust, and an operation appends at most one record that follows
the last one. `Holds` says that the history bucket and the current record hold
such a list; every transaction of every interleaving refines an append. -/
namespace Federation.TrustLedger

open Wire Interleaving

abbrev Records := Text → List CommittedTrust

structure Holds (s : TrustStore) (id : Text) (records : List CommittedTrust) : Prop where
  stored : ∀ k : UInt64, s.history.get (historyKey id k) =
    if k = 0 then none else (records[k.toNat - 1]?).map marshal
  current : s.trusts.get id = records.getLast?.map marshal
  committed : ∀ c ∈ records, Committed id c
  revisions : ∀ n c, records[n]? = some c → c.snapshot.trust.revision.toNat = n + 1
  first : ∀ c ∈ records.head?, c.snapshot.trust.status = .requested
  chain : records.IsChain (fun a b => trustTransition a.snapshot.trust b.snapshot.trust = true)

/-- A record that may be appended: a first request, or what follows the last one. -/
structure Extends (id : Text) (records : List CommittedTrust) (c : CommittedTrust) : Prop where
  committed : Committed id c
  first : records = [] → c.snapshot.trust.status = .requested ∧ c.snapshot.trust.revision = 1
  next : ∀ l ∈ records.getLast?, trustTransition l.snapshot.trust c.snapshot.trust = true

theorem historyKey_inj {id id' : Text} {k k' : UInt64} (h : historyKey id k = historyKey id' k') :
    id = id' ∧ k = k' := by
  obtain ⟨hid, hk⟩ := List.append_inj' h (by simp)
  refine ⟨hid, ?_⟩
  have digits := (List.cons.inj hk).2
  have small : ∀ n : UInt64, n.toNat < 10 ^ 20 := fun n => lt_trans n.toNat_lt (by decide)
  exact UInt64.toNat_inj.mp (Text.padded_inj (by decide) Text.decimal_digits (small k) (small k') digits)

theorem Committed.revision {id : Text} {c : CommittedTrust} (h : Committed id c) :
    c.snapshot.approvedRevision = c.snapshot.trust.revision := by
  have ok := h.readable
  simp only [TrustLedger.readable, Bool.and_eq_true, beq_iff_eq] at ok
  exact ok.1.1.1.1.1.1.2

theorem Committed.decodes {id : Text} {c : CommittedTrust} (h : Committed id c) :
    decodeAuthority (marshal c) = some c := decodeAuthority_marshal h.storable

section Frames

variable {s s' : TrustStore} {id : Text} {records : List CommittedTrust}

theorem Holds.frame (h : Holds s id records) (history : s'.history = s.history)
    (trusts : s'.trusts = s.trusts) : Holds s' id records where
  stored k := by rw [history]; exact h.stored k
  current := by rw [trusts]; exact h.current
  committed := h.committed
  revisions := h.revisions
  first := h.first
  chain := h.chain

theorem Holds.other {id' data : Text} {k : UInt64} (h : Holds s id records) (ne : id ≠ id')
    (history : s'.history = s.history.put (historyKey id' k) data)
    (trusts : s'.trusts = s.trusts.put id' data) : Holds s' id records where
  stored j := by
    rw [history, Bucket.get_put_ne _ _ (fun same => ne (historyKey_inj same).1)]
    exact h.stored j
  current := by
    rw [trusts, Bucket.get_put_ne _ _ ne]
    exact h.current
  committed := h.committed
  revisions := h.revisions
  first := h.first
  chain := h.chain

theorem Holds.length (h : Holds s id records) : records.length < 2 ^ 64 := by
  rcases Nat.eq_zero_or_pos records.length with zero | pos
  · rw [zero]; decide
  · obtain ⟨c, hc⟩ : ∃ c, records[records.length - 1]? = some c :=
      ⟨_, List.getElem?_eq_getElem (by omega)⟩
    have rev := h.revisions _ c hc
    have small := c.snapshot.trust.revision.toNat_lt
    omega

theorem Extends.number {c : CommittedTrust} (h : Holds s id records) (ext : Extends id records c) :
    c.snapshot.trust.revision.toNat = records.length + 1 := by
  cases records using List.reverseRecOn with
  | nil => rw [(ext.first rfl).2]; rfl
  | append_singleton rs l =>
    have follows := ext.next l (by simp)
    have position := h.revisions rs.length l (by simp)
    simp only [trustTransition, Bool.and_eq_true, beq_iff_eq, bne_iff_ne] at follows
    obtain ⟨⟨⟨⟨⟨⟨⟨-, notMax⟩, plus⟩, -⟩, -⟩, -⟩, -⟩, -⟩ := follows.1
    have below := l.snapshot.trust.revision.toNat_lt
    have bounded : l.snapshot.trust.revision.toNat ≠ 2 ^ 64 - 1 := by
      intro full
      exact notMax (UInt64.toNat_inj.mp full)
    rw [plus, UInt64.toNat_add, position, List.length_append, List.length_singleton]
    change (rs.length + 1 + 1) % 2 ^ 64 = _
    omega

theorem Holds.append {c : CommittedTrust} (h : Holds s id records) (ext : Extends id records c)
    (history : s'.history = s.history.put (historyKey id c.snapshot.approvedRevision) (marshal c))
    (trusts : s'.trusts = s.trusts.put id (marshal c)) : Holds s' id (records ++ [c]) where
  stored k := by
    have number := ext.number h
    rw [history, ext.committed.revision, Bucket.get_put]
    split
    · rename_i same
      obtain ⟨-, rfl⟩ := historyKey_inj same
      have nonzero : c.snapshot.trust.revision ≠ 0 := by
        intro zero
        rw [zero] at number
        simp at number
      rw [if_neg nonzero, number]
      simp
    · rename_i different
      rw [h.stored k]
      split
      · rfl
      · rename_i nonzero
        have apart : k.toNat ≠ records.length + 1 := by
          intro same
          exact different (by rw [UInt64.toNat_inj.mp (same.trans number.symm)])
        have positive : k.toNat ≠ 0 := fun zero => nonzero (UInt64.toNat_inj.mp zero)
        rcases Nat.lt_or_ge (k.toNat - 1) records.length with inside | outside
        · rw [List.getElem?_append_left inside]
        · rw [List.getElem?_eq_none outside, List.getElem?_eq_none (by simp; omega)]
  current := by
    rw [trusts]
    simp
  committed x hx := by
    rcases List.mem_append.mp hx with hx | hx
    · exact h.committed x hx
    · rw [List.mem_singleton.mp hx]
      exact ext.committed
  revisions n x hx := by
    rcases Nat.lt_trichotomy n records.length with inside | rfl | outside
    · rw [List.getElem?_append_left inside] at hx
      exact h.revisions n x hx
    · simp only [List.getElem?_concat_length, Option.some.injEq] at hx
      rw [← hx]
      exact ext.number h
    · rw [List.getElem?_eq_none (by simp; omega)] at hx
      cases hx
  first x hx := by
    cases records with
    | nil =>
      simp only [List.nil_append, List.head?_cons, Option.mem_def, Option.some.injEq] at hx
      rw [← hx]
      exact (ext.first rfl).1
    | cons r rs => exact h.first x hx
  chain := by
    rw [List.isChain_append]
    refine ⟨h.chain, List.isChain_singleton _, ?_⟩
    intro l hl x hx
    simp only [List.head?_cons, Option.mem_def, Option.some.injEq] at hx
    rw [← hx]
    exact ext.next l hl

end Frames

/-- The store holds these records, and every stored proposal was checked. -/
structure Represents (s : TrustStore) (log : Records) : Prop where
  holds : ∀ id, Holds s id (log id)
  proposals : ∀ id raw, s.proposals.get id = some raw →
    ∃ p, raw = marshal p ∧ p.id = id ∧ Proposed p

inductive Commits (T : Trace) (e : Entry system) (id : Text) : CommittedTrust → Prop
  | approval (pid digest : Text) (p q : TrustProposal) (r : Time)
      (step : DecideStep T e pid digest true p q r) (commit : ApproveStep e pid q r)
      (same : q.snapshot.trust.id = id) : Commits T e id (approvedTrust q)
  | containment (revision : UInt64) (status : TrustStatus) (c value : CommittedTrust) (r : Time)
      (step : ContainStep T e id revision status c value r) : Commits T e id value

/-- One abstract operation: nothing, or one record at the end of one list. -/
inductive Appends (T : Trace) (e : Entry system) (log : Records) : Records → Prop
  | none : Appends T e log log
  | one (id : Text) (c : CommittedTrust) (ext : Extends id (log id) c) (by_ : Commits T e id c) :
      Appends T e log (Function.update log id (log id ++ [c]))

section Refinement

variable {s s' : TrustStore} {log : Records} {id : Text}

theorem represents_empty : Represents TrustStore.empty (fun _ => []) where
  holds id := ⟨by simp [TrustStore.empty], rfl, by simp, by simp, by simp, List.isChain_nil⟩
  proposals id raw h := by cases h

theorem Represents.current_some (rep : Represents s log) {c : CommittedTrust}
    (h : Current s id (some c)) : (log id).getLast? = some c := by
  obtain ⟨raw, found, decoded⟩ := h
  rw [(rep.holds id).current] at found
  obtain ⟨l, hl, rfl⟩ := Option.map_eq_some_iff.mp found
  have member : l ∈ log id := List.mem_of_getLast? hl
  rw [((rep.holds id).committed l member).decodes] at decoded
  rw [hl, decoded]

theorem Represents.current_none (rep : Represents s log) (h : Current s id none) : log id = [] := by
  have empty : (log id).getLast?.map marshal = none := (rep.holds id).current ▸ h
  simpa using empty

theorem Represents.proposal (rep : Represents s log) {p : TrustProposal}
    (h : decodeAuthority ((s.proposals.get id).getD []) = some p) :
    Proposed p ∧ Storable p ∧ p.id = id ∧ s.proposals.get id = some (marshal p) := by
  obtain ⟨raw, found, decoded⟩ := Option.bind_eq_some_iff.mp (bind_of_getD h)
  obtain ⟨q, rfl, hid, proposed⟩ := rep.proposals id raw found
  obtain ⟨rfl, storable⟩ := decodeAuthority_inv decoded
  exact ⟨proposed, storable, hid, found⟩

theorem Represents.put_proposal {p : TrustProposal} (rep : Represents s log) (proposed : Proposed p)
    (hid : p.id = id) (history : s'.history = s.history) (trusts : s'.trusts = s.trusts)
    (proposals : s'.proposals = s.proposals.put id (marshal p)) : Represents s' log where
  holds id := (rep.holds id).frame history trusts
  proposals id' raw h := by
    rw [proposals, Bucket.get_put] at h
    split at h
    · rename_i same
      cases h
      exact ⟨p, rfl, same ▸ hid, proposed⟩
    · exact rep.proposals id' raw h

theorem Represents.tick (rep : Represents s log) (r : Time) : Represents (ticked s r) log where
  holds id := (rep.holds id).frame rfl rfl
  proposals := rep.proposals

theorem Represents.commit {c : CommittedTrust} (rep : Represents s log) (ext : Extends id (log id) c)
    (history : s'.history = s.history.put (historyKey id c.snapshot.approvedRevision) (marshal c))
    (trusts : s'.trusts = s.trusts.put id (marshal c)) (proposals : s'.proposals = s.proposals) :
    Represents s' (Function.update log id (log id ++ [c])) where
  holds id' := by
    by_cases same : id' = id
    · subst same
      rw [Function.update_self]
      exact (rep.holds id').append ext history trusts
    · rw [Function.update_of_ne same]
      exact (rep.holds id').other same history trusts
  proposals id' raw h := by
    rw [proposals] at h
    exact rep.proposals id' raw h

end Refinement

variable {p q : TrustProposal} {T : Trace} {e : Entry system} {id digest : Text} {r : Time} {log log' : Records}
    {s : TrustStore}

theorem Proposed.decided (h : Proposed p) (checker : Text) (decidedAt : Time)
    (approve : Bool) : Proposed (decidedProposal p checker decidedAt approve) :=
  ⟨h.args, h.digest, h.first, h.maker⟩

theorem DecideStep.proposed {approve : Bool} (step : DecideStep T e id digest approve p q r)
    (seen : ∀ e₀ ∈ T, ∃ log₀, Represents e₀.before log₀) :
    Proposed p ∧ Storable p ∧ p.id = id := by
  obtain ⟨e₀, he₀, -, decoded⟩ := step.seen
  obtain ⟨log₀, rep₀⟩ := seen e₀ he₀
  obtain ⟨proposed, storable, hid, -⟩ := rep₀.proposal decoded
  exact ⟨proposed, storable, hid⟩

theorem ApproveStep.extends (step : DecideStep T e id digest true p q r)
    (commit : ApproveStep e id q r) (rep : Represents e.before log)
    (seen : ∀ e₀ ∈ T, ∃ log₀, Represents e₀.before log₀) :
    Extends q.snapshot.trust.id (log q.snapshot.trust.id) (approvedTrust q) := by
  obtain ⟨proposed, storable, -⟩ := step.proposed seen
  have same : q.snapshot = p.snapshot := by rw [step.decided]; rfl
  have previous : q.previousRevision = p.previousRevision := by rw [step.decided]; rfl
  obtain ⟨now, found, revision, -, follows⟩ := commit.current
  refine ⟨?_, ?_, ?_⟩
  · rw [same]
    exact approved_committed proposed storable step.decided step.checker step.decidedAt
  · intro empty
    cases now with
    | none =>
      have first := proposed.first (previous ▸ revision.symm)
      rw [← same] at first
      exact first
    | some c =>
      have last := rep.current_some found
      rw [empty] at last
      cases last
  · intro l hl
    cases now with
    | none =>
      rw [rep.current_none found] at hl
      cases hl
    | some c =>
      have last := rep.current_some found
      rw [Option.mem_def, last] at hl
      cases hl
      exact follows

/-- The record that a containment read is still the last one when it commits. -/
theorem ContainStep.extends {revision : UInt64}
    {status : TrustStatus} {c value : CommittedTrust}
    (step : ContainStep T e id revision status c value r) (rep : Represents e.before log)
    (seen : ∀ e₀ ∈ T, ∃ log₀, Represents e₀.before log₀ ∧ ∀ id, log₀ id <+: log id) :
    (log id).getLast? = some c ∧ Extends id (log id) value := by
  obtain ⟨e₀, he₀, -, read⟩ := step.seen
  obtain ⟨log₀, rep₀, grown⟩ := seen e₀ he₀
  have last₀ := rep₀.current_some read
  obtain ⟨live, decoded, liveRevision, -⟩ := step.live
  have now : Current e.before id (some live) := Option.bind_eq_some_iff.mp (bind_of_getD decoded)
  have last := rep.current_some now
  -- the revision of the last record is the length of the list, so the lists agree
  have lengths : (log₀ id).length = (log id).length := by
    have h₀ := (rep₀.holds id).revisions ((log₀ id).length - 1) c (by rwa [← List.getLast?_eq_getElem?])
    have h₁ := (rep.holds id).revisions ((log id).length - 1) live (by rwa [← List.getLast?_eq_getElem?])
    have c₀ := ((rep₀.holds id).committed c (List.mem_of_getLast? last₀)).revision
    have c₁ := ((rep.holds id).committed live (List.mem_of_getLast? last)).revision
    have pos₀ : 0 < (log₀ id).length := List.length_pos_of_mem (List.mem_of_getLast? last₀)
    have pos₁ : 0 < (log id).length := List.length_pos_of_mem (List.mem_of_getLast? last)
    rw [← c₀, step.atRevision] at h₀
    rw [← c₁, liveRevision] at h₁
    omega
  have same : log₀ id = log id := (grown id).eq_of_length lengths
  rw [same] at last₀
  have committed : Committed id c := (rep.holds id).committed c (List.mem_of_getLast? last₀)
  obtain ⟨t, drawn, principal, rfl, time, -, uuid⟩ := step.written
  refine ⟨last₀, contained_committed committed step.valid time uuid, ?_, ?_⟩
  · intro empty
    rw [empty] at last₀
    cases last₀
  · intro l hl
    rw [Option.mem_def, last₀] at hl
    cases hl
    exact step.transition

theorem Step.refines (step : Step T e)
    (rep : Represents e.before log)
    (seen : ∀ e₀ ∈ T, ∃ log₀, Represents e₀.before log₀ ∧ ∀ id, log₀ id <+: log id) :
    ∃ log', Represents e.after log' ∧ Appends T e log log' := by
  have checked : ∀ e₀ ∈ T, ∃ log₀, Represents e₀.before log₀ := by
    intro e₀ he₀
    obtain ⟨log₀, rep₀, -⟩ := seen e₀ he₀
    exact ⟨log₀, rep₀⟩
  cases step with
  | idle same => exact ⟨log, same ▸ rep, .none⟩
  | ticked r _ after => exact ⟨log, after ▸ rep.tick r, .none⟩
  | proposed p r step =>
    exact ⟨log, rep.put_proposal step.proposed rfl (by rw [step.after]; rfl) (by rw [step.after]; rfl)
      (by rw [step.after]), .none⟩
  | rejected id digest p q r step after =>
    obtain ⟨proposed, -, hid⟩ := step.proposed checked
    have kept : Proposed q := step.decided ▸ proposed.decided _ _ _
    have sameId : q.id = id := by rw [step.decided]; exact hid
    exact ⟨log, rep.put_proposal kept sameId (by rw [after]; rfl) (by rw [after]; rfl) (by rw [after]), .none⟩
  | approved id digest p q r step commit =>
    obtain ⟨proposed, -, hid⟩ := step.proposed checked
    have kept : Proposed q := step.decided ▸ proposed.decided _ _ _
    have sameId : q.id = id := by rw [step.decided]; exact hid
    have ext := commit.extends step rep checked
    let mid : TrustStore := { e.before with proposals := e.before.proposals.put id (marshal q) }
    have stored : Represents mid log := rep.put_proposal kept sameId rfl rfl rfl
    exact ⟨_, stored.commit ext (by rw [commit.after]; rfl) (by rw [commit.after])
      (by rw [commit.after]), .one _ _ ext (.approval id digest p q r step commit rfl)⟩
  | contained id revision status c value r step =>
    have ext := (step.extends rep seen).2
    exact ⟨_, rep.commit ext (by rw [step.after]) (by rw [step.after]) (by rw [step.after]; rfl),
      .one _ _ ext (.containment revision status c value r step)⟩

/-- A list that was appended to: the old one is a prefix, and nothing follows a
record that is revoked. -/
theorem Appends.grows (h : Appends T e log log') (id : Text) :
    log id <+: log' id ∧
    (∀ c ∈ (log id).getLast?, c.snapshot.trust.status = .revoked → log' id = log id) := by
  cases h with
  | none => exact ⟨List.prefix_refl _, fun _ _ _ => rfl⟩
  | one id₀ c ext _ =>
    by_cases same : id = id₀
    · subst same
      rw [Function.update_self]
      refine ⟨List.prefix_append _ _, ?_⟩
      intro l hl revoked
      have follows := ext.next l hl
      simp only [trustTransition, Bool.and_eq_true, bne_iff_ne] at follows
      exact absurd revoked follows.1.2
    · rw [Function.update_of_ne same]
      exact ⟨List.prefix_refl _, fun _ _ _ => rfl⟩

theorem Represents.unique (h : Represents s log)
    (h' : Represents s log') : log = log' := by
  funext id
  have texts : ∀ n, n + 1 < 2 ^ 64 → ((log id)[n]?).map marshal = ((log' id)[n]?).map marshal := by
    intro n small
    have key : (UInt64.ofNat (n + 1)).toNat = n + 1 := by
      simp only [UInt64.toNat_ofNat']
      omega
    have nonzero : UInt64.ofNat (n + 1) ≠ 0 := by
      intro zero
      rw [zero] at key
      simp at key
    have a := (h.holds id).stored (UInt64.ofNat (n + 1))
    rw [(h'.holds id).stored (UInt64.ofNat (n + 1)), if_neg nonzero, if_neg nonzero, key] at a
    exact a.symm
  apply List.ext_getElem?
  intro n
  have len := (h.holds id).length
  have len' := (h'.holds id).length
  rcases Nat.lt_or_ge (n + 1) (2 ^ 64) with small | large
  · cases a : (log id)[n]? with
    | none =>
      have other := texts n small
      rw [a] at other
      exact (Option.map_eq_none_iff.mp other.symm).symm
    | some c =>
      have other := texts n small
      rw [a] at other
      obtain ⟨c', hc', same⟩ := Option.map_eq_some_iff.mp other.symm
      have decoded := ((h.holds id).committed c (List.mem_of_getElem? a)).decodes
      rw [← same, ((h'.holds id).committed c' (List.mem_of_getElem? hc')).decodes] at decoded
      rw [hc', decoded]
  · rw [List.getElem?_eq_none (by omega), List.getElem?_eq_none (by omega)]

/-- In every valid trace the store represents a log that extends what every
earlier transaction saw. -/
theorem valid_represents (h : Valid Step T) :
    ∃ log, Represents (last T) log ∧
      ∀ e ∈ T, ∃ log₀, Represents e.before log₀ ∧ ∀ id, log₀ id <+: log id := by
  refine h.invariant (P := fun T => ∃ log, Represents (last T) log ∧
    ∀ e ∈ T, ∃ log₀, Represents e.before log₀ ∧ ∀ id, log₀ id <+: log id) ?_ ?_
  · exact ⟨_, represents_empty, by simp⟩
  · rintro T e - ⟨log, rep, seen⟩ before step
    obtain ⟨log', rep', appends⟩ := step.refines (before ▸ rep) seen
    refine ⟨log', by simpa using rep', ?_⟩
    intro e₀ he₀
    rcases List.mem_append.mp he₀ with he₀ | he₀
    · obtain ⟨log₀, rep₀, grown⟩ := seen e₀ he₀
      exact ⟨log₀, rep₀, fun id => (grown id).trans (appends.grows id).1⟩
    · rw [List.mem_singleton.mp he₀]
      exact ⟨log, before ▸ rep, fun id => (appends.grows id).1⟩

/-- Between two points of a trace each list of records only grows, and not after
a revoked record. -/
theorem valid_grows {T' : Trace} (h : Valid Step T') (sub : T <+: T')
    (rep : Represents (last T) log) (rep' : Represents (last T') log') (id : Text) :
    log id <+: log' id ∧
    (∀ c ∈ (log id).getLast?, c.snapshot.trust.status = .revoked → log' id = log id) := by
  have evolves := h.evolves (R := fun s s' => ∀ log, Represents s log →
    ∃ log', Represents s' log' ∧ log id <+: log' id ∧
      (∀ c ∈ (log id).getLast?, c.snapshot.trust.status = .revoked → log' id = log id)) ?_ ?_ ?_ sub
  · obtain ⟨log₁, rep₁, grown⟩ := evolves log rep
    rw [rep'.unique rep₁]
    exact grown
  · intro s log rep
    exact ⟨log, rep, List.prefix_refl _, fun _ _ _ => rfl⟩
  · intro s t u first second log rep
    obtain ⟨log₁, rep₁, grown₁, ended₁⟩ := first log rep
    obtain ⟨log₂, rep₂, grown₂, ended₂⟩ := second log₁ rep₁
    refine ⟨log₂, rep₂, grown₁.trans grown₂, ?_⟩
    intro c hc revoked
    have same := ended₁ c hc revoked
    rw [← same]
    exact ended₂ c (same ▸ hc) revoked
  · intro T e valid before step log rep
    obtain ⟨log₁, rep₁, seen⟩ := valid_represents valid
    rw [← before] at rep₁
    rw [rep₁.unique rep] at seen
    obtain ⟨log', rep', appends⟩ := step.refines rep seen
    exact ⟨log', rep', appends.grows id⟩

theorem exec_represents (schedule : List (Action system)) :
    Valid Step (exec system schedule).trace ∧ ∃ log, Represents (exec system schedule).store log := by
  have sound := exec_sound code_steps schedule
  obtain ⟨log, rep, -⟩ := valid_represents sound.valid
  exact ⟨sound.valid, log, sound.store ▸ rep⟩

/-- The log of a schedule extends the log of every schedule that it continues. -/
theorem exec_grows (schedule later : List (Action system))
    (rep : Represents (exec system schedule).store log)
    (rep' : Represents (exec system (schedule ++ later)).store log') (id : Text) :
    log id <+: log' id ∧
    (∀ c ∈ (log id).getLast?, c.snapshot.trust.status = .revoked → log' id = log id) := by
  have sound := exec_sound code_steps schedule
  have sound' := exec_sound code_steps (schedule ++ later)
  rw [sound.store] at rep
  rw [sound'.store] at rep'
  exact valid_grows sound'.valid (exec_trace schedule later) rep rep' id

theorem Holds.bytes {s' : TrustStore} {records : List CommittedTrust}
    (h : Holds s id records) (h' : Holds s' id records) :
    (∀ k, s'.history.get (historyKey id k) = s.history.get (historyKey id k)) ∧
    s'.trusts.get id = s.trusts.get id :=
  ⟨fun k => (h'.stored k).trans (h.stored k).symm, h'.current.trans h.current.symm⟩

/-- The history of a trust after any run, and after any continuation of it: the
entries are the texts of the records 1 to n, the current record is entry n, the
first is a request, each follows the one before, no entry changes, and none is
added after a revoked one. -/
theorem history_of_every_run (schedule later : List (Action system)) (id : Text) :
    ∃ records : List CommittedTrust,
      (∀ k : UInt64, (exec system schedule).store.history.get (historyKey id k) =
        if k = 0 then none else (records[k.toNat - 1]?).map marshal) ∧
      records.length < 2 ^ 64 ∧
      (∀ n c, records[n]? = some c → decodeAuthority (marshal c) = some c ∧
        c.snapshot.trust.id = id ∧ c.snapshot.trust.revision.toNat = n + 1 ∧
        c.snapshot.approvedRevision = c.snapshot.trust.revision) ∧
      (exec system schedule).store.trusts.get id =
        (if records = [] then none else
          (exec system schedule).store.history.get (historyKey id (UInt64.ofNat records.length))) ∧
      (∀ c ∈ records.head?, c.snapshot.trust.status = .requested) ∧
      records.IsChain (fun a b => trustTransition a.snapshot.trust b.snapshot.trust = true) ∧
      (∀ k raw, (exec system schedule).store.history.get (historyKey id k) = some raw →
        (exec system (schedule ++ later)).store.history.get (historyKey id k) = some raw) ∧
      (∀ c ∈ records.getLast?, c.snapshot.trust.status = .revoked →
        (∀ k, (exec system (schedule ++ later)).store.history.get (historyKey id k) =
          (exec system schedule).store.history.get (historyKey id k)) ∧
        (exec system (schedule ++ later)).store.trusts.get id =
          (exec system schedule).store.trusts.get id) := by
  obtain ⟨-, log, rep⟩ := exec_represents schedule
  obtain ⟨-, log', rep'⟩ := exec_represents (schedule ++ later)
  have h := rep.holds id
  obtain ⟨grown, ended⟩ := exec_grows schedule later rep rep' id
  refine ⟨log id, h.stored, h.length, ?_, ?_, h.first, h.chain, ?_, ?_⟩
  · intro n c hc
    have committed := h.committed c (List.mem_of_getElem? hc)
    have ok := committed.readable
    simp only [readable, Bool.and_eq_true, beq_iff_eq] at ok
    exact ⟨committed.decodes, ok.1.1.1.1.1.1.1, h.revisions n c hc, committed.revision⟩
  · rw [h.current]
    split
    · rename_i empty
      rw [empty]
      rfl
    · rename_i nonempty
      have len := h.length
      have pos := List.length_pos_iff.mpr nonempty
      have number : (UInt64.ofNat (log id).length).toNat = (log id).length := by
        simp only [UInt64.toNat_ofNat']
        omega
      have nonzero : UInt64.ofNat (log id).length ≠ 0 := by
        intro zero
        rw [zero] at number
        simp at number
        omega
      rw [h.stored, if_neg nonzero, number, List.getLast?_eq_getElem?]
  · intro k raw stored
    rw [h.stored] at stored
    rw [(rep'.holds id).stored]
    split at stored
    · cases stored
    · rename_i nonzero
      rw [if_neg nonzero]
      obtain ⟨c, hc, rfl⟩ := Option.map_eq_some_iff.mp stored
      obtain ⟨tail, htail⟩ := grown
      have inside := (List.getElem?_eq_some_iff.mp hc).1
      rw [← htail, List.getElem?_append_left inside, hc]
      rfl
  · intro c hc revoked
    have same := ended c hc revoked
    exact h.bytes (same ▸ rep'.holds id)

end Federation.TrustLedger
