import BaobabIam.Federation.TrustProvenance

/-! A trust that is active after a containment was proposed anew. A revision names one
record for ever, and a proposal is the next revision of the record that stands when it
is stored; so no proposal from before a containment can be approved behind it. -/
namespace Federation.TrustLedger

open Wire Interleaving

theorem exec_acts (schedule : List (Action system)) : Sound Act look (exec system schedule) :=
  exec_sound code_acts schedule

theorem valid_steps {T : Trace} (h : Valid Act T) : Valid Step T := h.mono (fun _ _ act => act.1)

section Revisions

variable {T U : Trace} {id : Text} {a b : CommittedTrust}

variable {log : Records} {V : Trace} {e : Entry system}

theorem record_place (h : Valid Step T) (sub : U <+: T) (rep : Represents (last T) log)
    (current : Current (last U) id (some a)) :
    ∃ log₀, Represents (last U) log₀ ∧ (log₀ id).length = a.snapshot.trust.revision.toNat ∧
      (log id)[a.snapshot.trust.revision.toNat - 1]? = some a := by
  obtain ⟨log₀, rep₀, -⟩ := valid_represents (h.restrict sub)
  have newest := rep₀.current_some current
  obtain ⟨tail, grown⟩ := (valid_grows h sub rep₀ rep id).1
  rw [List.getLast?_eq_getElem?] at newest
  obtain ⟨inside, -⟩ := List.getElem?_eq_some_iff.mp newest
  have revision := (rep₀.holds id).revisions _ a newest
  refine ⟨log₀, rep₀, by omega, ?_⟩
  rw [show a.snapshot.trust.revision.toNat - 1 = (log₀ id).length - 1 by omega, ← grown,
    List.getElem?_append_left inside]
  exact newest

theorem same_record (h : Valid Step T) (first : U <+: T) (second : V <+: T) (ha : Current (last U) id (some a))
    (hb : Current (last V) id (some b)) (same : a.snapshot.approvedRevision = b.snapshot.approvedRevision) : a = b := by
  obtain ⟨log, rep, -⟩ := valid_represents h
  obtain ⟨-, -, -, placeA⟩ := record_place h first rep ha
  obtain ⟨-, -, -, placeB⟩ := record_place h second rep hb
  have committed := (rep.holds id).committed
  rw [(committed a (List.mem_of_getElem? placeA)).revision,
    (committed b (List.mem_of_getElem? placeB)).revision] at same
  rw [same, placeB] at placeA
  exact (Option.some.inj placeA).symm

theorem later_of_longer (h : Valid Step T) (sub : U <+: T) (point : V ++ [e] <+: T)
    {log₀ : Records} (rep : Represents (last U) log) (rep₀ : Represents (last V) log₀)
    (longer : (log₀ id).length < (log id).length) : V ++ [e] <+: U := by
  rcases List.prefix_or_prefix_of_prefix sub point with before | after
  · rcases List.prefix_concat_iff.mp before with rfl | before
    · exact List.prefix_refl _
    · have inside : V <+: T := (List.prefix_append _ _).trans point
      have grown := (valid_grows (h.restrict inside) before rep rep₀ id).1.length_le
      omega
  · exact after

/-- The proposal of a record was stored when the record before it stood there. -/
theorem ProposeStep.place {p : TrustProposal} {r : Time} (step : ProposeStep e p r)
    (founded : Founded e) (rep : Represents e.before log) (positive : p.snapshot.trust.revision ≠ 0) :
    (log p.snapshot.trust.id).length + 1 = p.snapshot.trust.revision.toNat := by
  obtain same | ⟨current, stored, revision⟩ := founded _ _ _ step.call
  · have found : e.after.proposals.get p.id = some (marshal p) := by
      rw [step.after]
      exact Bucket.get_put_self _ _ _
    rw [same, step.free] at found
    cases found
  · cases current with
    | none =>
      rw [rep.current_none stored, revision]
      rfl
    | some a =>
      have newest := rep.current_some stored
      have committed := (rep.holds _).committed a (List.mem_of_getLast? newest)
      rw [List.getLast?_eq_getElem?] at newest
      have inside := (List.getElem?_eq_some_iff.mp newest).1
      have position := (rep.holds _).revisions _ a newest
      have next : p.snapshot.trust.revision = a.snapshot.trust.revision + 1 := by
        rw [revision, ← committed.revision]
        rfl
      have nonzero : p.snapshot.trust.revision.toNat ≠ 0 := fun zero => positive (UInt64.toNat_inj.mp zero)
      rw [next, UInt64.toNat_add] at nonzero ⊢
      have small := a.snapshot.trust.revision.toNat_lt
      change (a.snapshot.trust.revision.toNat + 1) % 2 ^ 64 ≠ 0 at nonzero
      change _ = (a.snapshot.trust.revision.toNat + 1) % 2 ^ 64
      omega

end Revisions

variable {id : Text} {T U : Trace} {e : Entry system} {revision : UInt64} {status : TrustStatus}
    {c value : CommittedTrust} {r : Time}

theorem ContainStep.place {log : Records} (step : ContainStep U e id revision status c value r)
    (h : Valid Step T) (sub : U ++ [e] <+: T) (rep : Represents (last T) log) :
    ∃ log₀ k, Represents (last U) log₀ ∧ (log₀ id).length = k ∧ (log id)[k]? = some value ∧
      value.snapshot.trust.status ≠ .active := by
  obtain ⟨valid, before, -⟩ := (h.restrict sub).snoc_inv
  obtain ⟨log₀, rep₀, seen⟩ := valid_represents valid
  have ext := (step.extends (before ▸ rep₀) seen).2
  have number := ext.number (rep₀.holds id)
  have stored : Current (last (U ++ [e])) id (some value) := by
    rw [last_append, step.after]
    exact ⟨marshal value, Bucket.get_put_self _ _ _, ext.committed.decodes⟩
  obtain ⟨-, -, -, place⟩ := record_place h sub rep stored
  refine ⟨log₀, _, rep₀, rfl, ?_, ?_⟩
  · rw [number] at place
    exact place
  · obtain ⟨t, drawn, principal, written, -⟩ := step.written
    have becomes : value.snapshot.trust.status = status := by rw [written]; rfl
    rw [becomes]
    rcases step.target with target | target <;> rw [target] <;> decide

/-- The trust is active again: since `V` began a Propose stored this snapshot and a
Decide approved it. -/
def Renewed (V : Trace) (s : TrustSnapshot) : Prop :=
  ∃ (V₁ V₂ V₃ : Trace) (proposing decision : Entry system) (pid digest : Text) (want : ReferenceExpectation),
    V = V₁ ++ proposing :: (V₂ ++ decision :: V₃) ∧ proposing.call = .propose pid s want ∧
    proposing.before.proposals.get pid = none ∧ (proposing.after.proposals.get pid).isSome = true ∧
    decision.call = .decide pid digest true

theorem renewed_after_containment {V : Trace}
    {c₀ : CommittedTrust} (h : Valid Act T) (trace : T = U ++ e :: V)
    (contain : ContainStep U e id revision status c₀ value r) (current : Current (last T) id (some c))
    (active : c.snapshot.trust.status = .active) : Renewed V c.snapshot := by
  have valid := valid_steps h
  have point : U ++ [e] <+: T := by
    rw [trace]
    exact ⟨V, by simp⟩
  obtain ⟨log, rep, -⟩ := valid_represents valid
  obtain ⟨log₀, k, rep₀, length₀, place, inactive⟩ := contain.place valid point rep
  have newest := rep.current_some current
  rw [List.getLast?_eq_getElem?] at newest
  -- the containment stands before the record that is active now
  have before : k < (log id).length - 1 := by
    have inside := (List.getElem?_eq_some_iff.mp place).1
    rcases Nat.lt_or_ge k ((log id).length - 1) with less | more
    · exact less
    · obtain rfl : k = (log id).length - 1 := by omega
      rw [newest] at place
      cases place
      exact absurd active inactive
  have number := (rep.holds id).revisions _ c newest
  obtain ⟨W, decision, log₁, subW, rep₁, cut, commits⟩ := valid_commits valid rep newest
  obtain ⟨validW, beforeW, -⟩ := (valid.restrict subW).snoc_inv
  have inW : W <+: T := (List.prefix_append _ _).trans subW
  have decided : U ++ [e] <+: W := by
    have longer : (log₀ id).length < (log₁ id).length := by
      rw [cut, List.length_take]
      omega
    exact later_of_longer valid inW point (beforeW ▸ rep₁) rep₀ longer
  obtain ⟨pid, digest, p, q, t, step, -, sameTrust, rfl⟩ := commits.active active
  obtain ⟨X, proposing, p', t', subX, made, madeId, form, -⟩ := step.origin (valid_known validW)
  have snapshot : q.snapshot = p'.snapshot := by rw [form]
  have inX : X ++ [proposing] <+: T := subX.trans inW
  obtain ⟨validX, beforeX, act⟩ := (h.restrict inX).snoc_inv
  obtain ⟨log₂, rep₂, -⟩ := valid_represents (valid_steps validX)
  have revision' : p'.snapshot.trust.revision.toNat = (log id).length - 1 + 1 := by
    rw [← snapshot]
    exact number
  have place' : (log₂ p'.snapshot.trust.id).length + 1 = p'.snapshot.trust.revision.toNat := by
    apply made.place act.2 (beforeX ▸ rep₂)
    intro zero
    rw [zero] at revision'
    cases revision'
  have proposed : U ++ [e] <+: X := by
    rw [← snapshot] at place' revision'
    rw [sameTrust] at place'
    have longer : (log₀ id).length < (log₂ id).length := by omega
    exact later_of_longer valid ((List.prefix_append _ _).trans inX) point rep₂ rep₀ longer
  obtain ⟨V₁, rfl⟩ := proposed
  obtain ⟨V₂, rfl⟩ := subX
  obtain ⟨V₃, rest⟩ := subW
  refine ⟨V₁, V₂, V₃, proposing, decision, pid, digest, p'.target, ?_, ?_, ?_, ?_, step.call⟩
  · rw [trace] at rest
    simpa using rest.symm
  · rw [made.call, madeId, ← snapshot]
    rfl
  · rw [← madeId]
    exact made.free
  · rw [made.after, madeId]
    simp

theorem Step.containment
    (step : Step T e) (call : e.call = .contain id revision status) (changed : e.after.trusts ≠ e.before.trusts) :
    ∃ c value r, ContainStep T e id revision status c value r := by
  cases step with
  | idle same => exact absurd (by rw [same]) changed
  | ticked r _ after => exact absurd (by rw [after]; rfl) changed
  | proposed p r step =>
    rw [step.call] at call
    cases call
  | rejected pid digest p q r step =>
    rw [step.call] at call
    cases call
  | approved pid digest p q r step =>
    rw [step.call] at call
    cases call
  | contained cid revision' status' c value r step =>
    have same := step.call.symm.trans call
    cases same
    exact ⟨c, value, r, step⟩

/-- The last read of a Trust call that began later: it finds the trust that the call
returns, and the receipts of an active one were asked for by the call. -/
theorem trust_read (schedule later : List (Action system)) {j : Nat} {L : Log ports} {s : TrustSnapshot}
    (new : (exec system schedule).threads.length ≤ j)
    (returned : (exec system (schedule ++ later)).threads[j]? = some ⟨.trust id, L, .ret s⟩) :
    ∃ (U C : Trace) (read : Entry system) (c : CommittedTrust),
      (exec system (schedule ++ later)).trace = U ++ read :: C ∧ (exec system schedule).trace <+: U ∧
      read.thread = j ∧ (∀ e ∈ C, e.thread ≠ j) ∧ read.before = last U ∧ Current read.before id (some c) ∧
      c.snapshot = s ∧ Committed id c ∧
      (s.trust.status = .active → ∀ want ∈ activationReferences s c.scope, ReceiptSeen L s.validUntil want) := by
  have sound := exec_acts (schedule ++ later)
  obtain ⟨T, ⟨D, trace, others⟩, looked⟩ := sound.ended (c := .trust id) (r := .ok s) returned
  have looked : Looked j id s T L := looked
  obtain ⟨A, B, C, fence, read, -, c, -, rfl, -, own, quiet, -, -, -, stored, same, -⟩ := looked.returned.last
  obtain ⟨first, member, value, firstOwn, firstStored, snapshot, receipts⟩ := looked.first
  have valid := valid_steps sound.valid
  rw [trace] at valid
  have readAt : A ++ fence :: B ++ [read] <+: A ++ fence :: B ++ read :: C ++ D := ⟨C ++ D, by simp⟩
  obtain ⟨-, before, -⟩ := (valid.restrict readAt).snoc_inv
  obtain ⟨V, firstAt, -, firstBefore, -⟩ := valid.mem (List.mem_append_left D member)
  have record : value = c := by
    rw [firstBefore] at firstStored
    rw [before] at stored
    apply same_record valid ((List.prefix_append _ _).trans firstAt) ((List.prefix_append _ _).trans readAt)
      firstStored stored
    simp only [sameSnapshot, Bool.and_eq_true, beq_iff_eq] at same
    rw [snapshot]
    exact same.1.1.1
  obtain ⟨log, rep, -⟩ := valid_represents (valid.restrict ((List.prefix_append _ _).trans readAt))
  have committed : Committed id c := by
    rw [before] at stored
    exact (rep.holds id).committed c (List.mem_of_getLast? (rep.current_some stored))
  have split : (exec system (schedule ++ later)).trace = (A ++ fence :: B) ++ read :: (C ++ D) := by
    rw [trace]
    simp
  refine ⟨A ++ fence :: B, C ++ D, read, c, split, ?_, own, ?_, before, stored, ?_, committed, ?_⟩
  · exact (exec_acts schedule).precedes split (by rw [own]; exact new)
  · intro e he
    rcases List.mem_append.mp he with he | he
    · exact quiet e he
    · exact others e he
  · rw [← record]
    exact snapshot
  · intro active want wanted
    rw [← record] at wanted
    exact receipts active want wanted

end Federation.TrustLedger
