import BaobabIam.Base.Once
import BaobabIam.Federation.TrustProvenance

/-! Proposals and scopes of the trust ledger over whole runs. A proposal is decided once,
by somebody else than its maker, and stays as it was decided. The scope of a trust is not
compared when a revision follows another one; it is fixed by the lists that are. -/
namespace Federation.TrustLedger

open Wire Interleaving

variable {T : Trace} {e : Entry system} {id : Text}

def Decided (raw : Text) : Prop :=
  ∃ q : TrustProposal, raw = marshal q ∧ q.status ≠ .pending ∧ q.checker ≠ q.maker

def Settled (id : Text) (s : TrustStore) : Prop := ∃ raw, s.proposals.get id = some raw ∧ Decided raw

def Untouched (id : Text) (e : Entry system) : Prop := e.after.proposals.get id = e.before.proposals.get id

def Decides (id : Text) (e : Entry system) : Prop := ∃ digest approve, e.call = .decide id digest approve

theorem DecideStep.settles {digest : Text} {approve : Bool} {p q : TrustProposal} {r : Time}
    (step : DecideStep T e id digest approve p q r) : Decided (marshal q) ∧ ¬ Settled id e.before := by
  constructor
  · have maker : q.maker = p.maker := by rw [step.decided]; rfl
    refine ⟨q, rfl, ?_, maker ▸ step.checker.2⟩
    rw [step.decided]
    cases approve <;> simp [decidedProposal]
  · rintro ⟨_, found, q', rfl, settled, -⟩
    obtain ⟨pending, decoded, status⟩ := step.live
    rw [found] at decoded
    rw [(decodeAuthority_inv decoded).1] at status
    exact settled status

/-- A transaction leaves a proposal alone, or the proposal was not decided before; it is
when a Decide wrote it. -/
theorem Step.proposal (h : Step T e) (id : Text) :
    Untouched id e ∨ ¬ Settled id e.before ∧ (Decides id e → Settled id e.after) := by
  have put : ∀ {id' raw}, e.after.proposals = e.before.proposals.put id' raw → ¬ Settled id' e.before →
      (Decides id' e → Decided raw) →
      Untouched id e ∨ ¬ Settled id e.before ∧ (Decides id e → Settled id e.after) := by
    intro id' raw after unsettled decided
    by_cases same : id = id'
    · subst same
      exact .inr ⟨unsettled, fun call => ⟨raw, by rw [after]; simp, decided call⟩⟩
    · exact .inl (by rw [Untouched, after, Bucket.get_put_ne _ _ same])
  cases h with
  | idle same => exact .inl (by rw [Untouched, same])
  | ticked r _ after => exact .inl (by rw [Untouched, after]; rfl)
  | proposed p r step =>
    refine put (by rw [step.after]) ?_ ?_
    · rintro ⟨raw, found, -⟩
      rw [step.free] at found
      cases found
    · rintro ⟨digest, approve, call⟩
      cases step.call.symm.trans call
  | rejected id' digest p q r step after =>
    exact put (by rw [after]) step.settles.2 fun _ => step.settles.1
  | approved id' digest p q r step commit =>
    exact put (by rw [commit.after]) step.settles.2 fun _ => step.settles.1
  | contained id' revision status c value r step => exact .inl (by rw [Untouched, step.after]; rfl)

/-- In every run a proposal is decided at most once, not by its maker, and what was decided
stays for ever. -/
theorem proposals_decided_once (schedule later : List (Action system)) (id : Text) :
    AtMostOnce (fun e => Decides id e ∧ ¬ Untouched id e) (exec system schedule).trace ∧
    (∀ e ∈ (exec system schedule).trace, Decides id e → ¬ Untouched id e → Settled id e.after) ∧
    (Settled id (exec system schedule).store →
      (exec system (schedule ++ later)).store.proposals.get id = (exec system schedule).store.proposals.get id) := by
  have decides : ∀ {T e}, Step T e → Decides id e ∧ ¬ Untouched id e → ¬ Settled id e.before ∧
      Settled id e.after := by
    rintro T e step ⟨call, changed⟩
    obtain ⟨unsettled, settled⟩ := (step.proposal id).resolve_left changed
    exact ⟨unsettled, settled call⟩
  have frozen : ∀ {T e}, Step T e → Settled id e.before → Untouched id e :=
    fun step settled => (step.proposal id).resolve_right fun other => other.1 settled
  have sound := exec_sound code_steps schedule
  have sound' := exec_sound code_steps (schedule ++ later)
  refine ⟨once_marked sound.valid (fun _ _ => decides) ?_, ?_, ?_⟩
  · intro T e step settled
    rwa [Settled, frozen step settled]
  · intro e he call changed
    obtain ⟨U, -, -, -, step⟩ := sound.valid.mem he
    exact (decides step ⟨call, changed⟩).2
  · intro settled
    rw [sound.store] at settled ⊢
    rw [sound'.store]
    refine sound'.valid.evolves (R := fun s s' => Settled id s → s'.proposals.get id = s.proposals.get id)
      (fun _ _ => rfl) ?_ (fun T e _ _ step => frozen step) (exec_trace schedule later) settled
    intro s t u first second settled
    have same := first settled
    rw [← same]
    exact second (by rwa [Settled, same])

theorem Holds.scope {s : TrustStore} {records : List CommittedTrust} (h : Holds s id records) {c d : CommittedTrust}
    (hc : c ∈ records) (hd : d ∈ records) : c.scope = d.scope := by
  let lists (c : CommittedTrust) := (c.snapshot.trust.organisationIDs, c.snapshot.trust.estateIDs)
  have chain : (records.map lists).IsChain Eq := by
    rw [List.isChain_map]
    refine h.chain.imp fun a b follows => ?_
    simp only [trustTransition, Bool.and_eq_true, beq_iff_eq] at follows
    simp [lists, follows]
  have same : lists c = lists d := by
    by_contra differ
    exact differ (chain.pairwise.forall (List.mem_map_of_mem hc) (List.mem_map_of_mem hd) differ)
  simp only [lists, (h.committed c hc).organisation, (h.committed c hc).estate, (h.committed d hd).organisation,
    (h.committed d hd).estate, Prod.mk.injEq, List.cons.injEq, and_true] at same
  change Scope.mk c.scope.organisationID c.scope.estateID = d.scope
  rw [same.1, same.2]

/-- All revisions of a trust, in every run, are committed for one scope. -/
theorem scope_of_every_run (schedule : List (Action system)) (id : Text) :
    ∃ scope : Scope, ∀ k raw, (exec system schedule).store.history.get (historyKey id k) = some raw →
      ∃ c : CommittedTrust, raw = marshal c ∧ c.scope = scope := by
  obtain ⟨-, log, rep⟩ := exec_represents schedule
  have h := rep.holds id
  refine ⟨((log id).head?.map CommittedTrust.scope).getD ⟨[], []⟩, ?_⟩
  intro k raw found
  rw [h.stored] at found
  split at found
  · cases found
  · obtain ⟨c, member, rfl⟩ := Option.map_eq_some_iff.mp found
    have hc := List.mem_of_getElem? member
    obtain ⟨first, rest, shape⟩ := List.exists_cons_of_ne_nil (List.ne_nil_of_mem hc)
    refine ⟨c, rfl, ?_⟩
    rw [h.scope hc (show first ∈ log id by simp [shape]), shape]
    rfl

end Federation.TrustLedger
