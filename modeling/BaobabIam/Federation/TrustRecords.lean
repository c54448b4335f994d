import BaobabIam.Federation.ApprovalRecords
import BaobabIam.Federation.TrustSteps

/-! Which records the trust ledger can read back. The checks of Propose bound
every string of a committed record, so its text stays far below the limit of the
decoder, whatever characters the issuer holds; a containment keeps the bounds. -/
namespace Federation.TrustLedger

open Wire Interleaving

@[simp] theorem encodes_proposal (p : TrustProposal) : (Codec.encode p).isSome =
    ((Codec.encode p.snapshot).isSome && (decide p.proposedAt.Representable &&
      decide p.decidedAt.Representable)) := by
  have h : (Codec.encode p).isSome = TrustProposal.fields.all _ := record_encodes TrustProposal.fields p
  rw [h]
  simp [TrustProposal.fields, RecordField.of]

@[simp] theorem encodes_committed (c : CommittedTrust) : (Codec.encode c).isSome =
    ((Codec.encode c.snapshot).isSome && (decide c.decidedAt.Representable &&
      c.containedAt.all (fun t => decide t.Representable))) := by
  have h : (Codec.encode c).isSome = CommittedTrust.fields.all _ :=
    record_encodes CommittedTrust.fields c
  rw [h]
  simp [CommittedTrust.fields, RecordField.of, RecordField.omitEmpty]

structure Committed (id : Text) (c : CommittedTrust) : Prop where
  readable : readable id c = true
  organisation : c.snapshot.trust.organisationIDs = [c.scope.organisationID]
  estate : c.snapshot.trust.estateIDs = [c.scope.estateID]
  proposal : uuidPattern c.proposalID = true
  containment : c.containmentActor.size ≤ 36
  encodes : (Codec.encode c).isSome = true

section Sizes

theorem size_status_le {t : Trust} (h : validLifecycle t = true) : jsonSize t.status ≤ 13 := by
  cases status : t.status with
  | other => simp [validLifecycle, status] at h
  | _ => decide

theorem size_protocol_le {p : Protocol} {issuer : Text} (h : validIssuer p issuer = true) : jsonSize p ≤ 7 := by
  cases p with
  | other =>
    unfold validIssuer at h
    split at h <;> simp at h
  | _ => decide

theorem size_binding_le {b : Binding} (h : validBinding b = true) : jsonSize b ≤ 1700 := by
  obtain ⟨provider, engine, configuration, material⟩ := validBinding_size h
  have bound : jsonSize b ≤ 2 + namesSize Binding.fields + List.sum _ :=
    record_size_le Binding.fields b _
      (.cons (size_text_le _ provider) (.cons (size_text_le _ engine)
        (.cons (size_text_le _ configuration) (.cons (size_text_le _ material) .nil))))
  exact bound.trans (by decide)

theorem size_trust_le {t : Trust} {scope : Scope} (valid : validateTrust t = true)
    (hscope : validScope scope = true) (organisation : t.organisationIDs = [scope.organisationID])
    (estate : t.estateIDs = [scope.estateID]) : jsonSize t ≤ 19000 := by
  simp only [validateTrust, Bool.and_eq_true] at valid
  obtain ⟨⟨⟨⟨⟨⟨⟨⟨⟨id, binding⟩, -⟩, -⟩, -⟩, policy⟩, mapping⟩, provisioning⟩,
    issuer⟩, lifecycle⟩ := valid
  have evidence : t.activationEvidenceReference.size ≤ 63 := by
    simp only [validLifecycle, Bool.and_eq_true, Bool.or_eq_true] at lifecycle
    rcases lifecycle.1.2 with empty | ref
    · rw [List.isEmpty_iff.mp empty]
      decide
    · exact validRef_size ref
  obtain ⟨organisationSize, estateSize⟩ := validScope_size hscope
  have organisations : jsonSize t.organisationIDs ≤ 2 + (6 * 128 + 2) := by
    rw [organisation]
    exact (size_singleton _).trans (Nat.add_le_add_left (size_text_le _ organisationSize) 2)
  have estates : jsonSize t.estateIDs ≤ 2 + (6 * 63 + 2) := by
    rw [estate]
    exact (size_singleton _).trans (Nat.add_le_add_left (size_text_le _ estateSize) 2)
  have activated := size_option_le t.activatedAt (fun a _ => size_time_le a)
  have revoked := size_option_le t.revokedAt (fun a _ => size_time_le a)
  have bound : jsonSize t ≤ 2 + namesSize Trust.fields + List.sum _ :=
    record_size_le Trust.fields t _
      (.cons (size_text_le _ (le_of_eq (uuid_size id))) (.cons (size_protocol_le issuer)
        (.cons (size_text_le _ (validIssuer_size issuer)) (.cons organisations (.cons estates
        (.cons (size_binding_le binding) (.cons (size_status_le lifecycle)
        (.cons (size_text_le _ (validRef_size policy)) (.cons (size_text_le _ (validRef_size mapping))
        (.cons (size_text_le _ (validRef_size provisioning)) (.cons (size_number_le _)
        (.cons (size_time_le _) (.cons (size_time_le _) (.cons (size_text_le _ evidence)
        (.cons activated (.cons revoked .nil))))))))))))))))
  exact bound.trans (by decide)

theorem size_snapshot_le {s : TrustSnapshot} {scope : Scope} (valid : validateTrust s.trust = true)
    (hscope : validScope scope = true) (organisation : s.trust.organisationIDs = [scope.organisationID])
    (estate : s.trust.estateIDs = [scope.estateID]) (id : exact s.snapshotID = true) :
    jsonSize s ≤ 22500 := by
  have bound : jsonSize s ≤ 2 + namesSize TrustSnapshot.fields + List.sum _ :=
    record_size_le TrustSnapshot.fields s _
      (.cons (size_trust_le valid hscope organisation estate) (.cons (size_number_le _)
        (.cons (size_text_le _ (exact_size id)) (.cons (size_time_le _) .nil))))
  exact bound.trans (by decide)

theorem Committed.storable {id : Text} {c : CommittedTrust} (h : Committed id c) : Storable c := by
  refine ⟨h.encodes, ?_⟩
  have ok := h.readable
  simp only [TrustLedger.readable, Bool.and_eq_true] at ok
  obtain ⟨⟨⟨⟨⟨⟨⟨-, -⟩, snapshot⟩, valid⟩, scope⟩, maker⟩, checker⟩, -⟩ := ok
  have contained := size_option_le c.containedAt (fun a _ => size_time_le a)
  have bound : jsonSize c ≤ 2 + namesSize CommittedTrust.fields + List.sum _ :=
    record_size_le CommittedTrust.fields c _
      (.cons (size_snapshot_le valid scope h.organisation h.estate snapshot) (.cons (size_scope_le scope)
        (.cons (size_text_le _ (le_of_eq (uuid_size h.proposal)))
        (.cons (size_text_le _ (le_of_eq (uuid_size maker)))
        (.cons (size_text_le _ (le_of_eq (uuid_size checker)))
        (.cons (size_time_le _) (.cons (size_text_le _ h.containment) (.cons contained .nil))))))))
  exact bound.trans (by decide)

end Sizes

theorem approved_committed {p q : TrustProposal} (known : Proposed p) (stored : Storable p)
    (decided : q = decidedProposal p q.checker q.decidedAt true)
    (checker : uuidPattern q.checker = true ∧ q.checker ≠ p.maker) (time : q.decidedAt.Representable) :
    Committed p.snapshot.trust.id (approvedTrust q) := by
  have args := known.args
  simp only [proposable, Bool.and_eq_true, beq_iff_eq] at args
  obtain ⟨⟨⟨⟨⟨⟨⟨⟨⟨⟨⟨⟨id, valid⟩, expectation⟩, -⟩, -⟩, -⟩, -⟩, -⟩, -⟩,
    snapshot⟩, revision⟩, organisation⟩, estate⟩ :=
    args
  have encodes := stored.1
  simp only [encodes_proposal, Bool.and_eq_true] at encodes
  rw [decided]
  refine ⟨?_, organisation, estate, id, Nat.zero_le _, ?_⟩
  · simp only [readable, approvedTrust, decidedProposal, Bool.and_eq_true, beq_iff_eq, bne_iff_ne]
    exact ⟨⟨⟨⟨⟨⟨⟨trivial, revision⟩, snapshot⟩, valid⟩,
      validExpectation_scope expectation⟩, known.maker⟩,
      checker.1⟩, checker.2.symm⟩
  · simp [approvedTrust, decidedProposal, encodes.1, time]

theorem contained_committed {id : Text} {c : CommittedTrust} {status : TrustStatus} {t : Time}
    {drawn : BitVec 128} {principal : Text} (h : Committed id c)
    (valid : validateTrust (containedTrust c status t (uuidText drawn) principal).snapshot.trust = true)
    (time : t.Representable) (uuid : uuidPattern principal = true) :
    Committed id (containedTrust c status t (uuidText drawn) principal) := by
  have ok := h.readable
  simp only [readable, Bool.and_eq_true, beq_iff_eq, bne_iff_ne] at ok
  obtain ⟨⟨⟨⟨⟨⟨⟨same, -⟩, -⟩, -⟩, scope⟩, maker⟩, checker⟩, distinct⟩ := ok
  have encodes := h.encodes
  refine ⟨?_, h.organisation, h.estate, h.proposal, le_of_eq (uuid_size uuid), ?_⟩
  · simp only [readable, Bool.and_eq_true, beq_iff_eq, bne_iff_ne]
    exact ⟨⟨⟨⟨⟨⟨⟨same, rfl⟩, uuid_exact (uuidText_pattern drawn)⟩, valid⟩, scope⟩, maker⟩,
      checker⟩, distinct⟩
  · simp only [encodes_committed, encodes_snapshot, encodes_trust, Bool.and_eq_true] at encodes ⊢
    obtain ⟨⟨⟨created, -, activated, revoked⟩, until_⟩, decided, -⟩ := encodes
    refine ⟨⟨⟨created, decide_eq_true time, activated, ?_⟩, until_⟩, decided, decide_eq_true time⟩
    by_cases gone : status = .revoked
    · simp [containedTrust, gone, time]
    · simpa [containedTrust, gone] using revoked

end Federation.TrustLedger
