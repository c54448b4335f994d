import BaobabIam.Federation.ApprovalSteps

/-! Which proposals of the approval ledger can be read back: the checks of Propose
bound every string of an expectation, whatever characters it holds. -/
namespace Federation

open Wire

@[simp] theorem encodes_proposalStatus (s : ProposalStatus) : (Codec.encode s).isSome = true := rfl

@[simp] theorem encodes_receipt (r : ApprovedReference) : (Codec.encode r).isSome =
    (decide r.validFrom.Representable && decide r.expiresAt.Representable) := by
  have h : (Codec.encode r).isSome = ApprovedReference.fields.all _ :=
    record_encodes ApprovedReference.fields r
  rw [h]
  simp [ApprovedReference.fields, RecordField.of]

@[simp] theorem encodes_approval (p : ApprovalProposal) : (Codec.encode p).isSome =
    ((Codec.encode p.receipt).isSome && (decide p.proposedAt.Representable &&
      (decide p.decidedAt.Representable && p.revokedAt.all (fun t => decide t.Representable)))) := by
  have h : (Codec.encode p).isSome = ApprovalProposal.fields.all _ :=
    record_encodes ApprovalProposal.fields p
  rw [h]
  simp [ApprovalProposal.fields, RecordField.of, RecordField.omitEmpty]

section Sizes

theorem size_proposalStatus_le (s : ProposalStatus) : jsonSize s ≤ 10 := by
  cases s <;> decide

theorem size_kind_le (k : ReferenceKind) : jsonSize k ≤ 28 := by
  cases k <;> decide

theorem size_scope_le {s : Scope} (h : validScope s = true) : jsonSize s ≤ 1200 := by
  obtain ⟨organisation, estate⟩ := validScope_size h
  have bound : jsonSize s ≤ 2 + namesSize Scope.fields + List.sum _ :=
    record_size_le Scope.fields s _
      (.cons (size_text_le _ organisation) (.cons (size_text_le _ estate) .nil))
  exact bound.trans (by decide)

variable {w : ReferenceExpectation} {t : Text}

theorem validExpectation_scope (h : validExpectation w = true) :
    validScope w.scope = true := by
  simp only [validExpectation, Bool.and_eq_true] at h
  exact h.1.1.1.2

theorem isLowerHex_size {c : Char} (h : isLowerHex c = true) : c.utf8Size = 1 := by
  apply isHex_size
  simp only [isLowerHex, isHex, Bool.or_eq_true] at h ⊢
  exact .inl h

theorem digest_size (h : digestPattern t = true) : t.size ≤ 71 := by
  simp only [digestPattern, Bool.and_eq_true, List.isPrefixOf_iff_prefix] at h
  obtain ⟨⟨rest, rfl⟩, digits⟩ := h
  have name : Text.size "sha256:".toList = 7 := by decide
  have dropped : ("sha256:".toList ++ rest).drop 7 = rest := List.drop_left' (by decide)
  rw [dropped] at digits
  have ascii : ∀ p ∈ List.replicate 64 isLowerHex, ∀ c, p c = true → c.utf8Size = 1 := by
    intro p hp c hc
    rw [(List.mem_replicate.mp hp).2] at hc
    exact isLowerHex_size hc
  rw [Text.size_append, name, matchClasses_size ascii digits]
  simp

theorem size_le_of_isEmpty {n : Nat} (h : t.isEmpty = true) : t.size ≤ n := by
  rw [List.isEmpty_iff.mp h]
  exact Nat.zero_le n

theorem level_size
    (h : ["BAOBAB-A1".toList, "BAOBAB-A2".toList, "BAOBAB-A3".toList].contains t = true) : t.size ≤ 9 := by
  simp only [List.contains_cons, List.contains_nil, Bool.or_false, Bool.or_eq_true, beq_iff_eq] at h
  rcases h with rfl | rfl | rfl <;> decide

theorem validExpectation_size (h : validExpectation w = true) :
    w.eventID.size ≤ 36 ∧ w.issuer.size ≤ 2048 ∧ w.subject.size ≤ 512 ∧ w.level.size ≤ 9 ∧
    w.evidenceDigest.size ≤ 71 ∧ w.principalID.size ≤ 36 ∧ w.externalIdentityID.size ≤ 36 := by
  simp only [validExpectation, Bool.and_eq_true] at h
  have kinds := h.2
  split at kinds
  · simp only [Bool.and_eq_true, decide_eq_true_eq] at kinds
    obtain ⟨⟨⟨⟨⟨⟨⟨-, issuer⟩, event⟩, subject⟩, level⟩, evidence⟩, principal⟩,
      identity⟩ := kinds
    exact ⟨le_of_eq (uuid_size event), issuer, exact_size subject, level_size level, digest_size evidence,
      size_le_of_isEmpty principal, size_le_of_isEmpty identity⟩
  · simp only [Bool.and_eq_true, decide_eq_true_eq] at kinds
    obtain ⟨⟨⟨⟨⟨⟨⟨-, issuer⟩, subject⟩, principal⟩, identity⟩, event⟩, level⟩,
      evidence⟩ := kinds
    exact ⟨size_le_of_isEmpty event, issuer, exact_size subject, size_le_of_isEmpty level,
      size_le_of_isEmpty evidence, le_of_eq (uuid_size principal), le_of_eq (uuid_size identity)⟩
  · simp only [Bool.and_eq_true] at kinds
    obtain ⟨⟨⟨⟨⟨⟨event, issuer⟩, subject⟩, level⟩, evidence⟩, principal⟩, identity⟩ := kinds
    exact ⟨size_le_of_isEmpty event, size_le_of_isEmpty issuer, size_le_of_isEmpty subject,
      size_le_of_isEmpty level, size_le_of_isEmpty evidence, size_le_of_isEmpty principal,
      size_le_of_isEmpty identity⟩

theorem size_expectation_le (valid : validExpectation w = true) :
    jsonSize w ≤ 22000 := by
  have scope := size_scope_le (validExpectation_scope valid)
  obtain ⟨event, issuer, subject, level, evidence, principal, identity⟩ := validExpectation_size valid
  simp only [validExpectation, Bool.and_eq_true, decide_eq_true_eq] at valid
  obtain ⟨⟨⟨⟨⟨⟨⟨id, trust⟩, ⟨-, snapshot⟩, -⟩, -⟩, -⟩, ⟨-, provider⟩, -⟩,
    ⟨-, engine⟩, -⟩, -⟩ := valid
  have bound : jsonSize w ≤ 2 + namesSize ReferenceExpectation.fields + List.sum _ :=
    record_size_le ReferenceExpectation.fields w _
      (.cons (size_text_le _ (validRef_size id)) (.cons (size_kind_le _)
        (.cons (size_text_le _ (le_of_eq (uuid_size trust))) (.cons (size_text_le _ snapshot)
        (.cons (size_number_le _) (.cons (size_text_le _ provider) (.cons (size_text_le _ engine)
        (.cons scope (.cons (size_text_le _ event) (.cons (size_text_le _ issuer)
        (.cons (size_text_le _ subject) (.cons (size_text_le _ level) (.cons (size_text_le _ evidence)
        (.cons (size_text_le _ principal) (.cons (size_text_le _ identity) .nil)))))))))))))))
  exact bound.trans (by decide)

namespace ApprovalLedger

/-- A proposal that the ledger keeps: as proposed, and decided and revoked by UUIDs. -/
structure Genuine (p : ApprovalProposal) : Prop where
  known : Known p
  checker : p.checker.size ≤ 36
  revoker : p.revoker.size ≤ 36

theorem Genuine.storable {p : ApprovalProposal} (h : Genuine p) (encodes : (Codec.encode p).isSome = true) :
    Storable p := by
  refine ⟨encodes, ?_⟩
  have args := h.known.args
  simp only [proposable, Bool.and_eq_true, beq_iff_eq] at args
  obtain ⟨⟨⟨id, expectation⟩, status⟩, -⟩ := args
  have approved : jsonSize p.receipt.status ≤ 6 * 8 + 2 := by
    rw [status]
    exact size_text_le _ (by decide)
  have bool : ∀ b : Bool, jsonSize b ≤ 5 := by decide
  have receipt : jsonSize p.receipt ≤ 2 + namesSize ApprovedReference.fields + List.sum _ :=
    record_size_le ApprovedReference.fields p.receipt _
      (.cons (size_expectation_le expectation) (.cons approved (.cons (bool _) (.cons (size_time_le _)
        (.cons (size_time_le _) .nil)))))
  have revoked := size_option_le p.revokedAt (fun a _ => size_time_le a)
  have bound : jsonSize p ≤ 2 + namesSize ApprovalProposal.fields + List.sum _ :=
    record_size_le ApprovalProposal.fields p _
      (.cons (size_text_le _ (le_of_eq (uuid_size id))) (.cons receipt
        (.cons (size_text_le _ (digest_size h.known.digest))
        (.cons (size_text_le _ (le_of_eq (uuid_size h.known.maker))) (.cons (size_text_le _ h.checker)
        (.cons (size_proposalStatus_le _) (.cons (size_time_le _) (.cons (size_time_le _)
        (.cons (size_text_le _ h.revoker) (.cons revoked .nil))))))))))
  exact bound.trans (by decide)

end ApprovalLedger

end Sizes

end Federation
