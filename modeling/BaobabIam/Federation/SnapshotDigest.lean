import BaobabIam.Federation.AssuranceMapping

/-! Two ways to compare snapshots: by their digests, as the native protocol does, and
field by field. A snapshot that is the same has the same digest. The converse rests on
the text that is digested, and that text is empty when one of the times, moved to UTC,
leaves the four digits of a year. -/
namespace Federation

open Wire

def WritableUTC (s : TrustSnapshot) : Prop :=
  s.trust.createdAt.utc.Representable ∧ s.trust.updatedAt.utc.Representable ∧
  (∀ t ∈ s.trust.activatedAt, t.utc.Representable) ∧ (∀ t ∈ s.trust.revokedAt, t.utc.Representable) ∧
  s.validUntil.utc.Representable

/-- Every time of the snapshot has a four digit year in its own zone. -/
def WritableAsIs (s : TrustSnapshot) : Prop :=
  s.trust.createdAt.Representable ∧ s.trust.updatedAt.Representable ∧
  (∀ t ∈ s.trust.activatedAt, t.Representable) ∧ (∀ t ∈ s.trust.revokedAt, t.Representable) ∧
  s.validUntil.Representable

section Digest

variable {a b s : TrustSnapshot}

theorem encodes_canonicalSnapshot : (Codec.encode (canonicalSnapshot s)).isSome = true ↔ WritableUTC s := by
  simp only [encodes_snapshot, encodes_trust, canonicalSnapshot, canonicalTrust, WritableUTC, Bool.and_eq_true,
    decide_eq_true_eq, Option.all_map, Option.all_eq_true, Option.mem_def, and_assoc]

theorem digest_eq_iff (apart : Sha256.Apart (marshal (canonicalSnapshot a)) (marshal (canonicalSnapshot b))) :
    trustSnapshotDigest a = trustSnapshotDigest b ↔
      marshal (canonicalSnapshot a) = marshal (canonicalSnapshot b) := by
  constructor
  · intro same
    exact apart.eq (List.append_cancel_left same)
  · intro same
    exact congrArg (fun text => "sha256:".toList ++ Sha256.hex text) same

theorem sameTrust_iff {t u : Trust} : sameTrust t u = true ↔
    (Codec.encode (canonicalTrust t)).isSome = true ∧ canonicalTrust t = canonicalTrust u := by
  unfold sameTrust
  cases left : Codec.encode (canonicalTrust t) with
  | none => simp
  | some j =>
    cases right : Codec.encode (canonicalTrust u) with
    | none =>
      simp only [Bool.false_eq_true, Option.isSome_some, true_and, false_iff]
      intro same
      rw [same, right] at left
      cases left
    | some k =>
      simp only [beq_iff_eq, Option.isSome_some, true_and]
      constructor
      · intro same
        apply marshal_injective (by rw [left]; rfl)
        rw [marshal_encode left, marshal_encode right, same]
      · intro same
        rw [same, right] at left
        rw [Option.some.inj left]

theorem sameSnapshot_iff : sameSnapshot a b = true ↔
    (Codec.encode (canonicalTrust a.trust)).isSome = true ∧ canonicalSnapshot a = canonicalSnapshot b := by
  simp only [sameSnapshot, Bool.and_eq_true, beq_iff_eq, Time.equal_iff, sameTrust_iff]
  simp only [canonicalSnapshot, TrustSnapshot.mk.injEq, Time.utc, Time.mk.injEq, and_true]
  constructor
  · rintro ⟨⟨⟨revision, id⟩, until_⟩, written, trust⟩
    exact ⟨written, trust, revision, id, until_⟩
  · rintro ⟨written, trust, revision, id, until_⟩
    exact ⟨⟨⟨revision, id⟩, until_⟩, written, trust⟩

theorem digest_of_same (same : sameSnapshot a b = true) : trustSnapshotDigest a = trustSnapshotDigest b :=
  congrArg (fun s => "sha256:".toList ++ Sha256.hex (marshal s)) (sameSnapshot_iff.mp same).2

theorem same_of_digest (apart : Sha256.Apart (marshal (canonicalSnapshot a)) (marshal (canonicalSnapshot b)))
    (written : WritableUTC a ∨ WritableUTC b) (same : trustSnapshotDigest a = trustSnapshotDigest b) :
    sameSnapshot a b = true := by
  have texts := (digest_eq_iff apart).mp same
  have equal : canonicalSnapshot a = canonicalSnapshot b := by
    rcases written with first | second
    · exact marshal_injective (encodes_canonicalSnapshot.mpr first) texts
    · exact (marshal_injective (encodes_canonicalSnapshot.mpr second) texts.symm).symm
  have encodes : (Codec.encode (canonicalSnapshot a)).isSome = true := by
    rcases written with first | second
    · exact encodes_canonicalSnapshot.mpr first
    · rw [equal]
      exact encodes_canonicalSnapshot.mpr second
  rw [encodes_snapshot, Bool.and_eq_true] at encodes
  exact sameSnapshot_iff.mpr ⟨encodes.1, equal⟩

theorem digest_unwritable (first : ¬ WritableUTC a) (second : ¬ WritableUTC b) :
    trustSnapshotDigest a = trustSnapshotDigest b := by
  have empty : ∀ s, ¬ WritableUTC s → marshal (canonicalSnapshot s) = [] := by
    intro s unwritable
    apply marshal_none
    rw [Bool.eq_false_iff]
    exact fun encodes => unwritable (encodes_canonicalSnapshot.mp encodes)
  change "sha256:".toList ++ Sha256.hex (marshal (canonicalSnapshot a)) = _
  rw [empty a first, ← empty b second]
  rfl

end Digest

/-- Digests compare snapshots as the fields do exactly when one of the two can be
written in UTC, or they are the same; so does the native protocol. -/
theorem digest_binds_iff (a b : TrustSnapshot)
    (apart : Sha256.Apart (marshal (canonicalSnapshot a)) (marshal (canonicalSnapshot b))) :
    ((trustSnapshotDigest a = trustSnapshotDigest b ↔ sameSnapshot a b = true) ↔
      WritableUTC a ∨ WritableUTC b ∨ sameSnapshot a b = true) ∧
    (WritableUTC a ∨ WritableUTC b → (NativeProtocol.currentTrust a b = true ↔
      sameSnapshot a b = true ∧ validateTrust b.trust = true ∧ b.trust.status = .active ∧
        b.trust.revision = b.approvedRevision)) := by
  constructor
  · constructor
    · intro agree
      by_cases first : WritableUTC a
      · exact .inl first
      · by_cases second : WritableUTC b
        · exact .inr (.inl second)
        · exact .inr (.inr (agree.mp (digest_unwritable first second)))
    · rintro (first | second | same)
      · exact ⟨same_of_digest apart (.inl first), digest_of_same⟩
      · exact ⟨same_of_digest apart (.inr second), digest_of_same⟩
      · exact ⟨fun _ => same, digest_of_same⟩
  · intro written
    have agree : trustSnapshotDigest a = trustSnapshotDigest b ↔ sameSnapshot a b = true :=
      ⟨same_of_digest apart written, digest_of_same⟩
    simp only [NativeProtocol.currentTrust, Bool.and_eq_true, beq_iff_eq, agree, and_assoc]

namespace Edge

open Consumer.Sample (snapshot trust)

/- The last second of the year 9999, one hour west of UTC. -/

def lastSecond : Time := ⟨315537901199 * Time.second, -60⟩

def approved : TrustSnapshot := { snapshot with validUntil := lastSecond }

def shifted : TrustSnapshot := { snapshot with validUntil := { snapshot.validUntil with zone := 60 } }

def wider : TrustSnapshot := { approved with trust := { trust with organisationIDs := ["o".toList, "p".toList] } }

end Edge

/-- Two valid snapshots of different scope have the same digest, and the native
protocol takes one for the other. -/
theorem wider_scope_undetected :
    validateTrust Edge.approved.trust = true ∧ validateTrust Edge.wider.trust = true ∧
    WritableAsIs Edge.approved ∧ WritableAsIs Edge.wider ∧
    trustSnapshotDigest Edge.approved = trustSnapshotDigest Edge.wider ∧
    sameSnapshot Edge.approved Edge.wider = false ∧
    NativeProtocol.currentTrust Edge.approved Edge.wider = true := by
  have late : ¬ Edge.lastSecond.utc.Representable := by decide
  have same : trustSnapshotDigest Edge.approved = trustSnapshotDigest Edge.wider :=
    digest_unwritable (fun h => late h.2.2.2.2) (fun h => late h.2.2.2.2)
  have writable : WritableAsIs Edge.approved := by
    refine ⟨by decide, by decide, ?_, ?_, by decide⟩
    · rintro t ⟨⟩
      decide
    · rintro t ⟨⟩
  refine ⟨by decide, by decide, writable, writable, same, by decide, ?_⟩
  simp only [NativeProtocol.currentTrust, same, beq_self_eq_true, Bool.true_and]
  decide

open Consumer.Sample (snapshot)

/-- The snapshot that is approved, with one time in another zone, and with one more
organisation. -/
theorem digest_binds_iff_sample :
    (trustSnapshotDigest snapshot = trustSnapshotDigest Edge.shifted ∧ snapshot ≠ Edge.shifted) ∧
    trustSnapshotDigest snapshot ≠ trustSnapshotDigest { snapshot with trust := Edge.wider.trust } := by
  have written : WritableUTC snapshot := encodes_canonicalSnapshot.mp (by decide)
  have apart : Sha256.Apart (marshal (canonicalSnapshot snapshot))
      (marshal (canonicalSnapshot { snapshot with trust := Edge.wider.trust })) :=
    fun same => absurd same (by decide +kernel)
  have shifted := (digest_binds_iff snapshot Edge.shifted (fun _ => rfl)).1.mpr (.inl written)
  have wider := (digest_binds_iff snapshot { snapshot with trust := Edge.wider.trust } apart).1.mpr (.inl written)
  refine ⟨⟨shifted.mpr (sameSnapshot_iff.mpr ⟨by decide, rfl⟩), by decide⟩, ?_⟩
  intro same
  exact absurd (sameSnapshot_iff.mp (wider.mp same)).2 (by decide)

end Federation
