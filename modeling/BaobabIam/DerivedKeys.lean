import BaobabIam.Federation.BrokerEvidence
import BaobabIam.Federation.NativeTargets
import BaobabIam.Migration.Service

/-! Keys that are derived from a tuple of texts: the tuple is written as JSON, digested
and put behind a constant. JSON frames its parts, so that the texts of different tuples
differ, whatever characters the parts are made of. -/
namespace DerivedKeys

open Wire Federation

structure WireExpectation where
  id : Text
  kind : Text
  trustID : Text
  snapshotID : Text
  trustRevision : UInt64
  providerID : Text
  engineInstanceID : Text
  scope : Scope
  eventID : Text
  issuer : Text
  subject : Text
  level : Text
  evidenceDigest : Text
  principalID : Text
  externalIdentityID : Text

def WireExpectation.fields : List (RecordField WireExpectation) :=
  [.of "ID" WireExpectation.id (fun v w => { w with id := v }),
   .of "Kind" WireExpectation.kind (fun v w => { w with kind := v }),
   .of "TrustID" WireExpectation.trustID (fun v w => { w with trustID := v }),
   .of "SnapshotID" WireExpectation.snapshotID (fun v w => { w with snapshotID := v }),
   .of "TrustRevision" WireExpectation.trustRevision (fun v w => { w with trustRevision := v }),
   .of "ProviderID" WireExpectation.providerID (fun v w => { w with providerID := v }),
   .of "EngineInstanceID" WireExpectation.engineInstanceID (fun v w => { w with engineInstanceID := v }),
   .of "Scope" WireExpectation.scope (fun v w => { w with scope := v }),
   .of "EventID" WireExpectation.eventID (fun v w => { w with eventID := v }),
   .of "Issuer" WireExpectation.issuer (fun v w => { w with issuer := v }),
   .of "Subject" WireExpectation.subject (fun v w => { w with subject := v }),
   .of "Level" WireExpectation.level (fun v w => { w with level := v }),
   .of "EvidenceDigest" WireExpectation.evidenceDigest (fun v w => { w with evidenceDigest := v }),
   .of "PrincipalID" WireExpectation.principalID (fun v w => { w with principalID := v }),
   .of "ExternalIdentityID" WireExpectation.externalIdentityID (fun v w => { w with externalIdentityID := v })]

instance : Codec WireExpectation :=
  recordCodec WireExpectation.fields ⟨[], [], [], [], 0, [], [], ⟨[], []⟩, [], [], [], [], [], [], []⟩
    (by decide +kernel) (by intro w; cases w; rfl)

def wire (w : ReferenceExpectation) : WireExpectation :=
  ⟨w.id, w.kind.name, w.trustID, w.snapshotID, w.trustRevision, w.providerID, w.engineInstanceID, w.scope, w.eventID,
    w.issuer, w.subject, w.level, w.evidenceDigest, w.principalID, w.externalIdentityID⟩

theorem marshal_wire (w : ReferenceExpectation) : marshal (wire w) = marshal w := rfl

def receiptKey (w : WireExpectation) : Text := "current:".toList ++ Sha256.hex (marshal w)

def nativeTargetBindingKey (w : WireExpectation) : Text := "binding:".toList ++ Sha256.hex (marshal w)

theorem receiptKey_wire (w : ReferenceExpectation) : Federation.receiptKey w = receiptKey (wire w) := rfl

theorem nativeTargetBindingKey_wire (w : ReferenceExpectation) :
    Federation.nativeTargetBindingKey w = nativeTargetBindingKey (wire w) := by
  unfold Federation.nativeTargetBindingKey nativeTargetBindingKey
  rw [marshal_wire]

section Injective

variable {start : Text}

theorem key_injective {α : Type} [Codec α] {a b : α} (written : (Codec.encode a).isSome = true)
    (apart : Sha256.Apart (marshal a) (marshal b))
    (same : start ++ Sha256.hex (marshal a) = start ++ Sha256.hex (marshal b)) : a = b :=
  marshal_injective written (apart.eq (List.append_cancel_left same))

end Injective

def batchTuple (batchID : Text) (source : Migration.ProviderBinding) : List Text :=
  [batchID, source.provider, source.issuer, source.subject]

def samlTuple (issuer entityID value : Text) : List Text :=
  ["urn:oasis:names:tc:SAML:2.0:nameid-format:persistent".toList, issuer, entityID, value]

theorem batchMigrationID_tuple (batchID : Text) (source : Migration.ProviderBinding) :
    Migration.batchMigrationID batchID source = "migration-v1-".toList ++
      Sha256.hex (marshal (batchTuple batchID source)) := by
  unfold Migration.batchMigrationID
  rfl

/-- Equal keys come from equal arguments, or from a collision of SHA-256. -/
theorem derived_keys_injective :
    (∀ batchID batchID' source source', Sha256.Apart (marshal (batchTuple batchID source))
      (marshal (batchTuple batchID' source')) →
      Migration.batchMigrationID batchID source = Migration.batchMigrationID batchID' source' →
      batchID = batchID' ∧ source.provider = source'.provider ∧ source.issuer = source'.issuer ∧
        source.subject = source'.subject) ∧
    (∀ issuer entityID value issuer' entityID' value',
      Sha256.Apart (marshal (samlTuple issuer entityID value)) (marshal (samlTuple issuer' entityID' value')) →
      qualifiedSAMLSubject issuer entityID value = qualifiedSAMLSubject issuer' entityID' value' →
      issuer = issuer' ∧ entityID = entityID' ∧ value = value') ∧
    (∀ w w' : WireExpectation, Sha256.Apart (marshal w) (marshal w') → receiptKey w = receiptKey w' → w = w') ∧
    (∀ w w' : WireExpectation, Sha256.Apart (marshal w) (marshal w') →
      nativeTargetBindingKey w = nativeTargetBindingKey w' → w = w') ∧
    (∀ w, Federation.receiptKey w = receiptKey (wire w)) ∧
    ∀ w, Federation.nativeTargetBindingKey w = nativeTargetBindingKey (wire w) := by
  refine ⟨?_, ?_, ?_, ?_, receiptKey_wire, nativeTargetBindingKey_wire⟩
  · intro batchID batchID' source source' apart same
    rw [batchMigrationID_tuple, batchMigrationID_tuple] at same
    have tuples := key_injective (encodes_texts _) apart same
    simpa only [batchTuple, List.cons.injEq, and_true] using tuples
  · intro issuer entityID value issuer' entityID' value' apart same
    have tuples := key_injective (encodes_texts _) apart same
    simpa only [samlTuple, List.cons.injEq, and_true, true_and] using tuples
  · intro w w' apart same
    exact key_injective rfl apart same
  · intro w w' apart same
    exact key_injective rfl apart same

end DerivedKeys
