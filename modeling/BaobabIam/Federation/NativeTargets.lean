import BaobabIam.Federation.ApprovalRecords
import BaobabIam.Federation.Snapshot

/-! The ledger of native targets: non-secret JSON bytes under a reference, bound to the
exact expectations they were registered for. Three buckets hold the record of a
reference, its bytes and the bindings. There is no update and no deletion. -/
namespace Federation

open Wire Interleaving

structure NativeTargetRecord where
  referenceID : Text
  kind : ReferenceKind
  classification : Text
  digest : Text
  deriving DecidableEq

def NativeTargetRecord.fields : List (RecordField NativeTargetRecord) :=
  [.of "reference_id" NativeTargetRecord.referenceID (fun v r => { r with referenceID := v }),
   .of "kind" NativeTargetRecord.kind (fun v r => { r with kind := v }),
   .of "classification" NativeTargetRecord.classification (fun v r => { r with classification := v }),
   .of "digest" NativeTargetRecord.digest (fun v r => { r with digest := v })]

instance : Codec NativeTargetRecord :=
  recordCodec NativeTargetRecord.fields ⟨[], .federationConfiguration, [], []⟩ (by decide) (fun _ => rfl)

structure NativeTargetBinding where
  expectation : ReferenceExpectation
  digest : Text
  deriving DecidableEq

def NativeTargetBinding.fields : List (RecordField NativeTargetBinding) :=
  [.of "expectation" NativeTargetBinding.expectation (fun v b => { b with expectation := v }),
   .of "digest" NativeTargetBinding.digest (fun v b => { b with digest := v })]

instance : Codec NativeTargetBinding :=
  recordCodec NativeTargetBinding.fields ⟨ReferenceExpectation.zero, []⟩ (by decide) (fun _ => rfl)

def nativeTargetClassification : Text := "NON_SECRET"

def iamOwnedNativeTargetKind : ReferenceKind → Bool
  | .federationConfiguration | .federationTrustMaterial | .assurancePolicy | .attributeMapping | .provisioningPolicy
  | .federationActivation | .assuranceMappingDecision | .identitySecurityDomain => true
  | .identityRuntimeProfile | .identityRuntimeSupport | .canonicalIdentityMapping => false

/- Every number is in the range of a float; the token reader converts them. -/
mutual
def numbersFit (fits : Text → Bool) : Json → Bool
  | .num literal => fits literal
  | .arr xs => elemsFit fits xs
  | .obj ms => membersFit fits ms
  | _ => true
def elemsFit (fits : Text → Bool) : List Json → Bool
  | [] => true
  | x :: xs => numbersFit fits x && elemsFit fits xs
def membersFit (fits : Text → Bool) : List (Text × Json) → Bool
  | [] => true
  | (_, x) :: ms => numbersFit fits x && membersFit fits ms
end

def validateNativeTargetJSON (fits : Text → Bool) (content : Text) : Bool :=
  !content.isEmpty && content.size ≤ 65536 &&
    match parse content with
    | some (.obj ms) => uniqueJSON (.obj ms) && numbersFit fits (.obj ms)
    | _ => false

@[irreducible] def nativeTargetDigest (content : Text) : Text := "sha256:".toList ++ Sha256.hex content

@[irreducible] def nativeTargetBindingKey (w : ReferenceExpectation) : Text :=
  "binding:".toList ++ Sha256.hex (marshal w)

def canonicalSnapshot (s : TrustSnapshot) : TrustSnapshot :=
  { s with trust := canonicalTrust s.trust, validUntil := s.validUntil.utc }

def snapshotMatches (w : ReferenceExpectation) (s : TrustSnapshot) : Bool :=
  validExpectation w && w.kind == .federationActivation && validateTrust s.trust && w.trustID == s.trust.id &&
  w.trustRevision == s.approvedRevision && w.trustRevision == s.trust.revision && w.snapshotID == s.snapshotID &&
  w.providerID == s.trust.providerBinding.providerID &&
    w.engineInstanceID == s.trust.providerBinding.engineInstanceID &&
  s.trust.organisationIDs == [w.scope.organisationID] && s.trust.estateIDs == [w.scope.estateID]

namespace NativeTargetLedger

structure Store where
  records : Bucket
  bytes : Bucket
  bindings : Bucket

def Store.putTarget (s : Store) (id record content : Text) : Store :=
  ⟨s.records.put id record, s.bytes.put id content, s.bindings⟩

def Store.putBinding (s : Store) (key binding : Text) : Store := ⟨s.records, s.bytes, s.bindings.put key binding⟩

abbrev Op := Prog ports Store Fault
abbrev Body := Tx ports Store Fault

variable (fits : Text → Bool)

def newRecord (w : ReferenceExpectation) (content : Text) : NativeTargetRecord :=
  ⟨w.id, w.kind, nativeTargetClassification, nativeTargetDigest content⟩

def newBinding (w : ReferenceExpectation) (content : Text) : NativeTargetBinding := ⟨w, nativeTargetDigest content⟩

/-- The reference's record and bytes: new, or the same as before. -/
def registerTarget (w : ReferenceExpectation) (content : Text) : Body Unit := do
  let s ← Tx.read id
  match s.records.get w.id with
  | some rawRecord =>
    Tx.require (decide (decodeAuthority rawRecord = some (newRecord w content)) &&
      s.bytes.get w.id == some content) .denied
  | none => do
    Tx.require (s.bytes.get w.id).isNone .denied
    Tx.write (fun s => s.putTarget w.id (marshal (newRecord w content)) content)

def registerBinding (w : ReferenceExpectation) (content : Text) : Body Unit := do
  let s ← Tx.read id
  match s.bindings.get (nativeTargetBindingKey w) with
  | some raw => Tx.require (decide (decodeAuthority raw = some (newBinding w content))) .denied
  | none => Tx.write (fun s => s.putBinding (nativeTargetBindingKey w) (marshal (newBinding w content)))

def registerBody (w : ReferenceExpectation) (content : Text) : Body Unit := do
  let ended ← Ledger.cancelled
  Tx.require (!ended) .unavailable
  registerTarget w content
  registerBinding w content

def registrable (w : ReferenceExpectation) (content : Text) : Bool :=
  validExpectation w && iamOwnedNativeTargetKind w.kind && validateNativeTargetJSON fits content

def registerNonSecretTarget (w : ReferenceExpectation) (content : Text) : Op Text := do
  let ended ← cancelled
  Prog.require (!ended && registrable fits w content) .invalid
  transaction authorityError (registerBody w content)
  return nativeTargetDigest content

def registerTrustSnapshotTarget (w : ReferenceExpectation) (snapshot : TrustSnapshot) : Op Text := do
  Prog.require (snapshotMatches w snapshot) .invalid
  let content ← Prog.ofExcept (((Codec.encode (canonicalSnapshot snapshot)).map render).elim (.error .invalid) .ok)
  let digest ← registerNonSecretTarget fits w content
  Prog.require (digest == trustSnapshotDigest (canonicalSnapshot snapshot)) .unverified
  return digest

def storedTarget (s : Store) (w : ReferenceExpectation) :
    Option (NativeTargetBinding × NativeTargetRecord × Text) := do
  let binding ← (s.bindings.get (nativeTargetBindingKey w)).bind decodeAuthority
  let record ← (s.records.get w.id).bind decodeAuthority
  let content ← s.bytes.get w.id
  return (binding, record, content)

def verifiedTarget (w : ReferenceExpectation) (binding : NativeTargetBinding) (record : NativeTargetRecord)
    (content : Text) : Bool :=
  binding.expectation == w && binding.digest == record.digest && record.referenceID == w.id && record.kind == w.kind &&
  record.classification == nativeTargetClassification && validateNativeTargetJSON fits content &&
  nativeTargetDigest content == record.digest && digestPattern record.digest

def nativeTargetContent (w : ReferenceExpectation) : Op Text := do
  let ended ← cancelled
  Prog.require (!ended && validExpectation w && iamOwnedNativeTargetKind w.kind) .invalid
  let (binding, record, content) ← transaction authorityError (do
    let ended ← Ledger.cancelled
    Tx.require (!ended) .unavailable
    let s ← Tx.read id
    Ledger.orFail .unverified (storedTarget s w))
  Prog.require (verifiedTarget fits w binding record content) .unverified
  return content

inductive Call where
  | register (w : ReferenceExpectation) (content : Text)
  | registerSnapshot (w : ReferenceExpectation) (snapshot : TrustSnapshot)
  | content (w : ReferenceExpectation)

def code : Call → Op Text
  | .register w content => registerNonSecretTarget fits w content
  | .registerSnapshot w snapshot => registerTrustSnapshotTarget fits w snapshot
  | .content w => nativeTargetContent fits w

def system : System ports Store Fault where
  Call := Call
  Result _ := Text
  code := code fits
  init := ⟨.empty, .empty, .empty⟩
  admits _ _ _ _ := true

end NativeTargetLedger

end Federation
