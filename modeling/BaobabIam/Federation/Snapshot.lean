import BaobabIam.Federation.Ports

/-! Trust snapshots compared and digested: times are written in UTC, so that the
zone a record came in does not matter. -/
namespace Federation

open Wire

def canonicalTrust (t : Trust) : Trust :=
  { t with
    createdAt := t.createdAt.utc
    updatedAt := t.updatedAt.utc
    activatedAt := t.activatedAt.map Time.utc
    revokedAt := t.revokedAt.map Time.utc }

def sameTrust (a b : Trust) : Bool :=
  match Codec.encode (canonicalTrust a), Codec.encode (canonicalTrust b) with
  | some left, some right => render left == render right
  | _, _ => false

def sameSnapshot (a b : TrustSnapshot) : Bool :=
  a.approvedRevision == b.approvedRevision && a.snapshotID == b.snapshotID &&
    a.validUntil.equal b.validUntil && sameTrust a.trust b.trust

def trustSnapshotDigest (s : TrustSnapshot) : Text :=
  "sha256:".toList ++
    Sha256.hex (marshal { s with trust := canonicalTrust s.trust, validUntil := s.validUntil.utc })

end Federation
