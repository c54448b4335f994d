import BaobabIam.Federation.Events
import BaobabIam.HumanAuth.Profile

/-! What the broker ledger accepts as upstream evidence: an ID token, or a SAML
response in a narrow profile. XML tokens, certificates and the SAML library's
verdict are parameters; the profile's own checks are computed. -/
namespace Federation

open Wire Interleaving

section Tokens

structure BrokerIDToken where
  subject : Text
  evidenceDigest : Text
  authenticatedAt : Time
  expiresAt : Time
  acr : Text
  amr : Option (List Text)
  deriving DecidableEq

def evidenceClaim (payload : Json) : Option Text := do
  let ms ← members payload
  claim readText [] "baobab_upstream_evidence_digest" ms

def verifyBrokerIDToken (lib : TokenLibrary) (issuer : Text) (c : OIDCConfiguration) (raw nonceDigest : Text)
    (created now : Time) (lifetime : Int) : Except Fault BrokerIDToken :=
  if raw.isEmpty || 32768 < raw.size || !exact c.clientID || !now.before c.validUntil then .error .denied
  else
    match verifiedToken lib issuer c.clientID c.signingAlgorithm c.jwks raw now with
    | .error e => .error e
    | .ok (t, payload) =>
      match tokenClaims payload, evidenceClaim payload with
      | some k, some evidenceDigest =>
        if tokenHolds issuer c.clientID nonceDigest created now lifetime t k then
          .ok ⟨t.subject, evidenceDigest, Time.unix 0 k.authTime, t.expiry, k.acr, k.amr⟩
        else .error .denied
      | _, _ => .error .invalid

end Tokens

section Certificates

structure Certificate where
  notBefore : Time
  notAfter : Time
  /-- No usage is named, or signatures are among those named. -/
  signs : Bool
  key : PublicKey
  deriving DecidableEq

inductive XmlToken where
  | charData (blank : Bool)
  | directive
  | start (space name : Text) (attributes : List (Text × Text))
  | finish
  | other

structure SAMLLibrary where
  /-- The tokens up to the end or the first error, and whether the end was reached. -/
  tokens : Text → List XmlToken × Bool
  /-- The response holds an assertion with the parts that are read unchecked. -/
  envelope : Text → Bool
  /-- One certificate in PEM, with nothing behind it. -/
  certificate : Text → Option Certificate

def certificateKey : PublicKey → Except Fault Unit
  | .rsa bits exponent => if bits < 2048 || exponent < 65537 then .error .invalid else .ok ()
  | .ecdsa p256 => if p256 then .ok () else .error .invalid
  | .other => .error .unsupported

/-- The certificates that are valid now; the others are passed over unchecked. -/
def currentCertificates (lib : SAMLLibrary) (now : Time) : List Text → Except Fault (List Text)
  | [] => .ok []
  | text :: rest =>
    match lib.certificate text with
    | none => .error .invalid
    | some cert =>
      if now.before cert.notBefore || !now.before cert.notAfter then currentCertificates lib now rest
      else if !cert.signs then .error .invalid
      else
        match certificateKey cert.key with
        | .error e => .error e
        | .ok _ => (currentCertificates lib now rest).map (text :: ·)

def samlSigningCertificates (lib : SAMLLibrary) (texts : List Text) (now : Time) : Except Fault (List Text) :=
  if texts.length < 1 || 8 < texts.length then .error .invalid
  else
    match currentCertificates lib now texts with
    | .error e => .error e
    | .ok [] => .error .unverified
    | .ok certificates => .ok certificates

end Certificates

section Profile

structure XmlState where
  depth : Int := 0
  count : Nat := 0
  assertions : Nat := 0
  signatures : Nat := 0
  roots : Nat := 0
  ids : List Text := []

def samlProtocol : Text := "urn:oasis:names:tc:SAML:2.0:protocol"
def samlAssertion : Text := "urn:oasis:names:tc:SAML:2.0:assertion"
def xmlSignature : Text := "http://www.w3.org/2000/09/xmldsig#"

def signatureMethods : List Text :=
  ["http://www.w3.org/2001/04/xmldsig-more#rsa-sha256".toList,
   "http://www.w3.org/2001/04/xmldsig-more#ecdsa-sha256".toList]

def uniqueIDs : List Text → List (Text × Text) → Except Fault (List Text)
  | ids, [] => .ok ids
  | ids, (name, value) :: rest =>
    if name == "ID".toList then
      if value.isEmpty || ids.contains value then .error .denied else uniqueIDs (value :: ids) rest
    else uniqueIDs ids rest

/-- Strong algorithms, and references into the document only. -/
def signatureAttributes (element : Text) : List (Text × Text) → Except Fault Unit
  | [] => .ok ()
  | (name, value) :: rest =>
    if element == "SignatureMethod".toList && name == "Algorithm".toList && !signatureMethods.contains value then
      .error .unsupported
    else if element == "DigestMethod".toList && name == "Algorithm".toList &&
        value != "http://www.w3.org/2001/04/xmlenc#sha256".toList then .error .unsupported
    else if element == "Reference".toList && name == "URI".toList && (value.size < 2 || value.head? != some '#') then
      .error .denied
    else signatureAttributes element rest

def startElement (st : XmlState) (space name : Text) (attributes : List (Text × Text)) : Except Fault XmlState := do
  let depth := st.depth + 1
  if 32 < depth then throw .invalid
  if depth == 1 && (space != samlProtocol || name != "Response".toList) then throw .denied
  let assertion := space == samlAssertion && name == "Assertion".toList
  if assertion && depth != 2 then throw .denied
  if name == "EncryptedAssertion".toList then throw .unsupported
  let ids ← uniqueIDs st.ids attributes
  let signature := space == xmlSignature && name == "Signature".toList
  if signature && depth != 2 && depth != 3 then throw .denied
  if space == xmlSignature then signatureAttributes name attributes
  return { st with
    depth := depth
    roots := if depth == 1 then st.roots + 1 else st.roots
    assertions := if assertion then st.assertions + 1 else st.assertions
    signatures := if signature then st.signatures + 1 else st.signatures
    ids := ids }

def xmlStep (st : XmlState) (token : XmlToken) : Except Fault XmlState := do
  let st := { st with count := st.count + 1 }
  if 12000 < st.count then throw .invalid
  match token with
  | .charData blank => if st.depth == 0 && !blank then throw .invalid else return st
  | .directive => throw .denied
  | .start space name attributes => startElement st space name attributes
  | .finish => return { st with depth := st.depth - 1 }
  | .other => return st

def boundedSAMLXML (lib : SAMLLibrary) (raw : Text) : Except Fault Unit := do
  if raw.isEmpty || 65536 < raw.size then throw .invalid
  let st ← (lib.tokens raw).1.foldlM xmlStep {}
  if !(lib.tokens raw).2 then throw .invalid
  if st.depth != 0 || st.roots != 1 || st.assertions != 1 || st.signatures < 1 || 2 < st.signatures then
    throw .denied

end Profile

section Assertions

def qualifiedSAMLSubject (issuer entityID value : Text) : Text :=
  "saml2:persistent:".toList ++ Sha256.hex (marshal
    ["urn:oasis:names:tc:SAML:2.0:nameid-format:persistent".toList, issuer, entityID, value])

structure SAMLParts where
  name : SAMLNameID
  notBefore : Time
  notOnOrAfter : Time
  audience : Text
  confirmation : SAMLConfirmation
  authnInstant : Time
  session : Time
  classRef : Text

def samlParts (a : SAMLAssertion) : Option SAMLParts :=
  match a.nameID, a.conditions, a.confirmations, a.statements with
  | some name, some ⟨notBefore, notOnOrAfter, [audience]⟩, [confirmation],
      [⟨authnInstant, some session, some classRef⟩] =>
    some ⟨name, notBefore, notOnOrAfter, audience, confirmation, authnInstant, session, classRef⟩
  | _, _, _, _ => none

def samlHolds (s : TrustSnapshot) (c : BrokerConfiguration) (requestID : Text) (created now : Time) (lifetime : Int)
    (a : SAMLAssertion) (k : SAMLParts) : Bool :=
  a.issuer == s.trust.upstreamIssuer &&
  k.name.format == "urn:oasis:names:tc:SAML:2.0:nameid-format:persistent".toList && exact k.name.value &&
  k.name.spProvidedID.isEmpty &&
  (k.name.nameQualifier.isEmpty || k.name.nameQualifier == s.trust.upstreamIssuer) &&
  (k.name.spNameQualifier.isEmpty || k.name.spNameQualifier == c.saml.entityID) && k.audience == c.saml.entityID &&
  k.confirmation.method == "urn:oasis:names:tc:SAML:2.0:cm:bearer".toList &&
  k.confirmation.inResponseTo == requestID && k.confirmation.recipient == c.saml.acsURL &&
  now.before k.confirmation.notOnOrAfter && !k.notBefore.after now && now.before k.notOnOrAfter &&
  decide (k.notOnOrAfter.sub k.notBefore ≤ lifetime) && !a.issueInstant.after now &&
  !a.issueInstant.before (created.add (-Time.second)) && !k.authnInstant.isZero && !k.authnInstant.after now &&
  decide (now.sub k.authnInstant ≤ lifetime) && now.before k.session && exact k.classRef

/-- Who was authenticated upstream, seen at `now` and valid until `until_`. -/
def upstreamPrincipal (id : Text) (s : TrustSnapshot) (c : BrokerConfiguration) (protocol : Protocol) (subject : Text)
    (now until_ : Time) : ExternalPrincipal where
  authenticationEventID := id
  trustID := s.trust.id
  providerID := c.binding.providerID
  engineInstanceID := c.binding.engineInstanceID
  protocol := protocol
  issuer := s.trust.upstreamIssuer
  subject := subject
  actorType := "human"
  observedAt := now
  expiresAt := until_
  resolution := { status := .unresolved }

def upstreamAssurance (s : TrustSnapshot) (p : ExternalPrincipal) (evidence : UpstreamEvidence) : Assurance where
  authenticationEventID := p.authenticationEventID
  trustID := p.trustID
  providerID := p.providerID
  engineInstanceID := p.engineInstanceID
  protocol := p.protocol
  issuer := p.issuer
  subject := p.subject
  upstreamEvidence := evidence
  mappingStatus := .unknown
  assurancePolicyReference := s.trust.assurancePolicyReference
  evaluatedAt := p.observedAt
  expiresAt := p.expiresAt

/-- The first certificate that the library accepts the response for. -/
def samlResponse {S : Type} (c : BrokerConfiguration) (issuer raw requestID : Text) :
    List Text → Prog ports S Fault SAMLAssertion
  | [] => .fail .denied
  | certificate :: rest => do
    let answer ← Prog.question (I := ports) (.samlResponse c issuer raw requestID certificate)
    match answer with
    | some a => return a
    | none => samlResponse c issuer raw requestID rest

def verifyBrokerSAML {S : Type} (lib : SAMLLibrary) (s : TrustSnapshot) (c : BrokerConfiguration)
    (raw requestID : Text) (created now : Time) (lifetime : Int) :
    Prog ports S Fault (SAMLAssertion × Text × Time × UpstreamEvidence) := do
  Prog.require (exact requestID && 1 ≤ c.signingCertificates.length && c.signingCertificates.length ≤ 8 &&
    exact c.saml.entityID) .invalid
  Prog.ofExcept (boundedSAMLXML lib raw)
  Prog.require (lib.envelope raw) .denied
  let _ ← Prog.ofExcept (brokerURL c.saml.acsURL false)
  let certificates ← Prog.ofExcept (samlSigningCertificates lib c.signingCertificates now)
  let a ← samlResponse c s.trust.upstreamIssuer raw requestID certificates
  let k ← Prog.ofExcept ((samlParts a).elim (.error .denied) .ok)
  Prog.require (samlHolds s c requestID created now lifetime a k) .denied
  let until_ := minimum c.validUntil
    [s.validUntil, k.notOnOrAfter, k.confirmation.notOnOrAfter, k.session, now.add lifetime]
  return (a, qualifiedSAMLSubject s.trust.upstreamIssuer c.saml.entityID k.name.value, until_,
    { saml := some ⟨k.classRef, k.authnInstant, k.session⟩ })

end Assertions

end Federation
