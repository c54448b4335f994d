import BaobabIam.Federation.Decoding
import BaobabIam.Federation.Evidence

/-! Provider configurations as their authorities hand them out, and the assertion
that the SAML library hands out. Keys and certificates are kept as their texts. -/
namespace Federation

open Wire

structure OIDCConfiguration where
  trustID : Text
  snapshotID : Text
  clientID : Text
  revision : UInt64
  binding : Binding
  signingAlgorithm : Text
  jwks : Text
  validUntil : Time
  deriving DecidableEq, Repr

structure BrokerSettings where
  issuer : Text
  clientID : Text
  authorizationEndpoint : Text
  tokenEndpoint : Text
  redirectURI : Text
  providerRoute : Text
  signingAlgorithm : Text
  confidential : Bool
  deriving DecidableEq, Repr

structure SAMLSettings where
  entityID : Text
  acsURL : Text
  deriving DecidableEq, Repr

structure BrokerConfiguration where
  trustID : Text
  snapshotID : Text
  revision : UInt64
  binding : Binding
  settings : BrokerSettings
  brokerJWKS : Text
  upstream : OIDCConfiguration
  saml : SAMLSettings
  signingCertificates : List Text
  validUntil : Time
  deriving DecidableEq, Repr

structure SAMLNameID where
  format : Text
  value : Text
  nameQualifier : Text
  spNameQualifier : Text
  spProvidedID : Text
  deriving DecidableEq, Repr

structure SAMLConditions where
  notBefore : Time
  notOnOrAfter : Time
  audiences : List Text
  deriving DecidableEq, Repr

structure SAMLConfirmation where
  method : Text
  inResponseTo : Text
  recipient : Text
  notOnOrAfter : Time
  deriving DecidableEq, Repr

structure SAMLStatement where
  authnInstant : Time
  sessionNotOnOrAfter : Option Time
  authnContextClassRef : Option Text
  deriving DecidableEq, Repr

structure SAMLAssertion where
  id : Text
  issuer : Text
  issueInstant : Time
  nameID : Option SAMLNameID
  conditions : Option SAMLConditions
  confirmations : List SAMLConfirmation
  statements : List SAMLStatement
  deriving DecidableEq, Repr

/-- A plain https URL, or a loopback one where the tests allow it. -/
def brokerURL (value : Text) (allowLoopback : Bool) : Except Fault Url :=
  match Url.parse value with
  | none => .error .invalid
  | some u =>
    if u.host.isEmpty || u.user.isSome || !u.fragment.isEmpty || !u.rawQuery.isEmpty ||
      u.forceQuery then .error .invalid
    else if u.scheme != "https".toList && !(allowLoopback && u.scheme == "http".toList &&
        (u.hostname == "127.0.0.1".toList || u.hostname == "localhost".toList)) then .error .denied
    else .ok u

/-- White space outside strings is dropped; `<`, `>`, `&` and the two line
separators are escaped. -/
def compactFrom : Bool → Text → Text
  | _, [] => []
  | false, c :: t =>
    if Wire.isSpace c then compactFrom false t
    else if c = '"' then c :: compactFrom true t
    else c :: compactFrom false t
  | true, '\\' :: c :: t => '\\' :: c :: compactFrom true t
  | true, c :: t =>
    if c = '"' then c :: compactFrom false t
    else if c = '<' || c = '>' || c = '&' || c.toNat = 0x2028 || c.toNat = 0x2029 then escape c ++ compactFrom true t
    else c :: compactFrom true t

/-- The text of a raw JSON message: null when there is none. -/
def rawMessage (raw : Text) : Option Text :=
  if raw.isEmpty then some "null" else if (parse raw).isSome then some (compactFrom false raw) else none

def valueText {α : Type} [Codec α] (a : α) : Option Text := (Codec.encode a).map render

def objectText (members : List (String × Option Text)) : Option Text :=
  (members.mapM (fun m : String × Option Text =>
      m.2.map (fun v => ('"' :: m.1.toList ++ '"' :: ':' :: v : Text)))).map
    (fun ms => '{' :: List.intercalate [','] ms ++ ['}'])

def OIDCConfiguration.text (c : OIDCConfiguration) : Option Text :=
  objectText [("TrustID", valueText c.trustID), ("SnapshotID", valueText c.snapshotID),
    ("ClientID", valueText c.clientID), ("Revision", valueText c.revision), ("Binding", valueText c.binding),
    ("SigningAlgorithm", valueText c.signingAlgorithm), ("JWKS", rawMessage c.jwks),
    ("ValidUntil", valueText c.validUntil)]

def BrokerSettings.text (s : BrokerSettings) : Option Text :=
  objectText [("Issuer", valueText s.issuer), ("ClientID", valueText s.clientID),
    ("AuthorizationEndpoint", valueText s.authorizationEndpoint), ("TokenEndpoint", valueText s.tokenEndpoint),
    ("RedirectURI", valueText s.redirectURI), ("ProviderRoute", valueText s.providerRoute),
    ("SigningAlgorithm", valueText s.signingAlgorithm), ("Confidential", valueText s.confidential)]

/-- Certificates are a slice: null when there are none. -/
def BrokerConfiguration.text (c : BrokerConfiguration) : Option Text :=
  objectText [("TrustID", valueText c.trustID), ("SnapshotID", valueText c.snapshotID),
    ("Revision", valueText c.revision), ("Binding", valueText c.binding), ("Settings", c.settings.text),
    ("BrokerJWKS", rawMessage c.brokerJWKS), ("Upstream", c.upstream.text),
    ("SAML", objectText [("EntityID", valueText c.saml.entityID), ("ACSURL", valueText c.saml.acsURL)]),
    ("SigningCertificates",
      if c.signingCertificates.isEmpty then some "null" else valueText c.signingCertificates),
    ("ValidUntil", valueText c.validUntil)]

end Federation
