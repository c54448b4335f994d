import BaobabIam.Base.Loose
import BaobabIam.HumanAuth.Lifetime
import BaobabIam.Ory.ClientRuns

/-! Disabling a client at the level of the stored documents. The document is read into a
struct with fifteen fields and written back whole: what the struct has no field for, and
what is present but empty, does not come back. -/
namespace Ory.Documents

open Interleaving Wire
open Clients (Reference Refusal Outcome ports)

section Struct

inductive Field where
  | clientID | clientName | clientSecret | grantTypes | responseTypes | redirectURIs | postLogoutRedirectURIs
  | allowedCORSOrigins | jwksURI | jwks | scope | audience | tokenEndpointAuthMethod | metadata
  | clientCredentialsGrantAccessTokenLifespan
  deriving DecidableEq

def Field.all : List Field :=
  [.clientID, .clientName, .clientSecret, .grantTypes, .responseTypes, .redirectURIs, .postLogoutRedirectURIs,
   .allowedCORSOrigins, .jwksURI, .jwks, .scope, .audience, .tokenEndpointAuthMethod, .metadata,
   .clientCredentialsGrantAccessTokenLifespan]

def Field.name : Field → Text
  | .clientID => "client_id"
  | .clientName => "client_name"
  | .clientSecret => "client_secret"
  | .grantTypes => "grant_types"
  | .responseTypes => "response_types"
  | .redirectURIs => "redirect_uris"
  | .postLogoutRedirectURIs => "post_logout_redirect_uris"
  | .allowedCORSOrigins => "allowed_cors_origins"
  | .jwksURI => "jwks_uri"
  | .jwks => "jwks"
  | .scope => "scope"
  | .audience => "audience"
  | .tokenEndpointAuthMethod => "token_endpoint_auth_method"
  | .metadata => "metadata"
  | .clientCredentialsGrantAccessTokenLifespan => "client_credentials_grant_access_token_lifespan"

def Field.kind : Field → Kind
  | .grantTypes | .responseTypes => .list false
  | .redirectURIs | .postLogoutRedirectURIs | .allowedCORSOrigins | .audience => .list true
  | .jwks | .metadata => .map
  | _ => .text

def hydraOAuth2Client : FieldTable Field where
  all := Field.all
  name := Field.name
  kind := Field.kind
  complete f := by cases f <;> decide
  distinct := by decide

abbrev Client : Type := hydraOAuth2Client.Record

end Struct

section Ports

abbrev Document := List (Text × Json)

abbrev Store := Text → Option Document

structure Server where
  /-- The client that a path segment names; identifiers are put there unescaped. -/
  resource : Text → Text
  /-- A read shows the secret. -/
  showsSecret : Bool
  /-- How a number is written after it was read as a floating point number. -/
  renumber : Text → Option Text

abbrev Op := Prog ports Store Refusal

variable (server : Server)

def Server.shown (doc : Document) : Document :=
  if server.showsSecret then doc else doc.filter (fun m => m.1 ≠ Field.clientSecret.name)

/-- An update replaces the document; without a secret the stored one is kept. -/
def replaced (old body : Document) : Document :=
  if (body.lookup Field.clientSecret.name).isSome then body
  else body ++ old.filter (fun m => m.1 = Field.clientSecret.name)

def getClient (id : Text) : Op Client := do
  let found ← Prog.atomic (do
    let outcome : Outcome ← Tx.ask (I := ports) .exchange
    Tx.require (outcome == .applied) (.exchange "hydra get client")
    Tx.read (fun s : Store => s (server.resource id))) Prog.ofExcept
  let doc ← Prog.ofExcept (found.elim (.error .notFound) .ok)
  Prog.ofExcept ((hydraOAuth2Client.decode server.renumber (server.shown doc)).elim
    (.error (.exchange "hydra decode client")) .ok)

def putClient (id : Text) (body : Client) : Op Unit := do
  let payload := hydraOAuth2Client.encode (Function.update body .clientID id)
  let acknowledged ← Prog.atomic (do
    let outcome : Outcome ← Tx.ask (I := ports) .exchange
    Tx.require (outcome != .refused) (.exchange "hydra put client")
    let stored ← Tx.read (fun s : Store => s (server.resource id))
    Tx.require stored.isSome .notFound
    Tx.write (fun s : Store => Function.update s (server.resource id) (stored.map (fun old => replaced old payload)))
    return (decide (outcome = .applied))) Prog.ofExcept
  Prog.require acknowledged (.exchange "hydra put client")

def disableClient (ref : Reference) : Op Unit := do
  Prog.require (!ref.clientID.isEmpty) (.invalidArgument "client id required")
  let existing ← getClient server ref.clientID
  putClient server ref.clientID
    (Function.update (Function.update existing .grantTypes (some [])) .clientSecret [])

def system : System ports Store Refusal where
  Call := Reference
  Result _ := Unit
  code := disableClient server
  init := fun _ => none
  admits _ _ _ _ := true

end Ports

section Members

variable {doc : Document}

theorem lookup_filter (doc : Document) (p : Text → Bool) (key : Text) :
    (doc.filter (fun m => p m.1)).lookup key = if p key then doc.lookup key else none := by
  induction doc with
  | nil => simp
  | cons m doc ih =>
    obtain ⟨name, j⟩ := m
    rw [List.filter_cons]
    by_cases here : key = name
    · subst here
      by_cases kept : p key = true
      · simp [kept]
      · rw [if_neg kept, ih, if_neg kept]
        simp [kept]
    · have other := beq_false_of_ne here
      by_cases kept : p name = true
      · rw [if_pos kept, List.lookup_cons, List.lookup_cons, other]
        exact ih
      · rw [if_neg kept, List.lookup_cons, other]
        exact ih

theorem lookup_present {m : Text × Json} (member : m ∈ doc) : (doc.lookup m.1).isSome = true := by
  rw [List.lookup_isSome_iff]
  exact ⟨m, member, by simp⟩

theorem mem_of_lookup {key : Text} {j : Json} (found : doc.lookup key = some j) : (key, j) ∈ doc := by
  obtain ⟨before, after, rfl, -⟩ := List.lookup_eq_some_iff.mp found
  simp

theorem shown_sublist (server : Server) (doc : Document) : (server.shown doc).Sublist doc := by
  unfold Server.shown
  split
  · exact List.Sublist.refl doc
  · exact List.filter_sublist

theorem shown_lookup (server : Server) {key : Text} (other : key ≠ Field.clientSecret.name) :
    (server.shown doc).lookup key = doc.lookup key := by
  unfold Server.shown
  split
  · rfl
  · have filtered := lookup_filter doc (fun k => decide (k ≠ Field.clientSecret.name)) key
    rw [if_pos (by simpa using other)] at filtered
    exact filtered

end Members

section Preserved

variable (server : Server) (id : Text)

def disabled (c : Client) : Client :=
  Function.update (Function.update (Function.update c .grantTypes (some [])) .clientSecret []) .clientID id

structure Survives (doc : Document) : Prop where
  known : ∀ m ∈ doc, m.1 ∈ Field.all.map Field.name
  identified : doc.lookup Field.clientID.name = some (.str id)
  answered : (doc.lookup Field.responseTypes.name).isSome = true
  shown : ∀ f : Field, f ≠ .clientID → f ≠ .clientSecret → f ≠ .grantTypes →
    ∀ j, doc.lookup f.name = some j → f.kind.Shown server.renumber HumanAuth.literalValue j

/-- Every member but the grants is the one there was. -/
def Preserved (doc doc' : Document) : Prop :=
  ∀ key, key ≠ Field.grantTypes.name → SameMember HumanAuth.literalValue (doc.lookup key) (doc'.lookup key)

variable {server id} {doc : Document} {c : Client}

theorem disabled_field {f : Field} (first : f ≠ .clientID) (second : f ≠ .clientSecret)
    (third : f ≠ .grantTypes) : disabled id c f = c f :=
  (Function.update_of_ne first _ _).trans ((Function.update_of_ne second _ _).trans (Function.update_of_ne third _ _))

theorem disabled_secret : (hydraOAuth2Client.encode (disabled id c)).lookup Field.clientSecret.name = none := by
  exact FieldTable.encode_lookup (disabled id c) .clientSecret

theorem replaced_lookup (key : Text) : (replaced doc (hydraOAuth2Client.encode (disabled id c))).lookup key =
    if key = Field.clientSecret.name then doc.lookup key else (hydraOAuth2Client.encode (disabled id c)).lookup
      key := by
  have secret := lookup_filter doc (fun k => decide (k = Field.clientSecret.name)) key
  rw [replaced, disabled_secret]
  simp only [Option.isSome_none, Bool.false_eq_true, if_false]
  rw [List.lookup_append, secret]
  by_cases here : key = Field.clientSecret.name
  · rw [if_pos here, if_pos (by simpa using here), here, disabled_secret]
    rfl
  · rw [if_neg here, if_neg (by simpa using here)]
    exact Option.or_none

theorem replaced_unknown {key : Text} (unknown : key ∉ Field.all.map Field.name) :
    (replaced doc (hydraOAuth2Client.encode (disabled id c))).lookup key = none := by
  have other : key ≠ Field.clientSecret.name := by
    rintro rfl
    exact unknown (by decide)
  rw [replaced_lookup, if_neg other]
  exact FieldTable.encode_unknown (disabled id c) unknown

theorem replaced_field {f : Field} (other : f ≠ .clientSecret) :
    (replaced doc (hydraOAuth2Client.encode (disabled id c))).lookup f.name = f.kind.write (disabled id c f) := by
  have named : f.name ≠ Field.clientSecret.name :=
    fun same => other (FieldTable.name_inj (t := hydraOAuth2Client) same)
  rw [replaced_lookup, if_neg named]
  exact FieldTable.encode_lookup (disabled id c) f

theorem replaced_grants : (replaced doc (hydraOAuth2Client.encode (disabled id c))).lookup Field.grantTypes.name =
    some (.arr []) :=
  replaced_field (f := .grantTypes) nofun

/-- A field that is only read and written keeps its member exactly when it is shown. -/
theorem field_preserved (distinct : distinctKeys (.obj doc) = true)
    (known : ∀ m ∈ doc, m.1 ∈ Field.all.map Field.name)
    (decoded : hydraOAuth2Client.decode server.renumber (server.shown doc) = some c) {f : Field}
    (first : f ≠ .clientID)
    (second : f ≠ .clientSecret) (third : f ≠ .grantTypes) :
    SameMember HumanAuth.literalValue (doc.lookup f.name)
        ((replaced doc (hydraOAuth2Client.encode (disabled id c))).lookup f.name) ↔
      match doc.lookup f.name with
      | none => f.kind ≠ .list false
      | some j => f.kind.Shown server.renumber HumanAuth.literalValue j := by
  rw [distinctKeys, Bool.and_eq_true, decide_eq_true_eq, distinctMembers_iff] at distinct
  have part := shown_sublist server doc
  have named : f.name ≠ Field.clientSecret.name :=
    fun same => second (FieldTable.name_inj (t := hydraOAuth2Client) same)
  have read := FieldTable.decoded_field (fun m member => known m (part.subset member))
    (distinct.1.sublist (part.map Prod.fst)) decoded f
  rw [show hydraOAuth2Client.name f = f.name from rfl, shown_lookup server named] at read
  rw [replaced_field second, disabled_field first second third]
  cases found : doc.lookup f.name with
  | none =>
    rw [found] at read
    rw [show c f = f.kind.zero from read]
    exact same_absent f.kind
  | some j =>
    rw [found] at read
    exact same_written (distinct.2 _ (mem_of_lookup found)) read

/-- After a client was disabled its document is the one there was, grants apart, exactly
when the struct carries all of it. -/
theorem preserved_iff (distinct : distinctKeys (.obj doc) = true) (present : id ≠ [])
    (decoded : hydraOAuth2Client.decode server.renumber (server.shown doc) = some c) :
    Preserved doc (replaced doc (hydraOAuth2Client.encode (disabled id c))) ↔ Survives server id doc := by
  have identity : (replaced doc (hydraOAuth2Client.encode (disabled id c))).lookup Field.clientID.name =
      some (.str id) := by
    rw [replaced_field (f := .clientID) nofun]
    exact if_neg present
  constructor
  · intro same
    have known : ∀ m ∈ doc, m.1 ∈ Field.all.map Field.name := by
      intro m member
      by_contra unknown
      have grants : m.1 ≠ Field.grantTypes.name := by
        intro named
        exact unknown (named ▸ by decide)
      have kept := same m.1 grants
      obtain ⟨j, found⟩ := Option.isSome_iff_exists.mp (lookup_present member)
      rw [found, replaced_unknown unknown] at kept
      exact kept
    have fields : ∀ f : Field, f ≠ .clientID → f ≠ .clientSecret → f ≠ .grantTypes → _ :=
      fun f first second third =>
      (field_preserved distinct known decoded first second third).mp
        (same f.name (fun named => third (FieldTable.name_inj (t := hydraOAuth2Client) named)))
    refine ⟨known, ?_, ?_, ?_⟩
    · have kept := same Field.clientID.name (by decide)
      rw [identity] at kept
      cases found : doc.lookup Field.clientID.name with
      | none =>
        rw [found] at kept
        exact kept.elim
      | some j =>
        rw [found] at kept
        cases j with
        | str s =>
          have equal : s = id := kept
          rw [equal]
        | _ => exact kept.elim
    · have shown := fields .responseTypes nofun nofun nofun
      cases found : doc.lookup Field.responseTypes.name with
      | none =>
        rw [found] at shown
        exact absurd rfl shown
      | some j => rfl
    · intro f first second third j found
      have shown := fields f first second third
      rw [found] at shown
      exact shown
  · intro survives key grants
    by_cases named : key ∈ Field.all.map Field.name
    · obtain ⟨f, -, rfl⟩ := List.mem_map.mp named
      by_cases first : f = .clientID
      · subst first
        rw [identity, survives.identified]
        exact rfl
      · by_cases second : f = .clientSecret
        · subst second
          rw [replaced_lookup, if_pos rfl]
          exact sameMember_refl _
        · have third : f ≠ .grantTypes := fun same => grants (same ▸ rfl)
          rw [field_preserved distinct survives.known decoded first second third]
          cases found : doc.lookup f.name with
          | none =>
            -- Only the grants and the response types are written when they are empty.
            intro kind
            have response : f = .responseTypes := by
              cases f <;> first | rfl | exact absurd rfl third | exact absurd kind nofun
            have answered := survives.answered
            rw [← response, found] at answered
            exact absurd answered nofun
          | some j => exact survives.shown f first second third j found
    · have absent : doc.lookup key = none := by
        by_contra there
        obtain ⟨j, found⟩ := Option.ne_none_iff_exists'.mp there
        exact named (survives.known _ (mem_of_lookup found))
      rw [absent, replaced_unknown named]
      exact True.intro

end Preserved

section Calls

variable {server : Server} {allowed : Allowed ports} {s : Store}

variable {id : Text} {Q : Store → Except Refusal Unit → Prop}

theorem after_getClient {Q : Store → Except Refusal Client → Prop} (fails : Fails s Q)
    (found : ∀ doc c, s (server.resource id) = some doc →
      hydraOAuth2Client.decode server.renumber (server.shown doc) = some c → Q s (.ok c)) :
    after allowed (getClient server id) s Q := by
  apply after_then
  intro L
  apply Tx.wp_ask_then
  intro outcome _
  apply Tx.wp_require_else (fails _)
  intro _
  apply after_ofExcept_then fails
  intro doc there
  have stored : s (server.resource id) = some doc := by
    change (s (server.resource id)).elim _ _ = _ at there
    cases found : s (server.resource id) with
    | none =>
      rw [found] at there
      cases there
    | some doc' =>
      rw [found] at there
      cases there
      rfl
  cases decoded : hydraOAuth2Client.decode server.renumber (server.shown doc) with
  | none => exact fails _
  | some c => exact found doc c stored decoded

theorem after_putClient {body : Client} (fails : ∀ s', Fails s' Q)
    (done : ∀ doc, s (server.resource id) = some doc → Q (Function.update s (server.resource id)
      (some (replaced doc (hydraOAuth2Client.encode (Function.update body .clientID id))))) (.ok ())) :
    after allowed (putClient server id body) s Q := by
  apply after_then
  intro L
  apply Tx.wp_ask_then
  intro outcome _
  apply Tx.wp_require_else (fails s _)
  intro _
  apply Tx.wp_read_then
  apply Tx.wp_require_else (fails s _)
  intro there
  apply Tx.wp_write_then
  obtain ⟨doc, stored⟩ := Option.isSome_iff_exists.mp there
  rw [stored]
  change after allowed (Prog.require _ _) _ Q
  cases decide (outcome = .applied) with
  | true => exact done doc stored
  | false => exact fails _ _

/-- A success writes the client that was read, disabled, over its document. -/
theorem after_disableClient {ref : Reference} (fails : ∀ s', Fails s' Q)
    (done : ∀ doc c, ref.clientID ≠ [] → s (server.resource ref.clientID) = some doc →
      hydraOAuth2Client.decode server.renumber (server.shown doc) = some c →
      Q (Function.update s (server.resource ref.clientID)
        (some (replaced doc (hydraOAuth2Client.encode (disabled ref.clientID c))))) (.ok ())) :
    after allowed (disableClient server ref) s Q := by
  apply after_require_then (fails s)
  intro present
  apply after_then
  apply after_getClient (Fails.followed (fails s))
  intro doc c stored decoded
  apply followed_ok.mpr
  apply after_putClient fails
  intro doc' stored'
  rw [stored] at stored'
  cases stored'
  exact done doc c (by simpa using present) stored decoded

/-- Disabling a client empties its grants and touches no other client; the rest of
its document is as before exactly when the struct carries all of it. -/
theorem disable_preserves_iff (server : Server) (ref : Reference) (s s' : Store) (doc : Document)
    (stored : s (server.resource ref.clientID) = some doc) (distinct : distinctKeys (.obj doc) = true)
    (ended : Ends (system server) s ref (.ok ()) s') :
    (∀ key, key ≠ server.resource ref.clientID → s' key = s key) ∧
    ∃ doc', s' (server.resource ref.clientID) = some doc' ∧
      doc'.lookup Field.grantTypes.name = some (.arr []) ∧
      (Preserved doc doc' ↔ Survives server ref.clientID doc) := by
  let Q : Store → Except Refusal Unit → Prop := fun s' r => r = .ok () →
    (∀ key, key ≠ server.resource ref.clientID → s' key = s key) ∧
    ∃ doc', s' (server.resource ref.clientID) = some doc' ∧
      doc'.lookup Field.grantTypes.name = some (.arr []) ∧
      (Preserved doc doc' ↔ Survives server ref.clientID doc)
  have code : after (fun _ _ => True) ((system server).code ref) s Q := by
    apply after_disableClient
    · exact fun _ _ => nofun
    · intro doc₀ c present stored₀ decoded _
      rw [stored] at stored₀
      cases stored₀
      refine ⟨fun key other => Function.update_of_ne other _ _, _, Function.update_self _ _ _, replaced_grants, ?_⟩
      exact preserved_iff distinct present decoded
  exact ended.post (fun _ _ _ _ => rfl) code rfl

def plainServer : Server := ⟨fun id => id, false, some⟩

def consentingClient : Document :=
  [("client_id", .str "workload"), ("client_secret", .str "stored"), ("grant_types", .arr [.str "client_credentials"]),
   ("response_types", .arr []), ("skip_consent", .bool true)]

def storing (doc : Document) : Store := fun id => if id = "workload".toList then some doc else none

/-- A member that the struct does not know is gone after the client was disabled. -/
theorem disable_drops_member : ∃ s' doc', Ends (system plainServer)
    (storing consentingClient) ⟨"workload", []⟩ (.ok ()) s' ∧
    s' "workload" = some doc' ∧ consentingClient.lookup ("skip_consent" : Text) = some (.bool true) ∧
    doc'.lookup ("skip_consent" : Text) = none :=
  ⟨_, _, ⟨fun _ q => Clients.obliging q, 8, _, rfl, rfl⟩, rfl, rfl, rfl⟩

def plainClient : Document :=
  [("client_id", .str "workload"), ("client_secret", .str "stored"), ("grant_types", .arr [.str "client_credentials"]),
   ("response_types", .arr []), ("scope", .str "billing:read")]

theorem plain_disable_preserves : ∃ s', Ends (system plainServer)
    (storing plainClient) ⟨"workload", []⟩ (.ok ()) s' ∧
    (∀ key : Text, key ≠ "workload" → s' key = storing plainClient key) ∧
    ∃ doc', s' "workload" = some doc' ∧ doc'.lookup Field.grantTypes.name = some (.arr []) ∧
      (Preserved plainClient doc' ↔ Survives plainServer "workload" plainClient) := by
  have ended : Ends (system plainServer) (storing plainClient) ⟨"workload", []⟩ (.ok ()) _ :=
    ⟨fun _ q => Clients.obliging q, 8, _, rfl, rfl⟩
  exact ⟨_, ended, disable_preserves_iff plainServer ⟨"workload", []⟩ _ _ plainClient rfl (by decide) ended⟩

end Calls

end Ory.Documents
