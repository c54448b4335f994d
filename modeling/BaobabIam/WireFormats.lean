import BaobabIam.HumanAuth.Lifetime
import BaobabIam.TokenProfile.Response

/-! The closed wire formats: requests and responses of human authentication and of
workload tokens. Lengths are checked twice, where a member is read and on the whole
value; the two sets of rules agree, so what is valid round trips. -/
open Wire

namespace HumanAuth

open WireFields

section Requests

def Request.fields : List (ClosedField Request) :=
  [text "grant_type" Request.grantType (fun v r => { r with grantType := v }),
    text "code_challenge" Request.codeChallenge (fun v r => { r with codeChallenge := v }),
    text "code_challenge_method" Request.codeChallengeMethod (fun v r => { r with codeChallengeMethod := v }),
    bounded "client_id" 1 255 Request.clientID (fun v r => { r with clientID := v }),
    bounded "redirect_uri" 1 0 Request.redirectURI (fun v r => { r with redirectURI := v }),
    bounded "scope" 1 500 Request.scope (fun v r => { r with scope := v }),
    bounded "state" 16 500 Request.state (fun v r => { r with state := v }),
    bounded "nonce" 16 500 Request.nonce (fun v r => { r with nonce := v }),
    bounded "acr_values" 1 500 Request.acrValues (fun v r => { r with acrValues := v })]

def Request.format : ClosedFormat Request where
  fields := Request.fields
  zero := ⟨[], [], [], [], [], [], [], [], []⟩
  required := []
  limit := none
  valid := Request.validate

def Request.marshalJSON (r : Request) : Option (List UInt8) := Request.format.marshal r
def Request.unmarshalJSON (raw : List UInt8) : Option Request := Request.format.unmarshal raw

theorem Request.rebuild (r : Request) :
    Request.fields.foldl (fun b f => f.copy r b) Request.format.zero = r := by
  obtain ⟨grantType, codeChallenge, codeChallengeMethod, clientID, redirectURI, scope, state, nonce, acrValues⟩ := r
  cases clientID <;> cases redirectURI <;> cases scope <;> cases state <;> cases nonce <;> cases acrValues <;> rfl

theorem Request.validate_lengths {r : Request} (valid : r.validate = true) :
    r.clientID.length ≤ 255 ∧ r.scope.length ≤ 500 ∧ r.acrValues.length ≤ 500 ∧
      (r.state ≠ [] → 16 ≤ r.state.length ∧ r.state.length ≤ 500) ∧
      (r.nonce ≠ [] → 16 ≤ r.nonce.length ∧ r.nonce.length ≤ 500) := by
  simp only [Request.validate, Bool.and_eq_true, Bool.or_eq_true, decide_eq_true_eq, List.all_cons, List.all_nil,
    List.isEmpty_iff] at valid
  grind

theorem Request.lawful : Request.format.Lawful where
  distinct := by decide
  rebuild := Request.rebuild
  carried r valid := by
    obtain ⟨client, scope, acr, state, nonce⟩ := Request.validate_lengths valid
    have character : ∀ t : Text, t ≠ [] → 1 ≤ t.length := fun t h => List.length_pos_iff.mpr h
    simp only [Request.format, Request.fields, List.forall_mem_cons]
    refine ⟨carries_text r _ _ _, carries_text r _ _ _, carries_text r _ _ _, ?_, ?_, ?_, ?_, ?_, ?_, nofun⟩
    · exact carries_bounded (fun h => ⟨character _ h, fun _ => client⟩)
    · exact carries_bounded (fun h => ⟨character _ h, fun limited => absurd limited (Nat.lt_irrefl 0)⟩)
    · exact carries_bounded (fun h => ⟨character _ h, fun _ => scope⟩)
    · exact carries_bounded (fun h => ⟨(state h).1, fun _ => (state h).2⟩)
    · exact carries_bounded (fun h => ⟨(nonce h).1, fun _ => (nonce h).2⟩)
    · exact carries_bounded (fun h => ⟨character _ h, fun _ => acr⟩)
  demanded r name h := nomatch h
  fits r ms _ _ n h := nomatch h

end Requests

section Responses

variable (floats : FloatParser)

/-- A number member as its literal; the decoder refuses strings and other values. -/
def readLifetime (lifetime : Text → Option Nat) : Json → Option Nat
  | .num literal => lifetime literal
  | _ => none

def Response.format : ClosedFormat Response where
  fields := Response.fields (readLifetime (exactLifetimeText floats))
  zero := Response.zero
  required := []
  limit := none
  valid := Response.validate

def Response.marshalJSON (r : Response) : Option (List UInt8) := (Response.format floats).marshal r
def Response.unmarshalJSON (raw : List UInt8) : Option Response := (Response.format floats).unmarshal raw

/-- The projection of a provider's response decodes as the response itself does. -/
theorem Response.projected_eq {ms : Members} (s : List Text × Response)
    (literals : ∀ m ∈ ms, ∀ t, m.2 = .num t → IsNumber t ∧ t.size ≤ 65536) :
    foldMembers (closedStep (Response.fields exactLifetime)) s ms =
      foldMembers (closedStep (Response.format floats).fields) s ms := by
  induction ms generalizing s with
  | nil => rfl
  | cons m ms ih =>
    obtain ⟨first, others⟩ := List.forall_mem_cons.mp literals
    obtain ⟨key, value⟩ := m
    have same : exactLifetime value = readLifetime (exactLifetimeText floats) value := by
      cases value with
      | num t => exact exactLifetime_eq floats (first t rfl).1 (first t rfl).2
      | _ => rfl
    have step : closedStep (Response.fields exactLifetime) s key value =
        closedStep (Response.format floats).fields s key value := by
      unfold closedStep Response.format Response.fields
      simp only [List.find?_cons]
      grind
    unfold foldMembers at ih ⊢
    rw [List.foldlM_cons, List.foldlM_cons, step]
    exact bind_congr (fun s => ih s others)

theorem decimal_isNumber (n : Nat) : IsNumber (Text.decimal n) := by
  have read := readNumber_decimal n [] stops_nil
  rwa [List.append_nil] at read

theorem decimal_value {n : Nat} (small : n < 10 ^ 20) : literalValue (Text.decimal n) = n := by
  obtain ⟨c, r, shape, digit, digits, -⟩ := Text.decimal_shape n
  have all : ∀ d ∈ Text.decimal n, Text.isDigit d = true := by
    rw [shape]
    exact List.forall_mem_cons.mpr ⟨digit, digits⟩
  have unsigned : literalValue (Text.decimal n) = unsignedValue (Text.decimal n) := by
    unfold literalValue
    split
    · rename_i u minus
      have := all '-' (by rw [minus]; exact List.mem_cons_self)
      cases this
    · rfl
  have cut := digits_then all stops_nil
  rw [List.append_nil] at cut
  have parts : scaled (Text.decimal n) = (n, 0) := by
    unfold scaled
    rw [List.span_eq_takeWhile_dropWhile, cut.1, cut.2]
    simp only [List.append_nil, digitsValue, Text.numeral_decimal small]
    rfl
  rw [unsigned, unsignedValue, parts]
  simp

theorem decimal_lifetime {n : Nat} (low : 60 ≤ n) (high : n ≤ 86400) :
    integerLifetime (Text.decimal n) = some n := by
  have short : (Text.decimal n).length ≤ 65536 :=
    Nat.le_trans (Text.length_le_size _) (Nat.le_trans (Text.decimal_size_le n) (by decide))
  have present : Text.decimal n ≠ [] := by
    obtain ⟨c, r, shape, -⟩ := Text.decimal_shape n
    rw [shape]
    exact List.cons_ne_nil c r
  exact (integerLifetime_iff present short n).mpr ⟨decimal_value (by omega), low, high⟩

theorem encode_lifetime {n : Nat} (high : n ≤ 86400) : Codec.encode n = some (.num (Text.decimal n)) :=
  if_pos (Nat.lt_of_le_of_lt high (by decide))

theorem Response.rebuild (r : Response) :
    (Response.format floats).fields.foldl (fun b f => f.copy r b) (Response.format floats).zero = r := by
  obtain ⟨accessToken, tokenType, expiresIn, idToken, refreshToken, scope, sessionState⟩ := r
  cases idToken <;> cases refreshToken <;> cases scope <;> cases sessionState <;> rfl

theorem Response.validate_bounds {r : Response} (valid : r.validate = true) :
    60 ≤ r.expiresIn ∧ r.expiresIn ≤ 86400 ∧ (r.idToken ≠ [] → 20 ≤ r.idToken.length) ∧
      (r.refreshToken ≠ [] → 20 ≤ r.refreshToken.length) := by
  simp only [Response.validate, Bool.and_eq_true, Bool.or_eq_true, decide_eq_true_eq, List.isEmpty_iff] at valid
  grind

theorem Response.lawful : (Response.format floats).Lawful where
  distinct := by
    change (["access_token", "token_type", "expires_in", "id_token", "refresh_token", "scope", "session_state"].map
      String.toList).Nodup
    decide
  rebuild := Response.rebuild floats
  carried r valid := by
    obtain ⟨low, high, identity, refresh⟩ := Response.validate_bounds valid
    have unlimited : ∀ t : Text, 0 < 0 → t.length ≤ 0 := fun t h => absurd h (Nat.lt_irrefl 0)
    simp only [Response.format, Response.fields, List.forall_mem_cons]
    refine ⟨carries_text r _ _ _, carries_text r _ _ _,
      .inr ⟨_, encode_lifetime high, ?_⟩, ?_, ?_, ?_, ?_, nofun⟩
    · exact exactLifetimeText_number floats (decimal_isNumber _) _ (decimal_lifetime low high)
        (decimal_value (Nat.lt_of_le_of_lt high (by decide))) low high
    · exact carries_bounded (fun h => ⟨identity h, unlimited _⟩)
    · exact carries_bounded (fun h => ⟨refresh h, unlimited _⟩)
    · exact carries_bounded (fun h => ⟨List.length_pos_iff.mpr h, unlimited _⟩)
    · exact carries_bounded (fun _ => ⟨Nat.zero_le _, unlimited _⟩)
  demanded r name h := nomatch h
  fits r ms _ _ n h := nomatch h

end Responses

end HumanAuth

namespace TokenProfile

open WireFields

section Requests

/-- A null among the elements leaves the empty text. -/
def readElement : Json → Option Text
  | .str s => some s
  | .null => some []
  | _ => none

def readTexts : Json → Option (Option (List Text))
  | .arr xs => (xs.mapM readElement).map some
  | _ => none

/-- A map of members is written in the order of its keys. -/
def WorkloadTokenRequest.fields : List (ClosedField WorkloadTokenRequest) :=
  [text "audience" WorkloadTokenRequest.audience (fun v r => { r with audience := v }),
    ⟨RecordField.omitEmpty "scopes" Option.isNone WorkloadTokenRequest.scopes (fun v r => { r with scopes := v }),
      readTexts⟩,
    text "workload_id" WorkloadTokenRequest.workloadID (fun v r => { r with workloadID := v })]

def WorkloadTokenRequest.format : ClosedFormat WorkloadTokenRequest where
  fields := WorkloadTokenRequest.fields
  zero := ⟨[], [], none⟩
  required := ["workload_id", "audience"]
  limit := some 4096
  valid r := r.validate.isOk

def WorkloadTokenRequest.marshalJSON (r : WorkloadTokenRequest) : Option (List UInt8) :=
  WorkloadTokenRequest.format.marshal r
def WorkloadTokenRequest.unmarshalJSON (raw : List UInt8) : Option WorkloadTokenRequest :=
  WorkloadTokenRequest.format.unmarshal raw

theorem encodeList_texts (ts : List Text) : encodeList ts = some (ts.map .str) := by
  induction ts with
  | nil => rfl
  | cons t ts ih => rw [encodeList, ih]; rfl

theorem readTexts_encode (ts : List Text) : readTexts (.arr (ts.map .str)) = some (some ts) := by
  have all : (ts.map Json.str).mapM readElement = some ts := by
    induction ts with
    | nil => rfl
    | cons t ts ih => simp [readElement, ih]
  rw [readTexts, all]
  rfl

theorem stringSize_plain {t : Text} (h : ∀ c ∈ t, escape c = [c]) : stringSize t = t.size + 2 := by
  have sizes : t.map (fun c => (escape c).size) = t.map Char.utf8Size := by
    apply List.map_congr_left
    intro c hc
    rw [h c hc]
    simp
  rw [stringSize, sizes, Text.size]

def keyCharacter (c : Char) : Bool := lowerOrDigit c || c == '-' || c == ':'

theorem keyCharacter_escape {c : Char} (h : keyCharacter c = true) : escape c = [c] := by
  have all : ∀ n, n < 128 → keyCharacter (Char.ofNat n) = true → escape (Char.ofNat n) = [Char.ofNat n] := by
    decide
  have small : c.toNat < 128 := by
    simp only [keyCharacter, lowerOrDigit, Text.isDigit, Bool.or_eq_true, Bool.and_eq_true, decide_eq_true_eq,
      beq_iff_eq] at h
    rcases h with (((⟨-, high⟩ | ⟨-, high⟩) | rfl) | rfl)
    · have bound : c.toNat ≤ 'z'.toNat := high
      exact Nat.lt_of_le_of_lt bound (by decide)
    · omega
    · decide
    · decide
  have read := all c.toNat small
  rw [Char.ofNat_toNat] at read
  exact read h

theorem nameKey_characters {t : Text} (h : nameKey t = true) : ∀ c ∈ t, keyCharacter c = true := by
  cases t with
  | nil => cases h
  | cons c rest =>
    simp only [nameKey, Bool.and_eq_true, List.all_eq_true] at h
    intro d hd
    rcases List.mem_cons.mp hd with rfl | hd
    · simp [keyCharacter, lowerOrDigit, h.1.1, h.1.2]
    · have := h.2 d hd
      simp only [keyCharacter, this, Bool.true_or]

theorem scopeKey_characters {t : Text} (h : scopeKey t = true) : ∀ c ∈ t, keyCharacter c = true := by
  simp only [scopeKey, Bool.and_eq_true, List.all_eq_true] at h
  intro c hc
  have pieces : Text.join ':' (t.splitOn ':') = t := List.intercalate_splitOn ':'
  rw [← pieces] at hc
  rcases Text.mem_join hc with rfl | ⟨w, hw, hc⟩
  · decide
  · exact nameKey_characters (h.2 w hw) c hc

theorem requestScopes_bounds {seen scopes : List Text} (h : requestScopes seen scopes = true) :
    ∀ t ∈ scopes, stringSize t ≤ 65 := by
  induction scopes generalizing seen with
  | nil => simp
  | cons scope scopes ih =>
    simp only [requestScopes, Bool.and_eq_true, decide_eq_true_eq] at h
    intro t ht
    rcases List.mem_cons.mp ht with rfl | ht
    · rw [stringSize_plain (fun c hc => keyCharacter_escape (scopeKey_characters h.1.1.2 c hc))]
      have := h.1.1.1
      omega
    · exact ih h.2 t ht

theorem size_texts_le {ts : List Text} {n : Nat} (h : ∀ t ∈ ts, stringSize t ≤ n) :
    textSize (.arr (ts.map .str)) ≤ 2 + ts.length * (n + 1) := by
  have elems : ∀ us : List Text, (∀ t ∈ us, stringSize t ≤ n) →
      elemsSize (us.map .str) ≤ 1 + us.length * (n + 1) := by
    intro us
    induction us with
    | nil => intro _; simp [elemsSize]
    | cons u us ih =>
      intro all
      obtain ⟨first, rest⟩ := List.forall_mem_cons.mp all
      have tail := ih rest
      simp only [List.map_cons, elemsSize, textSize, List.length_cons, Nat.add_mul, Nat.one_mul]
      omega
  cases ts with
  | nil => simp [textSize]
  | cons t ts =>
    obtain ⟨first, rest⟩ := List.forall_mem_cons.mp h
    have tail := elems ts rest
    simp only [List.map_cons, textSize, List.length_cons, Nat.add_mul, Nat.one_mul]
    omega

theorem WorkloadTokenRequest.validate_sizes {r : WorkloadTokenRequest} (valid : r.validate = .ok ()) :
    stringSize r.audience ≤ 65 ∧ stringSize r.workloadID ≤ 65 ∧
      ∀ scopes, r.scopes = some scopes → textSize (.arr (scopes.map .str)) ≤ 2114 := by
  simp only [WorkloadTokenRequest.validate, Checks.bind_ok, Checks.require_ok, Bool.and_eq_true, decide_eq_true_eq,
    exists_const] at valid
  obtain ⟨⟨⟨⟨⟨workload, workloadKey⟩, audience⟩, audienceKey⟩, count⟩, listed⟩ := valid
  have plain : ∀ t, nameKey t = true → stringSize t = t.size + 2 := fun t key =>
    stringSize_plain (fun c hc => keyCharacter_escape (nameKey_characters key c hc))
  refine ⟨?_, ?_, ?_⟩
  · rw [plain _ audienceKey]
    omega
  · rw [plain _ workloadKey]
    omega
  · intro scopes present
    rw [present] at count listed
    have total := size_texts_le (requestScopes_bounds listed)
    have scaled : scopes.length * 66 ≤ 32 * 66 := Nat.mul_le_mul_right 66 count
    exact Nat.le_trans total (by omega)

theorem WorkloadTokenRequest.lawful : WorkloadTokenRequest.format.Lawful where
  distinct := by decide
  rebuild r := by
    obtain ⟨workloadID, audience, scopes⟩ := r
    cases scopes <;> rfl
  carried r valid := by
    simp only [WorkloadTokenRequest.format, WorkloadTokenRequest.fields, List.forall_mem_cons]
    refine ⟨carries_text r _ _ _, ?_, carries_text r _ _ _, nofun⟩
    cases listed : r.scopes with
    | none =>
      left
      change r.scopes.isNone = true
      rw [listed]
      rfl
    | some scopes =>
      right
      refine ⟨.arr (scopes.map .str), ?_, ?_⟩
      · change Codec.encode r.scopes = _
        rw [listed]
        change (encodeList scopes).map Json.arr = _
        rw [encodeList_texts]
        rfl
      · exact (readTexts_encode scopes).trans (congrArg some listed.symm)
  demanded r name h := by
    rcases List.mem_cons.mp h with rfl | h
    · exact ⟨_, List.mem_cons_of_mem _ (List.mem_cons_of_mem _ List.mem_cons_self), rfl, rfl⟩
    · cases List.mem_singleton.mp h
      exact ⟨_, List.mem_cons_self, rfl, rfl⟩
  fits r ms valid written n h := by
    cases h
    obtain ⟨audience, workload, scopes⟩ := WorkloadTokenRequest.validate_sizes (Checks.isOk_unit.mp valid)
    have listed : Codec.size inferInstance r.scopes ≤ 2114 := by
      cases present : r.scopes with
      | none => exact Nat.zero_le _
      | some scopes' =>
        have exactly : Codec.encode (some scopes') = some (Json.arr (scopes'.map .str)) := by
          change (encodeList scopes').map Json.arr = _
          rw [encodeList_texts]
          rfl
        simp only [Codec.size, exactly]
        exact scopes scopes' present
    have total := record_size_le (WorkloadTokenRequest.fields.map ClosedField.toRecordField) r [65, 2114, 65]
      (.cons audience (.cons listed (.cons workload .nil)))
    have names : namesSize (WorkloadTokenRequest.fields.map ClosedField.toRecordField) = 37 := by decide
    have encoded : encodeFields (WorkloadTokenRequest.fields.map ClosedField.toRecordField) r = some ms := written
    rw [names, encoded] at total
    exact Nat.le_trans total (by decide)

end Requests

section Responses

def WorkloadTokenResponse.fields : List (ClosedField WorkloadTokenResponse) :=
  [text "access_token" WorkloadTokenResponse.accessToken (fun v r => { r with accessToken := v }),
    text "token_type" WorkloadTokenResponse.tokenType (fun v r => { r with tokenType := v }),
    ⟨RecordField.of "expires_in" WorkloadTokenResponse.expiresIn (fun v r => { r with expiresIn := v }),
      HumanAuth.readLifetime HumanAuth.responseLifetime⟩,
    ⟨RecordField.omitEmpty "scope" Option.isNone WorkloadTokenResponse.scope (fun v r => { r with scope := v }),
      (Codec.decode : Json → Option (Option Text))⟩]

def WorkloadTokenResponse.format : ClosedFormat WorkloadTokenResponse where
  fields := WorkloadTokenResponse.fields
  zero := ⟨[], [], 0, none⟩
  required := ["access_token", "token_type", "expires_in"]
  limit := none
  valid r := r.validate.isOk

def WorkloadTokenResponse.marshalJSON (r : WorkloadTokenResponse) : Option (List UInt8) :=
  WorkloadTokenResponse.format.marshal r
def WorkloadTokenResponse.unmarshalJSON (raw : List UInt8) : Option WorkloadTokenResponse :=
  WorkloadTokenResponse.format.unmarshal raw

theorem WorkloadTokenResponse.lawful : WorkloadTokenResponse.format.Lawful where
  distinct := by decide
  rebuild r := by
    obtain ⟨accessToken, tokenType, expiresIn, scope⟩ := r
    cases scope <;> rfl
  carried r valid := by
    obtain ⟨-, -, low, high, -⟩ := validate_iff.mp (Checks.isOk_unit.mp valid)
    simp only [WorkloadTokenResponse.format, WorkloadTokenResponse.fields, List.forall_mem_cons]
    refine ⟨carries_text r _ _ _, carries_text r _ _ _, .inr ⟨_, HumanAuth.encode_lifetime high, ?_⟩, ?_, nofun⟩
    · change HumanAuth.responseLifetime (Text.decimal r.expiresIn) = some r.expiresIn
      rw [HumanAuth.responseLifetime, HumanAuth.numberOf_number (HumanAuth.decimal_isNumber _)]
      exact HumanAuth.decimal_lifetime low high
    · cases present : r.scope with
      | none =>
        left
        change r.scope.isNone = true
        rw [present]
        rfl
      | some scope =>
        right
        refine ⟨.str scope, ?_, congrArg some present.symm⟩
        change Codec.encode r.scope = _
        rw [present]
        rfl
  demanded r name h := by
    simp only [WorkloadTokenResponse.format, List.mem_cons, List.not_mem_nil, or_false] at h
    rcases h with rfl | rfl | rfl
    · exact ⟨_, List.mem_cons_self, rfl, rfl⟩
    · exact ⟨_, List.mem_cons_of_mem _ List.mem_cons_self, rfl, rfl⟩
    · exact ⟨_, List.mem_cons_of_mem _ (List.mem_cons_of_mem _ List.mem_cons_self), rfl, rfl⟩
  fits r ms _ _ n h := nomatch h

end Responses

/-- The four formats round trip and stay closed. Requests for workload tokens stay below
their limit, and omitted scopes are not written like an empty list. -/
theorem wire_formats_closed (floats : HumanAuth.FloatParser) :
    HumanAuth.Request.format.RoundTrips ∧ (HumanAuth.Response.format floats).RoundTrips ∧
      WorkloadTokenRequest.format.RoundTrips ∧ WorkloadTokenResponse.format.RoundTrips ∧
      (∀ r raw, WorkloadTokenRequest.marshalJSON r = some raw → raw.length ≤ 4096) ∧
      ∀ id audience raw, WorkloadTokenRequest.marshalJSON ⟨id, audience, none⟩ = some raw →
        WorkloadTokenRequest.marshalJSON ⟨id, audience, some []⟩ ≠ some raw := by
  have requests := WorkloadTokenRequest.lawful.roundTrips
  refine ⟨HumanAuth.Request.lawful.roundTrips, (HumanAuth.Response.lawful floats).roundTrips, requests,
    WorkloadTokenResponse.lawful.roundTrips, ?_, ?_⟩
  · intro r raw h
    exact WorkloadTokenRequest.lawful.marshal_fits h rfl
  · intro id audience raw omitted empty
    cases WorkloadTokenRequest.lawful.marshal_inj omitted empty

end TokenProfile
