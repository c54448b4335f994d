import BaobabIam.Base.Bytes
import BaobabIam.Base.Shape
import BaobabIam.Federation.ConsumeBasis

/-! The strict decoders. Each of them reads a document twice: once for repeated keys,
which are compared as they are, and once into a record, where keys are matched
regardless of case. -/
namespace StrictDecoding

open Wire Federation

section Checks

/- The duplicate check of the native provider call; nulls pass. -/
mutual
def uniqueNativeJSON : Json → Bool
  | .arr xs => uniqueNativeElems xs
  | .obj ms => decide (ms.map Prod.fst).Nodup && uniqueNativeMembers ms
  | _ => true
def uniqueNativeElems : List Json → Bool
  | [] => true
  | x :: xs => uniqueNativeJSON x && uniqueNativeElems xs
def uniqueNativeMembers : List (Text × Json) → Bool
  | [] => true
  | (_, x) :: ms => uniqueNativeJSON x && uniqueNativeMembers ms
end

/-- The check of the context: one object without nulls, only its own keys compared. -/
def decodeUnique : Json → Bool
  | .obj ms => decide (ms.map Prod.fst).Nodup && ms.all (fun m =>
      match m.2 with
      | .null => false
      | _ => true)
  | _ => false

theorem uniqueElems_iff (xs : List Json) : uniqueElems xs = true ↔ ∀ x ∈ xs, uniqueJSON x = true := by
  induction xs with
  | nil => simp [uniqueElems]
  | cons x xs ih => simp [uniqueElems, ih]

theorem uniqueMembers_iff (ms : Members) :
    uniqueMembers ms = true ↔ ∀ m ∈ ms, uniqueJSON m.2 = true := by
  induction ms with
  | nil => simp [uniqueMembers]
  | cons m ms ih => simp [uniqueMembers, ih]

theorem uniqueNativeElems_iff (xs : List Json) :
    uniqueNativeElems xs = true ↔ ∀ x ∈ xs, uniqueNativeJSON x = true := by
  induction xs with
  | nil => simp [uniqueNativeElems]
  | cons x xs ih => simp [uniqueNativeElems, ih]

theorem uniqueNativeMembers_iff (ms : Members) :
    uniqueNativeMembers ms = true ↔ ∀ m ∈ ms, uniqueNativeJSON m.2 = true := by
  induction ms with
  | nil => simp [uniqueNativeMembers]
  | cons m ms ih => simp [uniqueNativeMembers, ih]

theorem keysOnce_uniqueJSON (s : Shape) (j : Json) (h : uniqueJSON j = true) : s.KeysOnce j := by
  apply Shape.keysOnce_of (P := fun j => uniqueJSON j = true) _ _ s j h
  · intro xs all
    rw [uniqueJSON] at all
    exact (uniqueElems_iff xs).mp all
  · intro ms all
    rw [uniqueJSON, Bool.and_eq_true, decide_eq_true_eq] at all
    exact ⟨all.1, (uniqueMembers_iff ms).mp all.2⟩

theorem keysOnce_uniqueNativeJSON (s : Shape) (j : Json) (h : uniqueNativeJSON j = true) : s.KeysOnce j := by
  apply Shape.keysOnce_of (P := fun j => uniqueNativeJSON j = true) _ _ s j h
  · intro xs all
    rw [uniqueNativeJSON] at all
    exact (uniqueNativeElems_iff xs).mp all
  · intro ms all
    rw [uniqueNativeJSON, Bool.and_eq_true, decide_eq_true_eq] at all
    exact ⟨all.1, (uniqueNativeMembers_iff ms).mp all.2⟩

end Checks

section Decoders

/-- The document that decodeAuthority decodes into a record of this shape. -/
def authorityDocument (s : Shape) (data : List UInt8) : Option Json :=
  if data.isEmpty || 65536 < data.length then none
  else (parse (Text.ofBytes data)).filter (fun j => uniqueJSON j && s.accepts true j)

def nativeDocument (s : Shape) (data : List UInt8) : Option Json :=
  if 65536 < data.length then none
  else (parse (Text.ofBytes data)).filter (fun j => uniqueNativeJSON j && s.accepts false j)

def isText : Json → Bool
  | .str _ => true
  | _ => false

def isTime : Json → Bool
  | .str s => (Time.parse s).isSome
  | _ => false

def contextShape : Shape :=
  .struct ["context_id", "tenant_id", "expires_at"]
    (fun name => if name = "expires_at".toList then .leaf isTime else .leaf isText)

def contextDocument (data : List UInt8) : Option Json :=
  if 8192 < data.length then none
  else (parse (Text.ofBytes data)).filter (fun j => decodeUnique j && contextShape.accepts false j)

def any : Shape := .leaf (fun _ => true)

def only (name : String) (s : Shape) (key : Text) : Shape := if key = name.toList then s else any

def names {α : Type} (fields : List (RecordField α)) : List Text := fields.map RecordField.name

def resolutionShape : Shape := .struct (names Resolution.fields) (fun _ => any)
def principalShape : Shape := .struct (names ExternalPrincipal.fields) (only "resolution" resolutionShape)
def trustShape : Shape :=
  .struct (names Trust.fields) (only "provider_binding" (.struct (names Binding.fields) (fun _ => any)))

def evidenceShape : Shape :=
  .struct (names UpstreamEvidence.fields) (fun key =>
    if key = "oidc".toList then .struct (names OIDCAssurance.fields) (fun _ => any)
    else .struct (names SAMLAssurance.fields) (fun _ => any))

def assuranceShape : Shape := .struct (names Assurance.fields) (only "upstream_evidence" evidenceShape)

def bundleShape : Shape :=
  .struct (names Bundle.fields) (fun key =>
    if key = "trust".toList then trustShape
    else if key = "external_principal".toList then principalShape
    else assuranceShape)

/-- What DecodeBundle looks at to see which members are present. -/
def rawShape : Shape :=
  .struct ["trust", "external_principal", "assurance"] (fun key =>
    if key = "external_principal".toList then .struct ["resolution"] (fun _ => .map any) else .map any)

def resolutionPath : List Text := ["external_principal", "resolution"]
def assurancePath : List Text := ["assurance"]
def trustPath : List Text := ["trust"]

def resolvedFields : List Text :=
  ["principal_id", "external_identity_id", "mapping_reference", "mapping_basis", "resolved_at"]

def mappedFields : List Text := ["level", "mapping_evidence_reference"]

def present (j : Json) (path : List Text) (field : Text) : Bool :=
  (rawShape.membersAt path j).any (fun m => m.1 == field)

/-- The members that have to be absent are, as far as their exact names go. -/
def permitted (j : Json) (b : Bundle) : Bool :=
  (b.externalPrincipal.resolution.status != .unresolved || resolvedFields.all (fun f => !present j resolutionPath f)) &&
  (b.assurance.mappingStatus != .unknown || mappedFields.all (fun f => !present j assurancePath f)) &&
  (!present j trustPath "activation_evidence_reference" || validRef b.trust.activationEvidenceReference)

def decodeBundle (data : List UInt8) : Option Bundle :=
  if 65536 < data.length then none
  else (parse (Text.ofBytes data)).bind (fun j =>
    if uniqueJSON j then (Codec.decode j).filter (fun b => permitted j b && validateBundle b) else none)

end Decoders

section Bundles

variable {j : Json} {b : Bundle}

theorem any_accepts (strict : Bool) (j : Json) : any.accepts strict j = true := by
  cases j <;> rfl

variable {ms : Members} {α : Type} {fs : List (RecordField α)} {a z : α} {name : String} {s : Shape}
    {fields : List Text}

theorem fields_any_accept
    (h : decodeFields fs ms z = some a) : (Shape.struct (names fs) (fun _ => any)).accepts true (.obj ms) = true :=
  Shape.record_accepts (fun _ _ j _ _ => any_accepts true j) h

theorem field_only_accepts (g : RecordField α) (inside : g ∈ fs) (distinct : (names fs).Nodup)
    (named : g.name = name.toList)
    (accepts : ∀ j v, g.codec.decode j = some v → s.accepts true j = true) (h : decodeFields fs ms z = some a) :
    (Shape.struct (names fs) (only name s)).accepts true (.obj ms) = true := by
  apply Shape.record_accepts _ h
  intro f member j v decoded
  unfold only
  split
  · rename_i same
    obtain rfl := List.inj_on_of_nodup_map distinct member inside (same.trans named.symm)
    exact accepts j v decoded
  · exact any_accepts true j

theorem trust_accepts {v : Trust} (h : Codec.decode j = some v) : trustShape.accepts true j = true := by
  cases j with
  | obj ms =>
    apply field_only_accepts (.of "provider_binding" Trust.providerBinding (fun v t => { t with providerBinding := v }))
      (List.mem_of_getElem? (show Trust.fields[5]? = some _ from rfl)) (by decide) rfl _ h
    intro k v decoded
    cases k with
    | obj ms => exact fields_any_accept decoded
    | _ => cases decoded
  | _ => cases h

theorem principal_accepts {v : ExternalPrincipal} (h : Codec.decode j = some v) :
    principalShape.accepts true j = true := by
  cases j with
  | obj ms =>
    apply field_only_accepts (.of "resolution" ExternalPrincipal.resolution (fun v p => { p with resolution := v }))
      (List.mem_of_getElem? (show ExternalPrincipal.fields[10]? = some _ from rfl)) (by decide) rfl _ h
    intro k v decoded
    cases k with
    | obj ms => exact fields_any_accept decoded
    | _ => cases decoded
  | _ => cases h

theorem evidence_accepts {v : UpstreamEvidence} (h : Codec.decode j = some v) :
    evidenceShape.accepts true j = true := by
  cases j with
  | obj ms =>
    apply Shape.record_accepts _ h
    intro f member k v decoded
    simp only [UpstreamEvidence.fields, List.mem_cons, List.not_mem_nil, or_false] at member
    rcases member with rfl | rfl
    · cases k with
      | obj ms =>
        obtain ⟨e, read, -⟩ := Option.map_eq_some_iff.mp decoded
        exact fields_any_accept read
      | _ => cases decoded
    · cases k with
      | obj ms =>
        obtain ⟨e, read, -⟩ := Option.map_eq_some_iff.mp decoded
        exact fields_any_accept read
      | _ => cases decoded
  | _ => cases h

theorem assurance_accepts {v : Assurance} (h : Codec.decode j = some v) : assuranceShape.accepts true j = true := by
  cases j with
  | obj ms =>
    apply field_only_accepts (.of "upstream_evidence" Assurance.upstreamEvidence (fun v a =>
      { a with upstreamEvidence := v }))
      (List.mem_of_getElem? (show Assurance.fields[7]? = some _ from rfl)) (by decide) rfl _ h
    intro k v decoded
    exact evidence_accepts decoded
  | _ => cases h

theorem bundle_accepts (h : Codec.decode j = some b) : bundleShape.accepts true j = true := by
  cases j with
  | obj ms =>
    apply Shape.record_accepts _ h
    intro f member k v decoded
    simp only [Bundle.fields, List.mem_cons, List.not_mem_nil, or_false] at member
    rcases member with rfl | rfl | rfl
    · exact trust_accepts decoded
    · exact principal_accepts decoded
    · exact assurance_accepts decoded
  | _ => cases h

theorem any_distinct : any.Distinct := trivial

theorem only_distinct (h : s.Distinct) (key : Text) : (only name s key).Distinct := by
  unfold only
  split
  · exact h
  · exact any_distinct

theorem bundle_distinct : bundleShape.Distinct := by
  have trust : trustShape.Distinct :=
    ⟨by decide, only_distinct ⟨by decide, fun _ => any_distinct⟩⟩
  have principal : principalShape.Distinct :=
    ⟨by decide, only_distinct ⟨by decide, fun _ => any_distinct⟩⟩
  have evidence : evidenceShape.Distinct := by
    refine ⟨by decide, fun key => ?_⟩
    beta_reduce
    split
    · exact ⟨by decide, fun _ => any_distinct⟩
    · exact ⟨by decide, fun _ => any_distinct⟩
  refine ⟨by decide, fun key => ?_⟩
  beta_reduce
  split
  · exact trust
  · split
    · exact principal
    · exact ⟨by decide, only_distinct evidence⟩

theorem context_distinct : contextShape.Distinct := by
  refine ⟨by decide, fun key => ?_⟩
  beta_reduce
  split
  · trivial
  · trivial

/-- The context has no objects inside, so that its own keys are all that matter. -/
theorem keysOnce_context (h : decodeUnique j = true) : contextShape.KeysOnce j := by
  cases j with
  | obj ms =>
    rw [decodeUnique, Bool.and_eq_true, decide_eq_true_eq] at h
    refine ⟨h.1, fun m member name _ => ?_⟩
    beta_reduce
    split
    · cases m.2 <;> trivial
    · cases m.2 <;> trivial
  | _ => cases h

/-- Two structs that both have a field agree on the members that fill it. -/
theorem fieldFor_agree {xs ys : List Text} (first : (xs.map foldName).Nodup) (second : (ys.map foldName).Nodup)
    {name : Text} (inside : name ∈ xs) (inside' : name ∈ ys) (key : Text) :
    fieldFor xs key = some name ↔ fieldFor ys key = some name := by
  rw [fieldFor_iff first, fieldFor_iff second]
  constructor
  · exact fun h => ⟨inside', h.2⟩
  · exact fun h => ⟨inside, h.2⟩

theorem members_resolution (j : Json) :
    bundleShape.membersAt resolutionPath j = rawShape.membersAt resolutionPath j := by
  cases j with
  | obj ms =>
    apply congrArg (fun f => List.flatMap f _)
    funext m
    cases m.2 with
    | obj inner =>
      have agree : ∀ key, decide (fieldFor (names ExternalPrincipal.fields) key = some "resolution".toList) =
          decide (fieldFor ["resolution".toList] key = some "resolution".toList) := by
        intro key
        rw [decide_eq_decide]
        exact fieldFor_agree (by decide) (by decide) (by decide) (by decide) key
      have same : ∀ m : Text × Json, resolutionShape.membersAt [] m.2 = (Shape.map any).membersAt [] m.2 := by
        intro m
        cases m.2 <;> rfl
      change (inner.filter (fun m =>
        decide (fieldFor (names ExternalPrincipal.fields) m.1 = some "resolution".toList))).flatMap
        (fun m => resolutionShape.membersAt [] m.2) =
        (inner.filter (fun m => decide (fieldFor ["resolution".toList] m.1 =
          some "resolution".toList))).flatMap (fun m => (Shape.map any).membersAt [] m.2)
      simp only [agree, same]
    | _ => rfl
  | _ => rfl

theorem members_assurance (j : Json) : bundleShape.membersAt assurancePath j = rawShape.membersAt assurancePath j := by
  cases j with
  | obj ms =>
    apply congrArg (fun f => List.flatMap f _)
    funext m
    cases m.2 <;> rfl
  | _ => rfl

structure AbsentFields (j : Json) (b : Bundle) : Prop where
  unresolved : b.externalPrincipal.resolution.status = .unresolved → ∀ m ∈ bundleShape.membersAt resolutionPath j,
    ∀ f ∈ resolvedFields, fieldFor (names Resolution.fields) m.1 ≠ some f
  unknown : b.assurance.mappingStatus = .unknown → ∀ m ∈ bundleShape.membersAt assurancePath j,
    ∀ f ∈ mappedFields, fieldFor (names Assurance.fields) m.1 ≠ some f

/-- No member differs in case only from the name of a field that has to be absent. -/
structure NoDisguise (j : Json) (b : Bundle) : Prop where
  unresolved : b.externalPrincipal.resolution.status = .unresolved → ∀ m ∈ bundleShape.membersAt resolutionPath j,
    ∀ f ∈ resolvedFields, foldName f = foldName m.1 → m.1 = f
  unknown : b.assurance.mappingStatus = .unknown → ∀ m ∈ bundleShape.membersAt assurancePath j,
    ∀ f ∈ mappedFields, foldName f = foldName m.1 → m.1 = f

/-- Among members of which none has the exact name of a field, none fills one of the
fields exactly when none differs in case only. -/
theorem absent_iff (xs : List Text) (distinct : (xs.map foldName).Nodup) (known : ∀ f ∈ fields, f ∈ xs)
    (missing : ∀ m ∈ ms, ∀ f ∈ fields, m.1 ≠ f) :
    (∀ m ∈ ms, ∀ f ∈ fields, fieldFor xs m.1 ≠ some f) ↔
    ∀ m ∈ ms, ∀ f ∈ fields, foldName f = foldName m.1 → m.1 = f := by
  constructor
  · intro absent m member f field fold
    exact absurd ((fieldFor_iff distinct).mpr ⟨known f field, fold⟩) (absent m member f field)
  · intro plain m member f field fills
    exact missing m member f field (plain m member f field (fieldFor_some fills).2)

theorem not_present {path : List Text} (h : fields.all (fun f => !present j path f) = true) :
    ∀ m ∈ rawShape.membersAt path j, ∀ f ∈ fields, m.1 ≠ f := by
  intro m member f field same
  have missing := List.all_eq_true.mp h f field
  simp only [present, Bool.not_eq_true', List.any_eq_false, beq_iff_eq] at missing
  exact missing m member same

theorem absentFields_iff (passed : permitted j b = true) : AbsentFields j b ↔ NoDisguise j b := by
  simp only [permitted, Bool.and_eq_true, Bool.or_eq_true, bne_iff_ne] at passed
  obtain ⟨⟨resolution, assurance⟩, -⟩ := passed
  have first : b.externalPrincipal.resolution.status = .unresolved →
      ∀ m ∈ bundleShape.membersAt resolutionPath j, ∀ f ∈ resolvedFields, m.1 ≠ f := by
    intro status
    rw [members_resolution]
    exact not_present (resolution.resolve_left (fun other => other status))
  have second : b.assurance.mappingStatus = .unknown →
      ∀ m ∈ bundleShape.membersAt assurancePath j, ∀ f ∈ mappedFields, m.1 ≠ f := by
    intro status
    rw [members_assurance]
    exact not_present (assurance.resolve_left (fun other => other status))
  have resolved := fun status => absent_iff (names Resolution.fields) (by decide) (by decide) (first status)
  have mapped := fun status => absent_iff (names Assurance.fields) (by decide) (by decide) (second status)
  constructor
  · intro h
    exact ⟨fun status => (resolved status).mp (h.unresolved status),
      fun status => (mapped status).mp (h.unknown status)⟩
  · intro h
    exact ⟨fun status => (resolved status).mpr (h.unresolved status),
      fun status => (mapped status).mpr (h.unknown status)⟩

theorem decodeBundle_some {data : List UInt8} (h : decodeBundle data = some b) :
    ∃ j, parse (Text.ofBytes data) = some j ∧ uniqueJSON j = true ∧ Codec.decode j = some b ∧
      permitted j b = true ∧ validateBundle b = true := by
  unfold decodeBundle at h
  split at h
  · cases h
  · obtain ⟨j, parsed, h⟩ := Option.bind_eq_some_iff.mp h
    split at h
    · rename_i unique
      obtain ⟨decoded, passed⟩ := Option.filter_eq_some_iff.mp h
      rw [Bool.and_eq_true] at passed
      exact ⟨j, parsed, unique, decoded, passed.1, passed.2⟩
    · cases h

end Bundles

theorem authorityDocument_some {s : Shape} {data : List UInt8} {j : Json} (h : authorityDocument s data = some j) :
    parse (Text.ofBytes data) = some j ∧ uniqueJSON j = true ∧ s.accepts true j = true := by
  unfold authorityDocument at h
  split at h
  · cases h
  · obtain ⟨parsed, passed⟩ := Option.filter_eq_some_iff.mp h
    rw [Bool.and_eq_true] at passed
    exact ⟨parsed, passed⟩

/-- In a document that a strict decoder accepts, every field is filled once exactly when
no two keys of one object differ in case only; and then all readers agree on it. -/
theorem decoded_once_iff (data : List UInt8) :
    (∀ s j, s.Distinct → authorityDocument s data = some j → (s.Unambiguous j ↔ s.NoCaseVariants j)) ∧
    (∀ s j, s.Distinct → nativeDocument s data = some j → (s.Unambiguous j ↔ s.NoCaseVariants j)) ∧
    (∀ j, contextDocument data = some j → (contextShape.Unambiguous j ↔ contextShape.NoCaseVariants j)) ∧
    (∀ b, decodeBundle data = some b → ∃ j, parse (Text.ofBytes data) = some j ∧
      bundleShape.accepts true j = true ∧
      (bundleShape.Unambiguous j ∧ AbsentFields j b ↔ bundleShape.NoCaseVariants j ∧ NoDisguise j b)) ∧
    ∀ (s : Shape) j, s.Unambiguous j → ∀ r r', s.read r j = s.read r' j := by
  refine ⟨?_, ?_, ?_, ?_, fun s j clear r r' => Shape.read_unambiguous r r' s j clear⟩
  · intro s j distinct accepted
    obtain ⟨-, unique, -⟩ := authorityDocument_some accepted
    exact Shape.unambiguous_iff s distinct j (keysOnce_uniqueJSON s j unique)
  · intro s j distinct accepted
    unfold nativeDocument at accepted
    split at accepted
    · cases accepted
    · obtain ⟨-, passed⟩ := Option.filter_eq_some_iff.mp accepted
      rw [Bool.and_eq_true] at passed
      exact Shape.unambiguous_iff s distinct j (keysOnce_uniqueNativeJSON s j passed.1)
  · intro j accepted
    unfold contextDocument at accepted
    split at accepted
    · cases accepted
    · obtain ⟨-, passed⟩ := Option.filter_eq_some_iff.mp accepted
      rw [Bool.and_eq_true] at passed
      exact Shape.unambiguous_iff contextShape context_distinct j (keysOnce_context passed.1)
  · intro b decoded
    obtain ⟨j, parsed, unique, read, passed, -⟩ := decodeBundle_some decoded
    exact ⟨j, parsed, bundle_accepts read, and_congr
      (Shape.unambiguous_iff bundleShape bundle_distinct j (keysOnce_uniqueJSON _ j unique))
      (absentFields_iff passed)⟩

namespace Sample

/- Documents in which a second key differs in case only. -/

open Consumer.Sample (trust principal)

def assurance : Assurance :=
  { Consumer.Sample.assurance with mappingStatus := .unknown, level := [], mappingEvidenceReference := [] }

def resolution : Json := .obj [("status", .str "UNRESOLVED"), ("PRINCIPAL_ID", .str [])]

def principalMembers : List (Text × Json) :=
  ("SUBJECT", .str "mallory") :: (((encodeFields ExternalPrincipal.fields principal).getD []).dropLast ++
    [("resolution".toList, resolution)])

def bundle : Json :=
  .obj [("trust", (Codec.encode trust).getD .null), ("external_principal", .obj principalMembers),
    ("assurance", (Codec.encode assurance).getD .null)]

def nativeSessionShape : Shape :=
  .struct ["id", "active", "expires_at", "authenticated_at", "authenticator_assurance_level", "authentication_methods",
      "identity"]
    (fun key => if key = "identity".toList then .struct ["id", "state"] (fun _ => .leaf isText) else any)

def session : Json := .obj [("identity", .obj [("ID", .str "mallory"), ("id", .str "alice")])]

def context : Json :=
  .obj [("CONTEXT_ID", .str "other"), ("context_id", .str "mine"), ("tenant_id", .str "t"),
    ("expires_at", .str "2030-01-01T00:00:00Z")]

def want : ReferenceExpectation :=
  { id := "ref_abcd", kind := .assurancePolicy, trustID := uuidText 1, snapshotID := "s", trustRevision := 1,
    providerID := "provider_a", engineInstanceID := "ei_abc", scope := ⟨"o", "est"⟩ }

def expectationShape : Shape :=
  .struct (names ReferenceExpectation.fields) (only "Scope" (.struct (names Scope.fields) (fun _ => any)))

def expectation : Json :=
  .obj (("TRUSTID", .str "other") :: (encodeFields ReferenceExpectation.fields want).getD [])

variable {ms : Members} {α : Type}

theorem twice {names : List Text} {inner : Text → Shape} {name : Text}
    (two : 2 ≤ (Shape.filling names name ms).length) : ¬ (Shape.struct names inner).Unambiguous (.obj ms) := by
  intro clear
  rcases Shape.filter_filled clear.1 name with none | ⟨m, -, -, one⟩
  · rw [Shape.filling, none] at two
    cases two
  · rw [Shape.filling, one] at two
    cases two with
    | step h => cases h

theorem plain_encoded [Codec α] {a : α} (written : (Codec.encode a).isSome = true) :
    Plain ((Codec.encode a).getD .null) := by
  obtain ⟨j, hj⟩ := Option.isSome_iff_exists.mp written
  rw [hj]
  exact Codec.plain_encode a j hj

theorem plain_members (fs : List (RecordField α)) (a : α) :
    ∀ m ∈ (encodeFields fs a).getD [], Plain m.2 := by
  cases encoded : encodeFields fs a with
  | none =>
    intro m member
    cases member
  | some ms => exact (plainMembers_iff ms).mp (encodeFields_names fs a ms encoded).2

theorem plain_object (once : (ms.map Prod.fst).Nodup) (plain : ∀ m ∈ ms, Plain m.2) :
    Plain (.obj ms) := by
  rw [Plain]
  exact ⟨(plainMembers_iff ms).mpr plain, once⟩

theorem plain_resolution : Plain resolution := plain_object (by decide) (by simp [Plain])

theorem plain_principal : Plain (.obj principalMembers) := by
  apply plain_object (by decide)
  intro m member
  rcases List.mem_cons.mp member with rfl | member
  · simp [Plain]
  · rcases List.mem_append.mp member with own | last_
    · exact plain_members _ _ m ((List.dropLast_sublist _).subset own)
    · rw [List.mem_singleton.mp last_]
      exact plain_resolution

theorem plain_bundle : Plain bundle := by
  apply plain_object (by decide)
  intro m member
  simp only [List.mem_cons, List.not_mem_nil, or_false] at member
  rcases member with rfl | rfl | rfl
  · exact plain_encoded (show (Codec.encode trust).isSome = true by decide)
  · exact plain_principal
  · exact plain_encoded (show (Codec.encode assurance).isSome = true by decide)

theorem plain_expectation : Plain expectation := by
  apply plain_object (by decide)
  intro m member
  rcases List.mem_cons.mp member with rfl | member
  · simp [Plain]
  · exact plain_members _ _ m member

theorem plain_context : Plain context := plain_object (by decide) (by simp [Plain])

theorem plain_session : Plain session := by
  apply plain_object (by decide)
  intro m member
  rw [List.mem_singleton.mp member]
  exact plain_object (by decide) (by simp [Plain])

theorem bundle_decoded : decodeBundle (Text.bytes (render bundle)) = some ⟨trust, principal, assurance⟩ := by
  have short : ¬ 65536 < (Text.bytes (render bundle)).length := by
    rw [Text.length_bytes, size_render]
    decide +kernel
  have decoded : Codec.decode bundle = some (⟨trust, principal, assurance⟩ : Bundle) := by decide +kernel
  rw [decodeBundle, if_neg short, Text.ofBytes_bytes, parse_render _ plain_bundle, Option.bind_some,
    if_pos (uniqueJSON_plain _ plain_bundle), decoded, Option.filter_some, if_pos (by decide)]

theorem bundle_ambiguous : ¬ bundleShape.Unambiguous bundle := by
  intro clear
  have inner := clear.2 ("external_principal".toList, .obj principalMembers) (by simp) "external_principal".toList
    (by decide)
  have two : 2 ≤ (Shape.filling (names ExternalPrincipal.fields) "subject".toList principalMembers).length := by
    decide
  exact twice two inner

theorem bundle_disguised : ¬ AbsentFields bundle ⟨trust, principal, assurance⟩ := by
  intro absent
  have member : ("PRINCIPAL_ID".toList, Json.str []) ∈ bundleShape.membersAt resolutionPath bundle := by
    have all : bundleShape.membersAt resolutionPath bundle =
        [("status".toList, .str "UNRESOLVED"), ("PRINCIPAL_ID".toList, .str [])] := rfl
    rw [all]
    simp
  exact absent.unresolved rfl _ member "principal_id".toList (by decide) (by decide)

end Sample

/-- Accepted documents whose second key for a field differs in case: the fields are filled
twice, and a bundle has a member that has to be absent. -/
theorem case_variants_accepted :
    (∃ b, decodeBundle (Text.bytes (render Sample.bundle)) = some b ∧
      parse (render Sample.bundle) = some Sample.bundle ∧
      ¬ bundleShape.Unambiguous Sample.bundle ∧ ¬ AbsentFields Sample.bundle b) ∧
    (decodeAuthority (render Sample.expectation) = some Sample.want ∧
      authorityDocument Sample.expectationShape (Text.bytes (render Sample.expectation)) = some Sample.expectation ∧
      ¬ Sample.expectationShape.Unambiguous Sample.expectation) ∧
    (contextDocument (Text.bytes (render Sample.context)) = some Sample.context ∧
      ¬ contextShape.Unambiguous Sample.context) ∧
    (nativeDocument Sample.nativeSessionShape (Text.bytes (render Sample.session)) = some Sample.session ∧
      ¬ Sample.nativeSessionShape.Unambiguous Sample.session) := by
  have short : ¬ 65536 < (render Sample.expectation).size := by
    rw [size_render]
    decide +kernel
  have nonempty : (render Sample.expectation).isEmpty = false := by decide +kernel
  have decoded : Codec.decode Sample.expectation = some Sample.want := by decide +kernel
  refine ⟨⟨_, Sample.bundle_decoded, parse_render _ Sample.plain_bundle,
    Sample.bundle_ambiguous, Sample.bundle_disguised⟩,
    ⟨?_, ?_, ?_⟩, ⟨?_, ?_⟩, ?_, ?_⟩
  · rw [decodeAuthority, if_neg (by simp [nonempty, short]), parse_render _ Sample.plain_expectation]
    exact (if_pos (uniqueJSON_plain _ Sample.plain_expectation)).trans decoded
  · have bytes : (Text.bytes (render Sample.expectation)).isEmpty = false := by decide +kernel
    rw [authorityDocument, if_neg (by rw [bytes, Text.length_bytes]; simp [short]), Text.ofBytes_bytes,
      parse_render _ Sample.plain_expectation, Option.filter_some,
      if_pos (by rw [uniqueJSON_plain _ Sample.plain_expectation]; decide +kernel)]
  · have two : 2 ≤ (Shape.filling (names ReferenceExpectation.fields) "TrustID".toList
        (("TRUSTID", .str "other") :: (encodeFields ReferenceExpectation.fields Sample.want).getD [])).length := by
      decide
    exact Sample.twice two
  · rw [contextDocument, if_neg (by decide), Text.ofBytes_bytes,
      parse_render _ Sample.plain_context, Option.filter_some,
      if_pos (by decide +kernel)]
  · have two : 2 ≤ (Shape.filling ["context_id", "tenant_id", "expires_at"] "context_id"
        [("CONTEXT_ID", .str "other"), ("context_id", .str "mine"), ("tenant_id", .str "t"),
          ("expires_at", .str "2030-01-01T00:00:00Z")]).length := by
      decide
    exact Sample.twice two
  · rw [nativeDocument, if_neg (by decide), Text.ofBytes_bytes,
      parse_render _ Sample.plain_session, Option.filter_some,
      if_pos (by decide +kernel)]
  · intro clear
    have inner := clear.2 _ (List.mem_singleton_self _) "identity".toList (by decide)
    have two : 2 ≤ (Shape.filling ["id", "state"] "id" [("ID", .str "mallory"), ("id", .str "alice")]).length := by
      decide
    exact Sample.twice two inner

end StrictDecoding
