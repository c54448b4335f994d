import BaobabIam.StrictDecoding

/-! Evidence bundles survive encoding. The decoder refuses members that have to be absent
by their presence alone; the encoder omits them exactly because validation has made
their values empty. -/
namespace StrictDecoding

open Wire Federation

section Encoding

variable {α : Type} {fs : List (RecordField α)} {a : α} {ms : Members}

theorem encoded_member (h : encodeFields fs a = some ms) {m : Text × Json} (member : m ∈ ms) :
    ∃ f ∈ fs, m.1 = f.name ∧ f.omitted (f.get a) = false ∧ f.codec.encode (f.get a) = some m.2 := by
  induction fs generalizing ms with
  | nil =>
    cases h
    cases member
  | cons f fs ih =>
    rw [encodeFields] at h
    split at h
    · obtain ⟨g, inside, rest⟩ := ih h member
      exact ⟨g, List.mem_cons_of_mem _ inside, rest⟩
    · rename_i written
      simp only [Option.bind_eq_some_iff, Option.map_eq_some_iff] at h
      obtain ⟨j, encoded, others, later, rfl⟩ := h
      rcases List.mem_cons.mp member with rfl | member
      · exact ⟨f, List.mem_cons_self, rfl, by simpa using written, encoded⟩
      · obtain ⟨g, inside, rest⟩ := ih later member
        exact ⟨g, List.mem_cons_of_mem _ inside, rest⟩

theorem field_eq (distinct : (names fs).Nodup) {f g : RecordField α} (inside : f ∈ fs) {i : Nat}
    (place : fs[i]? = some g) (same : f.name = g.name) : f = g :=
  List.inj_on_of_nodup_map distinct inside (List.mem_of_getElem? place) same

/-- The members below a field of a struct, in the document of a record, are in what is
written of that field, when no other name fills it. -/
theorem encoded_below {i : Nat} {g : RecordField α} (place : fs[i]? = some g) (distinct : (names fs).Nodup)
    {known path : List Text} {inner : Text → Shape}
    (only : ∀ name ∈ names fs, fieldFor known name = some g.name → name = g.name)
    (h : encodeFields fs a = some ms) {m : Text × Json}
    (member : m ∈ (Shape.struct known inner).membersAt (g.name :: path) (.obj ms)) :
    ∃ j, g.codec.encode (g.get a) = some j ∧ m ∈ (inner g.name).membersAt path j := by
  obtain ⟨outer, found, below⟩ := List.mem_flatMap.mp member
  obtain ⟨there, fills⟩ := List.mem_filter.mp found
  obtain ⟨f, inside, named, -, encoded⟩ := encoded_member h there
  have same := only f.name (List.mem_map_of_mem inside) (by rw [← named]; simpa using fills)
  obtain rfl := field_eq distinct inside place same
  exact ⟨outer.2, encoded, below⟩

end Encoding

section Times

def times (b : Bundle) : List Time :=
  [b.trust.createdAt, b.trust.updatedAt] ++ b.trust.activatedAt.toList ++ b.trust.revokedAt.toList ++
  [b.externalPrincipal.observedAt, b.externalPrincipal.expiresAt] ++ b.externalPrincipal.resolution.resolvedAt.toList ++
  (b.assurance.upstreamEvidence.oidc.toList.flatMap (fun e => e.authenticatedAt :: e.stepUpAt.toList)) ++
  (b.assurance.upstreamEvidence.saml.toList.flatMap (fun e => [e.authenticatedAt, e.sessionExpiresAt])) ++
  [b.assurance.evaluatedAt, b.assurance.expiresAt]

@[simp] theorem encodes_resolutionStatus (s : ResolutionStatus) : (Codec.encode s).isSome = true := rfl
@[simp] theorem encodes_mappingStatus (s : MappingStatus) : (Codec.encode s).isSome = true := rfl

@[simp] theorem encodes_resolution (r : Resolution) : (Codec.encode r).isSome =
    r.resolvedAt.all (fun t => decide t.Representable) := by
  have h : (Codec.encode r).isSome = Resolution.fields.all _ := record_encodes Resolution.fields r
  rw [h]
  simp [Resolution.fields, RecordField.of, RecordField.omitEmpty]

@[simp] theorem encodes_principal (p : ExternalPrincipal) : (Codec.encode p).isSome =
    (decide p.observedAt.Representable && (decide p.expiresAt.Representable &&
      p.resolution.resolvedAt.all (fun t => decide t.Representable))) := by
  have h : (Codec.encode p).isSome = ExternalPrincipal.fields.all _ := record_encodes ExternalPrincipal.fields p
  rw [h]
  simp [ExternalPrincipal.fields, RecordField.of]

@[simp] theorem encodes_oidc (e : OIDCAssurance) : (Codec.encode e).isSome =
    (decide e.authenticatedAt.Representable && e.stepUpAt.all (fun t => decide t.Representable)) := by
  have h : (Codec.encode e).isSome = OIDCAssurance.fields.all _ := record_encodes OIDCAssurance.fields e
  rw [h]
  simp [OIDCAssurance.fields, RecordField.of, RecordField.omitEmpty]

@[simp] theorem encodes_saml (e : SAMLAssurance) : (Codec.encode e).isSome =
    (decide e.authenticatedAt.Representable && decide e.sessionExpiresAt.Representable) := by
  have h : (Codec.encode e).isSome = SAMLAssurance.fields.all _ := record_encodes SAMLAssurance.fields e
  rw [h]
  simp [SAMLAssurance.fields, RecordField.of]

@[simp] theorem encodes_evidence (u : UpstreamEvidence) : (Codec.encode u).isSome =
    (u.oidc.all (fun e => (Codec.encode e).isSome) && u.saml.all (fun e => (Codec.encode e).isSome)) := by
  have h : (Codec.encode u).isSome = UpstreamEvidence.fields.all _ := record_encodes UpstreamEvidence.fields u
  rw [h]
  simp [UpstreamEvidence.fields, RecordField.omitEmpty]

@[simp] theorem encodes_assurance (a : Assurance) : (Codec.encode a).isSome =
    ((Codec.encode a.upstreamEvidence).isSome && (decide a.evaluatedAt.Representable &&
      decide a.expiresAt.Representable)) := by
  have h : (Codec.encode a).isSome = Assurance.fields.all _ := record_encodes Assurance.fields a
  rw [h]
  simp [Assurance.fields, RecordField.of, RecordField.omitEmpty]

theorem bundle_encodes {b : Bundle} (representable : ∀ t ∈ times b, t.Representable) :
    (Codec.encode b).isSome = true := by
  have h : (Codec.encode b).isSome = Bundle.fields.all _ := record_encodes Bundle.fields b
  have listed : ∀ (o : Option Time), (∀ t ∈ o.toList, t.Representable) →
      o.all (fun t => decide t.Representable) = true := by
    intro o all
    cases o with
    | none => rfl
    | some t => simpa using all
  simp only [times, List.forall_mem_append, List.forall_mem_cons, List.not_mem_nil, false_imp_iff, implies_true,
    and_true] at representable
  obtain ⟨⟨⟨⟨⟨⟨⟨created, activated⟩, revoked⟩, observed⟩, resolved⟩, oidc⟩, saml⟩,
    evaluated⟩ := representable
  rw [h]
  simp only [Bundle.fields, RecordField.of, List.all_cons, List.all_nil, Bool.false_or, Bool.and_true, encodes_trust,
    encodes_principal, encodes_assurance, encodes_evidence, Bool.and_eq_true, decide_eq_true_eq]
  refine ⟨⟨created.1, created.2, listed _ activated, listed _ revoked⟩,
    ⟨observed.1, observed.2, listed _ resolved⟩, ⟨?_, ?_⟩, evaluated⟩
  · cases found : b.assurance.upstreamEvidence.oidc with
    | none => rfl
    | some e =>
      simp only [found, Option.toList_some, List.flatMap_singleton, List.forall_mem_cons] at oidc
      simp only [Option.all_some, encodes_oidc, Bool.and_eq_true, decide_eq_true_eq]
      exact ⟨oidc.1, listed _ oidc.2⟩
  · cases found : b.assurance.upstreamEvidence.saml with
    | none => rfl
    | some e =>
      simp only [found, Option.toList_some, List.flatMap_singleton, List.forall_mem_cons] at saml
      simp only [Option.all_some, encodes_saml, Bool.and_eq_true, decide_eq_true_eq]
      exact ⟨saml.1, saml.2.1⟩

end Times

section Bundles

variable {j : Json} {b : Bundle}

theorem not_listed {path : List Text} {fields : List Text}
    (h : ∀ m ∈ rawShape.membersAt path j, m.1 ∉ fields) : fields.all (fun f => !present j path f) = true := by
  rw [List.all_eq_true]
  intro f field
  simp only [present, Bool.not_eq_true', List.any_eq_false, beq_iff_eq]
  rintro m member rfl
  exact h m member field

theorem resolution_members (h : Codec.encode b = some j) :
    ∀ m ∈ rawShape.membersAt resolutionPath j, ∃ f ∈ Resolution.fields, m.1 = f.name ∧
      f.omitted (f.get b.externalPrincipal.resolution) = false := by
  intro m member
  obtain ⟨ms, encoded, rfl⟩ := Option.map_eq_some_iff.mp h
  obtain ⟨k, written, below⟩ :=
    encoded_below (show Bundle.fields[1]? = some _ from rfl) (by decide) (by decide) encoded member
  obtain ⟨ps, principal, rfl⟩ := Option.map_eq_some_iff.mp written
  obtain ⟨k, written, below⟩ :=
    encoded_below (show ExternalPrincipal.fields[10]? = some _ from rfl) (by decide) (by decide) principal below
  obtain ⟨rs, resolution, rfl⟩ := Option.map_eq_some_iff.mp written
  obtain ⟨r, known, name, present, -⟩ := encoded_member resolution below
  exact ⟨r, known, name, present⟩

theorem assurance_members (h : Codec.encode b = some j) :
    ∀ m ∈ rawShape.membersAt assurancePath j, ∃ f ∈ Assurance.fields, m.1 = f.name ∧
      f.omitted (f.get b.assurance) = false := by
  intro m member
  obtain ⟨ms, encoded, rfl⟩ := Option.map_eq_some_iff.mp h
  obtain ⟨k, written, below⟩ :=
    encoded_below (show Bundle.fields[2]? = some _ from rfl) (by decide) (by decide) encoded member
  obtain ⟨ps, assurance, rfl⟩ := Option.map_eq_some_iff.mp written
  obtain ⟨g, known, name, present, -⟩ := encoded_member assurance below
  exact ⟨g, known, name, present⟩

theorem trust_members (h : Codec.encode b = some j) :
    ∀ m ∈ rawShape.membersAt trustPath j, ∃ f ∈ Trust.fields, m.1 = f.name ∧
      f.omitted (f.get b.trust) = false := by
  intro m member
  obtain ⟨ms, encoded, rfl⟩ := Option.map_eq_some_iff.mp h
  obtain ⟨k, written, below⟩ :=
    encoded_below (show Bundle.fields[0]? = some _ from rfl) (by decide) (by decide) encoded member
  obtain ⟨ps, trust, rfl⟩ := Option.map_eq_some_iff.mp written
  obtain ⟨g, known, name, present, -⟩ := encoded_member trust below
  exact ⟨g, known, name, present⟩

theorem unresolved_omitted {p : ExternalPrincipal} (valid : validResolution p = true)
    (status : p.resolution.status = .unresolved) :
    ∀ f ∈ Resolution.fields, f.name ∈ resolvedFields → f.omitted (f.get p.resolution) = true := by
  simp only [validResolution, status, Bool.and_eq_true] at valid
  obtain ⟨⟨⟨⟨principal, identity⟩, reference⟩, basis⟩, at_⟩ := valid
  intro f known forbidden
  simp only [Resolution.fields, List.mem_cons, List.not_mem_nil, or_false] at known
  rcases known with rfl | rfl | rfl | rfl | rfl | rfl
  · exact absurd forbidden (by decide)
  · exact principal
  · exact identity
  · exact reference
  · exact basis
  · exact at_

theorem unknown_omitted {a : Assurance} (valid : validMapping a = true) (status : a.mappingStatus = .unknown) :
    ∀ f ∈ Assurance.fields, f.name ∈ mappedFields → f.omitted (f.get a) = true := by
  simp only [validMapping, status, Bool.and_eq_true] at valid
  have distinct : (names Assurance.fields).Nodup := by decide
  intro f known forbidden
  simp only [mappedFields, List.mem_cons, List.not_mem_nil, or_false] at forbidden
  rcases forbidden with level | evidence
  · obtain rfl := field_eq distinct known (show Assurance.fields[9]? = some _ from rfl) level
    exact valid.1
  · obtain rfl := field_eq distinct known (show Assurance.fields[11]? = some _ from rfl) evidence
    exact valid.2

theorem activation_referenced {t : Trust} (valid : validateTrust t = true) : ∀ f ∈ Trust.fields,
    f.name = "activation_evidence_reference".toList → f.omitted (f.get t) = false →
      validRef t.activationEvidenceReference = true := by
  intro f known name written
  obtain rfl := field_eq (by decide) known (show Trust.fields[13]? = some _ from rfl) name
  simp only [validateTrust, validLifecycle, Bool.and_eq_true, Bool.or_eq_true] at valid
  obtain ⟨-, ⟨⟨-, -⟩, reference⟩, -⟩ := valid
  exact reference.resolve_left (fun empty => Bool.noConfusion (empty.symm.trans written))

theorem valid_permitted (valid : validateBundle b = true) (h : Codec.encode b = some j) : permitted j b = true := by
  simp only [validateBundle, Bool.and_eq_true] at valid
  obtain ⟨⟨⟨⟨⟨trust, -⟩, -⟩, resolution⟩, mapping⟩, -⟩ := valid
  simp only [permitted, Bool.and_eq_true, Bool.or_eq_true, bne_iff_ne, or_iff_not_imp_left, not_not]
  refine ⟨⟨?_, ?_⟩, ?_⟩
  · intro status
    apply not_listed
    intro m member forbidden
    obtain ⟨f, known, name, written⟩ := resolution_members h m member
    rw [unresolved_omitted resolution status f known (name ▸ forbidden)] at written
    cases written
  · intro status
    apply not_listed
    intro m member forbidden
    obtain ⟨f, known, name, written⟩ := assurance_members h m member
    rw [unknown_omitted mapping status f known (name ▸ forbidden)] at written
    cases written
  · intro shown
    simp only [present, Bool.not_eq_true', Bool.not_eq_false, List.any_eq_true, beq_iff_eq] at shown
    obtain ⟨m, member, exactly⟩ := shown
    obtain ⟨f, known, name, written⟩ := trust_members h m member
    exact activation_referenced trust f known (name.symm.trans exactly) written

theorem bundle_survives_encoding (b : Bundle) (valid : validateBundle b = true)
    (representable : ∀ t ∈ times b, t.Representable) (small : (marshal b).size ≤ 65536) :
    decodeBundle (Text.bytes (marshal b)) = some b := by
  obtain ⟨j, encoded⟩ := Option.isSome_iff_exists.mp (bundle_encodes representable)
  have plain := Codec.plain_encode b j encoded
  have decoded := Codec.decode_encode b j encoded
  rw [decodeBundle, if_neg (Nat.not_lt.mpr ((Text.length_bytes _).trans_le small)), Text.ofBytes_bytes,
    marshal_encode encoded, parse_render j plain, Option.bind_some, if_pos (uniqueJSON_plain j plain), decoded,
    Option.filter_some,
    if_pos (by rw [valid_permitted valid encoded, valid]; rfl)]

def sampleBundle : Bundle := ⟨Consumer.Sample.trust, Consumer.Sample.principal, Sample.assurance⟩

theorem sample_survives_encoding : decodeBundle (Text.bytes (marshal sampleBundle)) = some sampleBundle :=
  bundle_survives_encoding sampleBundle (by decide) (by decide) (by rw [size_marshal]; decide)

end Bundles

end StrictDecoding
