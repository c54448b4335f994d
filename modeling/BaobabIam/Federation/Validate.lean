import BaobabIam.Base.Url
import BaobabIam.Federation.Ports

/-! The structural checks of the package: the identifier patterns, scopes and
bindings, expectations, and the lifecycle record of a trust. A check that
returns an error in the source is false here: each has one error only. -/
namespace Federation

def isHex (c : Char) : Bool :=
  ('0' ≤ c && c ≤ '9') || ('a' ≤ c && c ≤ 'f') || ('A' ≤ c && c ≤ 'F')
def isLowerHex (c : Char) : Bool := ('0' ≤ c && c ≤ '9') || ('a' ≤ c && c ≤ 'f')
def isLowerAlnum (c : Char) : Bool := ('a' ≤ c && c ≤ 'z') || ('0' ≤ c && c ≤ '9')

def matchClasses : List (Char → Bool) → Text → Bool
  | [], [] => true
  | p :: ps, c :: t => p c && matchClasses ps t
  | _, _ => false

def uuidClasses : List (Char → Bool) :=
  List.replicate 8 isHex ++ (· == '-') :: List.replicate 4 isHex ++ (· == '-') ::
    List.replicate 4 isHex ++ (· == '-') :: List.replicate 4 isHex ++ (· == '-') ::
    List.replicate 12 isHex

def uuidPattern (t : Text) : Bool := matchClasses uuidClasses t

/-- A fixed beginning, then one or more lower-case letters and digits. -/
def prefixedName (beginning t : Text) : Bool :=
  beginning.isPrefixOf t && !(t.drop beginning.length).isEmpty && (t.drop beginning.length).all isLowerAlnum

def refPattern (t : Text) : Bool := prefixedName "ref_" t
def providerPattern (t : Text) : Bool := prefixedName "provider_" t
def instancePattern (t : Text) : Bool := prefixedName "ei_" t

def entityPattern : Text → Bool
  | [] => false
  | c :: t => Url.isAlnum c && t.all (fun d => Url.isAlnum d || ("._:-".toList).contains d)

/-- Words of lower-case letters and digits, joined by single underscores. -/
def estateTail : Bool → Text → Bool
  | afterWord, [] => afterWord
  | afterWord, c :: t => if c = '_' then afterWord && estateTail false t else isLowerAlnum c && estateTail true t

def estatePattern : Text → Bool
  | [] => false
  | c :: t => ('a' ≤ c && c ≤ 'z') && estateTail true t

def digestPattern (t : Text) : Bool :=
  ("sha256:".toList).isPrefixOf t && matchClasses (List.replicate 64 isLowerHex) (t.drop 7)

export Text (isSpace)

def trimmed (t : Text) : Bool := !(t.head?.any isSpace) && !(t.getLast?.any isSpace)

def validRef (s : Text) : Bool := 8 ≤ s.size && s.size ≤ 63 && refPattern s
def exact (s : Text) : Bool := !s.isEmpty && s.size ≤ 512 && trimmed s

def validBinding (b : Binding) : Bool :=
  10 ≤ b.providerID.size && b.providerID.size ≤ 63 && providerPattern b.providerID &&
  6 ≤ b.engineInstanceID.size && b.engineInstanceID.size ≤ 63 && instancePattern b.engineInstanceID &&
  validRef b.configurationReference && validRef b.trustMaterialReference

def validScope (s : Scope) : Bool :=
  0 < s.organisationID.size && s.organisationID.size ≤ 128 && entityPattern s.organisationID &&
  3 ≤ s.estateID.size && s.estateID.size ≤ 63 && estatePattern s.estateID

def uniqueScopeFrom (estate : Bool) (seen : List Text) : List Text → Bool
  | [] => true
  | id :: ids =>
    !seen.contains id &&
      (if estate then validScope ⟨"org", id⟩ else validScope ⟨id, "estate"⟩) &&
      uniqueScopeFrom estate (id :: seen) ids

def uniqueScope (ids : List Text) (estate : Bool) : Bool :=
  1 ≤ ids.length && ids.length ≤ 64 && uniqueScopeFrom estate [] ids

def fresh (validFrom until_ now : Time) : Bool :=
  !validFrom.isZero && !until_.isZero && !now.before validFrom && now.before until_

/-- The issuer is a URL without white space; for OIDC a plain https URL. -/
def validIssuer (protocol : Protocol) (issuer : Text) : Bool :=
  match Url.parse issuer with
  | none => false
  | some u =>
    !u.scheme.isEmpty && issuer.size ≤ 2048 && !issuer.any (fun c => [' ', '\t', '\r', '\n'].contains c) &&
    match protocol with
    | .oidc => u.scheme == "https".toList && !u.hostname.isEmpty && u.user.isNone && u.rawQuery.isEmpty &&
        !u.forceQuery && u.fragment.isEmpty
    | .saml2 => true
    | .other .. => false

/-- The status is declared, and the times of a trust record agree with it and each other. -/
def validLifecycle (t : Trust) : Bool :=
  !t.createdAt.isZero && !t.updatedAt.before t.createdAt &&
  (match t.activatedAt with
    | none => true
    | some a => !a.before t.createdAt && !a.after t.updatedAt) &&
  (t.status != .active || t.activatedAt.isSome && validRef t.activationEvidenceReference) &&
  (t.activationEvidenceReference.isEmpty || validRef t.activationEvidenceReference) &&
  (match t.status, t.revokedAt with
    | .revoked, none => false
    | .revoked, some r => !r.before t.createdAt && !r.after t.updatedAt &&
        (match t.activatedAt with
          | none => true
          | some a => !r.before a)
    | .other .., _ => false
    | _, r => r.isNone)

def validateTrust (t : Trust) : Bool :=
  uuidPattern t.id && validBinding t.providerBinding && 1 ≤ t.revision &&
  uniqueScope t.organisationIDs false && uniqueScope t.estateIDs true &&
  validRef t.assurancePolicyReference && validRef t.attributeMappingReference &&
  validRef t.provisioningPolicyReference && validIssuer t.protocol t.upstreamIssuer && validLifecycle t

def validExpectation (w : ReferenceExpectation) : Bool :=
  validRef w.id && uuidPattern w.trustID &&
  (!w.snapshotID.isEmpty && w.snapshotID.size ≤ 128 && trimmed w.snapshotID) && 1 ≤ w.trustRevision &&
  validScope w.scope &&
  (10 ≤ w.providerID.size && w.providerID.size ≤ 63 && providerPattern w.providerID) &&
  (6 ≤ w.engineInstanceID.size && w.engineInstanceID.size ≤ 63 && instancePattern w.engineInstanceID) &&
  match w.kind with
  | .assuranceMappingDecision =>
    !w.issuer.isEmpty && w.issuer.size ≤ 2048 && uuidPattern w.eventID && exact w.subject &&
    ["BAOBAB-A1".toList, "BAOBAB-A2".toList, "BAOBAB-A3".toList].contains w.level &&
    digestPattern w.evidenceDigest && w.principalID.isEmpty && w.externalIdentityID.isEmpty
  | .canonicalIdentityMapping =>
    !w.issuer.isEmpty && w.issuer.size ≤ 2048 && exact w.subject && uuidPattern w.principalID &&
    uuidPattern w.externalIdentityID && w.eventID.isEmpty && w.level.isEmpty && w.evidenceDigest.isEmpty
  | _ =>
    w.eventID.isEmpty && w.issuer.isEmpty && w.subject.isEmpty && w.level.isEmpty &&
    w.evidenceDigest.isEmpty && w.principalID.isEmpty && w.externalIdentityID.isEmpty

/-- Bytes 6 and 8 carry the version and the variant. -/
def uuidText (b : BitVec 128) : Text :=
  let marked := b &&& 0xFFFFFFFFFFFF0FFF3FFFFFFFFFFFFFFF ||| 0x00000000000040008000000000000000
  let hex := Text.padded 16 32 marked.toNat
  hex.take 8 ++ '-' :: (hex.drop 8).take 4 ++ '-' :: (hex.drop 12).take 4 ++ '-' ::
    (hex.drop 16).take 4 ++ '-' :: hex.drop 20

example : uuidText 0 = "00000000-0000-4000-8000-000000000000" := by decide +kernel

section Sizes

/- The checks bound the length of what they accept, and identifiers are ASCII. -/

variable {c : Char} {t s : Text} {ps : List (Char → Bool)} {p : Char → Bool}

theorem isHex_size (h : isHex c = true) : c.utf8Size = 1 := by
  simp only [isHex, Bool.or_eq_true, Bool.and_eq_true, decide_eq_true_eq, Char.le_def] at h
  unfold Char.utf8Size
  rw [if_pos]
  rcases h with (h | h) | h
  · exact UInt32.le_trans h.2 (by decide)
  · exact UInt32.le_trans h.2 (by decide)
  · exact UInt32.le_trans h.2 (by decide)

theorem matchClasses_size (ascii : ∀ p ∈ ps, ∀ c, p c = true → c.utf8Size = 1)
    (h : matchClasses ps t = true) : t.size = ps.length := by
  induction ps generalizing t with
  | nil =>
    cases t with
    | nil => rfl
    | cons c t => cases h
  | cons p ps ih =>
    cases t with
    | nil => cases h
    | cons c t =>
      simp only [matchClasses, Bool.and_eq_true] at h
      have rest := ih (fun q hq => ascii q (List.mem_cons_of_mem _ hq)) h.2
      have one := ascii p List.mem_cons_self c h.1
      simp only [Text.size_cons, one, rest, List.length_cons]
      omega

theorem uuidClasses_mem (hp : p ∈ uuidClasses) : p = isHex ∨ p = (· == '-') := by
  simp only [uuidClasses, List.mem_append, List.mem_cons, List.mem_replicate] at hp
  tauto

theorem uuid_size (h : uuidPattern t = true) : t.size = 36 := by
  refine matchClasses_size ?_ h
  intro p hp c hc
  rcases uuidClasses_mem hp with rfl | rfl
  · exact isHex_size hc
  · rw [beq_iff_eq.mp hc]
    decide

theorem validRef_size (h : validRef t = true) : t.size ≤ 63 := by
  simp only [validRef, Bool.and_eq_true, decide_eq_true_eq] at h
  exact h.1.2

theorem exact_size (h : exact t = true) : t.size ≤ 512 := by
  simp only [exact, Bool.and_eq_true, decide_eq_true_eq] at h
  exact h.1.2

theorem validScope_size {s : Scope} (h : validScope s = true) :
    s.organisationID.size ≤ 128 ∧ s.estateID.size ≤ 63 := by
  simp only [validScope, Bool.and_eq_true, decide_eq_true_eq] at h
  tauto

theorem validBinding_size {b : Binding} (h : validBinding b = true) :
    b.providerID.size ≤ 63 ∧ b.engineInstanceID.size ≤ 63 ∧
    b.configurationReference.size ≤ 63 ∧ b.trustMaterialReference.size ≤ 63 := by
  simp only [validBinding, Bool.and_eq_true, decide_eq_true_eq] at h
  have c : validRef b.configurationReference = true := by tauto
  have m : validRef b.trustMaterialReference = true := by tauto
  exact ⟨by tauto, by tauto, validRef_size c, validRef_size m⟩

theorem validIssuer_size {protocol : Protocol} {issuer : Text} (h : validIssuer protocol issuer = true) :
    issuer.size ≤ 2048 := by
  unfold validIssuer at h
  split at h
  · cases h
  · simp only [Bool.and_eq_true, decide_eq_true_eq] at h
    exact h.1.1.2

theorem matchClasses_mem (h : matchClasses ps t = true)
    (hc : c ∈ t) : ∃ p ∈ ps, p c = true := by
  induction ps generalizing t with
  | nil =>
    cases t with
    | nil => cases hc
    | cons c t => cases h
  | cons p ps ih =>
    cases t with
    | nil => cases hc
    | cons d t =>
      simp only [matchClasses, Bool.and_eq_true] at h
      rcases List.mem_cons.mp hc with rfl | hc
      · exact ⟨p, List.mem_cons_self, h.1⟩
      · obtain ⟨q, hq, hqc⟩ := ih h.2 hc
        exact ⟨q, List.mem_cons_of_mem _ hq, hqc⟩

theorem uuid_char (h : uuidPattern t = true) (hc : c ∈ t) :
    isHex c = true ∨ c = '-' := by
  obtain ⟨p, hp, hpc⟩ := matchClasses_mem h hc
  rcases uuidClasses_mem hp with rfl | rfl
  · exact Or.inl hpc
  · exact Or.inr (beq_iff_eq.mp hpc)

theorem isHex_not_space (h : isHex c = true ∨ c = '-') : isSpace c = false := by
  rcases h with h | rfl
  · have range : (48 ≤ c.toNat ∧ c.toNat ≤ 57) ∨ (97 ≤ c.toNat ∧ c.toNat ≤ 102) ∨
        (65 ≤ c.toNat ∧ c.toNat ≤ 70) := by
      simp only [isHex, Bool.or_eq_true, Bool.and_eq_true, decide_eq_true_eq, Char.le_def,
        UInt32.le_iff_toNat_le] at h
      simp only [Char.toNat]
      rcases h with (h | h) | h
      · exact Or.inl h
      · exact Or.inr (Or.inl h)
      · exact Or.inr (Or.inr h)
    simp only [isSpace, List.contains_cons, List.contains_nil, Bool.or_false, Bool.or_eq_false_iff,
      beq_eq_false_iff_ne, ne_eq, Bool.and_eq_false_iff, decide_eq_false_iff_not]
    omega
  · decide

theorem uuid_exact (h : uuidPattern t = true) : exact t = true := by
  have size := uuid_size h
  have plain : ∀ c ∈ t, isSpace c = false := fun c hc => isHex_not_space (uuid_char h hc)
  cases t with
  | nil => cases h
  | cons c t =>
    have tip : isSpace c = false := plain c List.mem_cons_self
    have tail : ((c :: t).getLast?.any isSpace) = false := by
      rw [List.getLast?_eq_getLast_of_ne_nil (by simp)]
      simpa using plain _ (List.getLast_mem _)
    simp [exact, trimmed, tip, tail, size]

theorem matchClasses_append {qs : List (Char → Bool)} (hs : matchClasses ps s = true)
    (ht : matchClasses qs t = true) : matchClasses (ps ++ qs) (s ++ t) = true := by
  induction ps generalizing s with
  | nil =>
    cases s with
    | nil => exact ht
    | cons c s => cases hs
  | cons p ps ih =>
    cases s with
    | nil => cases hs
    | cons c s =>
      simp only [matchClasses, Bool.and_eq_true, List.cons_append] at hs ⊢
      exact ⟨hs.1, ih hs.2⟩

theorem matchClasses_replicate (n : Nat) (len : s.length = n)
    (all : ∀ c ∈ s, p c = true) : matchClasses (List.replicate n p) s = true := by
  subst len
  induction s with
  | nil => rfl
  | cons c s ih =>
    simp only [List.length_cons, List.replicate_succ, matchClasses, Bool.and_eq_true]
    exact ⟨all c List.mem_cons_self, ih (fun d hd => all d (List.mem_cons_of_mem _ hd))⟩

theorem uuidText_pattern (b : BitVec 128) : uuidPattern (uuidText b) = true := by
  unfold uuidText
  simp only
  generalize BitVec.toNat _ = n
  have hexes : ∀ c ∈ Text.padded 16 32 n, isHex c = true := by
    intro c hc
    obtain ⟨d, hd, rfl⟩ := Text.padded_mem (by decide) (by decide) hc
    have all : ∀ d : Fin 16, isHex (Text.digitChar d) = true := by decide
    exact all ⟨d, hd⟩
  have len : (Text.padded 16 32 n).length = 32 := Text.padded_length 16 32 n
  have part : ∀ i w, i + w ≤ 32 → matchClasses (List.replicate w isHex)
      (((Text.padded 16 32 n).drop i).take w) = true := by
    intro i w h
    refine matchClasses_replicate w (by simp; omega) ?_
    intro c hc
    exact hexes c (List.mem_of_mem_drop (List.mem_of_mem_take hc))
  have dash : matchClasses [(· == '-')] ['-'] = true := by decide
  have tail : ((Text.padded 16 32 n).drop 20).take 12 = (Text.padded 16 32 n).drop 20 :=
    List.take_of_length_le (by simp [len])
  have whole := matchClasses_append (part 0 8 (by decide)) (matchClasses_append dash
    (matchClasses_append (part 8 4 (by decide)) (matchClasses_append dash
    (matchClasses_append (part 12 4 (by decide)) (matchClasses_append dash
    (matchClasses_append (part 16 4 (by decide)) (matchClasses_append dash (part 20 12 (by decide)))))))))
  rw [tail] at whole
  simpa [uuidPattern, uuidClasses] using whole

end Sizes

end Federation
