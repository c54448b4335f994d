import Mathlib.Data.Finmap
import Mathlib.Data.Finset.Sort
import Mathlib.Data.List.Lex
import Mathlib.Data.Char
import BaobabIam.Base.Bytes
import BaobabIam.Base.JsonIndent
import BaobabIam.Federation.Decoding

/-! The evidence of a qualification run. The recorder closes its result, writes it on
several lines and puts a checksum beside it; the verifier reads the bytes strictly and
looks at every field again. Both accept the same evidence. -/
namespace Qualification

open Wire

section Flags

abbrev Checks := Finmap (fun _ : Text => Bool)

def Checks.entries (m : Checks) : List (Text × Bool) := (m.keys.sort).map (fun k => (k, (m.lookup k).getD false))

def Checks.with (m : Checks) (es : List (Text × Bool)) : Checks := es.foldl (fun m e => m.insert e.1 e.2) m

theorem lookup_with (m : Checks) (es : List (Text × Bool)) (once : (es.map Prod.fst).Nodup) (k : Text) :
    (Checks.with m es).lookup k = (es.lookup k).or (m.lookup k) := by
  induction es generalizing m with
  | nil => rfl
  | cons e es ih =>
    obtain ⟨key, b⟩ := e
    rw [List.map_cons, List.nodup_cons] at once
    have rest := ih (m.insert key b) once.2
    rw [show Checks.with m ((key, b) :: es) = Checks.with (m.insert key b) es from rfl, rest, List.lookup_cons]
    by_cases here : k = key
    · subst here
      have absent : es.lookup k = none := by
        rw [List.lookup_eq_none_iff]
        intro e member
        have other : k ≠ e.1 := fun same => once.1 (List.mem_map.mpr ⟨e, member, same.symm⟩)
        simpa using other
      rw [absent, Finmap.lookup_insert, beq_self_eq_true]
      rfl
    · rw [Finmap.lookup_insert_of_ne _ here, beq_false_of_ne here]

theorem entries_keys (m : Checks) : (m.entries).map Prod.fst = m.keys.sort := by
  rw [Checks.entries, List.map_map]
  exact List.map_id _

theorem entries_once (m : Checks) : (m.entries.map Prod.fst).Nodup := by
  rw [entries_keys]
  exact Finset.sort_nodup _ _

theorem lookup_entries (m : Checks) (k : Text) : m.entries.lookup k = m.lookup k := by
  have found : ∀ ks : List Text, (ks.map (fun k => (k, (m.lookup k).getD false))).lookup k =
      if k ∈ ks then some ((m.lookup k).getD false) else none := by
    intro ks
    induction ks with
    | nil => rfl
    | cons key ks ih =>
      rw [List.map_cons, List.lookup_cons, ih]
      by_cases here : k = key
      · subst here
        simp
      · rw [beq_false_of_ne here]
        simp [here]
  have member : k ∈ m.keys.sort ↔ k ∈ m := by
    rw [Finset.mem_sort, Finmap.mem_keys]
  rw [Checks.entries, found]
  cases value : m.lookup k with
  | none =>
    have absent : k ∉ m := fun there => by
      have some_ := Finmap.lookup_isSome.mpr there
      rw [value] at some_
      cases some_
    rw [if_neg (mt member.mp absent)]
  | some b =>
    have there : k ∈ m := Finmap.lookup_isSome.mp (by rw [value]; rfl)
    rw [if_pos (member.mpr there)]
    rfl

theorem with_entries (m : Checks) : Checks.with ∅ m.entries = m := by
  apply Finmap.ext_lookup
  intro k
  rw [lookup_with _ _ (entries_once m), lookup_entries, Finmap.lookup_empty, Option.or_none]

def decodeFlags : List (Text × Json) → Option (List (Text × Bool))
  | [] => some []
  | (key, .bool b) :: ms => (decodeFlags ms).map (fun es => (key, b) :: es)
  | _ :: _ => none

/-- An object of booleans; a map has no key twice. -/
@[reducible] def flagsCodec : Codec (List (Text × Bool)) where
  encode es := if (es.map Prod.fst).Nodup then some (.obj (es.map (fun e => (e.1, .bool e.2)))) else none
  decode
    | .obj ms => decodeFlags ms
    | _ => none
  decode_encode es j h := by
    split at h
    · cases h
      have read : ∀ es : List (Text × Bool), decodeFlags (es.map (fun e => (e.1, .bool e.2))) = some es := by
        intro es
        induction es with
        | nil => rfl
        | cons e es ih => rw [List.map_cons, decodeFlags, ih]; rfl
      exact read es
    · cases h
  plain_encode es j h := by
    split at h
    · rename_i once
      cases h
      rw [Plain, plainMembers_iff, List.map_map]
      refine ⟨?_, once⟩
      intro m member
      obtain ⟨e, -, rfl⟩ := List.mem_map.mp member
      rw [Plain]
      trivial
    · cases h

end Flags

section Evidence

def fullSchema : Text := "baobab-c4-03-registered-integration/v1"

def fullRequired : List Text :=
  ["real_hydra_workload_issuance", "signed_scoped_audience_token", "current_cp_runtime_after_issuance",
   "kratos_synthetic_session_verified", "governed_login_consent", "signed_nonce_bound_oidc", "code_replay_denied",
   "synthetic_session_revoked", "protected_cp_resource_accepted", "foreign_owned_context_accepted",
   "foreign_tenant_context_denied", "tampered_subject_token_denied", "real_cp_withdrawal_denied_unexpired_token",
   "evidence_closed"]

@[ext] structure FullEvidence where
  schema : Text
  sourceCommit : Text
  result : Text
  checks : Checks
  providerAndCPActuallyContacted : Bool
  cpGrantWithdrawalObserved : Bool
  physicalPasskey : Bool
  productionReady : Bool

def FullEvidence.fields : List (RecordField FullEvidence) :=
  [.of "schema" (·.schema) (fun v r => { r with schema := v }),
   .of "source_commit" (·.sourceCommit) (fun v r => { r with sourceCommit := v }),
   .of "result" (·.result) (fun v r => { r with result := v }),
   ⟨"checks".toList, fun r => r.checks.entries, fun es r => { r with checks := r.checks.with es },
     fun _ => false, flagsCodec⟩,
   .of "registered_live_services_contacted" (·.providerAndCPActuallyContacted)
     (fun v r => { r with providerAndCPActuallyContacted := v }),
   .of "cp_withdrawal_observed" (·.cpGrantWithdrawalObserved) (fun v r => { r with cpGrantWithdrawalObserved := v }),
   .of "physical_passkey_qualified" (·.physicalPasskey) (fun v r => { r with physicalPasskey := v }),
   .of "production_ready" (·.productionReady) (fun v r => { r with productionReady := v })]

instance : Codec FullEvidence :=
  recordCodec FullEvidence.fields ⟨[], [], [], ∅, false, false, false, false⟩ (by decide) (by
    intro r
    change ({ r with checks := Checks.with ∅ r.checks.entries } : FullEvidence) = r
    rw [with_entries])

def shaPattern (t : Text) : Bool :=
  t.length == 40 && t.all (fun c => ('a' ≤ c && c ≤ 'f') || ('0' ≤ c && c ≤ '9'))

def closedChecks (checks : Checks) (required : List Text) : Bool :=
  checks.keys.card == required.length && required.all (fun id => (checks.lookup id).isSome)

def Checks.flag (checks : Checks) (id : Text) : Bool := (checks.lookup id).getD false

def FullEvidence.close (r : FullEvidence) : FullEvidence :=
  let failed := { r with result := "FAIL", productionReady := false, physicalPasskey := false }
  if !shaPattern r.sourceCommit || r.schema != fullSchema || !r.providerAndCPActuallyContacted ||
      !r.cpGrantWithdrawalObserved || r.checks.keys.card != fullRequired.length then failed
  else if fullRequired.all r.checks.flag then { failed with result := "PASS" }
  else failed

end Evidence

section Publication

structure Bundle where
  receipt : List UInt8
  checksum : List UInt8

def checksumLine (data : List UInt8) : Text :=
  Text.padded 16 64 (Sha256.ofBytes data).toNat ++ "  receipt.json\n"

/-- The two files that become visible when no file operation fails. -/
def publishBundle (r : FullEvidence) : Option Bundle :=
  (Codec.encode r).map (fun j =>
    let data := Text.bytes (writeIndent 2 0 j ['\n'])
    ⟨data, Text.bytes (checksumLine data)⟩)

def publishFull (dir : Text) (r : FullEvidence) : Option Bundle :=
  if dir.isEmpty || r.schema != fullSchema || !shaPattern r.sourceCommit ||
    !closedChecks r.checks fullRequired then none
  else publishBundle r.close

def decodeServiceDocument {α : Type} [Codec α] (raw : List UInt8) : Option α :=
  if raw.isEmpty || 65536 < raw.length then none
  else
    match parse (Text.ofBytes raw) with
    | none => none
    | some j => if Federation.uniqueJSON j then Codec.decode j else none

def verifyFullReceiptSnapshot (raw checksum : List UInt8) (expectedCommit : Text) : Bool :=
  shaPattern expectedCommit && checksum == Text.bytes (checksumLine raw) &&
  match (decodeServiceDocument raw : Option FullEvidence) with
  | none => false
  | some evidence =>
    evidence.schema == fullSchema && evidence.sourceCommit == expectedCommit && evidence.result == "PASS".toList &&
    !evidence.productionReady && !evidence.physicalPasskey && evidence.providerAndCPActuallyContacted &&
    evidence.cpGrantWithdrawalObserved && closedChecks evidence.checks fullRequired &&
    fullRequired.all evidence.checks.flag

end Publication

section Agreement

variable {r : FullEvidence}

/-- The run met every requirement, whatever its result says. -/
structure Passing (r : FullEvidence) : Prop where
  contacted : r.providerAndCPActuallyContacted = true
  withdrawn : r.cpGrantWithdrawalObserved = true
  checked : ∀ id ∈ fullRequired, r.checks.lookup id = some true

theorem flag_iff {checks : Checks} {id : Text} : checks.flag id = true ↔ checks.lookup id = some true := by
  unfold Checks.flag
  cases checks.lookup id <;> simp

theorem passing_iff : Passing r ↔ (r.providerAndCPActuallyContacted = true ∧ r.cpGrantWithdrawalObserved = true) ∧
    fullRequired.all r.checks.flag = true := by
  simp only [List.all_eq_true, flag_iff]
  exact ⟨fun p => ⟨⟨p.contacted, p.withdrawn⟩, p.checked⟩, fun p => ⟨p.1.1, p.1.2, p.2⟩⟩

structure Acceptable (r : FullEvidence) : Prop where
  schema : r.schema = fullSchema
  commit : shaPattern r.sourceCommit = true
  closed : closedChecks r.checks fullRequired = true

theorem publishFull_some {dir : Text} {b : Bundle} :
    publishFull dir r = some b ↔ dir ≠ [] ∧ Acceptable r ∧ publishBundle r.close = some b := by
  unfold publishFull
  constructor
  · intro h
    split at h
    · cases h
    · rename_i accepted
      simp only [Bool.or_eq_true, not_or, Bool.not_eq_true, bne_eq_false_iff_eq, Bool.not_eq_false',
        List.isEmpty_eq_false_iff] at accepted
      exact ⟨accepted.1.1.1, ⟨accepted.1.1.2, accepted.1.2, accepted.2⟩, h⟩
  · rintro ⟨named, ⟨schema, commit, closed⟩, h⟩
    rw [if_neg (by simp [named, schema, commit, closed])]
    exact h

theorem close_eq (ok : Acceptable r) : r.close =
    { r with
      result := if (r.providerAndCPActuallyContacted && r.cpGrantWithdrawalObserved) && fullRequired.all r.checks.flag
        then "PASS" else "FAIL"
      productionReady := false
      physicalPasskey := false } := by
  have size : r.checks.keys.card = fullRequired.length := by
    have closed := ok.closed
    rw [closedChecks, Bool.and_eq_true, beq_iff_eq] at closed
    exact closed.1
  unfold FullEvidence.close
  rw [ok.schema, ok.commit, size]
  cases r.providerAndCPActuallyContacted <;> cases r.cpGrantWithdrawalObserved <;>
    cases fullRequired.all r.checks.flag <;> simp

theorem encode_evidence (r : FullEvidence) : ∃ j, Codec.encode r = some j := by
  simp [Codec.encode, FullEvidence.fields, encodeFields, RecordField.of, entries_once]

theorem decode_published {j : Json} (encoded : Codec.encode r = some j)
    (small : (Text.bytes (writeIndent 2 0 j ['\n'])).length ≤ 65536) :
    decodeServiceDocument (Text.bytes (writeIndent 2 0 j ['\n'])) = some r := by
  have plain := Codec.plain_encode r j encoded
  have nonempty : (Text.bytes (writeIndent 2 0 j ['\n'])).isEmpty = false := by
    obtain ⟨c, t, shape, -⟩ := writeIndent_starts (w := 2) 0 j ['\n'] plain
    have positive := Text.length_le_size (writeIndent 2 0 j ['\n'])
    rw [← Text.length_bytes, shape, List.length_cons] at positive
    rw [List.isEmpty_eq_false_iff, ← List.length_pos_iff]
    rw [shape]
    omega
  have fits : ¬ 65536 < (Text.bytes (writeIndent 2 0 j ['\n'])).length := by omega
  rw [decodeServiceDocument, nonempty, decide_eq_false fits, Text.ofBytes_bytes, parse_writeIndent 2 j plain]
  simp [Federation.uniqueJSON_plain j plain, Codec.decode_encode r j encoded]

theorem verify_iff {raw checksum : List UInt8} {k : Text} : verifyFullReceiptSnapshot raw checksum k = true ↔
    (shaPattern k = true ∧ checksum = Text.bytes (checksumLine raw)) ∧
    ∃ e, decodeServiceDocument raw = some e ∧ Acceptable e ∧ Passing e ∧ e.sourceCommit = k ∧
      e.result = "PASS" ∧ e.productionReady = false ∧ e.physicalPasskey = false := by
  rw [verifyFullReceiptSnapshot, Bool.and_eq_true, Bool.and_eq_true, beq_iff_eq]
  refine and_congr_right (fun checked => ?_)
  cases decoded : (decodeServiceDocument raw : Option FullEvidence) with
  | none => simp
  | some e =>
    simp only [Bool.and_eq_true, beq_iff_eq, Bool.not_eq_eq_eq_not, Bool.not_true, Option.some.injEq, exists_eq_left']
    constructor
    · rintro ⟨⟨⟨⟨⟨⟨⟨⟨schema, rfl⟩, result⟩, ready⟩, passkey⟩, contacted⟩, withdrawn⟩,
        closed⟩, flags⟩
      exact ⟨⟨schema, checked.1, closed⟩, passing_iff.mpr ⟨⟨contacted, withdrawn⟩, flags⟩,
        rfl, result, ready, passkey⟩
    · rintro ⟨ok, passing, rfl, result, ready, passkey⟩
      obtain ⟨⟨contacted, withdrawn⟩, flags⟩ := passing_iff.mp passing
      exact ⟨⟨⟨⟨⟨⟨⟨⟨ok.schema, rfl⟩, result⟩, ready⟩, passkey⟩, contacted⟩, withdrawn⟩,
        ok.closed⟩, flags⟩

/-- Evidence passes after it was closed exactly when it met the requirements. -/
theorem close_passes (ok : Acceptable r) : r.close.result = "PASS" ↔ Passing r := by
  rw [close_eq ok, passing_iff, ← Bool.and_eq_true, ← Bool.and_eq_true]
  cases (r.providerAndCPActuallyContacted && r.cpGrantWithdrawalObserved) && fullRequired.all r.checks.flag with
  | true => simp
  | false => simp

/-- The recorder and the verifier agree on what passes. -/
theorem publisher_verifier_agree :
    (∀ dir r b, publishFull dir r = some b → b.receipt.length ≤ 65536 → ∀ k,
      verifyFullReceiptSnapshot b.receipt b.checksum k = true ↔ k = r.sourceCommit ∧ Passing r) ∧
    (∀ raw checksum k, verifyFullReceiptSnapshot raw checksum k = true →
      ∃ r, decodeServiceDocument raw = some r ∧
      r.sourceCommit = k ∧ (∀ dir, dir ≠ [] → ∃ b, publishFull dir r = some b) ∧ r.close = r ∧
        r.result = "PASS") := by
  constructor
  · intro dir r b published small k
    obtain ⟨-, ok, bundle⟩ := publishFull_some.mp published
    obtain ⟨j, encoded, rfl⟩ := Option.map_eq_some_iff.mp bundle
    have closed := close_eq ok
    have passes := close_passes ok
    rw [verify_iff]
    constructor
    · rintro ⟨-, e, decoded, -, -, commit, result, -⟩
      rw [decode_published encoded small] at decoded
      cases decoded
      refine ⟨?_, passes.mp result⟩
      rw [← commit, closed]
    · rintro ⟨rfl, passing⟩
      refine ⟨⟨ok.commit, rfl⟩, r.close, decode_published encoded small, ?_, ?_, ?_, passes.mpr passing, ?_, ?_⟩
      all_goals rw [closed]
      · exact ⟨ok.schema, ok.commit, ok.closed⟩
      · exact ⟨passing.contacted, passing.withdrawn, passing.checked⟩
  · intro raw checksum k accepted
    obtain ⟨-, r, decoded, ok, passing, commit, result, ready, passkey⟩ := verify_iff.mp accepted
    have same : r.close = r := by
      rw [close_eq ok]
      refine FullEvidence.ext rfl rfl ?_ rfl rfl rfl passkey.symm ready.symm
      change (if _ then _ else _) = r.result
      rw [passing.contacted, passing.withdrawn, (passing_iff.mp passing).2, result]
      rfl
    refine ⟨r, decoded, commit, ?_, same, result⟩
    intro dir named
    obtain ⟨j, encoded⟩ := encode_evidence r.close
    have bundle : publishBundle r.close = some _ := congrArg (Option.map _) encoded
    exact ⟨_, publishFull_some.mpr ⟨named, ok, bundle⟩⟩

end Agreement

end Qualification
