import BaobabIam.Base.Instant

/-! A session at the native authenticator, as the handoff reads it. -/
namespace Ory

structure NativeSession where
  id : Text
  active : Bool
  expiresAt : Time
  authenticatedAt : Time
  aal : Text
  methods : List Text
  identityID : Text
  identityState : Text
  deriving DecidableEq

def NativeSession.current (s : NativeSession) (now later : Time) : Bool :=
  s.active && !s.id.isEmpty && !s.identityID.isEmpty && Text.trimSpace s.identityID == s.identityID &&
  s.identityState == "active".toList && now.before s.expiresAt && !s.authenticatedAt.isZero &&
  !s.authenticatedAt.after later && (s.aal == "aal1".toList || s.aal == "aal2".toList)

def methodReference (method : Text) : Option Text :=
  if method = "password".toList then some "pwd"
  else if method ∈ ["totp".toList, "lookup_secret".toList, "code".toList] then some "otp"
  else if method ∈ ["webauthn".toList, "passkey".toList] then some "hwk"
  else none

def addReference (out : List Text) (value : Text) : List Text := if out.contains value then out else out ++ [value]

def references : List Text → List Text → List Text
  | out, [] => out
  | out, m :: methods =>
    match methodReference m with
    | some value => references (addReference out value) methods
    | none => references out methods

/-- The references of the completed methods, and `mfa` when there are two or more. -/
def nativeAMR (s : NativeSession) : List Text :=
  if 2 ≤ (references [] s.methods).length then addReference (references [] s.methods) "mfa" else references
    [] s.methods

def sameNativeSession (a b : NativeSession) : Bool :=
  a.id == b.id && a.active == b.active && a.expiresAt.equal b.expiresAt && a.authenticatedAt.equal b.authenticatedAt &&
  a.aal == b.aal && a.identityID == b.identityID && a.identityState == b.identityState && a.methods == b.methods

theorem addReference_nodup {out : List Text} (h : out.Nodup) (value : Text) : (addReference out value).Nodup := by
  unfold addReference
  split
  · exact h
  · rename_i new
    simp only [List.contains_iff_mem] at new
    apply List.nodup_append.mpr
    refine ⟨h, by simp, ?_⟩
    rintro a ha b hb rfl
    rw [List.mem_singleton.mp hb] at ha
    exact new ha

theorem mem_addReference {out : List Text} {value v : Text} (h : v ∈ addReference out value) :
    v ∈ out ∨ v = value := by
  unfold addReference at h
  split at h
  · exact .inl h
  · rcases List.mem_append.mp h with h | h
    · exact .inl h
    · exact .inr (List.mem_singleton.mp h)

theorem methodReference_known {m v : Text} (h : methodReference m = some v) :
    v ∈ ["pwd".toList, "otp".toList, "hwk".toList] := by
  unfold methodReference at h
  split at h
  · cases h
    decide
  · split at h
    · cases h
      decide
    · split at h
      · cases h
        decide
      · cases h

theorem references_spec {methods out : List Text} (nodup : out.Nodup)
    (known : ∀ v ∈ out, v ∈ ["pwd".toList, "otp".toList, "hwk".toList]) : (references out methods).Nodup ∧
      ∀ v ∈ references out methods, v ∈ ["pwd".toList, "otp".toList, "hwk".toList] := by
  induction methods generalizing out with
  | nil => exact ⟨nodup, known⟩
  | cons m methods ih =>
    unfold references
    cases named : methodReference m with
    | none => exact ih nodup known
    | some value =>
      apply ih (addReference_nodup nodup value)
      intro v hv
      rcases mem_addReference hv with old | rfl
      · exact known v old
      · exact methodReference_known named

theorem nativeAMR_spec (s : NativeSession) : (nativeAMR s).Nodup ∧
    ∀ v ∈ nativeAMR s, v ∈ ["pwd".toList, "otp".toList, "hwk".toList, "mfa".toList] := by
  obtain ⟨nodup, known⟩ := @references_spec s.methods [] List.nodup_nil (by simp)
  unfold nativeAMR
  split
  · refine ⟨addReference_nodup nodup _, ?_⟩
    intro v hv
    rcases mem_addReference hv with old | rfl
    · exact List.mem_append_left ["mfa".toList] (known v old)
    · decide
  · exact ⟨nodup, fun v hv => List.mem_append_left ["mfa".toList] (known v hv)⟩

end Ory
