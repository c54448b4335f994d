import BaobabIam.Migration.Provisioning

/-! Every service call, over either store and in any surroundings: each of its
transactions is a read or writes a record of one of the four origins. -/
namespace Migration

open Interleaving

variable {S : Type} {store : RecordStore S} (laws : Lawful store) {sys : System ports S Failure}

def Provisioned (i : Nat) : (c : ServiceCall) → Post sys c.Result
  | .provision _ id => fun T _ r => ∀ res, r = .ok res →
      JustLeft laws T i res.record ∧ res.record.migrationID = id ∧ res.Settled
  | .register _ | .registerBatch _ | .applyTransition _ _ | .setTargetBinding _ _ | .credentialApply _
  | .credentialMarkReady _ | .verificationApply _ | .verificationMarkVerified _ => fun _ _ _ => True

section Licences

/- A setting that lets the call do what service calls do. -/
variable {v : Setting sys} {c : ServiceCall} {policy : Policy} {T : Trace sys} {id : Text}
  (grows : ∀ T T', v.others T T' → T <+: T')
  (admits : ∀ T e, e.thread = v.thread → e.call = v.call → ServiceStep laws c policy T e → v.spec T e)

include admits

theorem service_idle (T : Trace sys) (L L' : Log ports) (_ : StoreLog L L') :
    v.spec T (leaves v T (last T) L L') :=
  admits T _ rfl rfl (.asks rfl)

theorem service_provides (T : Trace sys) : Provides v T :=
  fun T' _ _ _ _ _ => admits T' _ rfl rfl (.asks rfl)

theorem service_registers {r : Record} (named : c.Registers r)
    (started : ∀ T', T <+: T' → Started laws c T' v.thread) : MayRegister laws v T r := by
  intro T' created sub valid L L' s _ put
  exact admits T' _ rfl rfl (.puts _ put (.registered created named valid) (started T' sub))

include grows

theorem service_moves {next : MigrationState} (named : c.MovesTo id next)
    (started : ∀ T', T <+: T' → Started laws c T' v.thread) : MayMove laws v policy T id next := by
  intro T₁ T' r r' n sub₁ read more permitted step L L' s _ put
  have sub := grows _ _ more
  exact admits T' _ rfl rfl (.puts _ put (.moved n named permitted (read.own.mono sub) step)
    (started T' (sub₁.trans sub)))

theorem service_binds (named : c.Binds id) (started : ∀ T', T <+: T' → Started laws c T' v.thread) :
    MayBind laws v T id := by
  intro T₁ T' r target sub₁ read more L L' s _ put
  have sub := grows _ _ more
  exact admits T' _ rfl rfl (.puts _ put (.bound target named (read.own.mono sub)) (started T' (sub₁.trans sub)))

omit grows in
theorem service_codes (named : c.Codes id) (started : ∀ T', T <+: T' → Started laws c T' v.thread) :
    MayCode laws v T id := by
  intro T' r code sub read L L' s _ put
  exact admits T' _ rfl rfl (.puts _ put (.coded code named read) (started T' sub))

end Licences

theorem wp_service {v : Setting sys} (c : ServiceCall) {policy : Policy} {T : Trace sys} {L : Log ports}
    (grows : ∀ T T', v.others T T' → T <+: T')
    (admits : ∀ T e, e.thread = v.thread → e.call = v.call → ServiceStep laws c policy T e → v.spec T e) :
    wp v (c.code store policy) T L (Provisioned laws v.thread c) := by
  have idle := service_idle laws admits
  cases c with
  | register r =>
    have started : ∀ T', T <+: T' → Started laws (.register r) T' v.thread := by rintro T' _ b id ⟨⟩
    exact wp_register laws grows idle (service_registers laws admits rfl started) (fun _ _ _ _ => trivial)
      (fun _ _ _ _ => trivial)
  | registerBatch req =>
    have started : ∀ T', T <+: T' → Started laws (.registerBatch req) T' v.thread := by rintro T' _ b id ⟨⟩
    apply wp_registerBatch laws grows idle
    · exact fun b canonical identityClass =>
        service_registers laws admits ⟨b, canonical, identityClass, rfl⟩ started
    · exact fun _ _ _ _ => trivial
    · exact fun _ _ _ _ => trivial
  | applyTransition id next =>
    have started : ∀ T', T <+: T' → Started laws (.applyTransition id next) T' v.thread := by
      rintro T' _ b id ⟨⟩
    exact wp_applyTransition_left laws grows idle (service_moves laws grows admits ⟨rfl, rfl⟩ started)
      (fun _ _ _ _ => trivial) (fun _ _ _ _ _ _ _ => trivial)
  | setTargetBinding id target =>
    have started : ∀ T', T <+: T' → Started laws (.setTargetBinding id target) T' v.thread := by
      rintro T' _ b id ⟨⟩
    exact wp_setTargetBinding laws grows idle (service_binds laws grows admits rfl started) (fun _ _ _ _ => trivial)
      (fun _ _ _ _ => trivial)
  | credentialApply id =>
    have started : ∀ T', T <+: T' → Started laws (.credentialApply id) T' v.thread := by rintro T' _ b id ⟨⟩
    exact wp_credentialApply laws grows idle (service_moves laws grows admits ⟨rfl, .inl rfl⟩ started)
      (service_moves laws grows admits ⟨rfl, .inr rfl⟩ started) (fun _ _ _ _ => trivial) (fun _ _ _ _ => trivial)
  | credentialMarkReady id =>
    have started : ∀ T', T <+: T' → Started laws (.credentialMarkReady id) T' v.thread := by rintro T' _ b id ⟨⟩
    exact wp_credentialMarkReady laws grows idle (service_moves laws grows admits ⟨rfl, rfl⟩ started)
      (fun _ _ _ _ => trivial) (fun _ _ _ _ => trivial)
  | verificationApply id =>
    have started : ∀ T', T <+: T' → Started laws (.verificationApply id) T' v.thread := by rintro T' _ b id ⟨⟩
    exact wp_verificationApply laws grows idle (service_moves laws grows admits ⟨rfl, rfl⟩ started)
      (fun _ _ _ _ => trivial) (fun _ _ _ _ => trivial)
  | verificationMarkVerified id =>
    have started : ∀ T', T <+: T' → Started laws (.verificationMarkVerified id) T' v.thread := by
      rintro T' _ b id ⟨⟩
    exact wp_verificationMarkVerified laws grows idle (service_moves laws grows admits ⟨rfl, rfl⟩ started)
      (fun _ _ _ _ => trivial) (fun _ _ _ _ => trivial)
  | provision b id =>
    apply wp_provision laws grows idle b
    · intro T₁ r reads fresh
      have started : ∀ T', T₁ <+: T' → Started laws (.provision b id) T' v.thread := by
        rintro T' sub b' id' ⟨⟩
        exact ⟨r, reads.just.own.mono sub, fresh⟩
      refine ⟨?_, service_binds laws grows admits rfl started, service_codes laws admits rfl started⟩
      intro next member
      apply service_moves laws grows admits _ started
      refine ⟨rfl, ?_⟩
      simp only [List.mem_cons, List.not_mem_nil, or_false] at member ⊢
      tauto
    · exact fun T₁ _ _ _ => service_provides laws admits T₁
    · rintro T' L' e sub res ⟨⟩
    · rintro T' L' res sub left named settled _ ⟨⟩
      exact ⟨left, named, settled⟩

end Migration
