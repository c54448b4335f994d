import BaobabIam.Base.Once
import BaobabIam.Federation.TrustSteps

/-! The durable clock of the trust ledger over whole runs: every transaction
leaves it or records a reading that is not before it, so the watermark never
decreases and can always be read. -/
namespace Federation.TrustLedger

open Wire Interleaving

/-- No call of the run has seen the clock step back. -/
def Clocked (run : Config system) : Prop := ∀ t ∈ run.threads, InOrder t.log

theorem exec_inOrder {schedule : List (Action system)} (clocked : Clocked (exec system schedule)) :
    ∀ e ∈ (exec system schedule).trace, InOrder e.finish := by
  intro e he
  obtain ⟨t, found, -, -, sub⟩ := exec_entries schedule e he
  exact (clocked t (List.mem_of_getElem? found)).mono sub

theorem Step.clock {T : Trace} {e : Entry system} (h : Step T e) :
    e.after.clock = e.before.clock ∨
    ∃ r, Ticks e.before.clock r ∧ e.after.clock = tick e.before.clock r := by
  cases h with
  | idle same => exact .inl (by rw [same])
  | ticked r ticks after => exact .inr ⟨r, ticks, by rw [after]; rfl⟩
  | proposed p r step => exact .inr ⟨r, step.ticks, by rw [step.after]; rfl⟩
  | rejected id digest p q r step after => exact .inr ⟨r, step.ticks, by rw [after]; rfl⟩
  | approved id digest p q r step commit => exact .inr ⟨r, step.ticks, by rw [commit.after]; rfl⟩
  | contained id revision status c value r step => exact .inr ⟨r, step.ticks, by rw [step.after]; rfl⟩

/-- The watermark of the second clock is there and not earlier. -/
def Later (a b : Bucket) : Prop := ∀ w, watermark a = some w → ∃ w', watermark b = some w' ∧ w.ns ≤ w'.ns

theorem Later.refl (a : Bucket) : Later a a := fun w h => ⟨w, h, le_refl _⟩

theorem Later.trans {a b c : Bucket} (h : Later a b) (h' : Later b c) : Later a c := by
  intro w hw
  obtain ⟨w₁, hw₁, le₁⟩ := h w hw
  obtain ⟨w₂, hw₂, le₂⟩ := h' w₁ hw₁
  exact ⟨w₂, hw₂, le₁.trans le₂⟩

theorem Step.later {T : Trace} {e : Entry system} (h : Step T e) : Later e.before.clock e.after.clock := by
  rcases h.clock with same | ⟨r, ticks, after⟩
  · rw [same]
    exact Later.refl _
  · intro w hw
    rw [after, watermark_tick _ ticks.representable_utc]
    exact ⟨_, rfl, ticks.watermark_le hw⟩

theorem valid_later {T T' : Trace} (h : Valid Step T') (sub : T <+: T') :
    Later (last T).clock (last T').clock := by
  refine h.evolves (R := fun s s' => Later s.clock s'.clock) ?_ ?_ ?_ sub
  · exact fun s => Later.refl _
  · exact fun s t u first second => first.trans second
  · exact fun T e _ _ step => step.later

end Federation.TrustLedger
