import XMeterLogger.Lib.Transition

/-! A machine that is carried out by another, step by step and so over its runs. -/
namespace XMeterLogger.Transition

variable {State Label : Type*} {step : State → Label → Option State}

/-- When every step is carried out by some run of another machine, so is every run. -/
theorem run_implements {Other Act : Type*} {otherStep : Other → Act → Option Other}
    (related : State → Other → Prop)
    (implemented : ∀ s label next t, related s t → step s label = some next →
      ∃ acts after, run otherStep t acts = some after ∧ related next after)
    {s final : State} {t : Other} {trace : List Label} (initial : related s t)
    (ran : run step s trace = some final) :
    ∃ acts after, run otherStep t acts = some after ∧ related final after := by
  induction trace generalizing s t with
  | nil =>
    obtain rfl := Option.some.inj ran
    exact ⟨[], t, rfl, initial⟩
  | cons label rest ih =>
    obtain ⟨next, hs, hr⟩ := run_cons_iff.mp ran
    obtain ⟨first, middle, ranFirst, kept⟩ := implemented s label next t initial hs
    obtain ⟨later, after, ranLater, ended⟩ := ih kept hr
    exact ⟨first ++ later, after, run_append ranFirst ranLater, ended⟩

end XMeterLogger.Transition
