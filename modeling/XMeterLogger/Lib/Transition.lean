import Mathlib.Logic.Relation
import Mathlib.Tactic.Common

/-! Finite runs of a labelled step function. A label carries everything the
environment chooses at that step, so a label list determines the whole run and
a step that is not enabled stops it. -/
namespace XMeterLogger.Transition

variable {State Label : Type*} {step : State → Label → Option State}

def run (step : State → Label → Option State) : State → List Label → Option State
  | s, [] => some s
  | s, label :: rest => (step s label).bind fun next => run step next rest

/-- Every step of the run is taken in a state where the label is allowed. -/
def Along (step : State → Label → Option State) (allowed : State → Label → Prop) :
    State → List Label → Prop
  | _, [] => True
  | s, label :: rest =>
    allowed s label ∧ ∀ next, step s label = some next → Along step allowed next rest

@[simp] theorem run_nil (s : State) : run step s [] = some s := rfl

theorem run_cons_iff {s final : State} {label : Label} {rest : List Label} :
    run step s (label :: rest) = some final ↔
      ∃ next, step s label = some next ∧ run step next rest = some final := by
  simp [run, Option.bind_eq_some_iff]

theorem run_append_iff {s final : State} {front back : List Label} :
    run step s (front ++ back) = some final ↔
      ∃ middle, run step s front = some middle ∧ run step middle back = some final := by
  induction front generalizing s with
  | nil => simp
  | cons label front ih =>
    simp only [List.cons_append, run_cons_iff, ih]
    constructor
    · rintro ⟨next, hs, middle, hf, hb⟩
      exact ⟨middle, ⟨next, hs, hf⟩, hb⟩
    · rintro ⟨middle, ⟨next, hs, hf⟩, hb⟩
      exact ⟨next, hs, middle, hf, hb⟩

theorem run_append {s middle final : State} {front back : List Label}
    (first : run step s front = some middle) (second : run step middle back = some final) :
    run step s (front ++ back) = some final :=
  run_append_iff.mpr ⟨middle, first, second⟩

/-- What one step preserves, a run preserves. -/
theorem run_invariant (invariant : State → Prop)
    (preserved : ∀ s label next, invariant s → step s label = some next → invariant next)
    {s final : State} {trace : List Label} (initial : invariant s)
    (ran : run step s trace = some final) : invariant final := by
  induction trace generalizing s with
  | nil =>
    obtain rfl := Option.some.inj ran
    exact initial
  | cons label rest ih =>
    obtain ⟨next, hs, hr⟩ := run_cons_iff.mp ran
    exact ih (preserved s label next initial hs) hr

/-- What the steps with certain labels preserve, a run of such steps preserves. -/
theorem run_invariant_on (invariant : State → Prop) (permitted : Label → Prop)
    (preserved : ∀ s label next, invariant s → permitted label → step s label = some next →
      invariant next)
    {s final : State} {trace : List Label} (initial : invariant s)
    (labels : ∀ label ∈ trace, permitted label) (ran : run step s trace = some final) :
    invariant final := by
  induction trace generalizing s with
  | nil =>
    obtain rfl := Option.some.inj ran
    exact initial
  | cons label rest ih =>
    obtain ⟨next, hs, hr⟩ := run_cons_iff.mp ran
    have kept := preserved s label next initial (labels label List.mem_cons_self) hs
    exact ih kept (fun later member => labels later (List.mem_cons_of_mem _ member)) hr

/-- When every allowed step is a move of an abstract machine, a run of allowed steps
is a path of it. -/
theorem run_simulates {Abstract : Type*} (related : State → Abstract → Prop)
    (move : Abstract → Abstract → Prop) (allowed : State → Label → Prop)
    (simulated : ∀ s label next a, related s a → allowed s label → step s label = some next →
      ∃ b, related next b ∧ move a b)
    {s final : State} {a : Abstract} {trace : List Label} (initial : related s a)
    (along : Along step allowed s trace) (ran : run step s trace = some final) :
    ∃ b, related final b ∧ Relation.ReflTransGen move a b := by
  induction trace generalizing s a with
  | nil =>
    obtain rfl := Option.some.inj ran
    exact ⟨a, initial, .refl⟩
  | cons label rest ih =>
    obtain ⟨next, hs, hr⟩ := run_cons_iff.mp ran
    obtain ⟨b, after, moved⟩ := simulated s label next a initial along.1 hs
    obtain ⟨c, ended, path⟩ := ih after (along.2 next hs) hr
    exact ⟨c, ended, .head moved path⟩

theorem along_append_right {allowed : State → Label → Prop} {s middle : State}
    {front back : List Label} (along : Along step allowed s (front ++ back))
    (ran : run step s front = some middle) : Along step allowed middle back := by
  induction front generalizing s with
  | nil =>
    obtain rfl := Option.some.inj ran
    exact along
  | cons label front ih =>
    obtain ⟨next, hs, hr⟩ := run_cons_iff.mp ran
    exact ih (along.2 next hs) hr

/-- When allowed steps keep the invariant and a step that is not allowed breaks the
state for good, a run either takes allowed steps only or ends broken. -/
theorem along_or_broken (invariant broken : State → Prop) (allowed : State → Label → Prop)
    (keeps : ∀ s label next, invariant s → allowed s label → step s label = some next → invariant next)
    (breaks : ∀ s label next, invariant s → ¬ allowed s label → step s label = some next → broken next)
    (stays : ∀ s label next, broken s → step s label = some next → broken next)
    {s final : State} {trace : List Label} (initial : invariant s)
    (ran : run step s trace = some final) : Along step allowed s trace ∨ broken final := by
  induction trace generalizing s with
  | nil => exact .inl trivial
  | cons label rest ih =>
    obtain ⟨next, hs, hr⟩ := run_cons_iff.mp ran
    by_cases permitted : allowed s label
    · rcases ih (keeps s label next initial permitted hs) hr with along | ended
      · refine .inl ⟨permitted, fun other same => ?_⟩
        obtain rfl := Option.some.inj (hs.symm.trans same)
        exact along
      · exact .inr ended
    · exact .inr (run_invariant broken stays (breaks s label next initial permitted hs) hr)

/-- Every state the run passes through is safe, its first and its last included. -/
def Throughout (step : State → Label → Option State) (safe : State → Prop) (s : State)
    (trace : List Label) : Prop :=
  ∀ front middle, front <+: trace → run step s front = some middle → safe middle

theorem throughout_nil {safe : State → Prop} {s : State} : Throughout step safe s [] ↔ safe s := by
  constructor
  · intro throughout
    exact throughout [] s List.prefix_rfl rfl
  · intro first front middle initially ran
    obtain rfl := List.prefix_nil.mp initially
    obtain rfl := Option.some.inj ran
    exact first

theorem throughout_cons {safe : State → Prop} {s next : State} {label : Label} {rest : List Label}
    (stepped : step s label = some next) :
    Throughout step safe s (label :: rest) ↔ safe s ∧ Throughout step safe next rest := by
  constructor
  · intro throughout
    refine ⟨throughout [] s List.nil_prefix rfl, fun front middle initially ran => ?_⟩
    have longer : label :: front <+: label :: rest := List.cons_prefix_cons.mpr ⟨rfl, initially⟩
    exact throughout (label :: front) middle longer (run_cons_iff.mpr ⟨next, stepped, ran⟩)
  · rintro ⟨first, throughout⟩ front middle initially ran
    cases front with
    | nil =>
      obtain rfl := Option.some.inj ran
      exact first
    | cons other front =>
      obtain ⟨rfl, begins⟩ := List.cons_prefix_cons.mp initially
      obtain ⟨after, hs, hr⟩ := run_cons_iff.mp ran
      obtain rfl := Option.some.inj (stepped.symm.trans hs)
      exact throughout front middle begins hr

/-- When allowed steps keep an invariant that makes a state safe and any other step
leads straight to an unsafe state, the safe runs are those of allowed steps. -/
theorem throughout_iff_along (invariant safe : State → Prop) (allowed : State → Label → Prop)
    (safe_of : ∀ s, invariant s → safe s)
    (keeps : ∀ s label next, invariant s → allowed s label → step s label = some next → invariant next)
    (breaks : ∀ s label next, invariant s → ¬ allowed s label → step s label = some next → ¬ safe next)
    {s final : State} {trace : List Label} (initial : invariant s)
    (ran : run step s trace = some final) :
    Throughout step safe s trace ↔ Along step allowed s trace := by
  induction trace generalizing s with
  | nil => exact iff_of_true (throughout_nil.mpr (safe_of s initial)) trivial
  | cons label rest ih =>
    obtain ⟨next, hs, hr⟩ := run_cons_iff.mp ran
    rw [throughout_cons hs]
    constructor
    · rintro ⟨-, throughout⟩
      by_cases permitted : allowed s label
      · refine ⟨permitted, fun other same => ?_⟩
        obtain rfl := Option.some.inj (hs.symm.trans same)
        exact (ih (keeps s label next initial permitted hs) hr).mp throughout
      · have second := throughout [] next List.nil_prefix rfl
        exact absurd second (breaks s label next initial permitted hs)
    · rintro ⟨permitted, along⟩
      exact ⟨safe_of s initial,
        (ih (keeps s label next initial permitted hs) hr).mpr (along next hs)⟩

end XMeterLogger.Transition
