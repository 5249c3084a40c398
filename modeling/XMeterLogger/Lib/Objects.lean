import XMeterLogger.Lib.Transition

/-! Objects that answer calls. A concrete object may also fault, which is what
undefined behaviour becomes. It refines a specification when, called as it may be
called, it never faults and answers as the specification allows. -/
namespace XMeterLogger.Objects

open XMeterLogger.Transition

variable {State Abstract Call Outcome : Type*}

/-- The calls in order, with their outcomes, until one faults. -/
def calls (object : State → Call → Option (State × Outcome)) :
    State → List Call → Option (State × List Outcome)
  | s, [] => some (s, [])
  | s, call :: rest => do
    let (next, outcome) ← object s call
    let (final, outcomes) ← calls object next rest
    some (final, outcome :: outcomes)

/-- The calls of a run are allowed where they are made. -/
def Lawful (object : State → Call → Option (State × Outcome)) (allowed : State → Call → Prop) :
    State → List Call → Prop :=
  Along (fun s call => (object s call).map Prod.fst) allowed

/-- A run of the specification with these outcomes. -/
def Performs (specification : Abstract → Call → Outcome → Abstract → Prop) :
    Abstract → List Call → List Outcome → Abstract → Prop
  | a, [], [], b => a = b
  | a, call :: rest, outcome :: outcomes, b =>
    ∃ middle, specification a call outcome middle ∧ Performs specification middle rest outcomes b
  | _, _, _, _ => False

variable {object : State → Call → Option (State × Outcome)}

@[simp] theorem calls_nil (s : State) : calls object s [] = some (s, []) := rfl

theorem calls_cons {s next final : State} {call : Call} {outcome : Outcome} {rest : List Call}
    {outcomes : List Outcome} (first : object s call = some (next, outcome))
    (later : calls object next rest = some (final, outcomes)) :
    calls object s (call :: rest) = some (final, outcome :: outcomes) := by
  rw [calls, first]
  simp only [Option.bind_eq_bind, Option.bind_some]
  rw [later]
  rfl

theorem lawful_cons {allowed : State → Call → Prop} {s next : State} {call : Call}
    {outcome : Outcome} {rest : List Call} (first : object s call = some (next, outcome)) :
    Lawful object allowed s (call :: rest) ↔ allowed s call ∧ Lawful object allowed next rest := by
  simp [Lawful, Along, first]

instance lawfulDecidable {allowed : State → Call → Prop} [∀ s call, Decidable (allowed s call)] :
    (s : State) → (trace : List Call) → Decidable (Lawful object allowed s trace)
  | _, [] => .isTrue trivial
  | s, call :: rest =>
    match called : object s call with
    | none => decidable_of_iff (allowed s call) (by simp [Lawful, Along, called])
    | some (next, _) =>
      have : Decidable (Lawful object allowed next rest) := lawfulDecidable next rest
      decidable_of_iff (allowed s call ∧ Lawful object allowed next rest) (lawful_cons called).symm

/-- What is noted down of a run, call after call. -/
def recorded {Log : Type*} (note : Log → Call → Outcome → Log) (log : Log) (trace : List Call)
    (outcomes : List Outcome) : Log :=
  (trace.zip outcomes).foldl (fun log event => note log event.1 event.2) log

/-- What every allowed call does is what a run of allowed calls does, and what holds of the
notes after every call holds of those of the run. -/
theorem refines_run_recorded {Log : Type*} (note : Log → Call → Outcome → Log) (log : Log)
    {specification : Abstract → Call → Outcome → Abstract → Prop}
    (related : State → Abstract → Log → Prop) (allowed : State → Call → Prop)
    (refined : ∀ s a log call, related s a log → allowed s call →
      ∃ next outcome b, object s call = some (next, outcome) ∧ specification a call outcome b ∧
        related next b (note log call outcome))
    {s : State} {a : Abstract} {trace : List Call} (initial : related s a log)
    (lawful : Lawful object allowed s trace) :
    ∃ final outcomes b, calls object s trace = some (final, outcomes) ∧
      Performs specification a trace outcomes b ∧ related final b (recorded note log trace outcomes) := by
  induction trace generalizing s a log with
  | nil => exact ⟨s, [], a, rfl, rfl, initial⟩
  | cons call rest ih =>
    obtain ⟨next, outcome, middle, called, specified, kept⟩ := refined s a log call initial lawful.1
    obtain ⟨final, outcomes, b, later, performed, ended⟩ := ih _ kept ((lawful_cons called).mp lawful).2
    exact ⟨final, outcome :: outcomes, b, calls_cons called later, ⟨middle, specified, performed⟩, ended⟩

theorem refines_run {specification : Abstract → Call → Outcome → Abstract → Prop}
    (related : State → Abstract → Prop) (allowed : State → Call → Prop)
    (refined : ∀ s a call, related s a → allowed s call →
      ∃ next outcome b, object s call = some (next, outcome) ∧ specification a call outcome b ∧
        related next b)
    {s : State} {a : Abstract} {trace : List Call} (initial : related s a)
    (lawful : Lawful object allowed s trace) :
    ∃ final outcomes b, calls object s trace = some (final, outcomes) ∧
      Performs specification a trace outcomes b ∧ related final b :=
  refines_run_recorded (fun _ _ _ => ()) () (fun s a _ => related s a) allowed
    (fun s a _ call => refined s a call) initial lawful

/-- The calls of a lawful run may be of a kind besides. -/
theorem Lawful.strengthen {allowed : State → Call → Prop} {permitted : Call → Prop} {s : State}
    {trace : List Call} (lawful : Lawful object allowed s trace)
    (kind : ∀ call ∈ trace, permitted call) :
    Lawful object (fun s call => allowed s call ∧ permitted call) s trace := by
  induction trace generalizing s with
  | nil => trivial
  | cons call rest ih =>
    refine ⟨⟨lawful.1, kind call List.mem_cons_self⟩, fun next stepped => ?_⟩
    exact ih (lawful.2 next stepped) fun c member => kind c (List.mem_cons_of_mem _ member)

end XMeterLogger.Objects
