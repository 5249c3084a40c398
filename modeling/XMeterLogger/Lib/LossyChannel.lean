import XMeterLogger.Lib.Transition

/-! A first-in first-out channel that may lose what is sent over it, before it queues or
after. What gets through keeps its order, and nothing gets through twice. A machine that
is such a channel step by step is one over its runs. -/
namespace XMeterLogger

structure LossyChannel (α : Type*) where
  sent : List α
  pending : List α
  received : List α
  ordered : (received ++ pending).Sublist sent

namespace LossyChannel

variable {α : Type*}

def empty : LossyChannel α := ⟨[], [], [], .slnil⟩

def send (c : LossyChannel α) (x : α) : LossyChannel α where
  sent := c.sent ++ [x]
  pending := c.pending ++ [x]
  received := c.received
  ordered := by
    rw [← List.append_assoc]
    exact c.ordered.append (.refl [x])

/-- A send that never queues. -/
def lose (c : LossyChannel α) (x : α) : LossyChannel α where
  sent := c.sent ++ [x]
  pending := c.pending
  received := c.received
  ordered := c.ordered.trans (List.sublist_append_left ..)

def receive (c : LossyChannel α) (x : α) (rest : List α) (front : c.pending = x :: rest) :
    LossyChannel α where
  sent := c.sent
  pending := rest
  received := c.received ++ [x]
  ordered := by
    rw [List.append_assoc, List.singleton_append, ← front]
    exact c.ordered

/-- The first that is pending is dropped. -/
def discard (c : LossyChannel α) (x : α) (rest : List α) (front : c.pending = x :: rest) :
    LossyChannel α where
  sent := c.sent
  pending := rest
  received := c.received
  ordered := by
    refine List.Sublist.trans ?_ c.ordered
    rw [front]
    exact (List.Sublist.refl _).append (List.sublist_cons_self x rest)

/-- How many were sent that neither wait nor have arrived. -/
def lost (c : LossyChannel α) : Nat := c.sent.length - (c.received ++ c.pending).length

theorem lost_balance (c : LossyChannel α) :
    c.lost + (c.received ++ c.pending).length = c.sent.length :=
  Nat.sub_add_cancel c.ordered.length_le

/-- A channel has lost nothing when what got through is all that was sent. -/
theorem lost_eq_zero_iff (c : LossyChannel α) : c.lost = 0 ↔ c.received ++ c.pending = c.sent := by
  constructor
  · intro none
    have balance := c.lost_balance
    rw [none, Nat.zero_add] at balance
    exact c.ordered.eq_of_length balance
  · intro whole
    rw [lost, whole, Nat.sub_self]

theorem lost_send (c : LossyChannel α) (x : α) : (c.send x).lost = c.lost := by
  simp [lost, send]
  omega

theorem lost_lose (c : LossyChannel α) (x : α) : (c.lose x).lost = c.lost + 1 := by
  have balance := c.lost_balance
  simp only [lost, lose, List.length_append, List.length_singleton] at balance ⊢
  omega

theorem lost_receive (c : LossyChannel α) (x : α) (rest : List α) (front : c.pending = x :: rest) :
    (c.receive x rest front).lost = c.lost := by
  simp [lost, receive, front]

theorem lost_discard (c : LossyChannel α) (x : α) (rest : List α) (front : c.pending = x :: rest) :
    (c.discard x rest front).lost = c.lost + 1 := by
  have balance := c.lost_balance
  simp only [lost, discard, front, List.length_append, List.length_cons] at balance ⊢
  omega

/-- The step from `c` to `d` loses one exactly if it is not kept. -/
def Loses (kept : Prop) (c d : LossyChannel α) : Prop :=
  (kept → d.lost = c.lost) ∧ (¬ kept → d.lost = c.lost + 1)

theorem loses_of_kept {kept : Prop} {c d : LossyChannel α} (holds : kept) (same : d.lost = c.lost) :
    Loses kept c d :=
  ⟨fun _ => same, fun fails => absurd holds fails⟩

theorem loses_of_not {kept : Prop} {c d : LossyChannel α} (fails : ¬ kept)
    (more : d.lost = c.lost + 1) : Loses kept c d :=
  ⟨fun holds => absurd holds fails, fun _ => more⟩

section Runs

open Transition

variable {State Label : Type*} {step : State → Label → Option State}

/-- A run of permitted steps has lost nothing exactly if all of them were kept. -/
theorem run_loses_iff (carries : State → LossyChannel α → Prop) (permitted : Label → Prop)
    (kept : State → Label → Prop)
    (stepwise : ∀ s label next c, carries s c → permitted label → step s label = some next →
      ∃ d, carries next d ∧ Loses (kept s label) c d)
    {s final : State} {c : LossyChannel α} {trace : List Label} (initial : carries s c)
    (labels : ∀ label ∈ trace, permitted label) (ran : run step s trace = some final) :
    ∃ d, carries final d ∧ c.lost ≤ d.lost ∧ (d.lost = c.lost ↔ Along step kept s trace) := by
  induction trace generalizing s c with
  | nil =>
    obtain rfl := Option.some.inj ran
    exact ⟨c, initial, Nat.le_refl _, iff_of_true rfl trivial⟩
  | cons label rest ih =>
    obtain ⟨next, hs, hr⟩ := run_cons_iff.mp ran
    obtain ⟨middle, carried, same, more⟩ :=
      stepwise s label next c initial (labels label List.mem_cons_self) hs
    obtain ⟨d, ended, grows, exact⟩ :=
      ih carried (fun later member => labels later (List.mem_cons_of_mem _ member)) hr
    have along : Along step kept s (label :: rest) ↔ kept s label ∧ Along step kept next rest := by
      simp [Along, hs]
    refine ⟨d, ended, ?_, ?_⟩
    · by_cases holds : kept s label
      · exact same holds ▸ grows
      · have lost := more holds
        omega
    · rw [along]
      by_cases holds : kept s label
      · rw [← same holds, exact, and_iff_right holds]
      · have lost := more holds
        exact iff_of_false (by omega) fun both => holds both.1

end Runs

end LossyChannel

end XMeterLogger
