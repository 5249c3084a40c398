import Mathlib.Tactic.Common

/-! A first-in first-out channel that loses nothing: what a transport is for,
whatever carries it. The balance of the channel is part of the value. -/
namespace XMeterLogger

/-- What was received, followed by what is pending, is what was sent. -/
structure Channel (α : Type*) where
  sent : List α
  pending : List α
  received : List α
  balance : received ++ pending = sent

namespace Channel

variable {α : Type*}

def empty : Channel α := ⟨[], [], [], rfl⟩

/-- Nothing received yet. -/
def holding (content : List α) : Channel α := ⟨content, content, [], rfl⟩

def send (c : Channel α) (x : α) : Channel α where
  sent := c.sent ++ [x]
  pending := c.pending ++ [x]
  received := c.received
  balance := by rw [← List.append_assoc, c.balance]

def receive (c : Channel α) (x : α) (rest : List α) (front : c.pending = x :: rest) : Channel α where
  sent := c.sent
  pending := rest
  received := c.received ++ [x]
  balance := by rw [List.append_assoc, List.singleton_append, ← front, c.balance]

/-- What one step of a faithful carrier may do. -/
inductive Move : Channel α → Channel α → Prop where
  | idle (c) : Move c c
  | send (c) (x : α) : Move c (c.send x)
  | receive (c) (x : α) (rest) (front : c.pending = x :: rest) : Move c (c.receive x rest front)

end Channel

end XMeterLogger
