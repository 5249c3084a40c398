import XMeterLogger.Lib.LinkedList
import Mathlib.Data.List.ReduceOption

/-! Heaps that hold certain blocks beyond those of another, and what is left of them when
the blocks are freed, each once and in any order. -/
namespace XMeterLogger.LinkedList

variable {Address Block : Type*}

/-- The heap is `base` and the listed blocks, each listed once. -/
structure Extends (base h : Heap Address Block) (owned : List Address) : Prop where
  distinct : owned.Nodup
  added : ∀ a ∈ owned, base a = none ∧ h a ≠ none
  kept : ∀ a, a ∉ owned → h a = base a

/-- The live blocks are the listed ones. -/
abbrev Tracks (h : Heap Address Block) (live : List Address) : Prop := Extends (fun _ => none) h live

variable {base h : Heap Address Block} {owned others : List Address} {a : Address}

theorem extends_refl (h : Heap Address Block) : Extends h h [] :=
  ⟨List.nodup_nil, by simp, fun _ _ => rfl⟩

/-- Without blocks of its own a heap is the other. -/
theorem Extends.eq (extended : Extends base h []) : h = base :=
  funext fun a => extended.kept a List.not_mem_nil

theorem Extends.perm (extended : Extends base h owned) (same : owned.Perm others) :
    Extends base h others where
  distinct := same.nodup_iff.mp extended.distinct
  added a member := extended.added a (same.mem_iff.mpr member)
  kept a outside := extended.kept a fun inside => outside (same.mem_iff.mp inside)

theorem Extends.unowned (extended : Extends base h owned) (unused : h a = none) : a ∉ owned :=
  fun member => (extended.added a member).2 unused

theorem Tracks.exact (tracks : Tracks h owned) (a : Address) : a ∈ owned ↔ h a ≠ none := by
  constructor
  · exact fun member => (tracks.added a member).2
  · intro lives
    by_contra outside
    exact lives (tracks.kept a outside)

/-- A call that reads what its arguments point to. -/
def touch (h : Heap Address Block) (arguments : List (Option Address)) : Option Unit :=
  if ∀ p ∈ arguments, (p.bind h).isSome then some () else none

theorem Extends.touch {arguments : List (Option Address)} (extended : Extends base h owned)
    (inside : ∀ p ∈ arguments, ∃ a ∈ owned, p = some a) : touch h arguments = some () := by
  refine if_pos fun p member => ?_
  obtain ⟨a, owns, rfl⟩ := inside p member
  exact Option.isSome_iff_ne_none.mpr (extended.added a owns).2

variable [DecidableEq Address]

theorem Extends.malloc (extended : Extends base h owned) (unused : h a = none) (block : Block) :
    Extends base (malloc h a block) (a :: owned) := by
  have outside := extended.unowned unused
  refine ⟨List.nodup_cons.mpr ⟨outside, extended.distinct⟩, fun b member => ?_, fun b apart => ?_⟩
  · rcases List.mem_cons.mp member with rfl | member
    · exact ⟨extended.kept b outside ▸ unused, by simp [LinkedList.malloc]⟩
    · have other : b ≠ a := fun same => outside (same ▸ member)
      simpa [LinkedList.malloc, Function.update_of_ne other] using extended.added b member
  · rw [List.mem_cons, not_or] at apart
    rw [LinkedList.malloc, Function.update_of_ne apart.1]
    exact extended.kept b apart.2

/-- An owned block can be freed, and is then the only one gone. -/
theorem Extends.free (extended : Extends base h (a :: owned)) :
    free h a = some (Function.update h a none) ∧ Extends base (Function.update h a none) owned := by
  obtain ⟨outside, distinct⟩ := List.nodup_cons.mp extended.distinct
  obtain ⟨unused, lives⟩ := extended.added a List.mem_cons_self
  obtain ⟨block, live⟩ := Option.ne_none_iff_exists'.mp lives
  refine ⟨free_of live, distinct, fun b member => ?_, fun b apart => ?_⟩
  · have other : b ≠ a := fun same => outside (same ▸ member)
    rw [Function.update_of_ne other]
    exact extended.added b (List.mem_cons_of_mem _ member)
  · by_cases same : b = a
    · rw [same, Function.update_self, unused]
    · rw [Function.update_of_ne same]
      exact extended.kept b fun inside => apart ((List.mem_cons.mp inside).resolve_left same)

theorem Extends.write (extended : Extends base h owned) (member : a ∈ owned) (block : Block) :
    Extends base (Function.update h a (some block)) owned := by
  refine ⟨extended.distinct, fun b inside => ?_, fun b apart => ?_⟩
  · by_cases same : b = a
    · subst same
      exact ⟨(extended.added b inside).1, by simp⟩
    · rw [Function.update_of_ne same]
      exact extended.added b inside
  · have other : b ≠ a := fun same => apart (same ▸ member)
    rw [Function.update_of_ne other]
    exact extended.kept b apart

/-- What an allocation answers on each heap: NULL, or a block that is not in use there. -/
structure Answer (Address Block : Type*) where
  choose : Heap Address Block → Option Address
  unused : ∀ h a, choose h = some a → h a = none

/-- Allocations one after another, up to the first that fails, and whether none did. -/
def acquireChain (h : Heap Address Block) :
    List (Answer Address Block × Block) → Heap Address Block × List Address × Bool
  | [] => (h, [], true)
  | (answer, block) :: rest =>
    match answer.choose h with
    | none => (h, [], false)
    | some a =>
      let (k, later, ok) := acquireChain (malloc h a block) rest
      (k, a :: later, ok)

/-- The chain owns what it has allocated; all of it, unless one allocation failed. -/
theorem Extends.acquireChain (extended : Extends base h owned)
    (steps : List (Answer Address Block × Block)) :
    ∃ k acquired ok, acquireChain h steps = (k, acquired, ok) ∧ Extends base k (acquired ++ owned) ∧
      acquired.length ≤ steps.length ∧ (ok = true ↔ acquired.length = steps.length) := by
  induction steps generalizing h owned with
  | nil => exact ⟨h, [], true, rfl, extended, Nat.le_refl 0, by simp⟩
  | cons step rest ih =>
    obtain ⟨answer, block⟩ := step
    cases answered : answer.choose h with
    | none => exact ⟨h, [], false, by simp [LinkedList.acquireChain, answered], extended, Nat.zero_le _, by simp⟩
    | some a =>
      obtain ⟨k, later, ok, chained, owns, short, whole⟩ :=
        ih (extended.malloc (answer.unused h a answered) block)
      refine ⟨k, a :: later, ok, by simp [LinkedList.acquireChain, answered, chained],
        owns.perm List.perm_middle, Nat.succ_le_succ short, ?_⟩
      rw [whole, List.length_cons, List.length_cons, Nat.add_right_cancel_iff]

/-- `if (p) free(p)` -/
def freeGuarded (h : Heap Address Block) (p : Option Address) : Option (Heap Address Block) :=
  match p with
  | none => some h
  | some a => free h a

/-- Freeing what the pointers that are not NULL point to leaves the rest. -/
theorem Extends.freeAll {pointers : List (Option Address)}
    (extended : Extends base h (pointers.reduceOption ++ owned)) :
    ∃ k, pointers.foldlM freeGuarded h = some k ∧ Extends base k owned := by
  induction pointers generalizing h with
  | nil => exact ⟨h, rfl, extended⟩
  | cons p rest ih =>
    cases p with
    | none =>
      rw [List.reduceOption_cons_of_none] at extended
      exact ih extended
    | some a =>
      rw [List.reduceOption_cons_of_some, List.cons_append] at extended
      obtain ⟨freed, remaining⟩ := extended.free
      obtain ⟨k, later, left⟩ := ih remaining
      exact ⟨k, by simp [freeGuarded, freed, later], left⟩

end XMeterLogger.LinkedList
