import Mathlib.Tactic.Common
import Mathlib.Logic.Function.Iterate

/-! A sequence with a cursor: the view of a list that keeps the place its reader has
reached. Insertions and removals move the cursor along with its item. -/
namespace XMeterLogger

structure Cursored (β : Type*) where
  items : List β
  /-- The index of the current item, none off the list. -/
  position : Option Nat
  inside : ∀ i ∈ position, i < items.length

namespace Cursored

variable {β : Type*}

def empty : Cursored β := ⟨[], none, by simp⟩

def current (c : Cursored β) : Option β := c.position.bind fun i => c.items[i]?

def toFirst (c : Cursored β) : Cursored β where
  items := c.items
  position := if 0 < c.items.length then some 0 else none
  inside := by grind

def toLast (c : Cursored β) : Cursored β where
  items := c.items
  position := if 0 < c.items.length then some (c.items.length - 1) else none
  inside := by grind

def toNext (c : Cursored β) : Cursored β where
  items := c.items
  position := c.position.bind fun i => if i + 1 < c.items.length then some (i + 1) else none
  inside := by grind

def toPrev (c : Cursored β) : Cursored β where
  items := c.items
  position := c.position.bind fun i => if 0 < i then some (i - 1) else none
  inside := by
    have bound := c.inside
    grind

/-- Where the item at `i` is once one is inserted at `k`. -/
def shifted (k i : Nat) : Nat := if k ≤ i then i + 1 else i

/-- The first item of all is current at once. -/
def insertAt (c : Cursored β) (k : Nat) (x : β) : Cursored β where
  items := c.items.take k ++ x :: c.items.drop k
  position := if c.items = [] then some 0 else c.position.map (shifted k)
  inside := by
    intro i member
    have longer : (c.items.take k ++ x :: c.items.drop k).length = c.items.length + 1 := by grind
    rw [longer]
    split at member
    · obtain rfl := Option.some.inj member
      exact Nat.succ_pos _
    · obtain ⟨j, found, rfl⟩ := Option.map_eq_some_iff.mp member
      have bound := c.inside j found
      unfold shifted
      split <;> omega

/-- To which side the cursor leaves an item that is removed under it. -/
inductive Side where
  | before
  | after
  deriving DecidableEq, Repr

/-- The item at `k` goes; `length` items are there with it. -/
def leave (length k : Nat) : Side → Option Nat
  | .before => if 0 < k then some (k - 1) else none
  | .after => if k + 1 < length then some k else none

def eraseAt (c : Cursored β) (k : Nat) (side : Side) : Cursored β where
  items := c.items.eraseIdx k
  position := c.position.bind fun i =>
    if i = k then leave c.items.length k side else if k < i then some (i - 1) else some i
  inside := by
    have bound := c.inside
    cases side <;> grind [leave]

@[ext] theorem ext {c d : Cursored β} (items : c.items = d.items) (position : c.position = d.position) :
    c = d := by
  cases c
  cases d
  simp_all

theorem getElem?_shifted (front back : List β) (x : β) (i : Nat) :
    (front ++ x :: back)[shifted front.length i]? = (front ++ back)[i]? := by
  unfold shifted
  grind

theorem getElem?_erased (front back : List β) (x : β) {i : Nat} (other : i ≠ front.length) :
    (front ++ back)[if front.length < i then i - 1 else i]? = (front ++ x :: back)[i]? := by
  rcases Nat.lt_or_gt_of_ne other with earlier | later
  · rw [if_neg (Nat.lt_asymm earlier), List.getElem?_append_left earlier,
      List.getElem?_append_left earlier]
  · obtain ⟨j, rfl⟩ := Nat.exists_eq_add_of_lt later
    rw [if_pos later, List.getElem?_append_right (by omega), List.getElem?_append_right (by omega),
      show front.length + j + 1 - front.length = j + 1 by omega, List.getElem?_cons_succ,
      show front.length + j + 1 - 1 - front.length = j by omega]

theorem toFirst_position (c : Cursored β) :
    c.toFirst.position = if 0 < c.items.length then some 0 else none := rfl

theorem toLast_position (c : Cursored β) :
    c.toLast.position = if 0 < c.items.length then some (c.items.length - 1) else none := rfl

theorem toNext_position (c : Cursored β) : c.toNext.position =
    c.position.bind fun i => if i + 1 < c.items.length then some (i + 1) else none := rfl

theorem toPrev_position (c : Cursored β) : c.toPrev.position =
    c.position.bind fun i => if 0 < i then some (i - 1) else none := rfl

theorem insertAt_items (c : Cursored β) (k : Nat) (x : β) :
    (c.insertAt k x).items = c.items.take k ++ x :: c.items.drop k := rfl

theorem insertAt_position (c : Cursored β) (k : Nat) (x : β) :
    (c.insertAt k x).position = if c.items = [] then some 0 else c.position.map (shifted k) := rfl

theorem eraseAt_items (c : Cursored β) (k : Nat) (side : Side) :
    (c.eraseAt k side).items = c.items.eraseIdx k := rfl

theorem eraseAt_position (c : Cursored β) (k : Nat) (side : Side) :
    (c.eraseAt k side).position = c.position.bind fun i =>
      if i = k then leave c.items.length k side else if k < i then some (i - 1) else some i := rfl

@[simp] theorem toNext_items (c : Cursored β) : c.toNext.items = c.items := rfl

@[simp] theorem toPrev_items (c : Cursored β) : c.toPrev.items = c.items := rfl

theorem toNext_iterate_items (c : Cursored β) (k : Nat) : (toNext^[k] c).items = c.items := by
  induction k with
  | zero => rfl
  | succ k ih => rw [Function.iterate_succ_apply', toNext_items, ih]

theorem toPrev_iterate_items (c : Cursored β) (k : Nat) : (toPrev^[k] c).items = c.items := by
  induction k with
  | zero => rfl
  | succ k ih => rw [Function.iterate_succ_apply', toPrev_items, ih]

theorem forward_position (c : Cursored β) (k : Nat) :
    (toNext^[k] c.toFirst).position = if k < c.items.length then some k else none := by
  induction k with
  | zero => rfl
  | succ k ih =>
    have same : (toNext^[k] c.toFirst).items = c.items := toNext_iterate_items c.toFirst k
    rw [Function.iterate_succ_apply']
    generalize toNext^[k] c.toFirst = d at ih same ⊢
    simp only [toNext, ih, same]
    grind

theorem backward_position (c : Cursored β) (k : Nat) :
    (toPrev^[k] c.toLast).position =
      if k < c.items.length then some (c.items.length - 1 - k) else none := by
  induction k with
  | zero => rfl
  | succ k ih =>
    rw [Function.iterate_succ_apply']
    generalize toPrev^[k] c.toLast = d at ih ⊢
    simp only [toPrev, ih]
    grind

/-- From the first item on the cursor passes every item once, in order. -/
theorem forward_current (c : Cursored β) (k : Nat) :
    (toNext^[k] c.toFirst).current = c.items[k]? := by
  rw [current, forward_position, toNext_iterate_items, toFirst]
  grind

theorem backward_current (c : Cursored β) (k : Nat) :
    (toPrev^[k] c.toLast).current = c.items.reverse[k]? := by
  rw [current, backward_position, toPrev_iterate_items, toLast]
  grind

theorem findIdx_congr {p q : β → Bool} {items : List β} (same : ∀ y ∈ items, p y = q y) :
    items.findIdx p = items.findIdx q := by
  induction items with
  | nil => rfl
  | cons y rest ih =>
    rw [List.findIdx_cons, List.findIdx_cons, same y List.mem_cons_self,
      ih fun z member => same z (List.mem_cons_of_mem _ member)]

/-- Put before the first item that does not go before it, an item keeps a list sorted. -/
theorem sorted_insertion {r : β → β → Bool}
    (trans : ∀ a b c, r a b = true → r b c = true → r a c = true) {items : List β} {x : β}
    (total : ∀ y ∈ items, r y x = false → r x y = true) (sorted : items.Pairwise (r · ·)) :
    (items.take (items.findIdx fun y => !r y x) ++
      x :: items.drop (items.findIdx fun y => !r y x)).Pairwise (r · ·) := by
  induction items with
  | nil => simp
  | cons y rest ih =>
    obtain ⟨first, later⟩ := List.pairwise_cons.mp sorted
    rw [List.findIdx_cons]
    cases goes : r y x with
    | false =>
      have leads := total y List.mem_cons_self goes
      simp only [Bool.not_false, cond_true, List.take_zero, List.drop_zero, List.nil_append]
      refine List.pairwise_cons.mpr ⟨fun z member => ?_, sorted⟩
      rcases List.mem_cons.mp member with rfl | member
      · exact leads
      · exact trans x y z leads (first z member)
    | true =>
      simp only [Bool.not_true, cond_false, List.take_succ_cons, List.drop_succ_cons,
        List.cons_append]
      have onward := ih (fun z member => total z (List.mem_cons_of_mem _ member)) later
      refine List.pairwise_cons.mpr ⟨fun z member => ?_, onward⟩
      simp only [List.mem_append, List.mem_cons] at member
      rcases member with taken | rfl | dropped
      · exact first z (List.mem_of_mem_take taken)
      · exact goes
      · exact first z (List.mem_of_mem_drop dropped)

end Cursored

end XMeterLogger
