import XMeterLogger.Lib.Ownership

/-! A heap that an object and its client allocate from. Blocks pass from one to the other;
each is freed by the one that has it. -/
namespace XMeterLogger.LinkedList

/-- The heap, with the blocks that the client has. -/
structure Shared (Address Block : Type*) where
  heap : Heap Address Block
  client : List Address

namespace Shared

variable {Address Block : Type*} {m : Shared Address Block} {owned others : List Address} {a : Address}

def empty : Shared Address Block := ⟨fun _ => none, []⟩

def handOver (m : Shared Address Block) (a : Address) : Shared Address Block :=
  { m with client := a :: m.client }

/-- The live blocks are these of the object and those of the client. -/
def Owns (m : Shared Address Block) (owned : List Address) : Prop := Tracks m.heap (owned ++ m.client)

theorem owns_empty : (empty : Shared Address Block).Owns [] := extends_refl _

theorem Owns.perm (owns : m.Owns owned) (same : owned.Perm others) : m.Owns others :=
  Extends.perm owns (same.append_right m.client)

theorem Owns.live (owns : m.Owns owned) (member : a ∈ owned) : m.heap a ≠ none :=
  (Extends.added owns a (List.mem_append_left _ member)).2

theorem Owns.client_live (owns : m.Owns owned) (member : a ∈ m.client) : m.heap a ≠ none :=
  (Extends.added owns a (List.mem_append_right _ member)).2

theorem Owns.handOver (owns : m.Owns (a :: owned)) : (m.handOver a).Owns owned :=
  Extends.perm owns List.perm_middle.symm

section Items

variable {Item : Type*} {owning : Bool} {pointer : Item → Option Address} {x : Item}
  {items rest : List Item}

/-- The blocks that an object has through its items, if it owns what they point to. -/
def copiesOf (owning : Bool) (pointer : Item → Option Address) (items : List Item) : List Address :=
  if owning then items.filterMap pointer else []

/-- What an item pointed to is the client's when the item is gone, if it was the object's. -/
def given (m : Shared Address Block) (owning : Bool) : Option Address → Shared Address Block
  | some a => if owning then m.handOver a else m
  | none => m

theorem owns_no_copies : m.Owns (copiesOf owning pointer []) ↔ m.Owns [] := by
  cases owning <;> exact Iff.rfl

theorem copiesOf_perm (same : items.Perm rest) :
    (copiesOf owning pointer items).Perm (copiesOf owning pointer rest) := by
  cases owning with
  | false => exact .refl _
  | true => exact same.filterMap _

theorem copiesOf_cons : copiesOf owning pointer (x :: items) =
    if owning then (pointer x).toList ++ copiesOf owning pointer items else [] := by
  cases owning with
  | false => rfl
  | true =>
    unfold copiesOf
    cases held : pointer x <;> simp [held]

theorem given_heap (m : Shared Address Block) (owning : Bool) (p : Option Address) :
    (m.given owning p).heap = m.heap := by
  cases p <;> cases owning <;> rfl

theorem Owns.given (owns : m.Owns (copiesOf owning pointer (x :: items))) :
    (m.given owning (pointer x)).Owns (copiesOf owning pointer items) := by
  rw [copiesOf_cons] at owns
  cases held : pointer x with
  | none =>
    rw [held] at owns
    cases owning <;> exact owns
  | some a =>
    rw [held] at owns
    cases owning with
    | false => exact owns
    | true => exact owns.handOver

end Items

variable [DecidableEq Address]

def takeOver (m : Shared Address Block) (a : Address) : Shared Address Block :=
  { m with client := m.client.erase a }

def malloc (m : Shared Address Block) (a : Address) (block : Block) : Shared Address Block :=
  { m with heap := LinkedList.malloc m.heap a block }

def free (m : Shared Address Block) (a : Address) : Option (Shared Address Block) :=
  (LinkedList.free m.heap a).map fun heap => { m with heap }

/-- What is left when a block is freed. -/
def without (m : Shared Address Block) (a : Address) : Shared Address Block :=
  { m with heap := Function.update m.heap a none }

def clientMalloc (m : Shared Address Block) (a : Address) (block : Block) : Shared Address Block :=
  (m.malloc a block).handOver a

def clientFree (m : Shared Address Block) (a : Address) : Option (Shared Address Block) :=
  (m.free a).map fun m => m.takeOver a

theorem malloc_heap_of_ne {b : Address} (apart : b ≠ a) (block : Block) :
    (m.malloc a block).heap b = m.heap b :=
  Function.update_of_ne apart ..

theorem without_heap_of_ne {b : Address} (apart : b ≠ a) : (m.without a).heap b = m.heap b :=
  Function.update_of_ne apart ..

theorem without_heap {b : Address} (lives : (m.without a).heap b ≠ none) :
    (m.without a).heap b = m.heap b := by
  have apart : b ≠ a := by
    rintro rfl
    exact lives (Function.update_self ..)
  exact without_heap_of_ne apart

theorem free_of {block : Block} (live : m.heap a = some block) : m.free a = some (m.without a) := by
  rw [free, LinkedList.free_of live]
  rfl

theorem Owns.malloc (owns : m.Owns owned) (unused : m.heap a = none) (block : Block) :
    (m.malloc a block).Owns (a :: owned) :=
  Extends.malloc owns unused block

theorem Owns.free (owns : m.Owns (a :: owned)) :
    m.free a = some (m.without a) ∧ (m.without a).Owns owned := by
  obtain ⟨block, live⟩ := Option.ne_none_iff_exists'.mp (owns.live List.mem_cons_self)
  exact ⟨free_of live, (Extends.free owns).2⟩

theorem Owns.takeOver (owns : m.Owns owned) (member : a ∈ m.client) :
    (m.takeOver a).Owns (a :: owned) :=
  Extends.perm owns (((List.perm_cons_erase member).append_left owned).trans List.perm_middle)

theorem Owns.clientMalloc (owns : m.Owns owned) (unused : m.heap a = none) (block : Block) :
    (m.clientMalloc a block).Owns owned :=
  (owns.malloc unused block).handOver

theorem Owns.clientFree (owns : m.Owns owned) (member : a ∈ m.client) :
    m.clientFree a = some ((m.without a).takeOver a) ∧ ((m.without a).takeOver a).Owns owned := by
  obtain ⟨block, live⟩ := Option.ne_none_iff_exists'.mp (owns.client_live member)
  exact ⟨by rw [Shared.clientFree, free_of live]; rfl, (Extends.free (owns.takeOver member)).2⟩

/-- The blocks of the client alone. -/
def clientOnly (m : Shared Address Block) : Shared Address Block :=
  { m with heap := fun a => if a ∈ m.client then m.heap a else none }

theorem Owns.clientOnly (owns : m.Owns []) : m.clientOnly = m := by
  have same : m.clientOnly.heap = m.heap := by
    funext a
    by_cases member : a ∈ m.client
    · exact if_pos member
    · exact (if_neg member).trans (Extends.kept owns a member).symm
  exact congrArg (fun heap => (⟨heap, m.client⟩ : Shared Address Block)) same

theorem Owns.without_clientOnly (owns : m.Owns (a :: owned)) :
    (m.without a).clientOnly = m.clientOnly := by
  have outside : a ∉ m.client := fun member =>
    (List.nodup_cons.mp (Extends.distinct owns)).1 (List.mem_append_right _ member)
  have same : (m.without a).clientOnly.heap = m.clientOnly.heap := by
    funext b
    by_cases member : b ∈ m.client
    · have apart : b ≠ a := fun same => outside (same ▸ member)
      exact (if_pos member).trans ((without_heap_of_ne apart).trans (if_pos member).symm)
    · exact (if_neg member).trans (if_neg member).symm
  exact congrArg (fun heap => (⟨heap, m.client⟩ : Shared Address Block)) same

section Owner

def freeOwned (m : Shared Address Block) (owning : Bool) : Option Address → Option (Shared Address Block)
  | some a => if owning then m.free a else some m
  | none => some m

/-- What an item pointed to goes with it, if it was the object's. -/
def dropped (m : Shared Address Block) (owning : Bool) : Option Address → Shared Address Block
  | some a => if owning then m.without a else m
  | none => m

variable {Item : Type*} {owning : Bool} {pointer : Item → Option Address} {x : Item}
  {items : List Item} {p : Option Address}

/-- What goes with its item is freed once, and only it. -/
theorem Owns.freeOwned (owns : m.Owns (copiesOf owning pointer (x :: items))) :
    m.freeOwned owning (pointer x) = some (m.dropped owning (pointer x)) ∧
      (m.dropped owning (pointer x)).Owns (copiesOf owning pointer items) := by
  rw [copiesOf_cons] at owns
  cases held : pointer x with
  | none =>
    rw [held] at owns
    cases owning <;> exact ⟨rfl, owns⟩
  | some a =>
    rw [held] at owns
    cases owning with
    | false => exact ⟨rfl, owns⟩
    | true => exact owns.free

theorem Owns.dropped_clientOnly (owns : m.Owns (copiesOf owning pointer (x :: items))) :
    (m.dropped owning (pointer x)).clientOnly = m.clientOnly := by
  rw [copiesOf_cons] at owns
  cases held : pointer x with
  | none => rfl
  | some a =>
    cases owning with
    | false => rfl
    | true =>
      rw [held] at owns
      exact owns.without_clientOnly

theorem dropped_client : (m.dropped owning p).client = m.client := by
  cases p <;> cases owning <;> rfl

theorem dropped_heap_of_ne (apart : p ≠ some a) : (m.dropped owning p).heap a = m.heap a := by
  cases p with
  | none => rfl
  | some b =>
    cases owning with
    | false => rfl
    | true => exact without_heap_of_ne fun same => apart (congrArg some same.symm)

theorem dropped_heap (lives : (m.dropped owning p).heap a ≠ none) :
    (m.dropped owning p).heap a = m.heap a := by
  cases p with
  | none => rfl
  | some b =>
    cases owning with
    | false => rfl
    | true => exact without_heap lives

theorem dropped_unused (unused : m.heap a = none ∨ p = some a) : (m.dropped true p).heap a = none := by
  by_cases same : p = some a
  · rw [same]
    exact Function.update_self ..
  · rw [dropped_heap_of_ne same]
    exact unused.resolve_right same

end Owner

end Shared

end XMeterLogger.LinkedList
