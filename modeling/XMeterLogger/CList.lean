import XMeterLogger.Lib.Cursor
import XMeterLogger.Lib.Objects
import XMeterLogger.Lib.SharedHeap

/-! The doubly linked list of `list.c`, node by node on a heap of elements; its payloads are
on a heap that it shares with its caller. Every function runs under the semaphore of the
list, so a call is one step. -/
namespace XMeterLogger.CList

open XMeterLogger.LinkedList XMeterLogger.Objects

abbrev Address := Nat

/-- `list_element_t`, with the pointer to its payload. -/
abbrev Element := Node Address Address

/-- `list_t`, with the elements and the payloads on their heaps. -/
structure State (α : Type) where
  first : Option Address
  last : Option Address
  curr : Option Address
  count : Nat
  alloc : Bool
  /-- The callback, which looks at what its pointers point to. -/
  sort : Option (α → α → Bool)
  elements : Heap Address Element
  payloads : Shared Address α

structure Malloc where
  element : Option Address
  copy : Option Address
  deriving DecidableEq, Repr

inductive Outcome where
  | status (rc : Int)
  | payload (e : Option Address)
  | count (elements : Nat)
  /-- The `void*` of `list_remove`, which points to an element of the list. -/
  | element (next : Option Address)
  | done
  deriving DecidableEq, Repr

variable {α : Type}

def listCreate (alloc : Bool) (sort : Option (α → α → Bool)) : State α :=
  ⟨none, none, none, 0, alloc, sort, fun _ => none, .empty⟩

/-- An element whose copy cannot be allocated is freed again. -/
def listCreateElement (s : State α) (e : Address) (m : Malloc) :
    Option (State α × Option Address) :=
  match m.element with
  | none => some (s, none)
  | some el =>
    if s.alloc then
      match m.copy with
      | none => some (s, none)
      | some copy => do
        let content ← s.payloads.heap e
        some ({ s with
          elements := malloc s.elements el ⟨none, none, copy⟩
          payloads := s.payloads.malloc copy content }, some el)
    else some ({ s with elements := malloc s.elements el ⟨none, none, e⟩ }, some el)

def linkOnly (s : State α) (el : Address) : State α :=
  { s with first := some el, last := some el, curr := some el }

/-- The three assignments that link an element behind the last. -/
def linkLast (s : State α) (el : Address) : Option (State α) := do
  let h ← setNext s.elements s.last (some el)
  let h ← setPrev h (some el) s.last
  some { s with elements := h, last := some el }

/-- The element is linked just before `tmp`. -/
def linkBefore (s : State α) (tmp el : Address) : Option (State α) := do
  let node ← s.elements tmp
  let s ← match node.prev with
    | none => some { s with first := some el }
    | some prev => do
      let h ← setNext s.elements (some prev) (some el)
      let h ← setPrev h (some el) (some prev)
      some { s with elements := h }
  let h ← setNext s.elements (some el) (some tmp)
  let h ← setPrev h (some tmp) (some el)
  some { s with elements := h }

def callSort (h : Heap Address α) (sort : α → α → Bool) (p q : Address) : Option Bool := do
  let x ← h p
  let y ← h q
  some (sort x y)

/-- The search of `list_add` for the place of `e`; `count` elements bound its loop. -/
def findPlace (s : State α) (sort : α → α → Bool) (e : Address) :
    Option (Option Address × Option Address) :=
  find Node.next s.elements
    (fun node => (callSort s.payloads.heap sort node.value e).map (! ·)) s.count none s.first

/-- What the three functions that add have in common; they differ in how the element is
linked. -/
def addWith (link : State α → Address → Option (State α)) (s : State α) (e : Address) (m : Malloc) :
    Option (State α × Outcome) := do
  match ← listCreateElement s e m with
  | (s, none) => some (s, .status (-1))
  | (s, some el) => do
    let s ← link s el
    some ({ s with count := s.count + 1 }, .status 0)

def listAdd (s : State α) (e : Address) (m : Malloc) : Option (State α × Outcome) :=
  addWith (fun s el =>
    if s.first = none then some (linkOnly s el)
    else match s.sort with
      | none => linkLast s el
      | some sort => do
        let (_, found) ← findPlace s sort e
        match found with
        | some tmp => linkBefore s tmp el
        | none => linkLast s el) s e m

def listAddHead (s : State α) (e : Address) (m : Malloc) : Option (State α × Outcome) :=
  addWith (fun s el =>
    if s.first = none then some (linkOnly s el)
    else do
      let h ← setPrev s.elements s.first (some el)
      let h ← setNext h (some el) s.first
      some { s with elements := h, first := some el }) s e m

def listAddTail (s : State α) (e : Address) (m : Malloc) : Option (State α × Outcome) :=
  addWith (fun s el => if s.last = none then some (linkOnly s el) else linkLast s el) s e m

/-- The payload of the current element, NULL when there is none. -/
def currentPayload (s : State α) : Option (State α × Outcome) :=
  match s.curr with
  | none => some (s, .payload none)
  | some curr => (s.elements curr).map fun node => (s, .payload (some node.value))

def listGetHead (s : State α) : Option (State α × Outcome) := currentPayload { s with curr := s.first }

def listGetTail (s : State α) : Option (State α × Outcome) := currentPayload { s with curr := s.last }

def listGetNext (s : State α) : Option (State α × Outcome) :=
  match s.curr with
  | none => currentPayload s
  | some curr => do
    let node ← s.elements curr
    currentPayload { s with curr := node.next }

def listGetPrev (s : State α) : Option (State α × Outcome) :=
  match s.curr with
  | none => currentPayload s
  | some curr => do
    let node ← s.elements curr
    currentPayload { s with curr := node.prev }

/-- A copy is freed with its element. -/
def freePayload (s : State α) (e : Address) : Option (Shared Address α) :=
  if s.alloc then s.payloads.free e else some s.payloads

/-- A copy that is returned is the caller's from then on. -/
def handOver (s : State α) (e : Address) : Shared Address α :=
  if s.alloc then s.payloads.handOver e else s.payloads

def findPayload (s : State α) (e : Option Address) : Option (Option Address × Option Address) :=
  find Node.next s.elements (fun node => some (some node.value == e)) s.count none s.first

/-- The element behind the one removed is returned, not its payload. -/
def listRemove (s : State α) (e : Option Address) : Option (State α × Outcome) := do
  let (_, found) ← findPayload s e
  match found with
  | none => some (s, .element none)
  | some tmp => do
    let node ← s.elements tmp
    let s := { s with
      first := if s.first = some tmp then node.next else s.first
      last := if s.last = some tmp then node.prev else s.last
      curr := if s.curr = some tmp then node.prev else s.curr }
    let h ← setNextGuarded s.elements node.prev node.next
    let h ← setPrevGuarded h node.next node.prev
    let payloads ← freePayload s node.value
    let h ← free h tmp
    some ({ s with elements := h, payloads, count := s.count - 1 }, .element node.next)

def listRemoveHead (s : State α) : Option (State α × Outcome) :=
  match s.first with
  | none => some (s, .payload none)
  | some tmp => do
    let node ← s.elements tmp
    let s := { s with curr := if s.curr = some tmp then node.next else s.curr }
    let s ←
      if node.next = none then some { s with first := none, last := none }
      else do
        let h ← setPrev s.elements node.next none
        some { s with elements := h, first := node.next }
    let h ← free s.elements tmp
    some ({ s with elements := h, payloads := handOver s node.value, count := s.count - 1 },
      .payload (some node.value))

def listRemoveTail (s : State α) : Option (State α × Outcome) :=
  match s.last with
  | none => some (s, .payload none)
  | some tmp => do
    let node ← s.elements tmp
    let s := { s with curr := if s.curr = some tmp then node.prev else s.curr }
    let s ←
      if node.prev = none then some { s with first := none, last := none }
      else do
        let h ← setNext s.elements node.prev none
        some { s with elements := h, last := node.prev }
    let h ← free s.elements tmp
    some ({ s with elements := h, payloads := handOver s node.value, count := s.count - 1 },
      .payload (some node.value))

def releaseElements (s : State α) : Nat → Option Address → Option (State α)
  | _, none => some s
  | 0, some _ => none
  | fuel + 1, some el => do
    let node ← s.elements el
    let payloads ← freePayload s node.value
    let h ← free s.elements el
    releaseElements { s with elements := h, payloads } fuel node.next

def listRelease (s : State α) : Option (Heap Address Element × Shared Address α) :=
  (releaseElements s s.count s.first).map fun s => (s.elements, s.payloads)

inductive Call (α : Type) where
  | add (e : Address) (m : Malloc)
  | addHead (e : Address) (m : Malloc)
  | addTail (e : Address) (m : Malloc)
  | getCount
  | getHead
  | getTail
  | getNext
  | getPrev
  | remove (e : Option Address)
  | removeHead
  | removeTail
  | callerMalloc (e : Address) (content : α)
  | callerFree (e : Address)
  deriving DecidableEq, Repr

def object (s : State α) : Call α → Option (State α × Outcome)
  | .add e m => listAdd s e m
  | .addHead e m => listAddHead s e m
  | .addTail e m => listAddTail s e m
  | .getCount => some (s, .count s.count)
  | .getHead => listGetHead s
  | .getTail => listGetTail s
  | .getNext => listGetNext s
  | .getPrev => listGetPrev s
  | .remove e => listRemove s e
  | .removeHead => listRemoveHead s
  | .removeTail => listRemoveTail s
  | .callerMalloc e content => some ({ s with payloads := s.payloads.clientMalloc e content }, .done)
  | .callerFree e => (s.payloads.clientFree e).map fun payloads => ({ s with payloads }, .done)

/-- `malloc` answers with blocks that are not in use. -/
def Malloc.Fresh (m : Malloc) (s : State α) : Prop :=
  (∀ a ∈ m.element, s.elements a = none ∧ s.payloads.heap a = none) ∧
  (∀ a ∈ m.copy, s.elements a = none ∧ s.payloads.heap a = none) ∧
  ∀ a ∈ m.element, a ∉ m.copy

def keeps (s : State α) (e : Address) : Bool :=
  match findPayload s (some e) with
  | some (_, some _) => true
  | _ => false

/-- What is added is live, and stays so while a list that makes no copies keeps it. -/
def Allowed (s : State α) : Call α → Prop
  | .add e m | .addHead e m | .addTail e m => m.Fresh s ∧ s.payloads.heap e ≠ none
  | .callerMalloc e _ => s.elements e = none ∧ s.payloads.heap e = none
  | .callerFree e => e ∈ s.payloads.client ∧ (s.alloc = true ∨ keeps s e = false)
  | _ => True

instance (m : Malloc) (s : State α) : Decidable (m.Fresh s) :=
  inferInstanceAs (Decidable (_ ∧ _ ∧ _))

instance (s : State α) (call : Call α) : Decidable (Allowed s call) := by
  cases call <;> unfold Allowed <;> infer_instance

end XMeterLogger.CList
