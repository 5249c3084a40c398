import XMeterLogger.CList
import XMeterLogger.Lib.ChainTable

/-! The hash table of `hashtable.c`: a table of chains of elements on a heap, with their
keys on another, and payloads on a heap that it shares with its caller. Every function runs
under the semaphore of the table, so a call is one step. -/
namespace XMeterLogger.CHashtable

open XMeterLogger.LinkedList
open XMeterLogger.CList (Address)

/-- A string by its characters, the terminating NUL left out. -/
abbrev CString := { bytes : List UInt8 // 0 ∉ bytes }

/-- What an element holds: where its key is, and its payload, which may be NULL. -/
structure Entry where
  key : Address
  e : Option Address
  deriving DecidableEq, Repr

structure Element where
  next : Option Address
  entry : Entry
  deriving DecidableEq, Repr

/-- `hashtable_t`, with the elements, their keys and the payloads on their heaps. -/
structure State (α : Type) where
  table : List (Option Address)
  size : Nat
  count : Nat
  alloc : Bool
  elements : Heap Address Element
  keys : Heap Address CString
  payloads : Shared Address α

structure Malloc where
  element : Option Address
  key : Option Address
  copy : Option Address
  deriving DecidableEq, Repr

inductive Outcome where
  | status (rc : Int)
  | count (elements : Nat)
  | found (flag : Bool)
  | payload (e : Option Address)
  /-- The count, and what the slots of the table of keys point to, none for one that was
  never written; no table where none is allocated. -/
  | keys (elements : Nat) (slots : Option (List (Option CString)))
  | done
  deriving DecidableEq, Repr

variable {α : Type}

/-- The table is allocated by its size in bytes, a `size_t`. -/
def hashtableCreate (size : Nat) (alloc : Bool) : State α :=
  ⟨List.replicate (size * 8 % 0x10000000000000000 / 8) none, size, 0, alloc, fun _ => none,
    fun _ => none, .empty⟩

section Target

-- Whether `char` is a signed type, which differs between targets.
variable (signed : Bool)

def charValue (c : UInt8) : UInt64 := if signed then c.toInt8.toInt64.toUInt64 else c.toUInt64

def djb2 (key : CString) : UInt64 :=
  key.val.foldl (fun hash c => ((hash <<< 5) + hash) + charValue signed c) 5381

/-- The modulus is a fault for a table of size 0. -/
def hashtableComputeHash (s : State α) (key : CString) : Option Nat :=
  if s.size = 0 then none else some ((djb2 signed key).toNat % s.size)

/-- The search that most functions begin with: the chain, the element before and the
element of the key. No chain is longer than the count, which bounds its loop. -/
def lookupKey (s : State α) (key : CString) : Option (Nat × Option Address × Option Address) := do
  let hash ← hashtableComputeHash signed s key
  let first ← s.table[hash]?
  let (last, curr) ←
    find Element.next s.elements (fun node => (s.keys node.entry.key).map fun k => k == key) s.count
      none first
  some (hash, last, curr)

def freePayload (s : State α) (e : Option Address) : Option (Shared Address α) :=
  match e with
  | some p => if s.alloc then s.payloads.free p else some s.payloads
  | none => some s.payloads

/-- What is returned is the caller's from then on. -/
def handOver (s : State α) (e : Option Address) : Shared Address α :=
  match e with
  | some p => if s.alloc then s.payloads.handOver p else s.payloads
  | none => s.payloads

/-- What is stored for a payload, or that memory ran out. A payload of size 0 is not copied;
an allocating table frees it later all the same. -/
def storePayload (alloc : Bool) (payloads : Shared Address α) (e : Option Address) (size : Nat)
    (m : Malloc) : Option (Option (Option Address × Shared Address α)) :=
  match e with
  | none => some (some (none, payloads))
  | some p =>
    if alloc then
      if size ≠ 0 then
        match m.copy with
        | none => some none
        | some copy => (payloads.heap p).map fun content => some (some copy, payloads.malloc copy content)
      else some (some (some p, payloads.takeOver p))
    else some (some (some p, payloads))

def updateElement (s : State α) (curr : Address) (e : Option Address) (size : Nat) (m : Malloc) :
    Option (State α × Outcome) := do
  let node ← s.elements curr
  let payloads ← freePayload s node.entry.e
  let store (e : Option Address) :=
    modify s.elements (some curr) fun node => { node with entry := { node.entry with e } }
  match ← storePayload s.alloc payloads e size m with
  | none => do
    let elements ← store none
    some ({ s with elements, payloads }, .status (-1))
  | some (e, payloads) => do
    let elements ← store e
    some ({ s with elements, payloads }, .status 0)

/-- What was allocated is freed again when a later allocation fails. -/
def addElement (s : State α) (hash : Nat) (last : Option Address) (key : CString)
    (e : Option Address) (size : Nat) (m : Malloc) : Option (State α × Outcome) :=
  match m.element, m.key with
  | some el, some k => do
    match ← storePayload s.alloc s.payloads e size m with
    | none => some (s, .status (-1))
    | some (e, payloads) => do
      let elements := malloc s.elements el ⟨none, ⟨k, e⟩⟩
      let s := { s with keys := malloc s.keys k key, payloads, count := s.count + 1 }
      match last with
      | none => some ({ s with elements, table := s.table.set hash (some el) }, .status 0)
      | some last => do
        let elements ← modify elements (some last) fun node => { node with next := some el }
        some ({ s with elements }, .status 0)
  | _, _ => some (s, .status (-1))

def hashtableAdd (s : State α) (key : CString) (e : Option Address) (size : Nat) (m : Malloc) :
    Option (State α × Outcome) := do
  let (hash, last, curr) ← lookupKey signed s key
  match curr with
  | some curr => updateElement s curr e size m
  | none => addElement s hash last key e size m

def hashtableGetCount (s : State α) : Option (State α × Outcome) := some (s, .count s.count)

def hashtableHasKey (s : State α) (key : CString) : Option (State α × Outcome) := do
  let (_, _, curr) ← lookupKey signed s key
  some (s, .found curr.isSome)

def chainKeys (s : State α) : Nat → Option Address → Option (List CString)
  | _, none => some []
  | 0, some _ => none
  | fuel + 1, some curr => do
    let node ← s.elements curr
    let key ← s.keys node.entry.key
    let later ← chainKeys s fuel node.next
    some (key :: later)

def tableKeys (s : State α) : Option (List CString) :=
  (List.range s.size).foldlM
    (fun keys hash => do
      let first ← s.table[hash]?
      let chain ← chainKeys s s.count first
      some (keys ++ chain)) []

/-- More keys than slots would be written behind the table of keys. -/
def hashtableGetKeys (s : State α) (allocated : Bool) : Option (State α × Outcome) :=
  if 0 < s.count then
    if allocated then do
      let keys ← tableKeys s
      if keys.length ≤ s.count then
        some (s, .keys s.count
          (some (keys.map some ++ List.replicate (s.count - keys.length) none)))
      else none
    else some (s, .keys s.count none)
  else some (s, .keys 0 none)

def hashtableLookup (s : State α) (key : CString) : Option (State α × Outcome) := do
  let (_, _, curr) ← lookupKey signed s key
  match curr with
  | none => some (s, .payload none)
  | some curr => do
    let node ← s.elements curr
    some (s, .payload node.entry.e)

/-- The count is left as it is. -/
def hashtableRemove (s : State α) (key : CString) : Option (State α × Outcome) := do
  let (hash, last, curr) ← lookupKey signed s key
  match curr with
  | none => some (s, .payload none)
  | some curr => do
    let node ← s.elements curr
    let s ← match last with
      | none => some { s with table := s.table.set hash node.next }
      | some last => do
        let elements ← modify s.elements (some last) fun before => { before with next := node.next }
        some { s with elements }
    let keys ← free s.keys node.entry.key
    let elements ← free s.elements curr
    some ({ s with elements, keys, payloads := handOver s node.entry.e }, .payload node.entry.e)

end Target

def releaseChain (s : State α) : Nat → Option Address → Option (State α)
  | _, none => some s
  | 0, some _ => none
  | fuel + 1, some tmp => do
    let node ← s.elements tmp
    let keys ← free s.keys node.entry.key
    let payloads ← freePayload s node.entry.e
    let elements ← free s.elements tmp
    releaseChain { s with elements, keys, payloads } fuel node.next

def releaseSlot (s : State α) (hash : Nat) : Option (State α) := do
  let first ← s.table[hash]?
  releaseChain s s.count first

def hashtableRelease (s : State α) : Option (State α) := (List.range s.size).foldlM releaseSlot s

inductive Call (α : Type) where
  | add (key : CString) (e : Option Address) (size : Nat) (m : Malloc)
  | getCount
  | hasKey (key : CString)
  | getKeys (allocated : Bool)
  | lookup (key : CString)
  | remove (key : CString)
  | callerMalloc (e : Address) (content : α)
  | callerFree (e : Address)
  deriving DecidableEq

section Target

variable (signed : Bool)

def object (s : State α) : Call α → Option (State α × Outcome)
  | .add key e size m => hashtableAdd signed s key e size m
  | .getCount => hashtableGetCount s
  | .hasKey key => hashtableHasKey signed s key
  | .getKeys allocated => hashtableGetKeys s allocated
  | .lookup key => hashtableLookup signed s key
  | .remove key => hashtableRemove signed s key
  | .callerMalloc e content => some ({ s with payloads := s.payloads.clientMalloc e content }, .done)
  | .callerFree e => (s.payloads.clientFree e).map fun payloads => ({ s with payloads }, .done)

def payloadOf (s : State α) (key : CString) : Option Address :=
  match hashtableLookup signed s key with
  | some (_, .payload e) => e
  | _ => none

/-- `malloc` answers with blocks that are not in use; the payload of a key that is there is
free again by then. -/
def Malloc.Fresh (m : Malloc) (s : State α) (key : CString) : Prop :=
  (∀ a ∈ m.element, s.elements a = none) ∧ (∀ a ∈ m.key, s.keys a = none) ∧
    ∀ a ∈ m.copy, s.payloads.heap a = none ∨ payloadOf signed s key = some a

/-- What an allocating table copies is live, and is not the payload of the same key, which is
freed before it is read. What it keeps without a copy, a payload of size 0, is a block of the
caller. -/
def Allowed (s : State α) : Call α → Prop
  | .add key e size m =>
    m.Fresh signed s key ∧ (s.alloc = true → ∀ p ∈ e,
      if size = 0 then p ∈ s.payloads.client
      else s.payloads.heap p ≠ none ∧ payloadOf signed s key ≠ some p)
  | .callerMalloc e _ => s.payloads.heap e = none
  | .callerFree e => e ∈ s.payloads.client
  | _ => True

instance (m : Malloc) (s : State α) (key : CString) : Decidable (m.Fresh signed s key) :=
  inferInstanceAs (Decidable (_ ∧ _ ∧ _))

instance (s : State α) (call : Call α) : Decidable (Allowed signed s call) := by
  cases call <;> unfold Allowed <;> infer_instance

end Target

end XMeterLogger.CHashtable
