import Mathlib.Data.List.Nodup
import Mathlib.Logic.Function.Basic
import Mathlib.Tactic.Common

/-! Linked lists on a heap of whole blocks. A chain lists the blocks met by following
one link; a doubly linked list is a chain along each of its two links. Lists are edited
at a place held open by one node: opened, relinked by single stores and closed again. -/
namespace XMeterLogger.LinkedList

variable {Address Block Value : Type*}

/-- The live blocks; reading or freeing any other is a fault. -/
abbrev Heap (Address Block : Type*) := Address → Option Block

section Heap

variable [DecidableEq Address]

def malloc (h : Heap Address Block) (a : Address) (block : Block) : Heap Address Block :=
  Function.update h a (some block)

def free (h : Heap Address Block) (a : Address) : Option (Heap Address Block) :=
  if (h a).isSome then some (Function.update h a none) else none

/-- A store through a pointer, which faults on NULL. -/
def modify (h : Heap Address Block) (p : Option Address) (f : Block → Block) :
    Option (Heap Address Block) :=
  p.bind fun a => (h a).map fun block => Function.update h a (some (f block))

theorem free_of {h : Heap Address Block} {a : Address} {block : Block} (live : h a = some block) :
    free h a = some (Function.update h a none) := by
  simp [free, live]

theorem modify_of {h : Heap Address Block} {a : Address} {block : Block} (live : h a = some block)
    (f : Block → Block) : modify h (some a) f = some (Function.update h a (some (f block))) := by
  simp [modify, live]

end Heap

def addresses (xs : List (Address × Value)) : List Address := xs.map Prod.fst

@[simp] theorem addresses_nil : addresses ([] : List (Address × Value)) = [] := rfl

@[simp] theorem addresses_cons (a : Address) (x : Value) (xs : List (Address × Value)) :
    addresses ((a, x) :: xs) = a :: addresses xs := rfl

@[simp] theorem addresses_append (xs ys : List (Address × Value)) :
    addresses (xs ++ ys) = addresses xs ++ addresses ys := List.map_append

@[simp] theorem addresses_reverse (xs : List (Address × Value)) :
    addresses xs.reverse = (addresses xs).reverse := List.map_reverse

/-- Where a list starts, when `after` follows it. -/
def entry (xs : List (Address × Value)) (after : Option Address) : Option Address :=
  match xs with
  | [] => after
  | (a, _) :: _ => some a

/-- Where a list ends, when `before` precedes it. -/
def exit (before : Option Address) (xs : List (Address × Value)) : Option Address :=
  entry xs.reverse before

@[simp] theorem entry_nil (after : Option Address) :
    entry ([] : List (Address × Value)) after = after := rfl

@[simp] theorem entry_cons (a : Address) (x : Value) (xs : List (Address × Value))
    (after : Option Address) : entry ((a, x) :: xs) after = some a := rfl

theorem entry_append (xs ys : List (Address × Value)) (after : Option Address) :
    entry (xs ++ ys) after = entry xs (entry ys after) := by
  cases xs with
  | nil => rfl
  | cons x xs => rfl

@[simp] theorem exit_nil (before : Option Address) :
    exit before ([] : List (Address × Value)) = before := rfl

@[simp] theorem exit_concat (before : Option Address) (xs : List (Address × Value)) (a : Address)
    (x : Value) : exit before (xs ++ [(a, x)]) = some a := by
  simp [exit]

theorem exit_append (before : Option Address) (xs ys : List (Address × Value)) :
    exit before (xs ++ ys) = exit (exit before xs) ys := by
  simp [exit, entry_append]

theorem exit_cons (before : Option Address) (a : Address) (x : Value) (xs : List (Address × Value)) :
    exit before ((a, x) :: xs) = exit (some a) xs := exit_append before [(a, x)] xs

@[simp] theorem entry_reverse (xs : List (Address × Value)) (before : Option Address) :
    entry xs.reverse before = exit before xs := rfl

theorem entry_eq_none {xs : List (Address × Value)} : entry xs none = none ↔ xs = [] := by
  cases xs with
  | nil => simp
  | cons x xs => simp [entry]

theorem exit_eq_none {xs : List (Address × Value)} : exit none xs = none ↔ xs = [] := by
  rw [exit, entry_eq_none, List.reverse_eq_nil_iff]

theorem entry_eq_head {xs : List (Address × Value)} : entry xs none = (addresses xs)[0]? := by
  cases xs with
  | nil => rfl
  | cons x xs => rfl

theorem exit_eq_last {xs : List (Address × Value)} : exit none xs = (addresses xs).getLast? := by
  rw [exit, entry_eq_head, addresses_reverse, List.getLast?_eq_head?_reverse, List.head?_eq_getElem?]

theorem entry_eq_some {xs : List (Address × Value)} {a : Address} (found : entry xs none = some a) :
    ∃ x rest, xs = (a, x) :: rest := by
  cases xs with
  | nil => contradiction
  | cons head rest =>
    obtain ⟨b, x⟩ := head
    obtain rfl := Option.some.inj found
    exact ⟨x, rest, rfl⟩

theorem exit_eq_some {xs : List (Address × Value)} {a : Address} (found : exit none xs = some a) :
    ∃ front x, xs = front ++ [(a, x)] := by
  obtain ⟨x, rest, reversed⟩ := entry_eq_some found
  exact ⟨rest.reverse, x, by rw [← List.reverse_reverse xs, reversed, List.reverse_cons]⟩

/-- Without a node in the middle a list starts where it did, or behind the node. -/
theorem entry_without [DecidableEq Address] {front back : List (Address × Value)} {a : Address}
    {x : Value} (outside : a ∉ addresses front) :
    (if entry (front ++ (a, x) :: back) none = some a then entry back none
      else entry (front ++ (a, x) :: back) none) = entry (front ++ back) none := by
  cases front with
  | nil => simp
  | cons head front =>
    obtain ⟨b, y⟩ := head
    have apart : b ≠ a := fun same => outside (same ▸ List.mem_cons_self)
    exact if_neg fun same => apart (Option.some.inj same)

theorem exit_without [DecidableEq Address] {front back : List (Address × Value)} {a : Address}
    {x : Value} (outside : a ∉ addresses back) :
    (if exit none (front ++ (a, x) :: back) = some a then exit none front
      else exit none (front ++ (a, x) :: back)) = exit none (front ++ back) := by
  have mirrored := @entry_without _ _ _ back.reverse front.reverse a x (by simpa using outside)
  unfold exit
  simp only [List.reverse_append, List.reverse_cons, List.append_assoc, List.singleton_append]
  exact mirrored

section Chain

variable (link : Block → Option Address) (value : Block → Value)

/-- The blocks met from the first of `xs` on, one link at a time, until `after`. -/
def Chain (h : Heap Address Block) : List (Address × Value) → Option Address → Prop
  | [], _ => True
  | (a, x) :: rest, after =>
    (∃ block, h a = some block ∧ link block = entry rest after ∧ value block = x) ∧
      Chain h rest after

/-- Following `link` from `p` to the first block that passes, with the block before it. -/
def find (h : Heap Address Block) (test : Block → Option Bool) :
    Nat → (last p : Option Address) → Option (Option Address × Option Address)
  | _, last, none => some (last, none)
  | 0, _, some _ => none
  | fuel + 1, last, some a =>
    (h a).bind fun block => (test block).bind fun passed =>
      if passed then some (last, some a) else find h test fuel (some a) (link block)

variable {link value} {h k : Heap Address Block} {xs ys : List (Address × Value)}
  {after : Option Address} {a : Address} {x : Value}

theorem chain_append :
    Chain link value h (xs ++ ys) after ↔
      Chain link value h xs (entry ys after) ∧ Chain link value h ys after := by
  induction xs with
  | nil => simp [Chain]
  | cons head rest ih =>
    obtain ⟨a, x⟩ := head
    simp only [List.cons_append, Chain, entry_append, ih, and_assoc]

/-- A chain reads the link and the value of its own blocks only. -/
theorem chain_congr (chain : Chain link value h xs after)
    (same : ∀ a ∈ addresses xs, ∀ block, h a = some block →
      ∃ other, k a = some other ∧ link other = link block ∧ value other = value block) :
    Chain link value k xs after := by
  induction xs with
  | nil => trivial
  | cons head rest ih =>
    obtain ⟨a, x⟩ := head
    obtain ⟨⟨block, live, linked, valued⟩, later⟩ := chain
    obtain ⟨other, lives, links, values⟩ := same a List.mem_cons_self block live
    refine ⟨⟨other, lives, links.trans linked, values.trans valued⟩, ih later ?_⟩
    exact fun b member => same b (List.mem_cons_of_mem _ member)

theorem chain_live (chain : Chain link value h xs after) (member : (a, x) ∈ xs) :
    ∃ block, h a = some block ∧ value block = x := by
  induction xs with
  | nil => contradiction
  | cons head rest ih =>
    obtain ⟨b, y⟩ := head
    obtain ⟨⟨block, live, -, valued⟩, later⟩ := chain
    rcases List.mem_cons.mp member with same | member
    · obtain ⟨rfl, rfl⟩ := Prod.mk.inj same
      exact ⟨block, live, valued⟩
    · exact ih later member

/-- The search stops at the first value that passes, or behind the last. -/
theorem find_chain {test : Block → Option Bool} {passes : Value → Bool}
    (chain : Chain link value h xs none)
    (tested : ∀ a block, h a = some block → value block ∈ xs.map Prod.snd →
      test block = some (passes (value block)))
    {fuel : Nat} (enough : xs.length ≤ fuel) (last : Option Address) :
    find link h test fuel last (entry xs none) =
      some (exit last (xs.take (xs.findIdx fun entry => passes entry.2)),
        entry (xs.drop (xs.findIdx fun entry => passes entry.2)) none) := by
  induction xs generalizing fuel last with
  | nil => cases fuel <;> rfl
  | cons head rest ih =>
    obtain ⟨a, x⟩ := head
    obtain ⟨⟨block, live, linked, rfl⟩, later⟩ := chain
    cases fuel with
    | zero => simp at enough
    | succ fuel =>
      have first := tested a block live List.mem_cons_self
      have onward := ih later (fun b other found member => tested b other found (List.mem_cons_of_mem _ member))
        (Nat.le_of_succ_le_succ enough) (some a)
      rw [List.findIdx_cons]
      cases passed : passes (value block) with
      | true => simp [find, live, first, passed]
      | false => simp [find, live, first, passed, linked, onward, exit_cons]

variable [DecidableEq Address]

/-- A write outside a chain leaves it alone. -/
theorem chain_update (chain : Chain link value h xs after) (outside : a ∉ addresses xs)
    (block : Option Block) : Chain link value (Function.update h a block) xs after := by
  apply chain_congr chain
  intro b member other live
  have apart : b ≠ a := fun same => outside (same ▸ member)
  exact ⟨other, by rw [Function.update_of_ne apart, live], rfl, rfl⟩

/-- So does one that keeps the link and the value. -/
theorem chain_modify (chain : Chain link value h xs after) {block new : Block}
    (live : h a = some block) (links : link new = link block) (values : value new = value block) :
    Chain link value (Function.update h a (some new)) xs after := by
  apply chain_congr chain
  intro b member other found
  by_cases same : b = a
  · subst same
    obtain rfl := Option.some.inj (live.symm.trans found)
    exact ⟨new, Function.update_self .., links, values⟩
  · exact ⟨other, by rw [Function.update_of_ne same, found], rfl, rfl⟩

/-- Storing to the link of its last block leads a chain elsewhere. -/
theorem chain_relink (chain : Chain link value h (xs ++ [(a, x)]) after)
    (outside : a ∉ addresses xs) {block new : Block} (live : h a = some block)
    (values : value new = value block) :
    Chain link value (Function.update h a (some new)) (xs ++ [(a, x)]) (link new) := by
  rw [chain_append] at chain ⊢
  obtain ⟨front, ⟨other, found, -, valued⟩, -⟩ := chain
  obtain rfl := Option.some.inj (live.symm.trans found)
  refine ⟨chain_update front outside _, ⟨new, ?_, rfl, values.trans valued⟩, trivial⟩
  exact Function.update_self ..

end Chain

structure Node (Address Value : Type*) where
  prev : Option Address
  next : Option Address
  value : Value
  deriving DecidableEq, Repr

section Doubly

variable {h : Heap Address (Node Address Value)} {xs front back : List (Address × Value)}

/-- The heap holds the nodes of `xs`, linked both ways, and nothing else. -/
structure Doubly (h : Heap Address (Node Address Value)) (xs : List (Address × Value)) : Prop where
  next : Chain Node.next Node.value h xs none
  prev : Chain Node.prev Node.value h xs.reverse none
  distinct : (addresses xs).Nodup
  exact : ∀ a, h a ≠ none → a ∈ addresses xs

/-- A list held open at one node: `front` leads to `onward`, `back` back to `backward`,
and the node between them is linked in any way. -/
structure Opened (h : Heap Address (Node Address Value)) (front : List (Address × Value))
    (onward : Option Address) (held : Address) (node : Node Address Value)
    (back : List (Address × Value)) (backward : Option Address) : Prop where
  frontNext : Chain Node.next Node.value h front onward
  frontPrev : Chain Node.prev Node.value h front.reverse none
  backNext : Chain Node.next Node.value h back none
  backPrev : Chain Node.prev Node.value h back.reverse backward
  live : h held = some node
  distinct : (addresses front ++ held :: addresses back).Nodup
  exact : ∀ a, h a ≠ none → a ∈ addresses front ++ held :: addresses back

theorem doubly_empty : Doubly (fun _ => none : Heap Address (Node Address Value)) [] :=
  ⟨trivial, trivial, List.nodup_nil, fun _ live => absurd rfl live⟩

theorem Doubly.node {a : Address} {x : Value} (doubly : Doubly h (front ++ (a, x) :: back)) :
    h a = some ⟨exit none front, entry back none, x⟩ := by
  have forward := doubly.next
  have backward := doubly.prev
  rw [List.reverse_append, List.reverse_cons, List.append_assoc, List.singleton_append] at backward
  obtain ⟨-, ⟨node, live, next, value⟩, -⟩ := chain_append.mp forward
  obtain ⟨-, ⟨other, found, prev, -⟩, -⟩ := chain_append.mp backward
  obtain rfl := Option.some.inj (live.symm.trans found)
  rw [live, ← prev.trans (entry_reverse ..), ← next, ← value]

theorem Doubly.node_at (doubly : Doubly h xs) {i : Nat} (inside : i < xs.length) :
    h xs[i].1 = some ⟨if 0 < i then (addresses xs)[i - 1]? else none, (addresses xs)[i + 1]?, xs[i].2⟩ := by
  have whole : xs.take i ++ (xs[i].1, xs[i].2) :: xs.drop (i + 1) = xs := by
    rw [← List.drop_eq_getElem_cons inside, List.take_append_drop]
  rw [← whole] at doubly
  rw [doubly.node, entry_eq_head, exit_eq_last]
  congr 2
  · rw [addresses, addresses, List.map_take, List.getLast?_take]
    by_cases start : 0 < i
    · have ahead : i - 1 < (xs.map Prod.fst).length := by rw [List.length_map]; omega
      rw [if_pos start, if_neg (Nat.ne_of_gt start), List.getElem?_eq_getElem ahead, Option.some_or]
    · rw [if_neg start, if_pos (Nat.eq_zero_of_not_pos start)]
  · rw [addresses, addresses, List.map_drop, List.getElem?_drop, Nat.add_zero]

/-- Any node of a list can be held open. -/
theorem Doubly.open_at {a : Address} {x : Value} (doubly : Doubly h (front ++ (a, x) :: back)) :
    Opened h front (some a) a ⟨exit none front, entry back none, x⟩ back (some a) := by
  have forward := doubly.next
  have backward := doubly.prev
  rw [List.reverse_append, List.reverse_cons, List.append_assoc, List.singleton_append] at backward
  obtain ⟨frontNext, -, backNext⟩ := chain_append.mp forward
  obtain ⟨backPrev, -, frontPrev⟩ := chain_append.mp backward
  refine ⟨frontNext, frontPrev, backNext, backPrev, doubly.node, ?_, ?_⟩
  · simpa using doubly.distinct
  · intro b live
    simpa using doubly.exact b live

variable {held : Address} {node : Node Address Value} {onward backward : Option Address}

/-- An empty front leads anywhere. -/
theorem Opened.reface (opened : Opened h [] onward held node back backward)
    (other : Option Address) : Opened h [] other held node back backward :=
  { opened with frontNext := trivial }

theorem Opened.reback (opened : Opened h front onward held node [] backward)
    (other : Option Address) : Opened h front onward held node [] other :=
  { opened with backPrev := trivial }

/-- Linked both ways, the held node is a node of the list. -/
theorem Opened.close {x : Value}
    (opened : Opened h front (some held) held ⟨exit none front, entry back none, x⟩ back (some held)) :
    Doubly h (front ++ (held, x) :: back) := by
  refine ⟨?_, ?_, by simpa using opened.distinct, fun a live => by simpa using opened.exact a live⟩
  · exact chain_append.mpr ⟨opened.frontNext, ⟨_, opened.live, rfl, rfl⟩, opened.backNext⟩
  · rw [List.reverse_append, List.reverse_cons, List.append_assoc, List.singleton_append]
    exact chain_append.mpr ⟨opened.backPrev, ⟨_, opened.live, rfl, rfl⟩, opened.frontPrev⟩

variable [DecidableEq Address]

/-- A place between two nodes is opened by a new node. -/
theorem Doubly.open_between (doubly : Doubly h (front ++ back)) (fresh : h held = none)
    (node : Node Address Value) :
    Opened (malloc h held node) front (entry back none) held node back (exit none front) := by
  have outside : held ∉ addresses front ∧ held ∉ addresses back := by
    rw [← not_or, ← List.mem_append, ← addresses_append]
    intro inside
    obtain ⟨⟨a, x⟩, member, rfl⟩ := List.mem_map.mp inside
    obtain ⟨block, live, -⟩ := chain_live doubly.next member
    simp [fresh] at live
  have backward := doubly.prev
  rw [List.reverse_append] at backward
  obtain ⟨frontNext, backNext⟩ := chain_append.mp doubly.next
  obtain ⟨backPrev, frontPrev⟩ := chain_append.mp backward
  refine ⟨chain_update frontNext outside.1 _, chain_update frontPrev (by simpa using outside.1) _,
    chain_update backNext outside.2 _, chain_update backPrev (by simpa using outside.2) _,
    Function.update_self .., ?_, ?_⟩
  · have distinct := doubly.distinct
    rw [addresses_append] at distinct
    rw [List.nodup_middle, List.nodup_cons]
    exact ⟨by simpa [not_or] using outside, distinct⟩
  · intro a live
    by_cases same : a = held
    · simp [same]
    · rw [malloc, Function.update_of_ne same] at live
      have member := doubly.exact a live
      simp only [addresses_append, List.mem_append] at member
      simp only [List.mem_append, List.mem_cons]
      tauto

/-- The held node is freed where front and back are linked to each other. -/
theorem Opened.drop (opened : Opened h front (entry back none) held node back (exit none front)) :
    free h held = some (Function.update h held none) ∧
      Doubly (Function.update h held none) (front ++ back) := by
  have distinct := opened.distinct
  rw [List.nodup_middle, List.nodup_cons, List.mem_append, not_or] at distinct
  obtain ⟨⟨notFront, notBack⟩, distinct⟩ := distinct
  refine ⟨free_of opened.live, ?_, ?_, by simpa using distinct, ?_⟩
  · exact chain_append.mpr ⟨chain_update opened.frontNext notFront _,
      chain_update opened.backNext notBack _⟩
  · rw [List.reverse_append]
    exact chain_append.mpr ⟨chain_update opened.backPrev (by simpa using notBack) _,
      chain_update opened.frontPrev (by simpa using notFront) _⟩
  · intro a live
    have apart : a ≠ held := by
      rintro rfl
      simp at live
    rw [Function.update_of_ne apart] at live
    have member := opened.exact a live
    simp only [List.mem_append, List.mem_cons] at member
    simp only [addresses_append, List.mem_append]
    tauto

def setNext (h : Heap Address (Node Address Value)) (p next : Option Address) :
    Option (Heap Address (Node Address Value)) := modify h p fun node => { node with next }

def setPrev (h : Heap Address (Node Address Value)) (p prev : Option Address) :
    Option (Heap Address (Node Address Value)) := modify h p fun node => { node with prev }

/-- The store that a test for NULL guards. -/
def setNextGuarded (h : Heap Address (Node Address Value)) (p next : Option Address) :
    Option (Heap Address (Node Address Value)) := if p = none then some h else setNext h p next

def setPrevGuarded (h : Heap Address (Node Address Value)) (p prev : Option Address) :
    Option (Heap Address (Node Address Value)) := if p = none then some h else setPrev h p prev

/-- Stores to the held node leave the list around it alone. -/
theorem Opened.modify_held (opened : Opened h front onward held node back backward)
    (f : Node Address Value → Node Address Value) :
    modify h (some held) f = some (Function.update h held (some (f node))) ∧
      Opened (Function.update h held (some (f node))) front onward held (f node) back backward := by
  have distinct := opened.distinct
  rw [List.nodup_middle, List.nodup_cons, List.mem_append, not_or] at distinct
  obtain ⟨⟨notFront, notBack⟩, -⟩ := distinct
  refine ⟨modify_of opened.live f, ?_⟩
  refine ⟨chain_update opened.frontNext notFront _,
    chain_update opened.frontPrev (by simpa using notFront) _,
    chain_update opened.backNext notBack _, chain_update opened.backPrev (by simpa using notBack) _,
    Function.update_self .., opened.distinct, fun a live => ?_⟩
  by_cases same : a = held
  · simp [same]
  · rw [Function.update_of_ne same] at live
    exact opened.exact a live

theorem Opened.setNext_held (opened : Opened h front onward held node back backward)
    (next : Option Address) :
    ∃ k, setNext h (some held) next = some k ∧
      Opened k front onward held { node with next } back backward :=
  ⟨_, opened.modify_held fun node => { node with next }⟩

theorem Opened.setPrev_held (opened : Opened h front onward held node back backward)
    (prev : Option Address) :
    ∃ k, setPrev h (some held) prev = some k ∧
      Opened k front onward held { node with prev } back backward :=
  ⟨_, opened.modify_held fun node => { node with prev }⟩

/-- The last node of the front is led elsewhere. -/
theorem Opened.setNext_front {p : Address} (opened : Opened h front onward held node back backward)
    (found : exit none front = some p) (next : Option Address) :
    ∃ k, setNext h (some p) next = some k ∧ Opened k front next held node back backward := by
  obtain ⟨front, y, rfl⟩ := exit_eq_some found
  have distinct := opened.distinct
  simp only [addresses_append, addresses_cons, addresses_nil, List.append_assoc,
    List.singleton_append] at distinct
  rw [List.nodup_middle, List.nodup_cons] at distinct
  simp only [List.mem_append, List.mem_cons, not_or] at distinct
  obtain ⟨⟨notFront, notHeld, notBack⟩, -⟩ := distinct
  obtain ⟨block, live, -⟩ := chain_live opened.frontNext (List.mem_append_right _ List.mem_cons_self)
  refine ⟨_, modify_of live fun node => { node with next }, ?_, ?_, ?_, ?_, ?_, opened.distinct, fun a found => ?_⟩
  · exact chain_relink opened.frontNext notFront live rfl
  · exact chain_modify opened.frontPrev live rfl rfl
  · exact chain_update opened.backNext notBack _
  · exact chain_update opened.backPrev (by simpa using notBack) _
  · rw [Function.update_of_ne (Ne.symm notHeld)]
    exact opened.live
  · by_cases same : a = p
    · simp [same]
    · rw [Function.update_of_ne same] at found
      exact opened.exact a found

/-- The first node of the back is led elsewhere. -/
theorem Opened.setPrev_back {p : Address} (opened : Opened h front onward held node back backward)
    (found : entry back none = some p) (prev : Option Address) :
    ∃ k, setPrev h (some p) prev = some k ∧ Opened k front onward held node back prev := by
  obtain ⟨y, back, rfl⟩ := entry_eq_some found
  have distinct := opened.distinct
  rw [List.nodup_middle, addresses_cons] at distinct
  simp only [List.nodup_cons, List.mem_append, List.mem_cons, not_or] at distinct
  obtain ⟨⟨-, notHeld, -⟩, distinct⟩ := distinct
  rw [List.nodup_middle, List.nodup_cons, List.mem_append, not_or] at distinct
  obtain ⟨⟨notFront, notBack⟩, -⟩ := distinct
  obtain ⟨block, live, -⟩ := chain_live opened.backNext List.mem_cons_self
  have backPrev := opened.backPrev
  rw [List.reverse_cons] at backPrev
  refine ⟨_, modify_of live fun node => { node with prev }, ?_, ?_, ?_, ?_, ?_, opened.distinct, fun a found => ?_⟩
  · exact chain_update opened.frontNext notFront _
  · exact chain_update opened.frontPrev (by simpa using notFront) _
  · exact chain_modify opened.backNext live rfl rfl
  · rw [List.reverse_cons]
    exact chain_relink backPrev (by simpa using notBack) live rfl
  · rw [Function.update_of_ne notHeld]
    exact opened.live
  · by_cases same : a = p
    · simp [same]
    · rw [Function.update_of_ne same] at found
      exact opened.exact a found

/-- Front and back are linked to each other around the held node. -/
theorem Opened.bridge (opened : Opened h front (some held) held node back (some held)) :
    ∃ k l, setNextGuarded h (exit none front) (entry back none) = some k ∧
      setPrevGuarded k (entry back none) (exit none front) = some l ∧
      Opened l front (entry back none) held node back (exit none front) := by
  have led : ∃ k, setNextGuarded h (exit none front) (entry back none) = some k ∧
      Opened k front (entry back none) held node back (some held) := by
    cases found : exit none front with
    | none =>
      obtain rfl := exit_eq_none.mp found
      exact ⟨h, rfl, opened.reface _⟩
    | some p => exact opened.setNext_front found (entry back none)
  obtain ⟨k, wrote, opened⟩ := led
  refine ⟨k, ?_⟩
  cases found : entry back none with
  | none =>
    obtain rfl := entry_eq_none.mp found
    rw [found] at wrote opened
    exact ⟨k, wrote, rfl, opened.reback _⟩
  | some p =>
    rw [found] at wrote opened
    obtain ⟨l, rewrote, opened⟩ := opened.setPrev_back found (exit none front)
    exact ⟨l, wrote, rewrote, opened⟩

end Doubly

end XMeterLogger.LinkedList
