import XMeterLogger.CList

/-! The list of `list.c` refines a sequence with a cursor over the payloads of its caller:
called in any order, it never touches freed or foreign memory, answers as the sequence does
and keeps no block but its elements and its copies. -/
namespace XMeterLogger.CList

open XMeterLogger.LinkedList XMeterLogger.Objects

variable {α : Type}

/-- Elements with their payloads in the order of the list, and the heap of the payloads. -/
structure Sequence (α : Type) where
  list : Cursored (Address × Address)
  payloads : Shared Address α

def Sequence.empty : Sequence α := ⟨.empty, .empty⟩

/-- The element and the payload that are stored for `e`, with the heap; none when memory
runs out. -/
def stored (alloc : Bool) (payloads : Shared Address α) (e : Address) (m : Malloc) :
    Option ((Address × Address) × Shared Address α) :=
  m.element.bind fun el =>
    if alloc then
      m.copy.bind fun copy => (payloads.heap e).map fun content => ((el, copy), payloads.malloc copy content)
    else some ((el, e), payloads)

/-- `sort` puts the first payload in front of the second. -/
def goesFirst (h : Heap Address α) (sort : α → α → Bool) (p q : Address) : Bool :=
  callSort h sort p q == some true

/-- The place of a payload: before the first that `sort` does not put in front of it. -/
def place (sort : Option (α → α → Bool)) (h : Heap Address α) (items : List (Address × Address))
    (e : Address) : Nat :=
  match sort with
  | none => items.length
  | some sort => items.findIdx fun x => !goesFirst h sort x.2 e

section Specification

variable (alloc : Bool) (sort : Option (α → α → Bool))

/-- An addition at `k`, or a failure that changes nothing. -/
def Adds (d : Sequence α) (k : Nat) (e : Address) (m : Malloc) (outcome : Outcome)
    (d' : Sequence α) : Prop :=
  match stored alloc d.payloads e m with
  | none => outcome = .status (-1) ∧ d' = d
  | some (x, payloads) => outcome = .status 0 ∧ d' = ⟨d.list.insertAt k x, payloads⟩

def Visits (d : Sequence α) (list : Cursored (Address × Address)) (outcome : Outcome)
    (d' : Sequence α) : Prop :=
  outcome = .payload (list.current.map Prod.snd) ∧ d' = { d with list }

/-- The item at `k`, if there is one, goes, and its payload is returned. -/
def Gives (d : Sequence α) (k : Nat) (side : Cursored.Side) (outcome : Outcome)
    (d' : Sequence α) : Prop :=
  match d.list.items[k]? with
  | none => outcome = .payload none ∧ d' = d
  | some x =>
    outcome = .payload (some x.2) ∧
      d' = ⟨d.list.eraseAt k side, d.payloads.given alloc (some x.2)⟩

/-- The first item with this payload goes, and the payload with it; the element behind it is
returned. -/
def Removes (d : Sequence α) (e : Option Address) (outcome : Outcome) (d' : Sequence α) : Prop :=
  let k := d.list.items.findIdx fun x => some x.2 == e
  match d.list.items[k]? with
  | none => outcome = .element none ∧ d' = d
  | some x =>
    outcome = .element (d.list.items[k + 1]?.map Prod.fst) ∧
      d' = ⟨d.list.eraseAt k .before, d.payloads.dropped alloc (some x.2)⟩

/-- The list as a sequence with a cursor. -/
def Specified (d : Sequence α) : Call α → Outcome → Sequence α → Prop
  | .add e m, outcome, d' =>
    Adds alloc d (place sort d.payloads.heap d.list.items e) e m outcome d'
  | .addHead e m, outcome, d' => Adds alloc d 0 e m outcome d'
  | .addTail e m, outcome, d' => Adds alloc d d.list.items.length e m outcome d'
  | .getCount, outcome, d' => outcome = .count d.list.items.length ∧ d' = d
  | .getHead, outcome, d' => Visits d d.list.toFirst outcome d'
  | .getTail, outcome, d' => Visits d d.list.toLast outcome d'
  | .getNext, outcome, d' => Visits d d.list.toNext outcome d'
  | .getPrev, outcome, d' => Visits d d.list.toPrev outcome d'
  | .remove e, outcome, d' => Removes alloc d e outcome d'
  | .removeHead, outcome, d' => Gives alloc d 0 .after outcome d'
  | .removeTail, outcome, d' => Gives alloc d (d.list.items.length - 1) .before outcome d'
  | .callerMalloc e content, outcome, d' =>
    outcome = .done ∧ d' = { d with payloads := d.payloads.clientMalloc e content }
  | .callerFree e, outcome, d' =>
    outcome = .done ∧ d' = { d with payloads := (d.payloads.without e).takeOver e }

end Specification

abbrev copiesOf (alloc : Bool) (items : List (Address × Address)) : List Address :=
  Shared.copiesOf alloc (fun x => some x.2) items

/-- The state holds these elements and nothing else, and their payloads are live. -/
structure Holds (s : State α) (xs : List (Address × Address)) : Prop where
  doubly : Doubly s.elements xs
  first : s.first = entry xs none
  last : s.last = exit none xs
  count : s.count = xs.length
  owns : s.payloads.Owns (copiesOf s.alloc xs)
  live : ∀ x ∈ xs, s.payloads.heap x.2 ≠ none

/-- The elements are the items, and `curr` is where the cursor is. -/
structure Represents (alloc : Bool) (sort : Option (α → α → Bool)) (s : State α)
    (d : Sequence α) : Prop where
  alloc : s.alloc = alloc
  sort : s.sort = sort
  payloads : s.payloads = d.payloads
  holds : Holds s d.list.items
  curr : s.curr = d.list.position.bind fun i => (addresses d.list.items)[i]?

theorem Represents.live {alloc : Bool} {sort : Option (α → α → Bool)} {s : State α} {d : Sequence α}
    (represents : Represents alloc sort s d) : ∀ x ∈ d.list.items, d.payloads.heap x.2 ≠ none :=
  represents.payloads ▸ represents.holds.live

theorem listCreate_represents (alloc : Bool) (sort : Option (α → α → Bool)) :
    Represents alloc sort (listCreate alloc sort) .empty := by
  refine ⟨rfl, rfl, rfl, ⟨doubly_empty, rfl, rfl, rfl, ?_, by simp [Sequence.empty, Cursored.empty]⟩, rfl⟩
  exact Shared.owns_no_copies.mpr Shared.owns_empty

section Payloads

variable {s : State α} {x : Address × Address} {items : List (Address × Address)} {p q e : Address}

theorem freePayload_owns (owns : s.payloads.Owns (copiesOf s.alloc (x :: items))) :
    freePayload s x.2 = some (s.payloads.dropped s.alloc (some x.2)) ∧
      (s.payloads.dropped s.alloc (some x.2)).Owns (copiesOf s.alloc items) :=
  owns.freeOwned

theorem dropped_live {alloc : Bool} {payloads : Shared Address α}
    (owns : (payloads.dropped alloc (some x.2)).Owns (copiesOf alloc items))
    (live : ∀ y ∈ items, payloads.heap y.2 ≠ none) :
    ∀ y ∈ items, (payloads.dropped alloc (some x.2)).heap y.2 ≠ none := by
  cases alloc with
  | false => exact live
  | true => exact fun y member => owns.live (List.mem_filterMap.mpr ⟨y, member, rfl⟩)

theorem callSort_live {h : Heap Address α} (sort : α → α → Bool) (first : h p ≠ none)
    (second : h q ≠ none) : callSort h sort p q = some (goesFirst h sort p q) := by
  obtain ⟨x, found⟩ := Option.ne_none_iff_exists'.mp first
  obtain ⟨y, other⟩ := Option.ne_none_iff_exists'.mp second
  simp [goesFirst, callSort, found, other]

end Payloads

/-- In `t` there is one more element, linked to nothing. -/
structure Created (s t : State α) (el : Address) (p : Address) (payloads : Shared Address α) : Prop where
  fresh : s.elements el = none
  elements : t.elements = malloc s.elements el ⟨none, none, p⟩
  first : t.first = s.first
  last : t.last = s.last
  curr : t.curr = s.curr
  count : t.count = s.count
  alloc : t.alloc = s.alloc
  sort : t.sort = s.sort
  payloads : t.payloads = payloads

/-- What was live has kept its content, and what is stored has that of what was added. -/
structure Grown (before after : Shared Address α) (e p : Address) : Prop where
  kept : ∀ q, before.heap q ≠ none → after.heap q = before.heap q
  same : after.heap p = before.heap e

/-- The payload itself is stored, or a copy of it. -/
theorem stored_eq_some {alloc : Bool} {before after : Shared Address α} {e el p : Address} {m : Malloc}
    (added : stored alloc before e m = some ((el, p), after)) :
    alloc = false ∧ p = e ∧ after = before ∨
    alloc = true ∧ m.copy = some p ∧
      ∃ content, before.heap e = some content ∧ after = before.malloc p content := by
  obtain ⟨element, -, added⟩ := Option.bind_eq_some_iff.mp added
  cases alloc with
  | false =>
    obtain ⟨pair, rfl⟩ := Prod.mk.inj (Option.some.inj added)
    exact .inl ⟨rfl, (Prod.mk.inj pair).2.symm, rfl⟩
  | true =>
    obtain ⟨copy, answered, added⟩ := Option.bind_eq_some_iff.mp added
    obtain ⟨content, found, added⟩ := Option.map_eq_some_iff.mp added
    obtain ⟨pair, rfl⟩ := Prod.mk.inj added
    obtain ⟨-, rfl⟩ := Prod.mk.inj pair
    exact .inr ⟨rfl, answered, content, found, rfl⟩

theorem stored_grown {alloc : Bool} {before after : Shared Address α} {e el p : Address} {m : Malloc}
    (fresh : ∀ copy ∈ m.copy, before.heap copy = none)
    (added : stored alloc before e m = some ((el, p), after)) : Grown before after e p := by
  rcases stored_eq_some added with ⟨-, rfl, rfl⟩ | ⟨-, answered, content, found, rfl⟩
  · exact ⟨fun _ _ => rfl, rfl⟩
  · refine ⟨fun q lives => ?_, ?_⟩
    · have apart : q ≠ p := fun same => lives (same ▸ fresh p answered)
      exact Shared.malloc_heap_of_ne apart content
    · rw [found]
      exact Function.update_self ..

theorem listCreateElement_cases {s : State α} {items : List (Address × Address)} {e : Address}
    {m : Malloc} (fresh : m.Fresh s) (live : s.payloads.heap e ≠ none)
    (owns : s.payloads.Owns (copiesOf s.alloc items)) :
    (stored s.alloc s.payloads e m = none ∧ listCreateElement s e m = some (s, none)) ∨
    ∃ el p payloads t, stored s.alloc s.payloads e m = some ((el, p), payloads) ∧
      listCreateElement s e m = some (t, some el) ∧ Created s t el p payloads ∧
      payloads.Owns (copiesOf s.alloc ((el, p) :: items)) := by
  unfold stored listCreateElement
  cases element : m.element with
  | none => exact .inl ⟨rfl, rfl⟩
  | some el =>
    have unused := (fresh.1 el element).1
    cases flag : s.alloc with
    | false =>
      rw [flag] at owns
      exact .inr ⟨el, e, s.payloads, _, rfl, rfl, ⟨unused, rfl, rfl, rfl, rfl, rfl, flag.symm, rfl, rfl⟩,
        owns⟩
    | true =>
      cases copied : m.copy with
      | none => exact .inl ⟨rfl, rfl⟩
      | some copy =>
        rw [flag] at owns
        obtain ⟨content, found⟩ := Option.ne_none_iff_exists'.mp live
        have vacant := (fresh.2.1 copy copied).2
        let t : State α := { s with
          alloc := true
          elements := malloc s.elements el ⟨none, none, copy⟩
          payloads := s.payloads.malloc copy content }
        exact .inr ⟨el, copy, t.payloads, t, by simp [found, t], by simp [found, t],
          ⟨unused, rfl, rfl, rfl, rfl, rfl, flag.symm, rfl, rfl⟩, owns.malloc vacant content⟩

section Links

/-- In `t` the element that was created in `s` is linked between `front` and `back`. -/
structure Joined (s t : State α) (front : List (Address × Address)) (el p : Address)
    (back : List (Address × Address)) : Prop where
  doubly : Doubly t.elements (front ++ (el, p) :: back)
  first : t.first = entry (front ++ (el, p) :: back) none
  last : t.last = exit none (front ++ (el, p) :: back)
  curr : t.curr = if front ++ back = [] then some el else s.curr
  count : t.count = s.count
  alloc : t.alloc = s.alloc
  sort : t.sort = s.sort
  payloads : t.payloads = s.payloads

variable {s r : State α} {xs front back : List (Address × Address)} {el tmp p q : Address}
  {payloads : Shared Address α}

theorem linkOnly_joined (holds : Holds r []) (created : Created r s el p payloads) :
    Joined s (linkOnly s el) [] el p [] := by
  have nothing : Doubly r.elements ([] ++ []) := holds.doubly
  have opened := nothing.open_between created.fresh ⟨none, none, p⟩
  refine ⟨?_, rfl, rfl, rfl, rfl, rfl, rfl, rfl⟩
  rw [linkOnly, created.elements]
  exact ((opened.reface (some el)).reback (some el)).close

theorem linkLast_joined (holds : Holds r xs) (created : Created r s el p payloads) (nonempty : xs ≠ []) :
    ∃ t, linkLast s el = some t ∧ Joined s t xs el p [] := by
  have first := created.first.trans holds.first
  have last := created.last.trans holds.last
  obtain ⟨tail, found⟩ := Option.ne_none_iff_exists'.mp (mt exit_eq_none.mp nonempty)
  have whole : Doubly r.elements (xs ++ []) := by
    rw [List.append_nil]
    exact holds.doubly
  have opened := whole.open_between created.fresh ⟨none, none, p⟩
  obtain ⟨k, wrote, opened⟩ := opened.setNext_front found (some el)
  obtain ⟨l, rewrote, opened⟩ := opened.setPrev_held (some tail)
  rw [← found] at opened
  refine ⟨{ s with elements := l, last := some el },
    by simp [linkLast, created.elements, last, found, wrote, rewrote],
    (opened.reback (some el)).close, ?_, by simp, by simp [nonempty], rfl, rfl, rfl, rfl⟩
  obtain ⟨⟨a, z⟩, rest, rfl⟩ := List.exists_cons_of_ne_nil nonempty
  exact first

theorem linkBefore_joined (holds : Holds r (front ++ (tmp, q) :: back))
    (created : Created r s el p payloads) :
    ∃ t, linkBefore s tmp el = some t ∧ Joined s t front el p ((tmp, q) :: back) := by
  have first := created.first.trans holds.first
  have apart : tmp ≠ el := by
    rintro rfl
    have fresh := created.fresh
    rw [holds.doubly.node] at fresh
    contradiction
  have node : s.elements tmp = some ⟨exit none front, entry back none, q⟩ := by
    rw [created.elements, malloc, Function.update_of_ne apart]
    exact holds.doubly.node
  have last : s.last = exit none (front ++ (el, p) :: (tmp, q) :: back) := by
    rw [created.last, holds.last, exit_append, exit_append, exit_cons, exit_cons, exit_cons]
  have opened := holds.doubly.open_between created.fresh ⟨none, none, p⟩
  cases found : exit none front with
  | none =>
    obtain rfl := exit_eq_none.mp found
    obtain ⟨k, wrote, opened⟩ := (opened.reface (some el)).setNext_held (some tmp)
    obtain ⟨l, rewrote, opened⟩ := opened.setPrev_back rfl (some el)
    exact ⟨{ s with elements := l, first := some el },
      by simp [linkBefore, node, created.elements, wrote, rewrote], opened.close, rfl, last, by simp,
      rfl, rfl, rfl, rfl⟩
  | some before =>
    obtain ⟨k, wrote, opened⟩ := opened.setNext_front found (some el)
    obtain ⟨l, rewrote, opened⟩ := opened.setPrev_held (some before)
    obtain ⟨k', again, opened⟩ := opened.setNext_held (some tmp)
    obtain ⟨l', rewrote', opened⟩ := opened.setPrev_back rfl (some el)
    rw [← found] at opened
    refine ⟨{ s with elements := l' },
      by simp [linkBefore, node, found, created.elements, wrote, rewrote, again, rewrote'],
      opened.close, ?_, last, by simp, rfl, rfl, rfl, rfl⟩
    obtain ⟨front, z, rfl⟩ := exit_eq_some found
    rw [first, List.append_assoc, List.append_assoc, entry_append, entry_append _ (_ ++ _)]
    rfl

theorem linkFirst_joined (holds : Holds r xs) (created : Created r s el p payloads) (nonempty : xs ≠ []) :
    ∃ k l, setPrev s.elements s.first (some el) = some k ∧ setNext k (some el) s.first = some l ∧
      Joined s { s with elements := l, first := some el } [] el p xs := by
  have first := created.first.trans holds.first
  have last := created.last.trans holds.last
  obtain ⟨head, found⟩ := Option.ne_none_iff_exists'.mp (mt entry_eq_none.mp nonempty)
  have whole : Doubly r.elements ([] ++ xs) := holds.doubly
  have opened := whole.open_between created.fresh ⟨none, none, p⟩
  obtain ⟨k, wrote, opened⟩ := (opened.reface (some el)).setPrev_back found (some el)
  obtain ⟨l, rewrote, opened⟩ := opened.setNext_held (some head)
  rw [← found] at opened
  refine ⟨k, l, by rw [created.elements, first, found, wrote], by rw [first, found, rewrote],
    opened.close, rfl, ?_, by simp [nonempty], rfl, rfl, rfl, rfl⟩
  obtain ⟨⟨a, z⟩, rest, rfl⟩ := List.exists_cons_of_ne_nil nonempty
  rw [List.nil_append, exit_cons, exit_cons]
  exact last.trans (exit_cons ..)

theorem findPlace_split {e : Address} (holds : Holds r xs) (created : Created r s el p payloads)
    (grown : Grown r.payloads payloads e p) (live : r.payloads.heap e ≠ none) (sort : α → α → Bool) :
    ∃ front back, xs = front ++ back ∧ front.length = place (some sort) r.payloads.heap xs e ∧
      findPlace s sort e = some (exit none front, entry back none) := by
  have whole : Doubly r.elements (xs ++ []) := by
    rw [List.append_nil]
    exact holds.doubly
  have chain := (whole.open_between created.fresh ⟨none, none, p⟩).frontNext
  have enough : xs.length ≤ s.count := Nat.le_of_eq (created.count.trans holds.count).symm
  let before : Address → Bool := fun q => !goesFirst r.payloads.heap sort q e
  have tested : ∀ a (node : Element), malloc r.elements el ⟨none, none, p⟩ a = some node →
      node.value ∈ xs.map Prod.snd →
      (callSort s.payloads.heap sort node.value e).map (! ·) = some (before node.value) := by
    intro a node _ member
    obtain ⟨x, inside, same⟩ := List.mem_map.mp member
    have there : r.payloads.heap node.value ≠ none := same ▸ holds.live x inside
    have unchanged : callSort s.payloads.heap sort node.value e =
        callSort r.payloads.heap sort node.value e := by
      rw [callSort, callSort, created.payloads, grown.kept _ there, grown.kept _ live]
    rw [unchanged, callSort_live sort there live]
    rfl
  refine ⟨xs.take (xs.findIdx fun entry => before entry.2),
    xs.drop (xs.findIdx fun entry => before entry.2), (List.take_append_drop _ xs).symm, ?_, ?_⟩
  · rw [List.length_take, place]
    exact Nat.min_eq_left List.findIdx_le_length
  · rw [findPlace, created.first, holds.first, created.elements]
    exact find_chain chain tested enough none

end Links

section Calls

variable {alloc : Bool} {sort : Option (α → α → Bool)} {s : State α} {d : Sequence α} {e : Address}
  {m : Malloc}

/-- The new item stands where its element was linked, and the cursor has kept its own. -/
theorem joined_represents {r t : State α} {front back : List (Address × Address)} {el p : Address}
    {payloads : Shared Address α} (represents : Represents alloc sort s d)
    (items : d.list.items = front ++ back) (created : Created s r el p payloads)
    (owns : payloads.Owns (copiesOf s.alloc ((el, p) :: (front ++ back))))
    (grown : Grown s.payloads payloads e p) (live : s.payloads.heap e ≠ none)
    (joined : Joined r t front el p back) :
    Represents alloc sort { t with count := t.count + 1 }
      ⟨d.list.insertAt front.length (el, p), payloads⟩ := by
  have sameAlloc := joined.alloc.trans created.alloc
  have samePayloads := joined.payloads.trans created.payloads
  have holds := represents.holds
  have curr := represents.curr
  rw [items] at holds curr
  have inserted : (d.list.insertAt front.length (el, p)).items = front ++ (el, p) :: back := by
    rw [Cursored.insertAt_items, items]
    simp
  refine ⟨sameAlloc.trans represents.alloc, (joined.sort.trans created.sort).trans represents.sort,
    samePayloads, ?_, ?_⟩
  · rw [inserted]
    refine ⟨joined.doubly, joined.first, joined.last, ?_, ?_, fun x member => ?_⟩
    · have length : t.count = (front ++ back).length :=
        (joined.count.trans created.count).trans holds.count
      simp only [length, List.length_append, List.length_cons, Nat.add_assoc]
    · change t.payloads.Owns (copiesOf t.alloc _)
      rw [samePayloads, sameAlloc]
      exact owns.perm (Shared.copiesOf_perm List.perm_middle.symm)
    · change t.payloads.heap x.2 ≠ none
      rw [samePayloads]
      rcases List.mem_cons.mp (List.perm_middle.mem_iff.mp member) with rfl | member
      · exact grown.same ▸ live
      · have lives := holds.live x member
        rw [grown.kept x.2 lives]
        exact lives
  · change t.curr = _
    rw [joined.curr, created.curr, inserted, Cursored.insertAt_position]
    by_cases empty : front ++ back = []
    · obtain ⟨rfl, rfl⟩ := List.append_eq_nil_iff.mp empty
      simp [items]
    · have nonempty : d.list.items ≠ [] := items ▸ empty
      have shift := Cursored.getElem?_shifted (addresses front) (addresses back) el
      simp only [addresses, List.length_map] at shift
      rw [if_neg empty, if_neg nonempty]
      simp only [curr, Option.bind_map, addresses, List.map_append, List.map_cons]
      exact congrArg d.list.position.bind (funext fun i => (shift i).symm)

theorem addWith_refines {link : State α → Address → Option (State α)} {k : Nat}
    (represents : Represents alloc sort s d) (fresh : m.Fresh s) (live : s.payloads.heap e ≠ none)
    (links : ∀ el p payloads r, Created s r el p payloads → Grown s.payloads payloads e p →
      ∃ t front back, d.list.items = front ++ back ∧ front.length = k ∧ link r el = some t ∧
        Joined r t front el p back) :
    ∃ t outcome d', addWith link s e m = some (t, outcome) ∧ Adds alloc d k e m outcome d' ∧
      Represents alloc sort t d' := by
  unfold addWith Adds
  rw [← represents.alloc, ← represents.payloads]
  rcases listCreateElement_cases fresh live represents.holds.owns with
    ⟨failed, called⟩ | ⟨el, p, payloads, r, added, called, created, owns⟩
  · rw [failed, called]
    exact ⟨s, _, d, rfl, ⟨rfl, rfl⟩, represents.alloc ▸ represents⟩
  · have grown := stored_grown (fun copy answered => (fresh.2.1 copy answered).2) added
    obtain ⟨t, front, back, items, rfl, linked, joined⟩ := links el p payloads r created grown
    rw [items] at owns
    rw [added, called]
    refine ⟨_, _, _, by simp [linked]; rfl, ⟨rfl, rfl⟩, ?_⟩
    rw [represents.alloc]
    exact joined_represents represents items created owns grown live joined

theorem listAdd_refines (represents : Represents alloc sort s d) (fresh : m.Fresh s)
    (live : s.payloads.heap e ≠ none) :
    ∃ t outcome d', listAdd s e m = some (t, outcome) ∧
      Adds alloc d (place sort d.payloads.heap d.list.items e) e m outcome d' ∧
      Represents alloc sort t d' := by
  apply addWith_refines represents fresh live
  intro el p payloads r created grown
  have holds := represents.holds
  rw [created.first, holds.first, created.sort, represents.sort, ← represents.payloads]
  generalize d.list.items = xs at holds ⊢
  by_cases empty : xs = []
  · subst empty
    have nowhere : place sort s.payloads.heap [] e = 0 := by cases sort <;> rfl
    exact ⟨_, [], [], rfl, nowhere.symm, if_pos rfl, linkOnly_joined holds created⟩
  · rw [if_neg (mt entry_eq_none.mp empty)]
    cases sort with
    | none =>
      obtain ⟨t, linked, joined⟩ := linkLast_joined holds created empty
      exact ⟨t, xs, [], (List.append_nil xs).symm, rfl, linked, joined⟩
    | some sort =>
      obtain ⟨front, back, rfl, length, searched⟩ := findPlace_split holds created grown live sort
      simp only [searched, Option.bind_eq_bind, Option.bind_some]
      cases back with
      | nil =>
        rw [List.append_nil] at holds empty
        obtain ⟨t, linked, joined⟩ := linkLast_joined holds created empty
        exact ⟨t, front, [], rfl, length, linked, joined⟩
      | cons head back =>
        obtain ⟨t, linked, joined⟩ := linkBefore_joined holds created
        exact ⟨t, front, head :: back, rfl, length, linked, joined⟩

theorem listAddHead_refines (represents : Represents alloc sort s d) (fresh : m.Fresh s)
    (live : s.payloads.heap e ≠ none) :
    ∃ t outcome d', listAddHead s e m = some (t, outcome) ∧ Adds alloc d 0 e m outcome d' ∧
      Represents alloc sort t d' := by
  apply addWith_refines represents fresh live
  intro el p payloads r created _
  have holds := represents.holds
  generalize d.list.items = xs at holds ⊢
  by_cases empty : xs = []
  · subst empty
    have nothing : r.first = none := created.first.trans holds.first
    exact ⟨_, [], [], rfl, rfl, if_pos nothing, linkOnly_joined holds created⟩
  · have nonempty : r.first ≠ none := by
      rw [created.first, holds.first]
      exact mt entry_eq_none.mp empty
    obtain ⟨k, l, wrote, rewrote, joined⟩ := linkFirst_joined holds created empty
    refine ⟨_, [], xs, rfl, rfl, ?_, joined⟩
    simp [if_neg nonempty, wrote, rewrote]

theorem listAddTail_refines (represents : Represents alloc sort s d) (fresh : m.Fresh s)
    (live : s.payloads.heap e ≠ none) :
    ∃ t outcome d', listAddTail s e m = some (t, outcome) ∧
      Adds alloc d d.list.items.length e m outcome d' ∧ Represents alloc sort t d' := by
  apply addWith_refines represents fresh live
  intro el p payloads r created _
  have holds := represents.holds
  rw [created.last, holds.last]
  generalize d.list.items = xs at holds ⊢
  by_cases empty : xs = []
  · subst empty
    exact ⟨_, [], [], rfl, rfl, if_pos rfl, linkOnly_joined holds created⟩
  · rw [if_neg (mt exit_eq_none.mp empty)]
    obtain ⟨t, linked, joined⟩ := linkLast_joined holds created empty
    exact ⟨t, xs, [], (List.append_nil xs).symm, rfl, linked, joined⟩

theorem currentPayload_refines {list : Cursored (Address × Address)} {t : State α}
    (represents : Represents alloc sort s d) (items : list.items = d.list.items)
    (moved : t = { s with curr := t.curr })
    (curr : t.curr = list.position.bind fun i => (addresses d.list.items)[i]?) :
    ∃ u, currentPayload t = some (u, .payload (list.current.map Prod.snd)) ∧
      Represents alloc sort u { d with list } := by
  have holds := represents.holds
  rw [← items] at holds curr
  have held : Holds t list.items := by
    rw [moved]
    exact ⟨holds.doubly, holds.first, holds.last, holds.count, holds.owns, holds.live⟩
  refine ⟨t, ?_, ?_⟩
  · unfold currentPayload Cursored.current
    cases found : list.position with
    | none => simp [curr, found]
    | some i =>
      have inside := list.inside i found
      have node := held.doubly.node_at inside
      simp [curr, found, addresses, inside, node]
  · rw [moved] at held ⊢
    exact ⟨represents.alloc, represents.sort, represents.payloads, held, curr⟩

theorem listGetHead_refines (represents : Represents alloc sort s d) :
    ∃ t, listGetHead s = some (t, .payload (d.list.toFirst.current.map Prod.snd)) ∧
      Represents alloc sort t { d with list := d.list.toFirst } := by
  refine currentPayload_refines represents rfl rfl ?_
  rw [Cursored.toFirst_position, represents.holds.first, entry_eq_head]
  by_cases nonempty : 0 < d.list.items.length
  · simp [nonempty]
  · simp [addresses, Nat.eq_zero_of_not_pos nonempty]

theorem listGetTail_refines (represents : Represents alloc sort s d) :
    ∃ t, listGetTail s = some (t, .payload (d.list.toLast.current.map Prod.snd)) ∧
      Represents alloc sort t { d with list := d.list.toLast } := by
  refine currentPayload_refines represents rfl rfl ?_
  rw [Cursored.toLast_position, represents.holds.last, exit_eq_last, List.getLast?_eq_getElem?]
  by_cases nonempty : 0 < d.list.items.length
  · simp [nonempty, addresses]
  · simp [addresses, Nat.eq_zero_of_not_pos nonempty]

theorem listGetNext_refines (represents : Represents alloc sort s d) :
    ∃ t, listGetNext s = some (t, .payload (d.list.toNext.current.map Prod.snd)) ∧
      Represents alloc sort t { d with list := d.list.toNext } := by
  have curr := represents.curr
  unfold listGetNext
  cases found : d.list.position with
  | none =>
    rw [found] at curr
    rw [curr]
    refine currentPayload_refines represents rfl rfl ?_
    rw [Cursored.toNext_position, found, curr]
    rfl
  | some i =>
    have inside := d.list.inside i found
    have here : s.curr = some d.list.items[i].1 := by simp [curr, found, addresses, inside]
    simp only [here, represents.holds.doubly.node_at inside, Option.bind_eq_bind, Option.bind_some]
    refine currentPayload_refines represents rfl rfl ?_
    rw [Cursored.toNext_position, found]
    by_cases more : i + 1 < d.list.items.length
    · simp [more]
    · simp [more, addresses]

theorem listGetPrev_refines (represents : Represents alloc sort s d) :
    ∃ t, listGetPrev s = some (t, .payload (d.list.toPrev.current.map Prod.snd)) ∧
      Represents alloc sort t { d with list := d.list.toPrev } := by
  have curr := represents.curr
  unfold listGetPrev
  cases found : d.list.position with
  | none =>
    rw [found] at curr
    rw [curr]
    refine currentPayload_refines represents rfl rfl ?_
    rw [Cursored.toPrev_position, found, curr]
    rfl
  | some i =>
    have inside := d.list.inside i found
    have here : s.curr = some d.list.items[i].1 := by simp [curr, found, addresses, inside]
    simp only [here, represents.holds.doubly.node_at inside, Option.bind_eq_bind, Option.bind_some]
    refine currentPayload_refines represents rfl rfl ?_
    rw [Cursored.toPrev_position, found, Option.bind_some]
    by_cases start : 0 < i
    · simp [start]
    · simp [start]

def beside (front back : List (Address × Address)) : Cursored.Side → Option Address
  | .before => exit none front
  | .after => entry back none

theorem leave_beside (front back : List (Address × Address)) (side : Cursored.Side) :
    ((Cursored.leave (front.length + back.length + 1) front.length side).bind fun i =>
      (addresses (front ++ back))[i]?) = beside front back side := by
  cases side with
  | before =>
    rw [beside, exit_eq_last, List.getLast?_eq_getElem?, Cursored.leave]
    by_cases start : 0 < front.length
    · have last : front.length - 1 < (addresses front).length := by
        rw [addresses, List.length_map]
        omega
      simp only [start, if_true, Option.bind_some, addresses_append]
      rw [List.getElem?_append_left last]
      simp [addresses]
    · simp [addresses, List.eq_nil_of_length_eq_zero (Nat.eq_zero_of_not_pos start)]
  | after =>
    rw [beside, entry_eq_head, Cursored.leave]
    cases back with
    | nil => simp
    | cons head back => simp [addresses]

section Removal

variable {front back : List (Address × Address)} {a p : Address}

theorem erased_represents {t : State α} {side : Cursored.Side} (represents : Represents alloc sort s d)
    (items : d.list.items = front ++ (a, p) :: back) (left : Holds t (front ++ back))
    (sameAlloc : t.alloc = s.alloc) (sameSort : t.sort = s.sort)
    (moved : t.curr = if s.curr = some a then beside front back side else s.curr) :
    Represents alloc sort t ⟨d.list.eraseAt front.length side, t.payloads⟩ := by
  have curr := represents.curr
  have distinct := represents.holds.doubly.distinct
  rw [items] at curr distinct
  have total : d.list.items.length = front.length + back.length + 1 := by
    rw [items, List.length_append, List.length_cons, Nat.add_assoc]
  have here : (addresses (front ++ (a, p) :: back))[front.length]? = some a := by
    simp [addresses]
  have erased : (d.list.eraseAt front.length side).items = front ++ back := by
    rw [Cursored.eraseAt_items, items]
    simp [List.eraseIdx_append_of_length_le]
  refine ⟨sameAlloc.trans represents.alloc, sameSort.trans represents.sort, rfl, erased ▸ left, ?_⟩
  rw [moved, erased, Cursored.eraseAt_position, total]
  cases found : d.list.position with
  | none => simp [curr, found]
  | some i =>
    rw [found, Option.bind_some] at curr
    simp only [Option.bind_some]
    by_cases same : i = front.length
    · rw [if_pos same, leave_beside, curr, same, here, if_pos rfl]
    · have inside : i < (addresses (front ++ (a, p) :: back)).length := by
        simpa [items, addresses] using d.list.inside i found
      have apart : s.curr ≠ some a := by
        intro pointed
        exact same ((List.getElem?_inj inside distinct).mp (curr.symm.trans (pointed.trans here.symm)))
      have other : i ≠ (addresses front).length := by simpa [addresses] using same
      have shifted := Cursored.getElem?_erased (addresses front) (addresses back) a other
      simp only [addresses_append, addresses_cons] at curr ⊢
      rw [if_neg apart, if_neg same, curr, ← shifted]
      simp only [addresses, List.length_map]
      split <;> rfl

/-- An element is unlinked and freed; `payloads` is what becomes of its payload. -/
theorem removed_represents (represents : Represents alloc sort s d)
    (items : d.list.items = front ++ (a, p) :: back) (side : Cursored.Side)
    {payloads : Shared Address α} (owns : payloads.Owns (copiesOf s.alloc (front ++ back)))
    (live : ∀ x ∈ front ++ back, payloads.heap x.2 ≠ none) :
    ∃ h k l,
      setNextGuarded s.elements (exit none front) (entry back none) = some h ∧
      setPrevGuarded h (entry back none) (exit none front) = some k ∧ free k a = some l ∧
      Represents alloc sort { s with
        elements := l, payloads, count := s.count - 1
        first := entry (front ++ back) none, last := exit none (front ++ back)
        curr := if s.curr = some a then beside front back side else s.curr }
        ⟨d.list.eraseAt front.length side, payloads⟩ := by
  have holds := represents.holds
  rw [items] at holds
  obtain ⟨h, k, wrote, rewrote, opened⟩ := holds.doubly.open_at.bridge
  obtain ⟨freed, doubly⟩ := opened.drop
  refine ⟨h, k, _, wrote, rewrote, freed, erased_represents represents items ?_ rfl rfl rfl⟩
  exact ⟨doubly, rfl, rfl, by simp [holds.count], owns, live⟩

theorem fronted_owns (represents : Represents alloc sort s d)
    (items : d.list.items = front ++ (a, p) :: back) :
    s.payloads.Owns (copiesOf s.alloc ((a, p) :: (front ++ back))) :=
  represents.holds.owns.perm (items ▸ Shared.copiesOf_perm List.perm_middle)

theorem others_live (represents : Represents alloc sort s d)
    (items : d.list.items = front ++ (a, p) :: back) :
    ∀ x ∈ front ++ back, s.payloads.heap x.2 ≠ none := by
  intro x member
  apply represents.holds.live x
  rw [items]
  exact List.perm_middle.mem_iff.mpr (List.mem_cons_of_mem _ member)

end Removal

theorem findPayload_represents (represents : Represents alloc sort s d) (e : Option Address) :
    let k := d.list.items.findIdx fun x => some x.2 == e
    findPayload s e = some (exit none (d.list.items.take k), entry (d.list.items.drop k) none) := by
  have holds := represents.holds
  let passes : Address → Bool := fun q => some q == e
  have tested : ∀ a (node : Element), s.elements a = some node →
      node.value ∈ d.list.items.map Prod.snd →
      (some (some node.value == e) : Option Bool) = some (passes node.value) :=
    fun _ _ _ _ => rfl
  have searched := find_chain holds.doubly.next tested (Nat.le_of_eq holds.count.symm) none
  rw [← holds.first] at searched
  exact searched

theorem listRemove_refines (e : Option Address) (represents : Represents alloc sort s d) :
    ∃ t outcome d', listRemove s e = some (t, outcome) ∧ Removes alloc d e outcome d' ∧
      Represents alloc sort t d' := by
  have searched := findPayload_represents represents e
  obtain rfl := represents.alloc
  unfold listRemove Removes
  rw [← represents.payloads]
  simp only [searched, Option.bind_eq_bind, Option.bind_some]
  generalize d.list.items.findIdx (fun x => some x.2 == e) = k
  by_cases inside : k < d.list.items.length
  · obtain ⟨front, a, p, back, items, rfl⟩ : ∃ front a p back,
        d.list.items = front ++ (a, p) :: back ∧ front.length = k :=
      ⟨d.list.items.take k, d.list.items[k].1, d.list.items[k].2, d.list.items.drop (k + 1),
        by rw [← List.drop_eq_getElem_cons inside, List.take_append_drop],
        by rw [List.length_take]; omega⟩
    obtain ⟨released, owns⟩ := freePayload_owns (fronted_owns represents items)
    obtain ⟨h, k, l, wrote, rewrote, freed, left⟩ :=
      removed_represents represents items .before owns (dropped_live owns (others_live represents items))
    have holds := represents.holds
    have distinct := holds.doubly.distinct
    rw [items] at holds distinct ⊢
    rw [addresses_append, addresses_cons, List.nodup_middle, List.nodup_cons, List.mem_append,
      not_or] at distinct
    have first := @entry_without _ _ _ _ back _ p distinct.1.1
    have last := @exit_without _ _ _ front _ _ p distinct.1.2
    rw [← holds.first] at first
    rw [← holds.last] at last
    have next : (front ++ (a, p) :: back)[front.length + 1]?.map Prod.fst = entry back none := by
      rw [entry_eq_head, List.getElem?_append_right (Nat.le_succ _)]
      simp [addresses]
    rw [List.getElem?_append_right (Nat.le_refl _), Nat.sub_self, List.getElem?_cons_zero, next]
    refine ⟨_, _, _, ?_, ⟨rfl, rfl⟩, left⟩
    rw [List.drop_left, entry_cons]
    simp only [holds.doubly.node, Option.bind_some, first, last, wrote, rewrote]
    change (freePayload s p).bind _ = _
    rw [released, Option.bind_some, freed]
    rfl
  · have nothing : d.list.items.drop k = [] := List.drop_eq_nil_of_le (Nat.le_of_not_lt inside)
    exact ⟨s, .element none, d, by simp [nothing], by simp [inside], represents⟩

theorem listRemoveHead_refines (represents : Represents alloc sort s d) :
    ∃ t outcome d', listRemoveHead s = some (t, outcome) ∧ Gives alloc d 0 .after outcome d' ∧
      Represents alloc sort t d' := by
  obtain rfl := represents.alloc
  have holds := represents.holds
  unfold listRemoveHead Gives
  rw [← represents.payloads]
  cases items : d.list.items with
  | nil =>
    rw [holds.first, items]
    exact ⟨s, _, d, rfl, ⟨rfl, rfl⟩, represents⟩
  | cons head back =>
    obtain ⟨a, p⟩ := head
    have split : d.list.items = [] ++ (a, p) :: back := items
    have live := others_live represents split
    rw [← s.payloads.given_heap s.alloc (some p)] at live
    obtain ⟨h, k, l, wrote, rewrote, freed, left⟩ :=
      removed_represents represents split .after (fronted_owns represents split).given live
    obtain rfl := Option.some.inj wrote
    rw [split] at holds
    rw [holds.first]
    simp only [List.nil_append, entry_cons, holds.doubly.node, Option.bind_eq_bind, Option.bind_some]
    refine ⟨_, _, _, ?_, ⟨rfl, rfl⟩, left⟩
    cases back with
    | nil =>
      obtain rfl := Option.some.inj rewrote
      rw [entry_nil, if_pos rfl]
      rw [freed]
      rfl
    | cons second back =>
      have last : exit none ((a, p) :: second :: back) = exit none (second :: back) := by
        rw [exit_cons, exit_cons, exit_cons]
      rw [if_neg (by simp [entry]), List.nil_append, ← last, ← List.nil_append ((a, p) :: _), ← holds.last]
      change ((setPrev s.elements (some second.1) none).bind _) = _
      rw [show setPrev s.elements (some second.1) none = some k from rewrote, Option.bind_some]
      change (free k a).bind _ = _
      rw [freed]
      rfl

theorem listRemoveTail_refines (represents : Represents alloc sort s d) :
    ∃ t outcome d', listRemoveTail s = some (t, outcome) ∧
      Gives alloc d (d.list.items.length - 1) .before outcome d' ∧ Represents alloc sort t d' := by
  obtain rfl := represents.alloc
  have holds := represents.holds
  unfold listRemoveTail Gives
  rw [← represents.payloads]
  rcases d.list.items.eq_nil_or_concat' with items | ⟨front, ⟨a, p⟩, items⟩
  · rw [holds.last, items]
    exact ⟨s, _, d, rfl, ⟨rfl, rfl⟩, represents⟩
  · have live := others_live represents items
    rw [← s.payloads.given_heap s.alloc (some p)] at live
    obtain ⟨h, k, l, wrote, rewrote, freed, left⟩ :=
      removed_represents represents items .before (fronted_owns represents items).given live
    obtain rfl := Option.some.inj rewrote
    have position : d.list.items.length - 1 = front.length := by simp [items]
    rw [items] at holds
    rw [position, holds.last, items, exit_concat, List.getElem?_concat_length]
    simp only [holds.doubly.node, Option.bind_eq_bind, Option.bind_some]
    by_cases start : front = []
    · subst start
      obtain rfl := Option.some.inj wrote
      refine ⟨_, _, _, ?_, ⟨rfl, rfl⟩, left⟩
      rw [exit_nil, if_pos rfl]
      rw [freed]
      rfl
    · obtain ⟨before, found⟩ := Option.ne_none_iff_exists'.mp (mt exit_eq_none.mp start)
      have first : entry (front ++ []) none = s.first := by
        rw [holds.first, List.append_nil]
        obtain ⟨head, front, rfl⟩ := List.exists_cons_of_ne_nil start
        rfl
      rw [first, List.append_nil] at left
      refine ⟨_, _, _, ?_, ⟨rfl, rfl⟩, left⟩
      rw [found] at wrote ⊢
      rw [if_neg (by simp), show setNext s.elements (some before) none = some h from wrote,
        Option.bind_some]
      change (free h a).bind _ = _
      rw [freed, beside, found]
      rfl

/-- A payload that no element keeps can be freed, and a copy is the caller's only when no
element has it. -/
theorem callerFree_live (represents : Represents alloc sort s d)
    (unkept : s.alloc = true ∨ keeps s e = false)
    (owns : ((s.payloads.without e).takeOver e).Owns (copiesOf s.alloc d.list.items)) :
    ∀ x ∈ d.list.items, ((s.payloads.without e).takeOver e).heap x.2 ≠ none := by
  intro x member
  rcases unkept with flag | unkept
  · rw [flag] at owns
    exact owns.live (List.mem_filterMap.mpr ⟨_, member, rfl⟩)
  · have apart : x.2 ≠ e := by
      rintro rfl
      have inside : d.list.items.findIdx (fun y => some y.2 == some x.2) < d.list.items.length :=
        List.findIdx_lt_length_of_exists ⟨x, member, beq_self_eq_true (some x.2)⟩
      unfold keeps at unkept
      rw [findPayload_represents represents, List.drop_eq_getElem_cons inside] at unkept
      contradiction
    have same : ((s.payloads.without e).takeOver e).heap x.2 = s.payloads.heap x.2 :=
      Shared.without_heap_of_ne apart
    rw [same]
    exact represents.holds.live x member

/-- Every call does what is specified of it, and nothing faults. -/
theorem object_refines (call : Call α) (represents : Represents alloc sort s d)
    (allowed : Allowed s call) :
    ∃ t outcome d', object s call = some (t, outcome) ∧ Specified alloc sort d call outcome d' ∧
      Represents alloc sort t d' := by
  have holds := represents.holds
  cases call with
  | add e m => exact listAdd_refines represents allowed.1 allowed.2
  | addHead e m => exact listAddHead_refines represents allowed.1 allowed.2
  | addTail e m => exact listAddTail_refines represents allowed.1 allowed.2
  | getCount => exact ⟨s, _, d, rfl, ⟨congrArg _ holds.count, rfl⟩, represents⟩
  | getHead =>
    obtain ⟨t, called, moved⟩ := listGetHead_refines represents
    exact ⟨t, _, _, called, ⟨rfl, rfl⟩, moved⟩
  | getTail =>
    obtain ⟨t, called, moved⟩ := listGetTail_refines represents
    exact ⟨t, _, _, called, ⟨rfl, rfl⟩, moved⟩
  | getNext =>
    obtain ⟨t, called, moved⟩ := listGetNext_refines represents
    exact ⟨t, _, _, called, ⟨rfl, rfl⟩, moved⟩
  | getPrev =>
    obtain ⟨t, called, moved⟩ := listGetPrev_refines represents
    exact ⟨t, _, _, called, ⟨rfl, rfl⟩, moved⟩
  | remove e => exact listRemove_refines e represents
  | removeHead => exact listRemoveHead_refines represents
  | removeTail => exact listRemoveTail_refines represents
  | callerMalloc e content =>
    have live : ∀ x ∈ d.list.items, (s.payloads.clientMalloc e content).heap x.2 ≠ none := by
      intro x member
      have lives := holds.live x member
      have apart : x.2 ≠ e := fun same => lives (same ▸ allowed.2)
      have same : (s.payloads.clientMalloc e content).heap x.2 = s.payloads.heap x.2 :=
        Shared.malloc_heap_of_ne apart content
      rw [same]
      exact lives
    refine ⟨_, _, _, rfl, ⟨rfl, rfl⟩, represents.alloc, represents.sort, ?_, ?_, represents.curr⟩
    · exact congrArg (·.clientMalloc e content) represents.payloads
    · exact ⟨holds.doubly, holds.first, holds.last, holds.count, holds.owns.clientMalloc allowed.2 content,
        live⟩
  | callerFree e =>
    obtain ⟨freed, owns⟩ := holds.owns.clientFree allowed.1
    have live := callerFree_live represents allowed.2 owns
    let t : State α := { s with payloads := (s.payloads.without e).takeOver e }
    refine ⟨t, _, _, by rw [object, freed]; rfl, ⟨rfl, rfl⟩, represents.alloc, represents.sort, ?_, ?_,
      represents.curr⟩
    · exact congrArg (fun payloads => (payloads.without e).takeOver e) represents.payloads
    · exact ⟨holds.doubly, holds.first, holds.last, holds.count, owns, live⟩

end Calls

end XMeterLogger.CList
