import Mathlib.Data.List.Perm.Basic
import XMeterLogger.CListRefinement

/-! Whole runs of calls on a list that `list_create` has made, between what its caller does
with the payloads: what the calls answer, what a walk finds after them and what
`list_release` leaves. -/
namespace XMeterLogger.CList

open XMeterLogger.LinkedList XMeterLogger.Objects

variable {α : Type} {alloc : Bool} {sort : Option (α → α → Bool)}

/-- Whatever is called, and whichever allocations fail, nothing faults and the outcomes
are those of a sequence with a cursor. -/
theorem list_refines_sequence {trace : List (Call α)}
    (lawful : Lawful object Allowed (listCreate alloc sort) trace) :
    ∃ s outcomes d, calls object (listCreate alloc sort) trace = some (s, outcomes) ∧
      Performs (Specified alloc sort) .empty trace outcomes d ∧ Represents alloc sort s d :=
  refines_run (Represents alloc sort) Allowed
    (fun _ _ call represents allowed => object_refines call represents allowed)
    (listCreate_represents alloc sort) lawful

theorem list_refines_sequence_smaller_first :
    ∃ s outcomes d,
      calls object (listCreate true (some fun a b : Nat => a ≤ b))
        [.callerMalloc 90 7, .add 90 ⟨some 1, some 2⟩, .callerMalloc 91 5, .add 91 ⟨some 3, some 4⟩,
          .callerFree 91, .getPrev, .remove (some 4), .add 90 ⟨some 3, none⟩, .removeHead, .callerFree 2] =
          some (s, outcomes) ∧
      Performs (Specified true (some fun a b : Nat => a ≤ b)) .empty
        [.callerMalloc 90 7, .add 90 ⟨some 1, some 2⟩, .callerMalloc 91 5, .add 91 ⟨some 3, some 4⟩,
          .callerFree 91, .getPrev, .remove (some 4), .add 90 ⟨some 3, none⟩, .removeHead, .callerFree 2]
          outcomes d ∧
      Represents true (some fun a b : Nat => a ≤ b) s d :=
  list_refines_sequence (by decide)

section Release

/-- The loop frees every element and every copy, each once, and nothing of the caller. -/
theorem releaseElements_clears (xs : List (Address × Address)) {s : State α} {fuel : Nat}
    (chain : Chain Node.next Node.value s.elements xs none) (distinct : (addresses xs).Nodup)
    (exact : ∀ a, s.elements a ≠ none → a ∈ addresses xs)
    (owns : s.payloads.Owns (copiesOf s.alloc xs)) (enough : xs.length ≤ fuel) :
    ∃ t, releaseElements s fuel (entry xs none) = some t ∧ t.elements = (fun _ => none) ∧
      t.payloads = s.payloads.clientOnly := by
  induction xs generalizing s fuel with
  | nil =>
    have owns := Shared.owns_no_copies.mp owns
    refine ⟨s, by cases fuel <;> rfl, funext fun a => ?_, owns.clientOnly.symm⟩
    by_contra live
    exact absurd (exact a live) List.not_mem_nil
  | cons head rest ih =>
    obtain ⟨a, p⟩ := head
    obtain ⟨⟨node, live, linked, rfl⟩, later⟩ := chain
    obtain ⟨outside, distinct⟩ := List.nodup_cons.mp distinct
    have dropping := owns.dropped_clientOnly
    obtain ⟨freed, owns⟩ := freePayload_owns owns
    cases fuel with
    | zero => simp at enough
    | succ fuel =>
      obtain ⟨t, released, elements, payloads⟩ := @ih
        { s with
          elements := Function.update s.elements a none
          payloads := s.payloads.dropped s.alloc (some node.value) } fuel
        (chain_update later outside none) distinct
        (fun b lives => by
          have apart : b ≠ a := by
            rintro rfl
            simp at lives
          simp only [Function.update_of_ne apart] at lives
          exact (List.mem_cons.mp (exact b lives)).resolve_left apart)
        owns (Nat.le_of_succ_le_succ enough)
      refine ⟨t, ?_, elements, payloads.trans dropping⟩
      simp only [releaseElements, entry_cons, live, freed, free_of live, linked, Option.bind_eq_bind,
          Option.bind_some]
      exact released

theorem listRelease_clears {s : State α} {d : Sequence α} (represents : Represents alloc sort s d) :
    listRelease s = some (fun _ => none, s.payloads.clientOnly) := by
  have holds := represents.holds
  obtain ⟨t, released, elements, payloads⟩ := releaseElements_clears d.list.items holds.doubly.next
    holds.doubly.distinct holds.doubly.exact holds.owns (Nat.le_of_eq holds.count.symm)
  rw [listRelease, holds.first, released]
  simp [elements, payloads]

/-- After any run `list_release` frees what the list has allocated and not handed over, no
block twice, and leaves what is the caller's. -/
theorem list_run_released {trace : List (Call α)}
    (lawful : Lawful object Allowed (listCreate alloc sort) trace) :
    ∃ s outcomes, calls object (listCreate alloc sort) trace = some (s, outcomes) ∧
      listRelease s = some (fun _ => none, s.payloads.clientOnly) ∧
      ∀ a ∈ s.payloads.client, s.payloads.heap a ≠ none := by
  obtain ⟨s, outcomes, d, called, -, represents⟩ := refines_run (Represents alloc sort) Allowed
    (fun _ _ call represents allowed => object_refines call represents allowed)
    (listCreate_represents alloc sort) lawful
  exact ⟨s, outcomes, called, listRelease_clears represents,
    fun a member => represents.holds.owns.client_live member⟩

theorem list_run_released_handed_over :
    (∃ s outcomes,
      calls object (listCreate true none)
        [.callerMalloc 90 7, .addTail 90 ⟨some 1, some 2⟩, .addTail 90 ⟨some 3, some 4⟩, .callerFree 90,
          .removeHead] = some (s, outcomes) ∧
      listRelease s = some (fun _ => none, s.payloads.clientOnly) ∧
      ∀ a ∈ s.payloads.client, s.payloads.heap a ≠ none) ∧
    ((calls object (listCreate true none)
        [.callerMalloc 90 7, .addTail 90 ⟨some 1, some 2⟩, .addTail 90 ⟨some 3, some 4⟩, .callerFree 90,
          .removeHead]).bind fun final => (listRelease final.1).map fun left =>
            (left.2.client, left.2.heap 2, left.2.heap 4)) = some ([2], some 7, none) :=
  ⟨@list_run_released Nat true none _ (by decide), rfl⟩

end Release

section Walks

/-- One call for the end of the list and `n` for the item beside. -/
def walk (start onward : Call α) (n : Nat) : List (Call α) := start :: List.replicate n onward

theorem onward_run {onward : Call α}
    {move : Cursored (Address × Address) → Cursored (Address × Address)}
    (moves : ∀ s d, Represents alloc sort s d →
      ∃ t, object s onward = some (t, .payload ((move d.list).current.map Prod.snd)) ∧
        Represents alloc sort t { d with list := move d.list })
    (n : Nat) {s : State α} {d : Sequence α} (represents : Represents alloc sort s d) :
    ∃ t, calls object s (List.replicate n onward) =
      some (t, (List.range n).map fun k => .payload ((move^[k + 1] d.list).current.map Prod.snd)) := by
  induction n generalizing s d with
  | zero => exact ⟨s, rfl⟩
  | succ n ih =>
    obtain ⟨next, first, moved⟩ := moves s d represents
    obtain ⟨t, later⟩ := ih moved
    refine ⟨t, ?_⟩
    rw [List.replicate_succ, calls_cons first later, List.range_succ_eq_map, List.map_cons, List.map_map]
    rfl

theorem walk_run {start onward : Call α}
    {first move : Cursored (Address × Address) → Cursored (Address × Address)}
    (starts : ∀ s d, Represents alloc sort s d →
      ∃ t, object s start = some (t, .payload ((first d.list).current.map Prod.snd)) ∧
        Represents alloc sort t { d with list := first d.list })
    (moves : ∀ s d, Represents alloc sort s d →
      ∃ t, object s onward = some (t, .payload ((move d.list).current.map Prod.snd)) ∧
        Represents alloc sort t { d with list := move d.list })
    (n : Nat) {s : State α} {d : Sequence α} (represents : Represents alloc sort s d) :
    ∃ t, calls object s (walk start onward n) =
      some (t, (List.range (n + 1)).map fun k =>
        .payload ((move^[k] (first d.list)).current.map Prod.snd)) := by
  obtain ⟨next, started, moved⟩ := starts s d represents
  obtain ⟨t, later⟩ := onward_run moves n moved
  refine ⟨t, ?_⟩
  rw [walk, calls_cons started later, List.range_succ_eq_map, List.map_cons, List.map_map]
  rfl

theorem walk_forward (n : Nat) {s : State α} {d : Sequence α} (represents : Represents alloc sort s d) :
    ∃ t, calls object s (walk .getHead .getNext n) =
      some (t, (List.range (n + 1)).map fun k => .payload (d.list.items.map Prod.snd)[k]?) := by
  obtain ⟨t, walked⟩ := @walk_run _ alloc sort .getHead .getNext .toFirst .toNext
    (fun _ _ => listGetHead_refines) (fun _ _ => listGetNext_refines) n _ _ represents
  exact ⟨t, by simpa only [Cursored.forward_current, List.getElem?_map] using walked⟩

theorem walk_backward (n : Nat) {s : State α} {d : Sequence α} (represents : Represents alloc sort s d) :
    ∃ t, calls object s (walk .getTail .getPrev n) =
      some (t, (List.range (n + 1)).map fun k => .payload (d.list.items.map Prod.snd).reverse[k]?) := by
  obtain ⟨t, walked⟩ := @walk_run _ alloc sort .getTail .getPrev .toLast .toPrev
    (fun _ _ => listGetTail_refines) (fun _ _ => listGetPrev_refines) n _ _ represents
  exact ⟨t, by simpa only [Cursored.backward_current, ← List.map_reverse, List.getElem?_map] using walked⟩

end Walks

section Order

/-- What the caller can tell from its calls and their outcomes: what was last put at each
address, and the payloads that were added and not removed since. -/
structure History (α : Type) where
  content : Heap Address α
  kept : List Address

/-- A list that copies keeps the copy. -/
def History.added (alloc : Bool) (g : History α) (e : Address) (m : Malloc) : History α :=
  if alloc then
    match m.copy with
    | none => g
    | some copy => ⟨Function.update g.content copy (g.content e), copy :: g.kept⟩
  else { g with kept := e :: g.kept }

def History.removed (g : History α) (e : Option Address) : History α :=
  { g with kept := e.elim g.kept g.kept.erase }

def History.note (alloc : Bool) (g : History α) : Call α → Outcome → History α
  | .add e m, .status rc | .addHead e m, .status rc | .addTail e m, .status rc =>
    if rc = 0 then g.added alloc e m else g
  | .remove e, _ => g.removed e
  | .removeHead, .payload e | .removeTail, .payload e => g.removed e
  | .callerMalloc e content, _ => { g with content := Function.update g.content e (some content) }
  | _, _ => g

def history (alloc : Bool) (trace : List (Call α)) (outcomes : List Outcome) : History α :=
  recorded (History.note alloc) ⟨fun _ => none, []⟩ trace outcomes

/-- A callback that says which of two payloads goes first. -/
structure Ordering (sort : α → α → Bool) : Prop where
  total : ∀ a b, sort a b = false → sort b a = true
  trans : ∀ a b c, sort a b = true → sort b c = true → sort a c = true

/-- The calls that keep the order. -/
def Call.Sorting : Call α → Prop
  | .addHead _ _ | .addTail _ _ => False
  | _ => True

variable {order : α → α → Bool} {h k : Heap Address α} {p q r : Address}

theorem goesFirst_eq_true :
    goesFirst h order p q = true ↔ ∃ x y, h p = some x ∧ h q = some y ∧ order x y = true := by
  unfold goesFirst callSort
  cases h p <;> cases h q <;> simp

theorem goesFirst_total (ordering : Ordering order) (first : h p ≠ none) (second : h q ≠ none)
    (behind : goesFirst h order p q = false) : goesFirst h order q p = true := by
  obtain ⟨x, found⟩ := Option.ne_none_iff_exists'.mp first
  obtain ⟨y, other⟩ := Option.ne_none_iff_exists'.mp second
  refine goesFirst_eq_true.mpr ⟨y, x, other, found, ordering.total x y ?_⟩
  simpa [goesFirst, callSort, found, other] using behind

theorem goesFirst_trans (ordering : Ordering order) (first : goesFirst h order p q = true)
    (second : goesFirst h order q r = true) : goesFirst h order p r = true := by
  obtain ⟨x, y, found, middle, less⟩ := goesFirst_eq_true.mp first
  obtain ⟨y', z, again, last, more⟩ := goesFirst_eq_true.mp second
  obtain rfl := Option.some.inj (middle.symm.trans again)
  exact goesFirst_eq_true.mpr ⟨x, z, found, last, ordering.trans x y z less more⟩

theorem goesFirst_congr (first : h p = k p) (second : h q = k r) :
    goesFirst h order p q = goesFirst k order p r := by
  rw [goesFirst, goesFirst, callSort, callSort, first, second]

/-- The sequence has what the history tells, in the order of the callback. -/
structure Recalls (order : α → α → Bool) (d : Sequence α) (g : History α) : Prop where
  kept : (d.list.items.map Prod.snd).Perm g.kept
  content : ∀ p, d.payloads.heap p ≠ none → d.payloads.heap p = g.content p
  sorted : d.list.items.Pairwise fun x y => goesFirst d.payloads.heap order x.2 y.2

variable {d d' : Sequence α} {g : History α} {e : Address} {m : Malloc} {outcome : Outcome}

/-- Items stay sorted while their payloads keep their contents. -/
theorem stays_sorted {items others : List (Address × Address)} (fewer : others.Sublist items)
    (sorted : items.Pairwise fun x y => goesFirst h order x.2 y.2)
    (same : ∀ x ∈ others, k x.2 = h x.2) :
    others.Pairwise fun x y => goesFirst k order x.2 y.2 := by
  refine (sorted.sublist fewer).imp_of_mem fun {x y} first second goes => ?_
  rw [goesFirst_congr (same x first) (same y second)]
  exact goes

theorem Recalls.freed {payloads : Shared Address α} (recalls : Recalls order d g)
    (same : ∀ p, payloads.heap p ≠ none → payloads.heap p = d.payloads.heap p)
    (live : ∀ x ∈ d.list.items, payloads.heap x.2 ≠ none) :
    Recalls order ⟨d.list, payloads⟩ g where
  kept := recalls.kept
  content p lives := by
    rw [same p lives]
    exact recalls.content p (same p lives ▸ lives)
  sorted := stays_sorted (List.Sublist.refl _) recalls.sorted fun x member => same x.2 (live x member)

theorem Recalls.removed {payloads : Shared Address α} {i : Nat} {side : Cursored.Side}
    {x : Address × Address} (recalls : Recalls order d g) (found : d.list.items[i]? = some x)
    (same : ∀ p, payloads.heap p ≠ none → payloads.heap p = d.payloads.heap p)
    (live : ∀ y ∈ (d.list.eraseAt i side).items, payloads.heap y.2 ≠ none) :
    Recalls order ⟨d.list.eraseAt i side, payloads⟩ (g.removed (some x.2)) where
  kept := by
    obtain ⟨inside, rfl⟩ := List.getElem?_eq_some_iff.mp found
    have parted := ((List.getElem_cons_eraseIdx_perm inside).map Prod.snd).trans recalls.kept
    rw [Cursored.eraseAt_items]
    have erased := parted.erase d.list.items[i].2
    rw [List.map_cons, List.erase_cons_head] at erased
    exact erased
  content p lives := by
    rw [same p lives]
    exact recalls.content p (same p lives ▸ lives)
  sorted := by
    refine stays_sorted ?_ recalls.sorted fun y member => same y.2 (live y member)
    rw [Cursored.eraseAt_items]
    exact List.eraseIdx_sublist ..

/-- A payload that is not kept is not removed. -/
theorem Recalls.missed {p : Option Address} (recalls : Recalls order d g)
    (absent : ∀ x ∈ d.list.items, some x.2 ≠ p) : g.removed p = g := by
  cases p with
  | none => rfl
  | some q =>
    have outside : q ∉ g.kept := by
      intro inside
      obtain ⟨x, member, rfl⟩ := List.mem_map.mp (recalls.kept.mem_iff.mpr inside)
      exact absent x member rfl
    rw [History.removed, Option.elim_some, List.erase_of_not_mem outside]

theorem Recalls.added (ordering : Ordering order) (recalls : Recalls order d g)
    (fresh : ∀ copy ∈ m.copy, d.payloads.heap copy = none) (lives : d.payloads.heap e ≠ none)
    (live : ∀ x ∈ d.list.items, d.payloads.heap x.2 ≠ none)
    (adds : Adds alloc d (place (some order) d.payloads.heap d.list.items e) e m outcome d') :
    Recalls order d' (g.note alloc (.add e m) outcome) := by
  unfold Adds at adds
  cases stores : stored alloc d.payloads e m with
  | none =>
    rw [stores] at adds
    obtain ⟨rfl, rfl⟩ := adds
    exact recalls
  | some result =>
    obtain ⟨⟨el, p⟩, payloads⟩ := result
    rw [stores] at adds
    obtain ⟨rfl, rfl⟩ := adds
    have grown := stored_grown fresh stores
    have noted : (g.note alloc (.add e m) (.status 0)).kept = p :: g.kept ∧
        ∀ q, payloads.heap q ≠ none →
          payloads.heap q = (g.note alloc (.add e m) (.status 0)).content q := by
      rcases stored_eq_some stores with ⟨rfl, rfl, rfl⟩ | ⟨rfl, answered, content, found, rfl⟩
      · exact ⟨rfl, recalls.content⟩
      · have copied := recalls.content e lives
        simp only [History.note, History.added, answered, if_true]
        refine ⟨trivial, fun q holds => ?_⟩
        by_cases same : q = p
        · rw [same, grown.same, copied, Function.update_self]
        · rw [Shared.malloc_heap_of_ne same] at holds ⊢
          rw [Function.update_of_ne same]
          exact recalls.content q holds
    refine ⟨?_, noted.2, ?_⟩
    · rw [noted.1, Cursored.insertAt_items]
      refine (List.perm_middle.map Prod.snd).trans ?_
      rw [List.take_append_drop]
      exact recalls.kept.cons p
    · have sorted := stays_sorted (List.Sublist.refl _) recalls.sorted
        fun x member => grown.kept x.2 (live x member)
      have behind : ∀ x ∈ d.list.items, goesFirst d.payloads.heap order x.2 e =
          goesFirst payloads.heap order x.2 p :=
        fun x member => goesFirst_congr (grown.kept x.2 (live x member)).symm grown.same.symm
      rw [Cursored.insertAt_items, place,
        Cursored.findIdx_congr fun x member => congrArg (! ·) (behind x member)]
      refine @Cursored.sorted_insertion (Address × Address)
        (fun x y => goesFirst payloads.heap order x.2 y.2) (fun _ _ _ => goesFirst_trans ordering) _
        (el, p) (fun x member => ?_) sorted
      have stays := live x member
      rw [← grown.kept x.2 stays] at stays
      exact goesFirst_total ordering stays (grown.same ▸ lives)

theorem Recalls.given {i : Nat} {side : Cursored.Side} (recalls : Recalls order d g)
    (gives : Gives alloc d i side outcome d') (live : ∀ x ∈ d'.list.items, d'.payloads.heap x.2 ≠ none) :
    ∃ p, outcome = .payload p ∧ Recalls order d' (g.removed p) := by
  unfold Gives at gives
  split at gives
  · obtain ⟨rfl, rfl⟩ := gives
    exact ⟨none, rfl, recalls⟩
  · next x found =>
    obtain ⟨rfl, rfl⟩ := gives
    have same := d.payloads.given_heap alloc (some x.2)
    exact ⟨some x.2, rfl, recalls.removed found (fun p _ => congrFun same p) live⟩

theorem Recalls.removes {p : Option Address} (recalls : Recalls order d g)
    (removes : Removes alloc d p outcome d') (live : ∀ x ∈ d'.list.items, d'.payloads.heap x.2 ≠ none) :
    Recalls order d' (g.removed p) := by
  simp only [Removes] at removes
  split at removes
  · next missing =>
    obtain ⟨rfl, rfl⟩ := removes
    have absent := List.findIdx_eq_length.mp
      (Nat.le_antisymm List.findIdx_le_length (List.getElem?_eq_none_iff.mp missing))
    have noted : g.removed p = g := recalls.missed fun x member => by simpa using absent x member
    rwa [noted]
  · next x found =>
    obtain ⟨rfl, rfl⟩ := removes
    obtain ⟨inside, here⟩ := List.getElem?_eq_some_iff.mp found
    have passes := @List.findIdx_getElem _ (fun x : Address × Address => some x.2 == p) _ inside
    rw [here, beq_iff_eq] at passes
    have noted : g.removed p = g.removed (some x.2) := congrArg g.removed passes.symm
    rw [noted]
    exact recalls.removed found (fun p => Shared.dropped_heap) live

theorem Recalls.allocated (recalls : Recalls order d g) (unused : d.payloads.heap e = none)
    (live : ∀ x ∈ d.list.items, d.payloads.heap x.2 ≠ none) (content : α) :
    Recalls order { d with payloads := d.payloads.clientMalloc e content }
      { g with content := Function.update g.content e (some content) } := by
  have apart : ∀ x ∈ d.list.items, x.2 ≠ e := fun x member pointed => live x member (pointed ▸ unused)
  refine ⟨recalls.kept, fun p lives => ?_, ?_⟩
  · change Function.update d.payloads.heap e (some content) p ≠ none at lives
    change Function.update d.payloads.heap e (some content) p =
      Function.update g.content e (some content) p
    by_cases pointed : p = e
    · rw [pointed, Function.update_self, Function.update_self]
    · rw [Function.update_of_ne pointed] at lives ⊢
      rw [Function.update_of_ne pointed]
      exact recalls.content p lives
  · exact stays_sorted (List.Sublist.refl _) recalls.sorted fun x member =>
      Shared.malloc_heap_of_ne (apart x member) content

/-- Every call that keeps the order is noted as it is done. -/
theorem specified_recalls (ordering : Ordering order) {s t : State α} {call : Call α}
    (recalls : Recalls order d g) (represents : Represents alloc (some order) s d)
    (allowed : Allowed s call) (sorting : call.Sorting)
    (specified : Specified alloc (some order) d call outcome d')
    (left : Represents alloc (some order) t d') : Recalls order d' (g.note alloc call outcome) := by
  have same := represents.payloads
  have live := left.live
  cases call with
  | add e m =>
    have fresh := fun copy answered => (allowed.1.2.1 copy answered).2
    have lives := allowed.2
    rw [same] at fresh lives
    exact recalls.added ordering fresh lives represents.live specified
  | addHead e m => exact sorting.elim
  | addTail e m => exact sorting.elim
  | getCount =>
    obtain ⟨rfl, rfl⟩ := specified
    exact recalls
  | getHead | getTail | getNext | getPrev =>
    obtain ⟨rfl, rfl⟩ := specified
    exact ⟨recalls.kept, recalls.content, recalls.sorted⟩
  | remove e => exact recalls.removes specified live
  | removeHead =>
    obtain ⟨p, rfl, removed⟩ := recalls.given specified live
    exact removed
  | removeTail =>
    obtain ⟨p, rfl, removed⟩ := recalls.given specified live
    exact removed
  | callerMalloc e content =>
    obtain ⟨rfl, rfl⟩ := specified
    exact recalls.allocated (same ▸ allowed.2) represents.live content
  | callerFree e =>
    obtain ⟨rfl, rfl⟩ := specified
    exact recalls.freed (fun p => Shared.without_heap) live

/-- A list that is only added to through its callback has the payloads that were added and not
removed. It is walked over them in order, both ways, and each walk ends after as many as
`list_get_count` tells. -/
theorem sorted_run_walks (ordering : Ordering order) {trace : List (Call α)}
    (sorting : ∀ call ∈ trace, call.Sorting)
    (lawful : Lawful object Allowed (listCreate alloc (some order)) trace) :
    ∃ s outcomes, ∃ items : List Address,
      calls object (listCreate alloc (some order)) trace = some (s, outcomes) ∧
      items.Perm (history alloc trace outcomes).kept ∧
      (∀ p ∈ items, s.payloads.heap p ≠ none ∧ s.payloads.heap p = (history alloc trace outcomes).content p) ∧
      (items.Pairwise fun p q => goesFirst s.payloads.heap order p q) ∧ s.count = items.length ∧
      ∀ n,
        (∃ t, calls object s (walk .getHead .getNext n) =
          some (t, (List.range (n + 1)).map fun k => .payload items[k]?)) ∧
        ∃ t, calls object s (walk .getTail .getPrev n) =
          some (t, (List.range (n + 1)).map fun k => .payload items.reverse[k]?) := by
  have begun : Recalls order (.empty : Sequence α) ⟨fun _ => none, []⟩ :=
    ⟨.refl _, fun _ _ => rfl, List.Pairwise.nil⟩
  obtain ⟨s, outcomes, d, called, -, represents, recalls⟩ :=
    refines_run_recorded (History.note alloc) ⟨fun _ => none, []⟩
      (fun s d g => Represents alloc (some order) s d ∧ Recalls order d g)
      (fun s call => Allowed s call ∧ call.Sorting)
      (fun s d g call related allowed => by
        obtain ⟨t, outcome, d', called, specified, left⟩ := object_refines call related.1 allowed.1
        exact ⟨t, outcome, d', called, specified, left,
          specified_recalls ordering related.2 related.1 allowed.1 allowed.2 specified left⟩)
      ⟨listCreate_represents alloc (some order), begun⟩ (lawful.strengthen sorting)
  have count : s.count = (d.list.items.map Prod.snd).length := by
    rw [represents.holds.count, List.length_map]
  refine ⟨s, outcomes, _, called, recalls.kept, fun p member => ?_, ?_, count, fun n =>
    ⟨walk_forward n represents, walk_backward n represents⟩⟩
  · obtain ⟨x, inside, rfl⟩ := List.mem_map.mp member
    rw [represents.payloads]
    exact ⟨represents.live x inside, recalls.content x.2 (represents.live x inside)⟩
  · rw [represents.payloads, List.pairwise_map]
    exact recalls.sorted

theorem sorted_run_walks_ascending :
    ∃ s outcomes, ∃ items : List Address,
      calls object (listCreate true (some fun a b : Nat => a ≤ b))
        [.callerMalloc 90 7, .add 90 ⟨some 1, some 2⟩, .callerMalloc 91 5, .add 91 ⟨some 3, some 4⟩,
          .remove (some 2), .callerMalloc 92 6, .add 92 ⟨some 1, some 2⟩] = some (s, outcomes) ∧
      items.Perm [2, 4] ∧
      (∀ p ∈ items, s.payloads.heap p ≠ none ∧ s.payloads.heap p =
        (history true [.callerMalloc 90 7, .add 90 ⟨some 1, some 2⟩, .callerMalloc 91 5,
          .add 91 ⟨some 3, some 4⟩, .remove (some 2), .callerMalloc 92 6, .add 92 ⟨some 1, some 2⟩]
            outcomes).content p) ∧
      (items.Pairwise fun p q => goesFirst s.payloads.heap (fun a b : Nat => a ≤ b) p q) ∧
      s.count = items.length ∧
      ∀ n,
        (∃ t, calls object s (walk .getHead .getNext n) =
          some (t, (List.range (n + 1)).map fun k => .payload items[k]?)) ∧
        ∃ t, calls object s (walk .getTail .getPrev n) =
          some (t, (List.range (n + 1)).map fun k => .payload items.reverse[k]?) := by
  obtain ⟨s, outcomes, items, called, rest⟩ :=
    @sorted_run_walks Nat true (fun a b => a ≤ b) ⟨by simp; omega, by simp; omega⟩
      [.callerMalloc 90 7, .add 90 ⟨some 1, some 2⟩, .callerMalloc 91 5, .add 91 ⟨some 3, some 4⟩,
        .remove (some 2), .callerMalloc 92 6, .add 92 ⟨some 1, some 2⟩] (by simp [Call.Sorting]) (by decide)
  have answers : outcomes = [.done, .status 0, .done, .status 0, .element none, .done, .status 0] :=
    (congrArg Prod.snd (Option.some.inj called)).symm
  subst answers
  exact ⟨s, _, items, called, rest⟩

end Order

end XMeterLogger.CList
