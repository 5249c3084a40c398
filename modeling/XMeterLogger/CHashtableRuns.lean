import XMeterLogger.CHashtableRefinement

/-! Whole runs of calls on a table that `hashtable_create` has made, between what its caller
does with the payloads: what they answer, when the count is the number of keys, and what
`hashtable_release` leaves. -/
namespace XMeterLogger.CHashtable

open XMeterLogger.LinkedList XMeterLogger.Objects XMeterLogger.Transition
open XMeterLogger.CList (Address)

variable {α : Type} {signed alloc : Bool} {size : Nat}

/-- Two keys that share a chain. One is updated without memory and again with the block that
was freed; the other has a payload of size 0, and is removed. -/
def collidingTrace : List (Call Nat) :=
  [.callerMalloc 90 7, .callerMalloc 91 8, .add ⟨[97], by decide⟩ (some 90) 4 ⟨some 1, some 2, some 3⟩,
    .add ⟨[99], by decide⟩ (some 91) 0 ⟨some 4, some 5, none⟩,
    .add ⟨[97], by decide⟩ (some 90) 4 ⟨none, none, none⟩, .lookup ⟨[97], by decide⟩,
    .add ⟨[97], by decide⟩ (some 90) 4 ⟨none, none, some 3⟩, .remove ⟨[99], by decide⟩,
    .callerFree 90, .getKeys true]

section Leftover

def Keeps (signed : Bool) (s : State α) : Call α → Prop
  | .remove key => hashtableHasKey signed s key = some (s, .found false)
  | _ => True

def Leftover (d : Directory α) (k : Nat) : Prop :=
  ∃ keys : List CString, keys.Nodup ∧ (∀ key, key ∈ keys ↔ d.entries key ≠ none) ∧
    keys.length + k = d.added

variable {s : State α} {d d' : Directory α} {call : Call α} {outcome : Outcome} {k : Nat}

theorem Leftover.update (left : Leftover d k) {key : CString} (present : d.entries key ≠ none)
    (v : Option Address) (payloads : Shared Address α) :
    Leftover ⟨Function.update d.entries key (some v), d.added, payloads⟩ k := by
  obtain ⟨keys, distinct, listed, length⟩ := left
  refine ⟨keys, distinct, fun other => ?_, length⟩
  by_cases same : other = key
  · simp [same, listed, present]
  · simp [same, listed]

theorem Leftover.insert (left : Leftover d k) {key : CString} (absent : d.entries key = none)
    (v : Option Address) (payloads : Shared Address α) :
    Leftover ⟨Function.update d.entries key (some v), d.added + 1, payloads⟩ k := by
  obtain ⟨keys, distinct, listed, length⟩ := left
  refine ⟨key :: keys, List.nodup_cons.mpr ⟨by simp [listed, absent], distinct⟩, fun other => ?_, ?_⟩
  · by_cases same : other = key
    · simp [same]
    · simp [listed, same]
  · rw [List.length_cons, Nat.add_right_comm, length]

theorem Leftover.remove (left : Leftover d k) {key : CString} (present : d.entries key ≠ none)
    (payloads : Shared Address α) :
    Leftover ⟨Function.update d.entries key none, d.added, payloads⟩ (k + 1) := by
  obtain ⟨keys, distinct, listed, length⟩ := left
  have member := (listed key).mpr present
  refine ⟨keys.erase key, distinct.erase key, fun other => ?_, ?_⟩
  · by_cases same : other = key
    · simp [same, distinct.not_mem_erase]
    · simp [Function.update_of_ne same, List.mem_erase_of_ne same, listed]
  · have positive := List.length_pos_of_mem member
    rw [List.length_erase_of_mem member]
    simp only
    omega

theorem Leftover.unique (left : Leftover d k) {keys : List CString} (distinct : keys.Nodup)
    (listed : ∀ key, key ∈ keys ↔ d.entries key ≠ none) : d.added - keys.length = k := by
  obtain ⟨others, distinct', listed', length⟩ := left
  have same := (List.perm_ext_iff_of_nodup distinct distinct').mpr
    fun key => (listed key).trans (listed' key).symm
  rw [same.length_eq, ← length, Nat.add_sub_cancel_left]

/-- Only a removal that finds its key leaves a slot over. -/
theorem leftover_step (represents : Represents signed alloc s d) (left : Leftover d k)
    (specified : Specified alloc d call outcome d') :
    Keeps signed s call ∧ Leftover d' k ∨ ¬ Keeps signed s call ∧ Leftover d' (k + 1) := by
  cases call with
  | add key e size m =>
    refine .inl ⟨trivial, ?_⟩
    have added : Adds alloc d key e size m outcome d' := specified
    unfold Adds at added
    split at added
    next present =>
      have there : d.entries key ≠ none := Option.isSome_iff_ne_none.mp present
      simp only [Updates] at added
      split at added
      · obtain ⟨-, rfl⟩ := added
        exact left.update there none _
      next v payloads _ =>
        obtain ⟨-, rfl⟩ := added
        exact left.update there v payloads
    next absent =>
      have away : d.entries key = none := Option.not_isSome_iff_eq_none.mp absent
      unfold Inserts at added
      split at added
      · obtain ⟨-, rfl⟩ := added
        exact left
      next v payloads _ =>
        split at added
        · obtain ⟨-, rfl⟩ := added
          exact left
        · obtain ⟨-, rfl⟩ := added
          exact left.insert away v payloads
  | getCount | hasKey key | lookup key | callerMalloc e content | callerFree e =>
    obtain ⟨-, rfl⟩ := specified
    exact .inl ⟨trivial, left⟩
  | getKeys allocated =>
    obtain ⟨rfl, -⟩ := specified
    exact .inl ⟨trivial, left⟩
  | remove key =>
    obtain ⟨-, rfl⟩ := specified
    have keeps : Keeps signed s (.remove key) ↔ d.entries key = none := by
      rw [Keeps, hashtableHasKey_refines represents key]
      simp
    rw [keeps]
    by_cases present : d.entries key = none
    · have unchanged : Function.update d.entries key none = d.entries := by
        rw [← present, Function.update_eq_self]
      exact .inl ⟨present, by rwa [unchanged]⟩
    · exact .inr ⟨present, left.remove present _⟩

theorem leftover_run {trace : List (Call α)} (represents : Represents signed alloc s d)
    (left : Leftover d k) (lawful : Lawful (object signed) (Allowed signed) s trace) :
    ∃ t outcomes d' j, calls (object signed) s trace = some (t, outcomes) ∧
      Represents signed alloc t d' ∧ Leftover d' j ∧ k ≤ j ∧
      (j = k ↔ Along (fun s call => (object signed s call).map Prod.fst) (Keeps signed) s trace) := by
  induction trace generalizing s d k with
  | nil => exact ⟨s, [], d, k, rfl, represents, left, Nat.le_refl k, iff_of_true rfl trivial⟩
  | cons call rest ih =>
    obtain ⟨next, outcome, middle, called, specified, represented⟩ :=
      object_refines call represents lawful.1
    have onward := ((lawful_cons called).mp lawful).2
    have along : Along (fun s call => (object signed s call).map Prod.fst) (Keeps signed) s (call :: rest) ↔
        Keeps signed s call ∧
          Along (fun s call => (object signed s call).map Prod.fst) (Keeps signed) next rest := by
      simp [Along, called]
    rcases leftover_step represents left specified with ⟨keeps, kept⟩ | ⟨removes, grown⟩
    · obtain ⟨t, outcomes, d', j, later, ended, remains, grows, exact⟩ := ih represented kept onward
      exact ⟨t, outcome :: outcomes, d', j, calls_cons called later, ended, remains, grows,
        by rw [along, exact, and_iff_right keeps]⟩
    · obtain ⟨t, outcomes, d', j, later, ended, remains, grows, -⟩ := ih represented grown onward
      refine ⟨t, outcome :: outcomes, d', j, calls_cons called later, ended, remains,
        Nat.le_of_succ_le grows, ?_⟩
      rw [along]
      exact iff_of_false (Nat.ne_of_gt grows) fun both => removes both.1

/-- The count of `hashtable_get_keys` is that of the keys it gives exactly in the runs that
removed none; after any other, slots of its table are never written. -/
theorem get_keys_leaves_slot_iff (nonempty : 0 < size) (small : size < 0x2000000000000000)
    {trace : List (Call α)}
    (lawful : Lawful (object signed) (Allowed signed) (hashtableCreate size alloc) trace) :
    ∃ s outcomes, calls (object signed) (hashtableCreate size alloc) trace = some (s, outcomes) ∧
      ((∃ n slots, hashtableGetKeys s true = some (s, .keys n (some slots)) ∧ none ∈ slots) ↔
        ¬ Along (fun s call => (object signed s call).map Prod.fst) (Keeps signed)
          (hashtableCreate size alloc) trace) := by
  have nothing : Leftover (.empty : Directory α) 0 := ⟨[], List.nodup_nil, by simp [Directory.empty], rfl⟩
  obtain ⟨s, outcomes, d, j, called, represents, left, -, exact⟩ :=
    leftover_run (hashtableCreate_represents signed alloc nonempty small) nothing lawful
  obtain ⟨outcome, answered, -, specified⟩ := hashtableGetKeys_refines represents true
  refine ⟨s, outcomes, called, ?_⟩
  rw [← exact, answered]
  by_cases none : d.added = 0
  · obtain ⟨keys, -, -, length⟩ := left
    simp only [none, true_or, if_true] at specified
    have spare : j = 0 := by omega
    simp [specified, spare]
  · simp only [none, Bool.true_eq_false, or_self, if_false] at specified
    obtain ⟨keys, distinct, listed, rfl⟩ := specified
    simp [left.unique distinct listed]

theorem get_keys_leaves_slot_colliding :
    ∃ s outcomes, calls (object true) (hashtableCreate 2 true) collidingTrace = some (s, outcomes) ∧
      ((∃ n slots, hashtableGetKeys s true = some (s, .keys n (some slots)) ∧ none ∈ slots) ↔
        ¬ Along (fun s call => (object true s call).map Prod.fst) (Keeps true)
          (hashtableCreate 2 true) collidingTrace) :=
  get_keys_leaves_slot_iff (by decide) (by decide) (by decide)

end Leftover

section Release

variable {s t : State α} {rest xss : List (List (Address × Entry))} {xs : List (Address × Entry)}

structure Remaining (s t : State α) (rest : List (List (Address × Entry))) : Prop where
  table : t.table = s.table
  size : t.size = s.size
  count : t.count = s.count
  chains : ∀ xs ∈ rest, Chain Element.next Element.entry t.elements xs none
  elements : Tracks t.elements (addresses rest.flatten)
  keys : Tracks t.keys ((entriesOf rest).map Entry.key)
  owns : t.payloads.Owns (copiesOf t.alloc (entriesOf rest))
  clientOnly : t.payloads.clientOnly = s.payloads.clientOnly

/-- A chain is freed element by element, each with its key and its payload. -/
theorem releaseChain_remaining (remaining : Remaining s t (xs :: rest)) {fuel : Nat}
    (enough : xs.length ≤ fuel) :
    ∃ u, releaseChain t fuel (entry xs none) = some u ∧ Remaining s u rest := by
  induction xs generalizing t fuel with
  | nil =>
    refine ⟨t, by cases fuel <;> rfl, remaining.table, remaining.size, remaining.count, ?_,
      remaining.elements, remaining.keys, remaining.owns, remaining.clientOnly⟩
    exact fun xs member => remaining.chains xs (List.mem_cons_of_mem _ member)
  | cons head xs ih =>
    obtain ⟨a, x⟩ := head
    obtain ⟨⟨node, live, linked, rfl⟩, later⟩ := remaining.chains _ List.mem_cons_self
    obtain ⟨freedElement, elements⟩ := remaining.elements.free
    obtain ⟨freedKey, keys⟩ := remaining.keys.free
    obtain ⟨freed, owns⟩ := remaining.owns.freeOwned
    rw [← freePayload_eq] at freed
    have same := remaining.owns.dropped_clientOnly.trans remaining.clientOnly
    have outside : a ∉ addresses (xs :: rest).flatten :=
      (List.nodup_cons.mp remaining.elements.distinct).1
    cases fuel with
    | zero => simp at enough
    | succ fuel =>
      have left : Remaining s { t with
          elements := Function.update t.elements a none
          keys := Function.update t.keys node.entry.key none
          payloads := t.payloads.dropped t.alloc node.entry.e } (xs :: rest) := by
        refine ⟨remaining.table, remaining.size, remaining.count, fun zs member => ?_, elements, keys, owns,
          same⟩
        refine chain_update ?_ (fun inside => outside (mem_addresses_flatten member inside)) none
        rcases List.mem_cons.mp member with rfl | member
        · exact later
        · exact remaining.chains zs (List.mem_cons_of_mem _ member)
      obtain ⟨u, released, left⟩ := ih left (Nat.le_of_succ_le_succ enough)
      refine ⟨u, ?_, left⟩
      simp only [releaseChain, entry_cons, live, freedKey, freed, freedElement, linked,
        Option.bind_eq_bind, Option.bind_some]
      exact released

theorem hashtableRelease_clears {d : Directory α} (represents : Represents signed alloc s d) :
    ∃ t, hashtableRelease s = some t ∧ t.elements = (fun _ => none) ∧ t.keys = (fun _ => none) ∧
      t.payloads = s.payloads.clientOnly := by
  obtain ⟨xss, holds, -⟩ := represents.chains
  have start : Remaining s s (xss.drop 0) :=
    ⟨rfl, rfl, rfl, holds.table.chains, holds.table.tracks, holds.named.tracks, holds.owns, rfl⟩
  unfold hashtableRelease
  rw [holds.size]
  obtain ⟨t, released, remaining⟩ := @foldlM_range _ releaseSlot (fun i t => Remaining s t (xss.drop i))
    xss.length (fun i inside t remaining => by
      rw [List.drop_eq_getElem_cons inside] at remaining
      have enough : xss[i].length ≤ t.count := by
        rw [remaining.count]
        exact holds.enough (List.getElem_mem inside)
      obtain ⟨u, released, left⟩ := releaseChain_remaining remaining enough
      exact ⟨u, by simp [releaseSlot, remaining.table, holds.table.heads, inside, released], left⟩) s start
  rw [List.drop_length] at remaining
  have owns := Shared.owns_no_copies.mp remaining.owns
  exact ⟨t, released, remaining.elements.eq, remaining.keys.eq, owns.clientOnly.symm.trans remaining.clientOnly⟩

/-- After any run `hashtable_release` frees every element, every key and every payload that
the table has and has not handed over, no block twice, and leaves what is the caller's. -/
theorem hashtable_run_released (nonempty : 0 < size) (small : size < 0x2000000000000000)
    {trace : List (Call α)}
    (lawful : Lawful (object signed) (Allowed signed) (hashtableCreate size alloc) trace) :
    ∃ s outcomes t, calls (object signed) (hashtableCreate size alloc) trace = some (s, outcomes) ∧
      hashtableRelease s = some t ∧ t.elements = (fun _ => none) ∧ t.keys = (fun _ => none) ∧
      t.payloads = s.payloads.clientOnly ∧ ∀ a ∈ s.payloads.client, s.payloads.heap a ≠ none := by
  obtain ⟨s, outcomes, d, called, -, represents⟩ := refines_run (Represents signed alloc) (Allowed signed)
    (fun _ _ call represents allowed => object_refines call represents allowed)
    (hashtableCreate_represents signed alloc nonempty small) lawful
  obtain ⟨t, released, elements, keys, payloads⟩ := hashtableRelease_clears represents
  obtain ⟨xss, holds, -⟩ := represents.chains
  exact ⟨s, outcomes, t, called, released, elements, keys, payloads,
    fun a member => holds.owns.client_live member⟩

/-- Of the two payloads the table had, the one that was handed over is live. -/
theorem hashtable_run_released_colliding :
    (∃ s outcomes t, calls (object true) (hashtableCreate 2 true) collidingTrace = some (s, outcomes) ∧
      hashtableRelease s = some t ∧ t.elements = (fun _ => none) ∧ t.keys = (fun _ => none) ∧
      t.payloads = s.payloads.clientOnly ∧ ∀ a ∈ s.payloads.client, s.payloads.heap a ≠ none) ∧
    ((calls (object true) (hashtableCreate 2 true) collidingTrace).bind fun final =>
      (hashtableRelease final.1).map fun left =>
        (left.payloads.client, left.payloads.heap 91, left.payloads.heap 3)) = some ([91], some 8, none) :=
  ⟨hashtable_run_released (by decide) (by decide) (by decide), rfl⟩

end Release

end XMeterLogger.CHashtable
