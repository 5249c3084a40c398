import XMeterLogger.CHashtable

/-! The hash table of `hashtable.c` refines a directory of payloads by key, except for its
count, which is the number of keys ever added. -/
namespace XMeterLogger.CHashtable

open XMeterLogger.LinkedList XMeterLogger.Objects
open XMeterLogger.CList (Address)

variable {α : Type}

/-- The payload of every key that is there, which may be NULL, how many keys were added, and
the heap of the payloads. -/
structure Directory (α : Type) where
  entries : CString → Option (Option Address)
  added : Nat
  payloads : Shared Address α

def Directory.empty : Directory α := ⟨fun _ => none, 0, .empty⟩

/-- What is stored for a payload, with the heap; none when memory runs out. -/
def stored (alloc : Bool) (payloads : Shared Address α) (e : Option Address) (size : Nat)
    (m : Malloc) : Option (Option Address × Shared Address α) :=
  match e with
  | none => some (none, payloads)
  | some p =>
    if alloc then
      if size ≠ 0 then
        m.copy.bind fun copy => (payloads.heap p).map fun content => (some copy, payloads.malloc copy content)
      else some (some p, payloads.takeOver p)
    else some (some p, payloads)

section Specification

variable (alloc : Bool)

/-- An update frees the payload that was there, and without memory for the new one leaves
NULL. -/
def Updates (d : Directory α) (key : CString) (e : Option Address) (size : Nat) (m : Malloc)
    (outcome : Outcome) (d' : Directory α) : Prop :=
  let payloads := d.payloads.dropped alloc (d.entries key).join
  match stored alloc payloads e size m with
  | none =>
    outcome = .status (-1) ∧ d' = ⟨Function.update d.entries key (some none), d.added, payloads⟩
  | some (v, payloads) =>
    outcome = .status 0 ∧ d' = ⟨Function.update d.entries key (some v), d.added, payloads⟩

/-- A new key without memory for it changes nothing. -/
def Inserts (d : Directory α) (key : CString) (e : Option Address) (size : Nat) (m : Malloc)
    (outcome : Outcome) (d' : Directory α) : Prop :=
  match stored alloc d.payloads e size m with
  | none => outcome = .status (-1) ∧ d' = d
  | some (v, payloads) =>
    if m.element = none ∨ m.key = none then outcome = .status (-1) ∧ d' = d
    else outcome = .status 0 ∧ d' = ⟨Function.update d.entries key (some v), d.added + 1, payloads⟩

def Adds (d : Directory α) (key : CString) (e : Option Address) (size : Nat) (m : Malloc)
    (outcome : Outcome) (d' : Directory α) : Prop :=
  if (d.entries key).isSome then Updates alloc d key e size m outcome d'
  else Inserts alloc d key e size m outcome d'

/-- The table as a directory. Its keys are given in any order, and a slot is left over for
each key that was added and is gone. -/
def Specified (d : Directory α) : Call α → Outcome → Directory α → Prop
  | .add key e size m, outcome, d' => Adds alloc d key e size m outcome d'
  | .getCount, outcome, d' => outcome = .count d.added ∧ d' = d
  | .hasKey key, outcome, d' => outcome = .found (d.entries key).isSome ∧ d' = d
  | .getKeys allocated, outcome, d' =>
    d' = d ∧ if d.added = 0 ∨ allocated = false then outcome = .keys d.added none
      else ∃ keys : List CString, keys.Nodup ∧ (∀ key, key ∈ keys ↔ d.entries key ≠ none) ∧
        outcome = .keys d.added (some (keys.map some ++ List.replicate (d.added - keys.length) none))
  | .lookup key, outcome, d' => outcome = .payload (d.entries key).join ∧ d' = d
  | .remove key, outcome, d' =>
    outcome = .payload (d.entries key).join ∧
      d' = ⟨Function.update d.entries key none, d.added, d.payloads.given alloc (d.entries key).join⟩
  | .callerMalloc e content, outcome, d' =>
    outcome = .done ∧ d' = { d with payloads := d.payloads.clientMalloc e content }
  | .callerFree e, outcome, d' =>
    outcome = .done ∧ d' = { d with payloads := (d.payloads.without e).takeOver e }

end Specification

abbrev copiesOf (alloc : Bool) (all : List Entry) : List Address := Shared.copiesOf alloc Entry.e all

/-- The keys of the entries are strings of their own, no two the same. -/
structure Named (keys : Heap Address CString) (all : List (Entry)) : Prop where
  tracks : Tracks keys (all.map Entry.key)
  distinct : (all.map fun x => keys x.key).Nodup

def Lists (keys : Heap Address CString) (all : List Entry)
    (entries : CString → Option (Option Address)) : Prop :=
  ∀ key v, entries key = some v ↔ ∃ x ∈ all, keys x.key = some key ∧ x.e = v

section Payloads

variable {s : State α} {alloc : Bool} {payloads : Shared Address α} {all others : List Entry} {x : Entry}

theorem freePayload_eq (s : State α) (e : Option Address) :
    freePayload s e = s.payloads.freeOwned s.alloc e := by
  cases e <;> rfl

theorem handOver_eq (s : State α) (e : Option Address) :
    handOver s e = s.payloads.given s.alloc e := by
  cases e <;> rfl

theorem storePayload_cases {e : Option Address} {size : Nat} {m : Malloc}
    (owns : payloads.Owns (copiesOf alloc all))
    (unused : alloc = true → ∀ a ∈ m.copy, payloads.heap a = none)
    (allowed : alloc = true → ∀ p ∈ e, if size = 0 then p ∈ payloads.client else payloads.heap p ≠ none) :
    (stored alloc payloads e size m = none ∧ storePayload alloc payloads e size m = some none) ∨
    ∃ v after, stored alloc payloads e size m = some (v, after) ∧
      storePayload alloc payloads e size m = some (some (v, after)) ∧
      ∀ k, after.Owns (copiesOf alloc (⟨k, v⟩ :: all)) := by
  unfold stored storePayload
  cases e with
  | none =>
    refine .inr ⟨none, payloads, rfl, rfl, fun k => ?_⟩
    cases alloc <;> exact owns
  | some p =>
    cases alloc with
    | false => exact .inr ⟨some p, payloads, rfl, rfl, fun k => owns⟩
    | true =>
      have able := allowed rfl p rfl
      by_cases empty : size = 0
      · rw [if_pos empty] at able
        exact .inr ⟨some p, payloads.takeOver p, by simp [empty], by simp [empty],
          fun k => owns.takeOver able⟩
      · rw [if_neg empty] at able
        obtain ⟨content, found⟩ := Option.ne_none_iff_exists'.mp able
        cases copied : m.copy with
        | none => exact .inl ⟨by simp [empty], by simp [empty]⟩
        | some copy =>
          exact .inr ⟨some copy, payloads.malloc copy content, by simp [empty, found],
            by simp [empty, found], fun k => owns.malloc (unused rfl copy copied) content⟩

end Payloads

section Contents

variable {keys : Heap Address CString} {all others : List Entry} {x y : Entry}
  {entries : CString → Option (Option Address)} {name : CString} {k : Address} {v : Option Address}

theorem Named.perm (named : Named keys all) (same : all.Perm others) : Named keys others :=
  ⟨named.tracks.perm (same.map _), (same.map _).nodup_iff.mp named.distinct⟩

theorem Named.live (named : Named keys all) (member : x ∈ all) : ∃ name, keys x.key = some name :=
  Option.ne_none_iff_exists'.mp ((named.tracks.exact x.key).mp (List.mem_map_of_mem member))

/-- A new key is a string that no other entry has, and changes no other name. -/
theorem Named.add (named : Named keys all) (unused : keys k = none)
    (new : ∀ x ∈ all, keys x.key ≠ some name) (v : Option Address) :
    Named (malloc keys k name) (⟨k, v⟩ :: all) ∧ ∀ x ∈ all, malloc keys k name x.key = keys x.key := by
  have same : ∀ x ∈ all, malloc keys k name x.key = keys x.key := by
    intro x member
    obtain ⟨other, held⟩ := named.live member
    have apart : x.key ≠ k := by
      rintro rfl
      rw [held] at unused
      contradiction
    exact Function.update_of_ne apart ..
  refine ⟨⟨named.tracks.malloc unused name, ?_⟩, same⟩
  have first : malloc keys k name k = some name := Function.update_self ..
  rw [List.map_cons, List.map_congr_left same, first, List.nodup_cons]
  refine ⟨fun inside => ?_, named.distinct⟩
  obtain ⟨x, member, held⟩ := List.mem_map.mp inside
  exact new x member held

theorem Named.remove (named : Named keys (x :: all)) :
    free keys x.key = some (Function.update keys x.key none) ∧
      Named (Function.update keys x.key none) all ∧
      ∀ y ∈ all, Function.update keys x.key none y.key = keys y.key := by
  obtain ⟨freed, tracked⟩ := named.tracks.free
  have same : ∀ y ∈ all, Function.update keys x.key none y.key = keys y.key := by
    intro y member
    have apart : y.key ≠ x.key := by
      intro same
      have listed : y.key ∈ all.map Entry.key := List.mem_map_of_mem member
      exact (List.nodup_cons.mp named.tracks.distinct).1 (same ▸ listed)
    exact Function.update_of_ne apart ..
  refine ⟨freed, ⟨tracked, ?_⟩, same⟩
  rw [List.map_congr_left same]
  exact (List.nodup_cons.mp named.distinct).2

theorem Lists.perm (lists : Lists keys all entries) (same : all.Perm others) : Lists keys others entries := by
  intro key v
  simp only [lists key v, same.mem_iff]

theorem Lists.entry (lists : Lists keys all entries) (member : x ∈ all) (held : keys x.key = some name) :
    entries name = some x.e := (lists name x.e).mpr ⟨x, member, held, rfl⟩

theorem Lists.absent (lists : Lists keys all entries) (absent : ∀ x ∈ all, keys x.key ≠ some name) :
    entries name = none := by
  by_contra present
  obtain ⟨v, found⟩ := Option.ne_none_iff_exists'.mp present
  obtain ⟨x, member, held, -⟩ := (lists name v).mp found
  exact absent x member held

theorem Named.apart (named : Named keys (x :: all)) (held : keys x.key = some name) :
    ∀ y ∈ all, keys y.key ≠ some name := by
  intro y member same
  have listed : keys y.key ∈ all.map fun y => keys y.key := List.mem_map_of_mem member
  exact (List.nodup_cons.mp named.distinct).1 (by rwa [same, ← held] at listed)

theorem Lists.put {others : Heap Address CString} (lists : Lists keys all entries)
    (absent : ∀ y ∈ all, keys y.key ≠ some name) (same : ∀ y ∈ all, others y.key = keys y.key)
    (held : others x.key = some name) :
    Lists others (x :: all) (Function.update entries name (some x.e)) := by
  intro key v
  by_cases this : key = name
  · subst this
    rw [Function.update_self, Option.some.injEq]
    constructor
    · rintro rfl
      exact ⟨x, List.mem_cons_self, held, rfl⟩
    · rintro ⟨y, member, found, rfl⟩
      rcases List.mem_cons.mp member with rfl | member
      · rfl
      · exact absurd ((same y member).symm.trans found) (absent y member)
  · rw [Function.update_of_ne this, lists key v]
    constructor
    · rintro ⟨y, member, found, rfl⟩
      exact ⟨y, List.mem_cons_of_mem _ member, (same y member).trans found, rfl⟩
    · rintro ⟨y, member, found, rfl⟩
      rcases List.mem_cons.mp member with rfl | member
      · exact absurd (Option.some.inj (held.symm.trans found)).symm this
      · exact ⟨y, member, (same y member).symm.trans found, rfl⟩

theorem Lists.drop {others : Heap Address CString} (lists : Lists keys (x :: all) entries)
    (held : keys x.key = some name) (absent : ∀ y ∈ all, keys y.key ≠ some name)
    (same : ∀ y ∈ all, others y.key = keys y.key) :
    Lists others all (Function.update entries name none) := by
  intro key v
  by_cases this : key = name
  · subst this
    rw [Function.update_self]
    constructor
    · intro none
      contradiction
    · rintro ⟨y, member, found, -⟩
      exact absurd ((same y member).symm.trans found) (absent y member)
  · rw [Function.update_of_ne this, lists key v]
    constructor
    · rintro ⟨y, member, found, rfl⟩
      rcases List.mem_cons.mp member with rfl | member
      · exact absurd (Option.some.inj (held.symm.trans found)).symm this
      · exact ⟨y, member, (same y member).trans found, rfl⟩
    · rintro ⟨y, member, found, rfl⟩
      exact ⟨y, List.mem_cons_of_mem _ member, (same y member).symm.trans found, rfl⟩

end Contents

def slot (signed : Bool) (size : Nat) (key : CString) : Nat := (djb2 signed key).toNat % size

def entriesOf (xss : List (List (Address × Entry))) : List (Entry) := xss.flatten.map Prod.snd

/-- The state holds these chains, each key in its own, and nothing else. -/
structure Holds (signed : Bool) (s : State α) (xss : List (List (Address × Entry))) : Prop where
  table : ChainTable Element.next Element.entry s.elements s.table xss
  size : s.size = xss.length
  placed : ∀ (i : Nat) xs, xss[i]? = some xs → ∀ y ∈ xs, ∀ key, s.keys y.2.key = some key →
    slot signed s.size key = i
  named : Named s.keys (entriesOf xss)
  owns : s.payloads.Owns (copiesOf s.alloc (entriesOf xss))
  counted : xss.flatten.length ≤ s.count

structure Represents (signed alloc : Bool) (s : State α) (d : Directory α) : Prop where
  alloc : s.alloc = alloc
  nonempty : 0 < s.size
  count : s.count = d.added
  payloads : s.payloads = d.payloads
  chains : ∃ xss, Holds signed s xss ∧ Lists s.keys (entriesOf xss) d.entries

theorem hashtableCreate_represents (signed alloc : Bool) {size : Nat} (nonempty : 0 < size)
    (small : size < 0x2000000000000000) :
    Represents signed alloc (hashtableCreate size alloc : State α) .empty := by
  have slots : size * 8 % 0x10000000000000000 / 8 = size := by omega
  have nothing : entriesOf (List.replicate size ([] : List (Address × Entry))) = [] := by
    simp [entriesOf]
  refine ⟨rfl, nonempty, rfl, rfl, List.replicate size [], ⟨?_, by simp [hashtableCreate], ?_, ?_, ?_, ?_⟩, ?_⟩
  · simp only [hashtableCreate, slots]
    exact ChainTable.empty size
  · intro i xs found y member
    rw [List.eq_of_mem_replicate (List.mem_of_getElem? found)] at member
    contradiction
  · rw [nothing]
    exact ⟨extends_refl _, List.nodup_nil⟩
  · rw [nothing]
    cases alloc <;> exact Shared.owns_empty
  · simp
  · rw [nothing]
    intro key v
    simp [Directory.empty]

section Search

variable {signed alloc : Bool} {s : State α} {d : Directory α} {xss : List (List (Address × Entry))}
  {before after : List (List (Address × Entry))} {xs front back : List (Address × Entry)}
  {a : Address} {x : Entry}

theorem entriesOf_middle : (entriesOf (before ++ (front ++ (a, x) :: back) :: after)).Perm
    (x :: entriesOf (before ++ (front ++ back) :: after)) := by
  have moved := @List.perm_middle _ (a, x) (before.flatten ++ front) (back ++ after.flatten)
  simpa [entriesOf] using moved.map Prod.snd

theorem getElem?_middle {ys zs : List (Address × Entry)} {i : Nat}
    (found : (before ++ ys :: after)[i]? = some zs) :
    i = before.length ∧ zs = ys ∨ i ≠ before.length ∧ (before ++ xs :: after)[i]? = some zs := by
  by_cases ahead : i < before.length
  · right
    rw [List.getElem?_append_left ahead] at found ⊢
    exact ⟨Nat.ne_of_lt ahead, found⟩
  · rw [List.getElem?_append_right (Nat.le_of_not_lt ahead)] at found ⊢
    cases offset : i - before.length with
    | zero =>
      rw [offset] at found
      exact .inl ⟨by omega, (Option.some.inj found).symm⟩
    | succ k =>
      rw [offset] at found
      exact .inr ⟨by omega, found⟩

theorem Holds.enough (holds : Holds signed s xss) (member : xs ∈ xss) : xs.length ≤ s.count := by
  have counted := holds.counted
  obtain ⟨before, after, rfl⟩ := List.append_of_mem member
  simp only [List.flatten_append, List.flatten_cons, List.length_append] at counted
  omega

theorem mem_entriesOf {y : Address × Entry} (inXs : y ∈ xs) (member : xs ∈ xss) :
    y.2 ∈ entriesOf xss :=
  List.mem_map_of_mem (List.mem_flatten_of_mem member inXs)

/-- The search finds the element of the key in its chain, or none in any. -/
theorem lookupKey_cases (holds : Holds signed s xss) (nonempty : 0 < s.size) (key : CString) :
    ∃ before xs after, xss = before ++ xs :: after ∧ before.length = slot signed s.size key ∧
      ((∃ front a x back, xs = front ++ (a, x) :: back ∧ s.keys x.key = some key ∧
        lookupKey signed s key = some (before.length, exit none front, some a)) ∨
      ((∀ x ∈ entriesOf xss, s.keys x.key ≠ some key) ∧
        lookupKey signed s key = some (before.length, exit none xs, none))) := by
  have inside : slot signed s.size key < xss.length := holds.size ▸ Nat.mod_lt _ nonempty
  have split := List.take_append_drop (slot signed s.size key) xss
  rw [List.drop_eq_getElem_cons inside] at split
  have ahead : (xss.take (slot signed s.size key)).length = slot signed s.size key :=
    List.length_take_of_le (Nat.le_of_lt inside)
  refine ⟨_, _, _, split.symm, ahead, ?_⟩
  generalize xss.take (slot signed s.size key) = before at split ahead ⊢
  generalize xss[slot signed s.size key] = xs at split ⊢
  generalize xss.drop (slot signed s.size key + 1) = after at split ⊢
  subst split
  have head := holds.table.head
  have hashed : hashtableComputeHash signed s key = some before.length := by
    rw [hashtableComputeHash, if_neg (Nat.ne_of_gt nonempty), ahead]
    rfl
  have tested : ∀ a (node : Element), s.elements a = some node → node.entry ∈ xs.map Prod.snd →
      ((s.keys node.entry.key).map fun k => k == key) =
        some (decide (s.keys node.entry.key = some key)) := by
    intro a node _ member
    have listed : node.entry ∈ entriesOf (before ++ xs :: after) := by
      obtain ⟨y, inXs, same⟩ := List.mem_map.mp member
      exact same ▸ mem_entriesOf inXs (by simp)
    obtain ⟨name, held⟩ := holds.named.live listed
    simp only [held, Option.map_some, Option.some.injEq, beq_eq_decide]
  have enough : xs.length ≤ s.count := holds.enough (by simp)
  have called : ∀ result, find Element.next s.elements
      (fun node => (s.keys node.entry.key).map fun k => k == key) s.count none (entry xs none) =
        some result → lookupKey signed s key = some (before.length, result.1, result.2) := by
    intro result found
    simp only [lookupKey, hashed, head, found, Option.bind_eq_bind, Option.bind_some]
  let passes : Entry → Bool := fun x => decide (s.keys x.key = some key)
  rcases @find_split _ _ _ _ _ _ _ _ passes holds.table.chain tested _ enough with
    ⟨front, a, x, back, rfl, passed, found⟩ | ⟨failed, found⟩
  · exact .inl ⟨front, a, x, back, rfl, of_decide_eq_true passed, called _ found⟩
  · refine .inr ⟨fun x member held => ?_, called _ found⟩
    obtain ⟨⟨b, y⟩, inFlat, rfl⟩ := List.mem_map.mp member
    obtain ⟨zs, inXss, inZs⟩ := List.mem_flatten.mp inFlat
    obtain ⟨i, at_i⟩ := List.getElem?_of_mem inXss
    have place := holds.placed i zs at_i (b, y) inZs key held
    rw [← ahead] at place
    subst place
    simp only [List.getElem?_append_right (Nat.le_refl _), Nat.sub_self, List.getElem?_cons_zero,
      Option.some.injEq] at at_i
    subst at_i
    exact of_decide_eq_false (failed b y inZs) held

theorem represents_search (represents : Represents signed alloc s d) (key : CString) :
    ∃ before xs after, Holds signed s (before ++ xs :: after) ∧
      Lists s.keys (entriesOf (before ++ xs :: after)) d.entries ∧
      before.length = slot signed s.size key ∧
      ((∃ front a x back, xs = front ++ (a, x) :: back ∧ s.keys x.key = some key ∧
        d.entries key = some x.e ∧ s.elements a = some ⟨entry back none, x⟩ ∧
        lookupKey signed s key = some (before.length, exit none front, some a)) ∨
      ((∀ x ∈ entriesOf (before ++ xs :: after), s.keys x.key ≠ some key) ∧ d.entries key = none ∧
        lookupKey signed s key = some (before.length, exit none xs, none))) := by
  obtain ⟨xss, holds, lists⟩ := represents.chains
  obtain ⟨before, xs, after, rfl, placed, searched⟩ := lookupKey_cases holds represents.nonempty key
  refine ⟨before, xs, after, holds, lists, placed, ?_⟩
  rcases searched with ⟨front, a, x, back, rfl, held, found⟩ | ⟨absent, missed⟩
  · have listed : x ∈ entriesOf (before ++ (front ++ (a, x) :: back) :: after) :=
      entriesOf_middle.mem_iff.mpr List.mem_cons_self
    obtain ⟨⟨next, held'⟩, live, linked, rfl⟩ := chain_block holds.table.chain
    obtain rfl : next = entry back none := linked
    exact .inl ⟨front, a, held', back, rfl, held, lists.entry listed held, live, found⟩
  · exact .inr ⟨absent, lists.absent absent, missed⟩

theorem hashtableLookup_refines (represents : Represents signed alloc s d) (key : CString) :
    hashtableLookup signed s key = some (s, .payload (d.entries key).join) := by
  obtain ⟨before, xs, after, -, -, -, searched⟩ := represents_search represents key
  rcases searched with ⟨front, a, x, back, -, -, entries, live, found⟩ | ⟨-, entries, missed⟩
  · simp [hashtableLookup, found, live, entries]
  · simp [hashtableLookup, missed, entries]

theorem hashtableHasKey_refines (represents : Represents signed alloc s d) (key : CString) :
    hashtableHasKey signed s key = some (s, .found (d.entries key).isSome) := by
  obtain ⟨before, xs, after, -, -, -, searched⟩ := represents_search represents key
  rcases searched with ⟨front, a, x, back, -, -, entries, -, found⟩ | ⟨-, entries, missed⟩
  · simp [hashtableHasKey, found, entries]
  · simp [hashtableHasKey, missed, entries]

end Search

section Changes

variable {signed alloc : Bool} {s : State α} {d : Directory α}
  {before after : List (List (Address × Entry))} {xs front back : List (Address × Entry)}
  {a : Address} {x : Entry} {key : CString} {v : Option Address} {payloads : Shared Address α}

theorem placed_middle {ys : List (Address × Entry)} {keys : Heap Address CString} {size : Nat}
    (placed : ∀ (i : Nat) zs, (before ++ xs :: after)[i]? = some zs → ∀ y ∈ zs, ∀ key,
      s.keys y.2.key = some key → slot signed size key = i)
    (same : ∀ y ∈ entriesOf (before ++ xs :: after), keys y.key = s.keys y.key)
    (own : ∀ y ∈ ys, ∀ key, keys y.2.key = some key → slot signed size key = before.length) :
    ∀ (i : Nat) zs, (before ++ ys :: after)[i]? = some zs → ∀ y ∈ zs, ∀ key,
      keys y.2.key = some key → slot signed size key = i := by
  intro i zs found y member key held
  rcases @getElem?_middle before after xs ys zs i found with ⟨rfl, rfl⟩ | ⟨-, other⟩
  · exact own y member key held
  · have listed : y.2 ∈ entriesOf (before ++ xs :: after) :=
      mem_entriesOf member (List.mem_of_getElem? other)
    exact placed i zs other y member key ((same y.2 listed).symm.trans held)

theorem replaced_represents (represents : Represents signed alloc s d)
    (holds : Holds signed s (before ++ (front ++ (a, x) :: back) :: after))
    (lists : Lists s.keys (entriesOf (before ++ (front ++ (a, x) :: back) :: after)) d.entries)
    (held : s.keys x.key = some key) (live : s.elements a = some ⟨entry back none, x⟩)
    (owns : payloads.Owns (copiesOf s.alloc (⟨x.key, v⟩ :: entriesOf (before ++ (front ++ back) :: after)))) :
    Represents signed alloc
      { s with elements := Function.update s.elements a (some ⟨entry back none, ⟨x.key, v⟩⟩), payloads }
      ⟨Function.update d.entries key (some v), d.added, payloads⟩ := by
  have named := holds.named.perm entriesOf_middle
  have absent := named.apart held
  have replaced : Named s.keys (⟨x.key, v⟩ :: entriesOf (before ++ (front ++ back) :: after)) :=
    ⟨named.tracks, named.distinct⟩
  have middle : (entriesOf (before ++ (front ++ (a, ⟨x.key, v⟩) :: back) :: after)).Perm
      (⟨x.key, v⟩ :: entriesOf (before ++ (front ++ back) :: after)) := entriesOf_middle
  have dropped := (lists.perm entriesOf_middle).drop held absent fun _ _ => rfl
  have put := @Lists.put _ _ ⟨x.key, v⟩ _ key s.keys dropped absent (fun _ _ => rfl) held
  rw [Function.update_idem] at put
  refine ⟨represents.alloc, represents.nonempty, represents.count, rfl,
    before ++ (front ++ (a, ⟨x.key, v⟩) :: back) :: after, ⟨?_, ?_, ?_, ?_, ?_, ?_⟩, ?_⟩
  · exact holds.table.replace live rfl
  · simpa using holds.size
  · refine placed_middle holds.placed (fun _ _ => rfl) fun y member name named => ?_
    have chain := holds.placed before.length (front ++ (a, x) :: back) (by simp)
    rcases List.mem_append.mp member with ahead | behind
    · exact chain y (by simp [ahead]) name named
    · rcases List.mem_cons.mp behind with rfl | behind
      · exact chain (a, x) (by simp) name named
      · exact chain y (by simp [behind]) name named
  · exact replaced.perm middle.symm
  · exact owns.perm (Shared.copiesOf_perm middle.symm)
  · simpa using holds.counted
  · exact put.perm middle.symm

theorem added_represents {el k : Address} {elements : Heap Address (Element)}
    {table : List (Option Address)} (represents : Represents signed alloc s d)
    (holds : Holds signed s (before ++ xs :: after))
    (lists : Lists s.keys (entriesOf (before ++ xs :: after)) d.entries)
    (absent : ∀ x ∈ entriesOf (before ++ xs :: after), s.keys x.key ≠ some key)
    (placed : before.length = slot signed s.size key) (unused : s.keys k = none)
    (linked : ChainTable Element.next Element.entry elements table
      (before ++ (xs ++ [(el, ⟨k, v⟩)]) :: after))
    (owns : payloads.Owns (copiesOf s.alloc (⟨k, v⟩ :: entriesOf (before ++ xs :: after)))) :
    Represents signed alloc
      { s with elements, table, keys := malloc s.keys k key, payloads, count := s.count + 1 }
      ⟨Function.update d.entries key (some v), d.added + 1, payloads⟩ := by
  obtain ⟨named, same⟩ := holds.named.add unused absent v
  have first : malloc s.keys k key k = some key := Function.update_self ..
  have put := @Lists.put _ _ ⟨k, v⟩ _ key _ lists absent same first
  have middle : (entriesOf (before ++ (xs ++ [(el, ⟨k, v⟩)]) :: after)).Perm
      (⟨k, v⟩ :: entriesOf (before ++ xs :: after)) := by
    have moved := @entriesOf_middle before after xs [] el ⟨k, v⟩
    rwa [List.append_nil] at moved
  have counted := holds.counted
  refine ⟨represents.alloc, represents.nonempty, by simp [represents.count], rfl, _,
    ⟨linked, by simpa using holds.size, ?_, named.perm middle.symm, owns.perm (Shared.copiesOf_perm middle.symm), ?_⟩,
    put.perm middle.symm⟩
  · refine placed_middle holds.placed same fun y member name held => ?_
    rcases List.mem_append.mp member with old | new
    · have listed : y.2 ∈ entriesOf (before ++ xs :: after) :=
        mem_entriesOf old (by simp)
      exact holds.placed before.length xs (by simp) y old name ((same y.2 listed).symm.trans held)
    · obtain rfl := List.mem_singleton.mp new
      obtain rfl := Option.some.inj (first.symm.trans held)
      exact placed.symm
  · simp only [List.flatten_append, List.flatten_cons, List.length_append, List.length_cons,
      List.length_nil] at counted ⊢
    omega

theorem removed_represents {elements : Heap Address (Element)} {table : List (Option Address)}
    (represents : Represents signed alloc s d)
    (holds : Holds signed s (before ++ (front ++ (a, x) :: back) :: after))
    (lists : Lists s.keys (entriesOf (before ++ (front ++ (a, x) :: back) :: after)) d.entries)
    (held : s.keys x.key = some key)
    (linked : ChainTable Element.next Element.entry elements table (before ++ (front ++ back) :: after))
    (owns : payloads.Owns (copiesOf s.alloc (entriesOf (before ++ (front ++ back) :: after)))) :
    Represents signed alloc
      { s with elements, table, keys := Function.update s.keys x.key none, payloads }
      ⟨Function.update d.entries key none, d.added, payloads⟩ := by
  have named := holds.named.perm entriesOf_middle
  obtain ⟨-, remaining, same⟩ := named.remove
  have dropped := (lists.perm entriesOf_middle).drop held (named.apart held) same
  have counted := holds.counted
  refine ⟨represents.alloc, represents.nonempty, represents.count, rfl, _,
    ⟨linked, by simpa using holds.size, ?_, remaining, owns, ?_⟩, dropped⟩
  · intro i zs found y member name named
    have listed : y.2 ∈ entriesOf (before ++ (front ++ back) :: after) :=
      mem_entriesOf member (List.mem_of_getElem? found)
    have was := (same y.2 listed).symm.trans named
    rcases @getElem?_middle before after (front ++ (a, x) :: back) (front ++ back) zs i found with
      ⟨rfl, rfl⟩ | ⟨-, other⟩
    · refine holds.placed before.length (front ++ (a, x) :: back) (by simp) y ?_ name was
      rcases List.mem_append.mp member with ahead | behind
      · simp [ahead]
      · simp [behind]
    · exact holds.placed i zs other y member name was
  · simp only [List.flatten_append, List.flatten_cons, List.length_append, List.length_cons] at counted ⊢
    omega

end Changes

section Calls

variable {signed alloc : Bool} {s : State α} {d : Directory α}

theorem updateElement_refines {before after : List (List (Address × Entry))}
    {front back : List (Address × Entry)} {a : Address} {x : Entry} {key : CString}
    {e : Option Address} {size : Nat} {m : Malloc} (represents : Represents signed alloc s d)
    (holds : Holds signed s (before ++ (front ++ (a, x) :: back) :: after))
    (lists : Lists s.keys (entriesOf (before ++ (front ++ (a, x) :: back) :: after)) d.entries)
    (held : s.keys x.key = some key) (live : s.elements a = some ⟨entry back none, x⟩)
    (entries : d.entries key = some x.e)
    (unused : ∀ b ∈ m.copy, s.payloads.heap b = none ∨ x.e = some b)
    (able : s.alloc = true → ∀ p ∈ e, if size = 0 then p ∈ s.payloads.client
      else s.payloads.heap p ≠ none ∧ x.e ≠ some p) :
    ∃ t outcome d', updateElement s a e size m = some (t, outcome) ∧
      Updates alloc d key e size m outcome d' ∧ Represents signed alloc t d' := by
  obtain ⟨freed, owns⟩ := (holds.owns.perm (Shared.copiesOf_perm entriesOf_middle)).freeOwned
  rw [← freePayload_eq] at freed
  have written : ∀ v, modify s.elements (some a)
      (fun node => { node with entry := { node.entry with e := v } }) =
        some (Function.update s.elements a (some ⟨entry back none, ⟨x.key, v⟩⟩)) :=
    fun v => modify_of live _
  have vacant : s.alloc = true → ∀ b ∈ m.copy, (s.payloads.dropped s.alloc x.e).heap b = none := by
    intro flag b answered
    rw [flag]
    exact Shared.dropped_unused (unused b answered)
  have allowed : s.alloc = true → ∀ p ∈ e, if size = 0 then p ∈ (s.payloads.dropped s.alloc x.e).client
      else (s.payloads.dropped s.alloc x.e).heap p ≠ none := by
    intro flag p member
    have able := able flag p member
    split
    next empty =>
      rw [if_pos empty] at able
      rwa [Shared.dropped_client]
    next full =>
      rw [if_neg full] at able
      rw [Shared.dropped_heap_of_ne able.2]
      exact able.1
  obtain rfl := represents.alloc
  unfold updateElement Updates
  rw [entries, ← represents.payloads, Option.join_some]
  rcases storePayload_cases owns vacant allowed with
    ⟨failed, refused⟩ | ⟨v, payloads, done, storing, owned⟩
  · have nothing : (s.payloads.dropped s.alloc x.e).Owns
        (copiesOf s.alloc (⟨x.key, none⟩ :: entriesOf (before ++ (front ++ back) :: after))) := by
      unfold copiesOf
      rw [Shared.copiesOf_cons]
      cases flag : s.alloc <;> rw [flag] at owns <;> exact owns
    simp only [failed]
    exact ⟨_, .status (-1), _, by simp [live, freed, refused, written], ⟨rfl, rfl⟩,
      replaced_represents represents holds lists held live nothing⟩
  · simp only [done]
    exact ⟨_, .status 0, _, by simp [live, freed, storing, written], ⟨rfl, rfl⟩,
      replaced_represents represents holds lists held live (owned x.key)⟩

theorem addElement_refines {before after : List (List (Address × Entry))}
    {xs : List (Address × Entry)} {key : CString} {e : Option Address} {size : Nat} {m : Malloc}
    (represents : Represents signed alloc s d) (holds : Holds signed s (before ++ xs :: after))
    (lists : Lists s.keys (entriesOf (before ++ xs :: after)) d.entries)
    (absent : ∀ x ∈ entriesOf (before ++ xs :: after), s.keys x.key ≠ some key)
    (placed : before.length = slot signed s.size key) (freshElement : ∀ b ∈ m.element, s.elements b = none)
    (freshKey : ∀ b ∈ m.key, s.keys b = none) (freshCopy : ∀ b ∈ m.copy, s.payloads.heap b = none)
    (able : s.alloc = true → ∀ p ∈ e, if size = 0 then p ∈ s.payloads.client
      else s.payloads.heap p ≠ none) :
    ∃ t outcome d', addElement s before.length (exit none xs) key e size m = some (t, outcome) ∧
      Inserts alloc d key e size m outcome d' ∧ Represents signed alloc t d' := by
  obtain rfl := represents.alloc
  unfold addElement Inserts
  rw [← represents.payloads]
  rcases storePayload_cases holds.owns (fun _ => freshCopy) able with
    ⟨failed, refused⟩ | ⟨v, payloads, done, storing, owned⟩
  · rw [failed, refused]
    exact ⟨s, _, d, by cases m.element <;> cases m.key <;> rfl, ⟨rfl, rfl⟩, represents⟩
  · rw [done, storing]
    cases element : m.element with
    | none => exact ⟨s, _, d, rfl, by simp, represents⟩
    | some el =>
      cases keyed : m.key with
      | none => exact ⟨s, _, d, rfl, by simp, represents⟩
      | some k =>
        have fresh := freshElement el element
        have joined : ∀ elements table, ChainTable Element.next Element.entry elements table
            (before ++ (xs ++ [(el, ⟨k, v⟩)]) :: after) →
            Represents signed s.alloc
              { s with elements, table, keys := malloc s.keys k key, payloads, count := s.count + 1 }
              ⟨Function.update d.entries key (some v), d.added + 1, payloads⟩ :=
          fun elements table linked =>
            added_represents represents holds lists absent placed (freshKey k keyed) linked (owned k)
        cases found : exit none xs with
        | none =>
          obtain rfl := exit_eq_none.mp found
          have linked := @ChainTable.extend_empty _ _ _ Element.next Element.entry _ _ _ _ _ _ ⟨none, ⟨k, v⟩⟩
            holds.table fresh rfl
          exact ⟨_, _, _, rfl, by simp, joined _ _ linked⟩
        | some p =>
          obtain ⟨elements, modified, linked⟩ := @ChainTable.extend_last _ _ _ Element.next Element.entry
            _ _ _ _ _ el p _ (fun node => { node with next := some el }) ⟨none, ⟨k, v⟩⟩ holds.table fresh
            rfl found (fun _ => rfl) (fun _ => rfl)
          exact ⟨_, .status 0, _, by simp [modified], by simp, joined _ _ linked⟩

theorem hashtableAdd_refines {key : CString} {e : Option Address} {size : Nat} {m : Malloc}
    (represents : Represents signed alloc s d) (allowed : Allowed signed s (.add key e size m)) :
    ∃ t outcome d', hashtableAdd signed s key e size m = some (t, outcome) ∧
      Adds alloc d key e size m outcome d' ∧ Represents signed alloc t d' := by
  obtain ⟨⟨freshElement, freshKey, freshCopy⟩, able⟩ := allowed
  have payload : payloadOf signed s key = (d.entries key).join := by
    rw [payloadOf, hashtableLookup_refines represents]
  rw [payload] at freshCopy able
  obtain ⟨before, xs, after, holds, lists, placed, searched⟩ := represents_search represents key
  unfold hashtableAdd Adds
  rcases searched with ⟨front, a, x, back, rfl, held, entries, live, found⟩ | ⟨absent, entries, missed⟩
  · rw [entries] at freshCopy able
    obtain ⟨t, outcome, d', called, updated, represented⟩ :=
      updateElement_refines represents holds lists held live entries freshCopy able
    exact ⟨t, outcome, d', by simp [found, called], by simpa [entries] using updated, represented⟩
  · rw [entries] at freshCopy able
    have freshCopy' : ∀ b ∈ m.copy, s.payloads.heap b = none := fun b answered =>
      (freshCopy b answered).resolve_right (by simp)
    have able' : s.alloc = true → ∀ p ∈ e, if size = 0 then p ∈ s.payloads.client
        else s.payloads.heap p ≠ none := by
      intro flag p member
      have able := able flag p member
      split
      next empty => rwa [if_pos empty] at able
      next full =>
        rw [if_neg full] at able
        exact able.1
    obtain ⟨t, outcome, d', called, inserted, represented⟩ :=
      addElement_refines represents holds lists absent placed freshElement freshKey freshCopy' able'
    exact ⟨t, outcome, d', by simp [missed, called], by simpa [entries] using inserted, represented⟩

theorem hashtableRemove_refines (represents : Represents signed alloc s d) (key : CString) :
    ∃ t, hashtableRemove signed s key = some (t, .payload (d.entries key).join) ∧
      Represents signed alloc t
        ⟨Function.update d.entries key none, d.added, d.payloads.given alloc (d.entries key).join⟩ := by
  obtain rfl := represents.alloc
  obtain ⟨before, xs, after, holds, lists, placed, searched⟩ := represents_search represents key
  unfold hashtableRemove
  rw [← represents.payloads]
  rcases searched with ⟨front, a, x, back, rfl, held, entries, live, found⟩ | ⟨absent, entries, missed⟩
  · have owns := (holds.owns.perm (Shared.copiesOf_perm entriesOf_middle)).given
    obtain ⟨freed, -, -⟩ := (holds.named.perm entriesOf_middle).remove
    have removed := fun elements table linked =>
      @removed_represents _ _ _ _ _ _ _ _ _ _ _ _ _ elements table represents holds lists held linked owns
    rw [entries]
    cases last : exit none front with
    | none =>
      obtain rfl := exit_eq_none.mp last
      rw [last] at found
      refine ⟨_, ?_, removed _ _ holds.table.cut_first⟩
      simp [found, live, freed, handOver_eq, free_of live]
    | some p =>
      rw [last] at found
      obtain ⟨elements, modified, same, linked⟩ := @ChainTable.cut_behind _ _ _ Element.next Element.entry
        _ _ _ _ _ _ _ _ _ _ (fun node => { node with next := entry back none }) holds.table last
        (fun _ => rfl) (fun _ => rfl)
      refine ⟨_, ?_, removed _ _ linked⟩
      simp [found, live, modified, freed, handOver_eq, free_of (same.trans live)]
  · refine ⟨s, by simp [missed, entries], ?_⟩
    have unchanged : Function.update d.entries key none = d.entries := by
      rw [← entries, Function.update_eq_self]
    rw [unchanged, entries, represents.payloads]
    exact represents

theorem chainKeys_names {s : State α} {all : List (Entry)} (named : Named s.keys all) {fuel : Nat}
    {xs : List (Address × Entry)} (chain : Chain Element.next Element.entry s.elements xs none)
    (listed : ∀ y ∈ xs, y.2 ∈ all) (enough : xs.length ≤ fuel) :
    ∃ names, chainKeys s fuel (entry xs none) = some names ∧
      names.map some = xs.map fun y => s.keys y.2.key := by
  induction xs generalizing fuel with
  | nil => exact ⟨[], by cases fuel <;> rfl, rfl⟩
  | cons head rest ih =>
    obtain ⟨a, x⟩ := head
    obtain ⟨⟨node, live, linked, rfl⟩, later⟩ := chain
    obtain ⟨name, held⟩ := named.live (listed _ List.mem_cons_self)
    cases fuel with
    | zero => simp at enough
    | succ fuel =>
      obtain ⟨names, looped, same⟩ := ih later (fun y member => listed y (List.mem_cons_of_mem _ member))
        (Nat.le_of_succ_le_succ enough)
      refine ⟨name :: names, ?_, by simp [held, same]⟩
      simp [chainKeys, live, held, linked, looped]

/-- The loop over the table meets every key once. -/
theorem tableKeys_names {xss : List (List (Address × Entry))} (holds : Holds signed s xss) :
    ∃ keys, tableKeys s = some keys ∧
      keys.map some = (entriesOf xss).map fun x => s.keys x.key := by
  let met (i : Nat) (keys : List CString) : Prop :=
    keys.map some = (entriesOf (xss.take i)).map fun x => s.keys x.key
  suffices looped : ∃ keys, tableKeys s = some keys ∧ met xss.length keys by
    simpa only [met, List.take_length] using looped
  unfold tableKeys
  rw [holds.size]
  refine foldlM_range met (fun i inside keys before => ?_) rfl
  have member := List.getElem_mem inside
  obtain ⟨names, chained, same⟩ := chainKeys_names holds.named (holds.table.chains _ member)
    (fun y inXs => mem_entriesOf inXs member) (holds.enough member)
  refine ⟨keys ++ names, by simp [holds.table.heads, inside, chained], ?_⟩
  have longer : entriesOf (xss.take (i + 1)) = entriesOf (xss.take i) ++ xss[i].map Prod.snd := by
    rw [List.take_succ_eq_append_getElem inside, entriesOf, entriesOf, List.flatten_append,
      List.flatten_singleton, List.map_append]
  simp only [met] at before ⊢
  rw [longer, List.map_append, List.map_append, before, same, List.map_map]
  rfl

theorem hashtableGetKeys_refines (represents : Represents signed alloc s d) (allocated : Bool) :
    ∃ outcome, hashtableGetKeys s allocated = some (s, outcome) ∧
      Specified alloc d (.getKeys allocated) outcome d := by
  obtain ⟨xss, holds, lists⟩ := represents.chains
  unfold hashtableGetKeys Specified
  rw [← represents.count]
  by_cases empty : s.count = 0
  · exact ⟨.keys 0 none, by simp [empty], rfl, by simp [empty]⟩
  have positive : 0 < s.count := Nat.pos_of_ne_zero empty
  cases allocated with
  | false => exact ⟨.keys s.count none, by simp [positive], rfl, by simp⟩
  | true =>
    obtain ⟨keys, looped, names⟩ := tableKeys_names holds
    have length : keys.length = xss.flatten.length := by
      have lengths := congrArg List.length names
      simpa only [entriesOf, List.length_map] using lengths
    have fits : keys.length ≤ s.count := length ▸ holds.counted
    have distinct : (keys.map some).Nodup := names ▸ holds.named.distinct
    refine ⟨.keys s.count (some (keys.map some ++ List.replicate (s.count - keys.length) none)),
      by simp [positive, looped, fits], rfl, ?_⟩
    simp only [empty, false_or, Bool.true_eq_false, if_false]
    refine ⟨keys, distinct.of_map, fun key => ?_, rfl⟩
    have listed : key ∈ keys ↔ ∃ x ∈ entriesOf xss, s.keys x.key = some key := by
      rw [← List.mem_map, ← names, List.mem_map_of_injective fun _ _ => Option.some.inj]
    rw [listed, Option.ne_none_iff_exists']
    constructor
    · rintro ⟨x, member, held⟩
      exact ⟨x.e, lists.entry member held⟩
    · rintro ⟨v, found⟩
      obtain ⟨x, member, held, -⟩ := (lists key v).mp found
      exact ⟨x, member, held⟩

/-- Every allowed call is answered as the directory answers. -/
theorem object_refines (call : Call α) (represents : Represents signed alloc s d)
    (allowed : Allowed signed s call) :
    ∃ t outcome d', object signed s call = some (t, outcome) ∧ Specified alloc d call outcome d' ∧
      Represents signed alloc t d' := by
  cases call with
  | add key e size m => exact hashtableAdd_refines represents allowed
  | getCount => exact ⟨s, _, d, rfl, ⟨by rw [represents.count], rfl⟩, represents⟩
  | hasKey key => exact ⟨s, _, d, hashtableHasKey_refines represents key, ⟨rfl, rfl⟩, represents⟩
  | getKeys allocated =>
    obtain ⟨outcome, called, specified⟩ := hashtableGetKeys_refines represents allocated
    exact ⟨s, outcome, d, called, specified, represents⟩
  | lookup key => exact ⟨s, _, d, hashtableLookup_refines represents key, ⟨rfl, rfl⟩, represents⟩
  | remove key =>
    obtain ⟨t, called, represented⟩ := hashtableRemove_refines represents key
    exact ⟨t, _, _, called, ⟨rfl, rfl⟩, represented⟩
  | callerMalloc e content =>
    obtain ⟨xss, holds, lists⟩ := represents.chains
    refine ⟨_, _, _, rfl, ⟨rfl, rfl⟩, represents.alloc, represents.nonempty, represents.count, ?_, xss,
      ⟨holds.table, holds.size, holds.placed, holds.named, ?_, holds.counted⟩, lists⟩
    · exact congrArg (·.clientMalloc e content) represents.payloads
    · exact holds.owns.clientMalloc allowed content
  | callerFree e =>
    obtain ⟨xss, holds, lists⟩ := represents.chains
    obtain ⟨freed, owns⟩ := holds.owns.clientFree allowed
    let t : State α := { s with payloads := (s.payloads.without e).takeOver e }
    refine ⟨t, _, _, by rw [object, freed]; rfl, ⟨rfl, rfl⟩, represents.alloc, represents.nonempty,
      represents.count, ?_, xss,
      ⟨holds.table, holds.size, holds.placed, holds.named, owns, holds.counted⟩, lists⟩
    exact congrArg (fun payloads => (payloads.without e).takeOver e) represents.payloads

end Calls

end XMeterLogger.CHashtable
