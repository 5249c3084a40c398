import XMeterLogger.Lib.Ownership

/-! Chains of one link, edited where a search has stopped, and tables of such chains on
one heap, whose live blocks are those of the chains. -/
namespace XMeterLogger.LinkedList

variable {Address Block Value : Type*}

section Chain

variable {link : Block → Option Address} {value : Block → Value} {h : Heap Address Block}
  {xs front back : List (Address × Value)} {after : Option Address} {a p : Address} {x : Value}

/-- Where a search stops: at the first entry that passes, or behind the last. -/
theorem find_split {test : Block → Option Bool} {passes : Value → Bool}
    (chain : Chain link value h xs none)
    (tested : ∀ a block, h a = some block → value block ∈ xs.map Prod.snd →
      test block = some (passes (value block)))
    {fuel : Nat} (enough : xs.length ≤ fuel) :
    (∃ front a x back, xs = front ++ (a, x) :: back ∧ passes x = true ∧
      find link h test fuel none (entry xs none) = some (exit none front, some a)) ∨
    ((∀ a x, (a, x) ∈ xs → passes x = false) ∧
      find link h test fuel none (entry xs none) = some (exit none xs, none)) := by
  rw [find_chain chain tested enough none]
  by_cases stops : xs.findIdx (fun entry => passes entry.2) < xs.length
  · left
    have split := List.take_append_drop (xs.findIdx fun entry => passes entry.2) xs
    rw [List.drop_eq_getElem_cons stops] at split
    have passed : passes (xs[xs.findIdx fun entry => passes entry.2]).2 = true :=
      @List.findIdx_getElem _ (fun entry : Address × Value => passes entry.2) xs stops
    refine ⟨_, _, _, _, split.symm, passed, ?_⟩
    rw [List.drop_eq_getElem_cons stops]
    rfl
  · right
    have whole : xs.findIdx (fun entry => passes entry.2) = xs.length :=
      Nat.le_antisymm List.findIdx_le_length (Nat.le_of_not_lt stops)
    refine ⟨fun a x member => List.findIdx_eq_length.mp whole (a, x) member, ?_⟩
    rw [whole, List.take_length, List.drop_length]
    rfl

theorem chain_block (chain : Chain link value h (front ++ (a, x) :: back) after) :
    ∃ block, h a = some block ∧ link block = entry back after ∧ value block = x :=
  (chain_append.mp chain).2.1

variable [DecidableEq Address]

/-- A new value in a block that keeps its link. -/
theorem chain_replace {block new : Block} (chain : Chain link value h (front ++ (a, x) :: back) after)
    (distinct : (addresses (front ++ (a, x) :: back)).Nodup) (live : h a = some block)
    (links : link new = link block) :
    Chain link value (Function.update h a (some new)) (front ++ (a, value new) :: back) after := by
  rw [addresses_append, addresses_cons, List.nodup_middle, List.nodup_cons, List.mem_append,
    not_or] at distinct
  obtain ⟨⟨notFront, notBack⟩, -⟩ := distinct
  obtain ⟨ahead, ⟨other, found, linked, -⟩, behind⟩ := chain_append.mp chain
  obtain rfl := Option.some.inj (live.symm.trans found)
  exact chain_append.mpr ⟨chain_update ahead notFront _,
    ⟨new, Function.update_self .., links.trans linked, rfl⟩, chain_update behind notBack _⟩

/-- The last block of a chain is led elsewhere. -/
theorem chain_redirect (chain : Chain link value h xs after) (distinct : (addresses xs).Nodup)
    (found : exit none xs = some p) {f : Block → Block} (values : ∀ block, value (f block) = value block) :
    ∃ block, h p = some block ∧
      Chain link value (Function.update h p (some (f block))) xs (link (f block)) := by
  obtain ⟨front, x, rfl⟩ := exit_eq_some found
  rw [addresses_append, addresses_cons, addresses_nil, List.nodup_middle, List.append_nil,
    List.nodup_cons] at distinct
  obtain ⟨block, live, -⟩ := chain_block chain
  exact ⟨block, live, chain_relink chain distinct.1 live (values block)⟩

/-- A new block that ends the chain is linked behind the last. -/
theorem chain_extend {f : Block → Block} {new : Block} (chain : Chain link value h xs none)
    (distinct : (addresses xs).Nodup) (fresh : h a = none) (ends : link new = none)
    (found : exit none xs = some p) (links : ∀ block, link (f block) = some a)
    (values : ∀ block, value (f block) = value block) :
    ∃ block, h p = some block ∧
      modify (malloc h a new) (some p) f =
        some (Function.update (malloc h a new) p (some (f block))) ∧
      Chain link value (Function.update (malloc h a new) p (some (f block))) (xs ++ [(a, value new)]) none := by
  have outside : a ∉ addresses xs := by
    intro inside
    obtain ⟨⟨b, x⟩, member, rfl⟩ := List.mem_map.mp inside
    obtain ⟨block, live, -⟩ := chain_live chain member
    simp [fresh] at live
  obtain ⟨block, live, redirected⟩ := chain_redirect (chain_update chain outside (some new)) distinct found values
  have apart : p ≠ a := by
    obtain ⟨front, x, rfl⟩ := exit_eq_some found
    rintro rfl
    simp at outside
  refine ⟨block, by rwa [Function.update_of_ne apart] at live, modify_of live f, ?_⟩
  rw [links] at redirected
  refine chain_append.mpr ⟨redirected, ⟨new, ?_, ends, rfl⟩, trivial⟩
  rw [Function.update_of_ne (Ne.symm apart)]
  exact Function.update_self ..

/-- The block before is led past one. -/
theorem chain_cut {f : Block → Block} (chain : Chain link value h (front ++ (a, x) :: back) none)
    (distinct : (addresses (front ++ (a, x) :: back)).Nodup) (found : exit none front = some p)
    (links : ∀ block, link (f block) = entry back none)
    (values : ∀ block, value (f block) = value block) :
    ∃ block, h p = some block ∧ modify h (some p) f = some (Function.update h p (some (f block))) ∧
      Chain link value (Function.update h p (some (f block))) (front ++ back) none := by
  obtain ⟨ahead, -, behind⟩ := chain_append.mp chain
  rw [addresses_append, addresses_cons] at distinct
  obtain ⟨ahead', -, apart⟩ := List.nodup_append.mp distinct
  obtain ⟨block, live, redirected⟩ := chain_redirect ahead ahead' found values
  refine ⟨block, live, modify_of live f, chain_append.mpr ⟨links block ▸ redirected, ?_⟩⟩
  refine chain_update behind (fun inside => ?_) _
  obtain ⟨front, y, rfl⟩ := exit_eq_some found
  exact apart p (by simp) p (List.mem_cons_of_mem _ inside) rfl

end Chain

/-- The chains of a table by their heads, with every live block of the heap in one of them. -/
structure ChainTable (link : Block → Option Address) (value : Block → Value) (h : Heap Address Block)
    (heads : List (Option Address)) (xss : List (List (Address × Value))) : Prop where
  heads : heads = xss.map fun xs => entry xs none
  chains : ∀ xs ∈ xss, Chain link value h xs none
  tracks : Tracks h (addresses xss.flatten)

section ChainTable

variable {link : Block → Option Address} {value : Block → Value} {h k : Heap Address Block}
  {heads : List (Option Address)} {before after : List (List (Address × Value))}
  {xs ys front back : List (Address × Value)} {a p : Address} {x : Value}

theorem flatten_middle :
    addresses (before ++ xs :: after).flatten =
      addresses before.flatten ++ (addresses xs ++ addresses after.flatten) := by
  simp

theorem mem_addresses_flatten {xss : List (List (Address × Value))} (member : xs ∈ xss)
    (inside : a ∈ addresses xs) : a ∈ addresses xss.flatten := by
  rw [addresses, List.map_flatten]
  exact List.mem_flatten_of_mem (List.mem_map_of_mem member) inside

/-- The blocks with one of them taken to the front. -/
theorem addresses_middle : (addresses (before ++ (front ++ (a, x) :: back) :: after).flatten).Perm
    (a :: addresses (before ++ (front ++ back) :: after).flatten) := by
  have moved := @List.perm_middle _ (a, x) (before.flatten ++ front) (back ++ after.flatten)
  simpa [addresses] using moved.map Prod.fst

theorem ChainTable.empty (size : Nat) : ChainTable link value (fun _ => none)
    (List.replicate size none) (List.replicate size []) := by
  refine ⟨by simp, fun xs member => ?_, ?_⟩
  · rw [List.eq_of_mem_replicate member]
    trivial
  · rw [List.flatten_replicate_nil]
    exact extends_refl _

theorem ChainTable.chain (table : ChainTable link value h heads (before ++ xs :: after)) :
    Chain link value h xs none :=
  table.chains xs (by simp)

theorem ChainTable.distinct (table : ChainTable link value h heads (before ++ xs :: after)) :
    (addresses xs).Nodup := by
  have distinct := table.tracks.distinct
  rw [flatten_middle] at distinct
  exact (List.nodup_append.mp (List.nodup_append.mp distinct).2.1).1

theorem ChainTable.head (table : ChainTable link value h heads (before ++ xs :: after)) :
    heads[before.length]? = some (entry xs none) := by
  simp [table.heads]

/-- One chain is edited without a write to the blocks of the others. -/
theorem ChainTable.edit (table : ChainTable link value h heads (before ++ xs :: after))
    (same : ∀ b, b ∉ addresses xs → h b ≠ none → k b = h b) (chain : Chain link value k ys none)
    (tracks : Tracks k (addresses (before ++ ys :: after).flatten)) :
    ChainTable link value k (heads.set before.length (entry ys none)) (before ++ ys :: after) := by
  refine ⟨by simp [table.heads], fun zs member => ?_, tracks⟩
  have other : ∀ zs ∈ before ++ xs :: after, (∀ b ∈ addresses zs, b ∉ addresses xs) →
      Chain link value k zs none := by
    intro zs member apart
    refine chain_congr (table.chains zs member) fun b inside block live => ⟨block, ?_, rfl, rfl⟩
    rw [same b (apart b inside) (by simp [live]), live]
  have distinct := table.tracks.distinct
  rw [flatten_middle] at distinct
  obtain ⟨-, right, left⟩ := List.nodup_append.mp distinct
  rcases List.mem_append.mp member with ahead | behind
  · refine other zs (by simp [ahead]) fun b inside inXs => ?_
    exact left b (mem_addresses_flatten ahead inside) b (List.mem_append_left _ inXs) rfl
  · rcases List.mem_cons.mp behind with rfl | behind
    · exact chain
    · refine other zs (by simp [behind]) fun b inside inXs => ?_
      exact (List.nodup_append.mp right).2.2 b inXs b (mem_addresses_flatten behind inside) rfl

/-- Nor is the table written when the chain starts where it did. -/
theorem ChainTable.edit_behind (table : ChainTable link value h heads (before ++ xs :: after))
    (same : ∀ b, b ∉ addresses xs → h b ≠ none → k b = h b) (chain : Chain link value k ys none)
    (tracks : Tracks k (addresses (before ++ ys :: after).flatten))
    (starts : entry ys none = entry xs none) :
    ChainTable link value k heads (before ++ ys :: after) := by
  have unwritten : heads.set before.length (entry ys none) = heads := by
    simp [table.heads, starts]
  exact unwritten ▸ table.edit same chain tracks

variable [DecidableEq Address]

theorem ChainTable.replace {block new : Block}
    (table : ChainTable link value h heads (before ++ (front ++ (a, x) :: back) :: after))
    (live : h a = some block) (links : link new = link block) :
    ChainTable link value (Function.update h a (some new)) heads
      (before ++ (front ++ (a, value new) :: back) :: after) := by
  refine table.edit_behind (fun b outside _ => ?_) (chain_replace table.chain table.distinct live links) ?_ ?_
  · exact Function.update_of_ne (fun same => outside (by simp [same])) ..
  · have member : a ∈ addresses (before ++ (front ++ (a, x) :: back) :: after).flatten := by simp
    simpa using table.tracks.write member new
  · rw [entry_append, entry_append]
    rfl

/-- A new block starts a chain that was empty. -/
theorem ChainTable.extend_empty {new : Block} (table : ChainTable link value h heads (before ++ [] :: after))
    (fresh : h a = none) (ends : link new = none) :
    ChainTable link value (malloc h a new) (heads.set before.length (some a))
      (before ++ [(a, value new)] :: after) := by
  have chain : Chain link value (malloc h a new) [(a, value new)] none :=
    ⟨⟨new, Function.update_self .., ends, rfl⟩, trivial⟩
  refine table.edit (fun b _ lives => ?_) chain ?_
  · have apart : b ≠ a := fun same => lives (same ▸ fresh)
    exact Function.update_of_ne apart ..
  · exact (table.tracks.malloc fresh new).perm (@addresses_middle _ _ before after [] [] a _).symm

/-- Or is linked behind the last of a chain. -/
theorem ChainTable.extend_last {f : Block → Block} {new : Block}
    (table : ChainTable link value h heads (before ++ xs :: after)) (fresh : h a = none)
    (ends : link new = none) (found : exit none xs = some p) (links : ∀ block, link (f block) = some a)
    (values : ∀ block, value (f block) = value block) :
    ∃ k, modify (malloc h a new) (some p) f = some k ∧
      ChainTable link value k heads (before ++ (xs ++ [(a, value new)]) :: after) := by
  obtain ⟨block, -, modified, chain⟩ :=
    chain_extend table.chain table.distinct fresh ends found links values
  obtain ⟨front, y, rfl⟩ := exit_eq_some found
  refine ⟨_, modified, table.edit_behind (fun b outside lives => ?_) chain ?_ ?_⟩
  · have notLast : b ≠ p := fun same => outside (by simp [same])
    have notNew : b ≠ a := fun same => lives (same ▸ fresh)
    rw [Function.update_of_ne notLast, malloc, Function.update_of_ne notNew]
  · refine ((table.tracks.malloc fresh new).write (by simp) (f block)).perm ?_
    have joined := (@addresses_middle _ _ before after (front ++ [(p, y)]) [] a (value new)).symm
    rwa [List.append_nil] at joined
  · rw [entry_append]
    cases front <;> rfl

/-- The first block of a chain is taken out and freed. -/
theorem ChainTable.cut_first (table : ChainTable link value h heads (before ++ ((a, x) :: back) :: after)) :
    ChainTable link value (Function.update h a none) (heads.set before.length (entry back none))
      (before ++ back :: after) := by
  have distinct := table.distinct
  rw [addresses_cons, List.nodup_cons] at distinct
  refine table.edit (fun b outside _ => ?_) (chain_update table.chain.2 distinct.1 _) ?_
  · exact Function.update_of_ne (fun same => outside (by simp [same])) ..
  · exact (table.tracks.perm (@addresses_middle _ _ before after [] back a x)).free.2

/-- A block behind the first is taken out, and freed. -/
theorem ChainTable.cut_behind {f : Block → Block}
    (table : ChainTable link value h heads (before ++ (front ++ (a, x) :: back) :: after))
    (found : exit none front = some p) (links : ∀ block, link (f block) = entry back none)
    (values : ∀ block, value (f block) = value block) :
    ∃ k, modify h (some p) f = some k ∧ k a = h a ∧
      ChainTable link value (Function.update k a none) heads (before ++ (front ++ back) :: after) := by
  obtain ⟨block, -, modified, chain⟩ := chain_cut table.chain table.distinct found links values
  have distinct := table.distinct
  rw [addresses_append, addresses_cons, List.nodup_middle, List.nodup_cons, ← addresses_append] at distinct
  obtain ⟨front, y, rfl⟩ := exit_eq_some found
  have apart : a ≠ p := by
    rintro rfl
    simp at distinct
  refine ⟨_, modified, Function.update_of_ne apart .., ?_⟩
  refine table.edit_behind (fun b outside _ => ?_) (chain_update chain distinct.1 _) ?_ ?_
  · have notLast : b ≠ p := fun same => outside (by simp [same])
    have notCut : b ≠ a := fun same => outside (by simp [same])
    rw [Function.update_of_ne notCut, Function.update_of_ne notLast]
  · exact ((table.tracks.write (by simp) (f block)).perm addresses_middle).free.2
  · simp only [entry_append]
    cases front <;> rfl

end ChainTable

/-- The rule of a loop over a table: what holds before each round, and after the last. -/
theorem foldlM_range {σ : Type*} {f : σ → Nat → Option σ} (invariant : Nat → σ → Prop) {n : Nat}
    (round : ∀ i, i < n → ∀ s, invariant i s → ∃ t, f s i = some t ∧ invariant (i + 1) t) {s : σ}
    (initial : invariant 0 s) : ∃ t, (List.range n).foldlM f s = some t ∧ invariant n t := by
  induction n with
  | zero => exact ⟨s, rfl, initial⟩
  | succ n ih =>
    obtain ⟨t, looped, held⟩ := ih fun i inside => round i (Nat.lt_succ_of_lt inside)
    obtain ⟨u, last, kept⟩ := round n (Nat.lt_succ_self n) t held
    refine ⟨u, ?_, kept⟩
    rw [List.range_succ, List.foldlM_append, looped]
    simpa using last

end XMeterLogger.LinkedList
