import XMeterLogger.DataLogCodec
import XMeterLogger.Lib.Ownership

/-! `struct DataLog` block by block: where the decoder allocates the members of the struct,
and `cJSON_DeleteDataLog`, which frees them. On memory the decoder computes what it computes
on values. -/
namespace XMeterLogger.DataLogMemory

open XMeterLogger.Decimal XMeterLogger.CJson XMeterLogger.LinkedList XMeterLogger.DataLogCodec

/-- What a block holds. -/
inductive Block where
  | whole
  | number (f : Field) (value : f.ctype.Value)
  | text (bytes : Bytes)

/-- The pointers of the struct, none for NULL. -/
structure Pointers where
  number : Field → Option Nat
  datalog : Option Nat

def Pointers.zero : Pointers := ⟨fun _ => none, none⟩

def Pointers.put (p : Pointers) (f : Field) (pointer : Option Nat) : Pointers :=
  { p with number := Function.update p.number f pointer }

/-- What the allocations answer: of the struct, of a member, of the text. -/
structure Answers where
  whole : Option Nat
  number : Field → Option Nat
  text : Option Nat

def Answers.allocator (m : Answers) : Allocator :=
  ⟨m.whole.isSome, fun f => (m.number f).isSome, m.text.isSome⟩

/-- The answers are blocks not in use, each another one. -/
structure Answers.Fresh (m : Answers) (h : Heap Nat Block) : Prop where
  numbers : ∀ f a, m.number f = some a → h a = none ∧ (∀ g, m.number g = some a → g = f) ∧
    m.text ≠ some a ∧ m.whole ≠ some a
  text : ∀ a, m.text = some a → h a = none ∧ m.whole ≠ some a
  whole : ∀ a, m.whole = some a → h a = none

abbrev Struct := Heap Nat Block × Pointers

def placeNumber (m : Answers) (j : Json) (s : Struct) (b : DecoderBlock) : Except Fault Struct :=
  if hasObjectItem j (ascii b.tested) then
    match m.number b.target with
    | none => .ok (s.1, s.2.put b.target none)
    | some a =>
      if b.allocated.sizeof < b.target.ctype.sizeof then .error .overrun
      else match convert b.target.ctype (getNumberValue (getObjectItemCaseSensitive j (ascii b.fetched))) with
        | none => .error .badCast
        | some value => .ok (malloc s.1 a (.number b.target value), s.2.put b.target (some a))
  else .ok s

def placeText (m : Answers) (j : Json) (s : Struct) : Except Fault Struct :=
  if hasObjectItem j (ascii "datalog") then
    match getStringValue (getObjectItemCaseSensitive j (ascii "datalog")) with
    | none => .error .nullString
    | some text =>
      match m.text with
      | none => .ok (s.1, { s.2 with datalog := none })
      | some a => .ok (malloc s.1 a (.text text), { s.2 with datalog := some a })
  else .ok s

/-- `cJSON_GetDataLogValue` on memory, with the address of the struct. -/
def placeDataLog (m : Answers) (h : Heap Nat Block) :
    Option Json → Except Fault (Heap Nat Block × Option (Nat × Pointers))
  | none => .ok (h, none)
  | some j =>
    match m.whole with
    | none => .ok (h, none)
    | some x => do
      let s ← decoderBlocks.foldlM (placeNumber m j) (malloc h x .whole, .zero)
      let s ← placeText m j s
      return (s.1, some (x, s.2))

/-- One block of `cJSON_DeleteDataLog`. -/
structure DeleterBlock where
  tested : Field
  freed : Field
  deriving DecidableEq

def deleterBlocks : List DeleterBlock := [
  ⟨.status, .status⟩,
  ⟨.vPv1, .vPv1⟩,
  ⟨.vPv2, .vPv2⟩,
  ⟨.vPv3, .vPv3⟩,
  ⟨.vBat, .vBat⟩,
  ⟨.soc, .soc⟩,
  ⟨.soh, .soh⟩,
  ⟨.pPv, .pPv⟩,
  ⟨.pPv1, .pPv1⟩,
  ⟨.pPv2, .pPv2⟩,
  ⟨.pPv3, .pPv3⟩,
  ⟨.pCharge, .pCharge⟩,
  ⟨.pDischarge, .pDischarge⟩,
  ⟨.vAcR, .vAcR⟩,
  ⟨.vAcS, .vAcS⟩,
  ⟨.vAcT, .vAcT⟩,
  ⟨.fAc, .fAc⟩,
  ⟨.pInv, .pInv⟩,
  ⟨.pRec, .pRec⟩,
  ⟨.pf, .pf⟩,
  ⟨.vEpsR, .vEpsR⟩,
  ⟨.vEpsS, .vEpsS⟩,
  ⟨.vEpsT, .vEpsT⟩,
  ⟨.fEps, .fEps⟩,
  ⟨.pEps, .pEps⟩,
  ⟨.sEps, .sEps⟩,
  ⟨.pToGrid, .pToGrid⟩,
  ⟨.pToUser, .pToUser⟩,
  ⟨.ePvDay, .ePvDay⟩,
  ⟨.ePvDay1, .ePvDay1⟩,
  ⟨.ePvDay2, .ePvDay2⟩,
  ⟨.ePvDay3, .ePvDay3⟩,
  ⟨.eInvDay, .eInvDay⟩,
  ⟨.eRecDay, .eRecDay⟩,
  ⟨.eChgDay, .eChgDay⟩,
  ⟨.eDischgDay, .eDischgDay⟩,
  ⟨.eEpsDay, .eEpsDay⟩,
  ⟨.eToGridDay, .eToGridDay⟩,
  ⟨.eToUserDay, .eToUserDay⟩,
  ⟨.vBus1, .vBus1⟩,
  ⟨.vBus2, .vBus2⟩,
  ⟨.ePvAll, .ePvAll⟩,
  ⟨.ePvAll1, .ePvAll1⟩,
  ⟨.ePvAll2, .ePvAll2⟩,
  ⟨.ePvAll3, .ePvAll3⟩,
  ⟨.eInvAll, .eInvAll⟩,
  ⟨.eRecAll, .eRecAll⟩,
  ⟨.eChgAll, .eChgAll⟩,
  ⟨.eDischgAll, .eDischgAll⟩,
  ⟨.eEpsAll, .eEpsAll⟩,
  ⟨.eToGridAll, .eToGridAll⟩,
  ⟨.eToUserAll, .eToUserAll⟩,
  ⟨.tInner, .tInner⟩,
  ⟨.tRad1, .tRad1⟩,
  ⟨.tRad2, .tRad2⟩,
  ⟨.tBat, .tBat⟩,
  ⟨.runtime, .runtime⟩,
  ⟨.maxChgCurr, .maxChgCurr⟩,
  ⟨.maxDischgCurr, .maxDischgCurr⟩,
  ⟨.chargeVoltRef, .chargeVoltRef⟩,
  ⟨.dischgCutVolt, .dischgCutVolt⟩,
  ⟨.batStatus0, .batStatus0⟩,
  ⟨.batStatus1, .batStatus1⟩,
  ⟨.batStatus2, .batStatus2⟩,
  ⟨.batStatus3, .batStatus3⟩,
  ⟨.batStatus4, .batStatus4⟩,
  ⟨.batStatus5, .batStatus5⟩,
  ⟨.batStatus6, .batStatus6⟩,
  ⟨.batStatus7, .batStatus7⟩,
  ⟨.batStatus8, .batStatus8⟩,
  ⟨.batStatus9, .batStatus9⟩,
  ⟨.batStatusInv, .batStatusInv⟩,
  ⟨.batCount, .batCount⟩,
  ⟨.batCapacity, .batCapacity⟩,
  ⟨.batCurrent, .batCurrent⟩,
  ⟨.bmsEvent1, .bmsEvent1⟩,
  ⟨.bmsEvent2, .bmsEvent2⟩,
  ⟨.maxCellVoltage, .maxCellVoltage⟩,
  ⟨.minCellVoltage, .minCellVoltage⟩,
  ⟨.maxCellTemp, .maxCellTemp⟩,
  ⟨.minCellTemp, .minCellTemp⟩,
  ⟨.bmsFwUpdateState, .bmsFwUpdateState⟩,
  ⟨.cycleCount, .cycleCount⟩,
  ⟨.vbatInv, .vbatInv⟩,
  ⟨.time, .time⟩]

def deleteNumber (p : Pointers) (h : Heap Nat Block) (b : DeleterBlock) : Option (Heap Nat Block) :=
  match p.number b.tested with
  | none => some h
  | some _ => freeGuarded h (p.number b.freed)

def cJSONDeleteDataLog (h : Heap Nat Block) : Option (Nat × Pointers) → Option (Heap Nat Block)
  | none => some h
  | some (x, p) => do
    let h ← deleterBlocks.foldlM (deleteNumber p) h
    let h ← freeGuarded h p.datalog
    free h x

/-- The deleter has one block for each member of the struct. -/
theorem deleterBlocks_eq : deleterBlocks = Field.all.map fun f => ⟨f, f⟩ := rfl

/-- The pointers in the order of the struct. -/
def Pointers.members (p : Pointers) : List (Option Nat) := Field.all.map p.number ++ [p.datalog]

/-- The pointers that are not NULL point to the values. -/
structure PointsTo (h : Heap Nat Block) (p : Pointers) (x : DataLog) : Prop where
  number : ∀ f, (x.number f).map (Block.number f) = (p.number f).bind h
  text : x.datalog.map Block.text = p.datalog.bind h

/-- The heap is `base` with the struct and these members of it, at the answers given. -/
structure Placed (base : Heap Nat Block) (m : Answers) (x : Nat) (done : List Field) (s : Struct)
    (value : DataLog) : Prop where
  blocks : Extends base s.1 (s.2.members.reduceOption ++ [x])
  points : PointsTo s.1 s.2 value
  answers : ∀ f a, s.2.number f = some a → f ∈ done ∧ m.number f = some a
  noText : s.2.datalog = none

section Decoder

variable {base h : Heap Nat Block} {m : Answers} {j : Json} {x : Nat} {done : List Field} {s : Struct}
  {value next : DataLog} {f : Field}

theorem map_update {l : List Field} (distinct : l.Nodup) (member : f ∈ l) (g : Field → Option Nat)
    (a : Nat) (blank : g f = none) :
    ((l.map (Function.update g f (some a))).reduceOption).Perm (a :: (l.map g).reduceOption) := by
  obtain ⟨front, back, rfl⟩ := List.append_of_mem member
  rw [List.nodup_middle, List.nodup_cons, List.mem_append, not_or] at distinct
  have same : ∀ l : List Field, f ∉ l → l.map (Function.update g f (some a)) = l.map g := by
    intro l outside
    refine List.map_congr_left fun other inside => ?_
    have apart : other ≠ f := fun same => outside (same ▸ inside)
    exact Function.update_of_ne apart ..
  rw [List.map_append, List.map_cons, List.map_append, List.map_cons, same front distinct.1.1,
    same back distinct.1.2, Function.update_self, blank, List.reduceOption_append,
    List.reduceOption_append, List.reduceOption_cons_of_some, List.reduceOption_cons_of_none]
  exact List.perm_middle

/-- A member that was NULL gets a block. -/
theorem members_put {p : Pointers} (blank : p.number f = none) (a : Nat) :
    ((p.put f (some a)).members.reduceOption).Perm (a :: p.members.reduceOption) := by
  unfold Pointers.members Pointers.put
  rw [List.reduceOption_append, List.reduceOption_append]
  exact (map_update Field.all_nodup f.mem_all p.number a blank).append_right _

theorem Placed.blank (placed : Placed base m x done s value) (outside : f ∉ done) :
    s.2.number f = none := by
  by_contra held
  obtain ⟨a, found⟩ := Option.ne_none_iff_exists'.mp held
  exact outside (placed.answers f a found).1

theorem Placed.blankValue (placed : Placed base m x done s value) (outside : f ∉ done) :
    value.number f = none := by
  have shown := placed.points.number f
  rw [placed.blank outside] at shown
  exact Option.map_eq_none_iff.mp shown

theorem Placed.mono (placed : Placed base m x done s value) (f : Field) :
    Placed base m x (f :: done) s value :=
  ⟨placed.blocks, placed.points,
    fun g a found => ⟨List.mem_cons_of_mem _ (placed.answers g a found).1, (placed.answers g a found).2⟩,
    placed.noText⟩

theorem Placed.live (placed : Placed base m x done s value) {a : Nat} (found : s.2.number f = some a) :
    s.1 a ≠ none := by
  have member : some a ∈ s.2.members := by
    rw [Pointers.members, List.mem_append, ← found]
    exact .inl (List.mem_map_of_mem f.mem_all)
  exact (placed.blocks.added a (List.mem_append_left _ (List.reduceOption_mem_iff.mpr member))).2

/-- An answer not given yet is no block of the heap. -/
theorem Placed.unused (placed : Placed base m x done s value)
    (whole : m.whole = some x) {a : Nat} (free : base a = none) (other : m.whole ≠ some a)
    (new : ∀ g ∈ done, m.number g ≠ some a) : s.1 a = none := by
  rw [← free]
  refine placed.blocks.kept a fun inside => ?_
  rcases List.mem_append.mp inside with member | struct
  · have held := List.reduceOption_mem_iff.mp member
    rcases List.mem_append.mp held with number | text
    · obtain ⟨g, -, found⟩ := List.mem_map.mp number
      obtain ⟨given, answer⟩ := placed.answers g a found
      exact new g given answer
    · rw [placed.noText, List.mem_singleton] at text
      contradiction
  · rw [List.mem_singleton.mp struct] at other
    exact other whole

/-- On memory a block of the decoder does what it does on values. -/
theorem placeNumber_placed (placed : Placed base m x done s value) (fresh : m.Fresh base)
    (whole : m.whole = some x) (outside : f ∉ done)
    (decoded : decodeNumber m.allocator j value f.decoderBlock = .ok next) :
    ∃ t, placeNumber m j s f.decoderBlock = .ok t ∧ Placed base m x (f :: done) t next := by
  have blank := placed.blank outside
  rw [decodeNumber_field _ _ (placed.blankValue outside), fieldValue] at decoded
  simp only [placeNumber, Field.decoderBlock, Nat.lt_irrefl, if_false]
  by_cases there : hasObjectItem j (ascii f.name) = true
  · simp only [there, if_true, Answers.allocator] at decoded ⊢
    cases answer : m.number f with
    | none =>
      simp only [answer, Option.isSome_none, Bool.false_eq_true, if_false, Except.map, Except.ok.injEq] at decoded
      rw [put_blank (placed.blankValue outside)] at decoded
      subst decoded
      have same : s.2.put f none = s.2 := by
        rw [Pointers.put, ← blank, Function.update_eq_self]
      exact ⟨s, by rw [same], placed.mono f⟩
    | some a =>
      simp only [answer, Option.isSome_some, if_true] at decoded
      cases converted : convert f.ctype (getNumberValue (getObjectItemCaseSensitive j (ascii f.name))) with
      | none =>
        rw [converted] at decoded
        contradiction
      | some v =>
        rw [converted] at decoded
        obtain rfl := Except.ok.inj decoded
        obtain ⟨free, only, -, other⟩ := fresh.numbers f a answer
        have unused := placed.unused whole free other fun g given same => outside (only g same ▸ given)
        refine ⟨_, rfl, ?_, ⟨fun g => ?_, ?_⟩, fun g c found => ?_, placed.noText⟩
        · exact (placed.blocks.malloc unused _).perm ((members_put blank a).symm.append_right [x])
        · by_cases same : g = f
          · subst same
            simp [Pointers.put, malloc]
          · have kept : (s.2.number g).bind (malloc s.1 a (.number f v)) = (s.2.number g).bind s.1 := by
              refine Option.bind_congr fun c found => ?_
              have apart : c ≠ a := fun same => placed.live found (same ▸ unused)
              exact Function.update_of_ne apart ..
            rw [put_number_of_ne value (some v) same, placed.points.number g]
            simp only [Pointers.put, Function.update_of_ne same, kept]
        · have text := placed.points.text
          rw [placed.noText] at text
          simpa [Pointers.put, placed.noText] using text
        · by_cases same : g = f
          · subst same
            simp only [Pointers.put, Function.update_self] at found
            exact ⟨List.mem_cons_self, answer.trans found⟩
          · simp only [Pointers.put, Function.update_of_ne same] at found
            obtain ⟨given, answered⟩ := placed.answers g c found
            exact ⟨List.mem_cons_of_mem _ given, answered⟩
  · simp only [there, Bool.false_eq_true, if_false, Except.map, Except.ok.injEq] at decoded ⊢
    rw [put_blank (placed.blankValue outside)] at decoded
    exact ⟨s, rfl, decoded ▸ placed.mono f⟩

theorem placeNumbers_placed (fresh : m.Fresh base) (whole : m.whole = some x) (fields : List Field)
    (distinct : fields.Nodup) (outside : ∀ f ∈ fields, f ∉ done)
    (placed : Placed base m x done s value)
    (decoded : (fields.map Field.decoderBlock).foldlM (decodeNumber m.allocator j) value = .ok next) :
    ∃ t given, (fields.map Field.decoderBlock).foldlM (placeNumber m j) s = .ok t ∧
      Placed base m x given t next := by
  induction fields generalizing done s value with
  | nil =>
    obtain rfl := Except.ok.inj decoded
    exact ⟨s, done, rfl, placed⟩
  | cons f rest ih =>
    obtain ⟨notRest, distinct⟩ := List.nodup_cons.mp distinct
    obtain ⟨middle, first, later⟩ := bind_eq_ok_iff.mp decoded
    obtain ⟨t, here, onward⟩ := placeNumber_placed placed fresh whole (outside f List.mem_cons_self) first
    have still : ∀ g ∈ rest, g ∉ f :: done := by
      intro g member
      rw [List.mem_cons, not_or]
      exact ⟨fun same => notRest (same ▸ member), outside g (List.mem_cons_of_mem _ member)⟩
    obtain ⟨u, given, looped, ended⟩ := ih distinct still onward later
    exact ⟨u, given, bind_eq_ok_iff.mpr ⟨t, here, looped⟩, ended⟩

/-- The text of the struct is placed last. -/
theorem placeText_placed (placed : Placed base m x done s value) (fresh : m.Fresh base)
    (whole : m.whole = some x)
    (decoded : decodeText m.allocator j value = .ok next) :
    ∃ t, placeText m j s = .ok t ∧ Extends base t.1 (t.2.members.reduceOption ++ [x]) ∧
      PointsTo t.1 t.2 next := by
  unfold decodeText at decoded
  unfold placeText
  by_cases there : hasObjectItem j (ascii "datalog") = true
  · rw [if_pos there] at decoded ⊢
    cases text : getStringValue (getObjectItemCaseSensitive j (ascii "datalog")) with
    | none =>
      rw [text] at decoded
      contradiction
    | some bytes =>
      rw [text] at decoded
      obtain rfl := Except.ok.inj decoded
      cases answer : m.text with
      | none =>
        have same : { s.2 with datalog := none } = s.2 := by rw [← placed.noText]
        refine ⟨_, rfl, ?_, ?_⟩
        · rw [same]
          exact placed.blocks
        · exact ⟨placed.points.number, by simp [Answers.allocator, answer]⟩
      | some a =>
        obtain ⟨free, other⟩ := fresh.text a answer
        have unused := placed.unused whole free other fun g _ same =>
          (fresh.numbers g a same).2.2.1 answer
        refine ⟨_, rfl, ?_, fun g => ?_, ?_⟩
        · refine (placed.blocks.malloc unused _).perm ?_
          simp only [Pointers.members, placed.noText, List.reduceOption_append,
            List.reduceOption_singleton, Option.toList_none, Option.toList_some, List.append_nil,
            List.append_assoc, List.singleton_append]
          exact List.perm_middle.symm
        · have kept : (s.2.number g).bind (malloc s.1 a (.text bytes)) = (s.2.number g).bind s.1 := by
            refine Option.bind_congr fun c found => ?_
            have apart : c ≠ a := fun same => placed.live found (same ▸ unused)
            exact Function.update_of_ne apart ..
          rw [placed.points.number g, kept]
        · simp [Answers.allocator, answer, malloc]
  · rw [if_neg there] at decoded ⊢
    obtain rfl := Except.ok.inj decoded
    exact ⟨s, rfl, placed.blocks, placed.points⟩

end Decoder

/-- The deleter frees the members by their pointers and then the struct. -/
theorem cJSONDeleteDataLog_frees {base h : Heap Nat Block} {p : Pointers} {x : Nat}
    (blocks : Extends base h (p.members.reduceOption ++ [x])) :
    cJSONDeleteDataLog h (some (x, p)) = some base := by
  have each : deleterBlocks.foldlM (deleteNumber p) h = (Field.all.map p.number).foldlM freeGuarded h := by
    rw [deleterBlocks_eq, List.foldlM_map, List.foldlM_map]
    congr 1
    funext k f
    unfold deleteNumber
    cases p.number f <;> rfl
  obtain ⟨k, freed, struct⟩ := blocks.freeAll
  rw [Pointers.members, List.foldlM_append, ← each] at freed
  obtain ⟨numbers, first, text⟩ := Option.bind_eq_some_iff.mp freed
  rw [List.foldlM_cons] at text
  obtain ⟨last, freedText, same⟩ := Option.bind_eq_some_iff.mp text
  obtain rfl := Option.some.inj same
  simp only [cJSONDeleteDataLog, first, freedText, Option.bind_eq_bind, Option.bind_some]
  rw [struct.free.1, struct.free.2.eq]

/-- The struct on the heap, if there is one, is the one decoded. -/
def Mirrors (h : Heap Nat Block) : Option (Nat × Pointers) → Option DataLog → Prop
  | none, none => True
  | some (_, p), some x => PointsTo h p x
  | _, _ => False

/-- Whatever is decoded and whichever allocations fail, the struct in memory holds what the
decoder computes, and deleting it gives all its memory back, no block twice. -/
theorem decoded_datalog_deleted {m : Answers} {h : Heap Nat Block} (fresh : m.Fresh h) {j : Option Json}
    {value : Option DataLog} (decoded : cJSONGetDataLogValue m.allocator j = .ok value) :
    ∃ k struct, placeDataLog m h j = .ok (k, struct) ∧ Mirrors k struct value ∧
      cJSONDeleteDataLog k struct = some h := by
  cases j with
  | none =>
    obtain rfl := Except.ok.inj decoded
    exact ⟨h, none, rfl, trivial, rfl⟩
  | some j =>
    cases whole : m.whole with
    | none =>
      simp only [cJSONGetDataLogValue, Answers.allocator, whole] at decoded
      obtain rfl := Except.ok.inj decoded
      exact ⟨h, none, by simp [placeDataLog, whole], trivial, rfl⟩
    | some x =>
      simp only [cJSONGetDataLogValue, Answers.allocator, whole, Option.isSome_some, if_true] at decoded
      obtain ⟨numbers, first, later⟩ := bind_eq_ok_iff.mp decoded
      obtain ⟨text, second, same⟩ := bind_eq_ok_iff.mp later
      obtain rfl := Except.ok.inj same
      have nothing : Pointers.zero.members.reduceOption = [] := by
        simp [Pointers.members, Pointers.zero, List.reduceOption_append]
      have start : Placed h m x [] (malloc h x .whole, .zero) .zero := by
        refine ⟨?_, ⟨fun f => rfl, rfl⟩, by simp [Pointers.zero], rfl⟩
        rw [nothing]
        exact (extends_refl h).malloc (fresh.whole x whole) .whole
      rw [decoderBlocks_eq] at first
      obtain ⟨s, given, placedAll, placed⟩ :=
        placeNumbers_placed fresh whole Field.all Field.all_nodup (by simp) start first
      obtain ⟨t, placedText, blocks, points⟩ := placeText_placed placed fresh whole second
      refine ⟨t.1, some (x, t.2), ?_, points, cJSONDeleteDataLog_frees blocks⟩
      rw [← decoderBlocks_eq] at placedAll
      simp only [placeDataLog, whole]
      exact bind_eq_ok_iff.mpr ⟨s, placedAll, bind_eq_ok_iff.mpr ⟨t, placedText, rfl⟩⟩

/-- Blocks for the struct, a number and the text, and no memory for the other numbers. -/
def sparseAnswers : Answers := ⟨some 1, fun f => if f = .status then some 2 else none, some 3⟩

def sparseMembers : List (Bytes × Json) :=
  [(ascii "status", .number 0), (ascii "soc", .number 0), (ascii "datalog", .string (ascii "ok"))]

theorem decoded_datalog_deleted_sparse :
    ∃ value k struct, cJSONGetDataLogValue sparseAnswers.allocator (some (.object sparseMembers)) = .ok value ∧
      placeDataLog sparseAnswers (fun _ => none) (some (.object sparseMembers)) = .ok (k, struct) ∧
      Mirrors k struct value ∧ cJSONDeleteDataLog k struct = some fun _ => none := by
  have fresh : sparseAnswers.Fresh fun _ => none := by
    refine ⟨fun f a given => ?_, fun a given => ?_, fun _ _ => rfl⟩
    · by_cases status : f = .status
      · subst status
        obtain rfl := Option.some.inj given
        exact ⟨rfl, fun g same => by simpa [sparseAnswers] using same, by simp [sparseAnswers]⟩
      · simp [sparseAnswers, status] at given
    · obtain rfl := Option.some.inj given
      exact ⟨rfl, by simp [sparseAnswers]⟩
  obtain ⟨value, decoded⟩ : ∃ value,
      cJSONGetDataLogValue sparseAnswers.allocator (some (.object sparseMembers)) = .ok value := ⟨_, rfl⟩
  obtain ⟨k, struct, placed, mirrors, deleted⟩ := decoded_datalog_deleted fresh decoded
  exact ⟨value, k, struct, decoded, placed, mirrors, deleted⟩

end XMeterLogger.DataLogMemory
