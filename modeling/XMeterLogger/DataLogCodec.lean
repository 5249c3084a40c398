import XMeterLogger.DataLog

/-! What the DataLog decoder and encoder compute as a whole: each member's pointer
depends on that member's name alone, so the blocks can be read in any order. -/
namespace XMeterLogger.DataLogCodec

open XMeterLogger.Decimal XMeterLogger.CJson XMeterLogger.FloatInteger

/-- What the block of a member leaves in its pointer. -/
def fieldValue (alloc : Allocator) (j : Json) (f : Field) : Except Fault (Option f.ctype.Value) :=
  if hasObjectItem j (ascii f.name) then
    if alloc.number f then
      match convert f.ctype (getNumberValue (getObjectItemCaseSensitive j (ascii f.name))) with
      | none => .error .badCast
      | some value => .ok (some value)
    else .ok none
  else .ok none

def textValue (alloc : Allocator) (j : Json) : Except Fault (Option Bytes) :=
  if hasObjectItem j (ascii "datalog") then
    match getStringValue (getObjectItemCaseSensitive j (ascii "datalog")) with
    | none => .error .nullString
    | some text => .ok (if alloc.text then some text else none)
  else .ok none

@[simp] theorem put_number_same (x : DataLog) (f : Field) (pointer : Option f.ctype.Value) :
    (x.put f pointer).number f = pointer := by
  simp [DataLog.put]

theorem put_number_of_ne (x : DataLog) {f g : Field} (pointer : Option f.ctype.Value) (apart : g ≠ f) :
    (x.put f pointer).number g = x.number g := by
  simp [DataLog.put, apart]

@[simp] theorem put_datalog (x : DataLog) (f : Field) (pointer : Option f.ctype.Value) :
    (x.put f pointer).datalog = x.datalog := rfl

theorem put_blank {x : DataLog} {f : Field} (blank : x.number f = none) : x.put f none = x := by
  rw [DataLog.put, ← blank, Function.update_eq_self]

/-- A block of the decoder writes its own member and nothing else. -/
theorem decodeNumber_field (alloc : Allocator) (j : Json) {x : DataLog} {f : Field}
    (blank : x.number f = none) :
    decodeNumber alloc j x f.decoderBlock = (fieldValue alloc j f).map (x.put f) := by
  simp only [decodeNumber, fieldValue, Field.decoderBlock, lt_irrefl, if_false]
  split
  · split
    · cases convert f.ctype (getNumberValue (getObjectItemCaseSensitive j (ascii f.name))) <;> rfl
    · rfl
  · simp only [Except.map, put_blank blank]

/-- `y` is `x` with the pointers of these members filled in. -/
structure FillsIn (alloc : Allocator) (j : Json) (fields : List Field) (x y : DataLog) : Prop where
  written : ∀ f ∈ fields, fieldValue alloc j f = .ok (y.number f)
  kept : ∀ f, f ∉ fields → y.number f = x.number f
  text : y.datalog = x.datalog

theorem fillsIn_nil (alloc : Allocator) (j : Json) (x y : DataLog) : FillsIn alloc j [] x y ↔ x = y := by
  constructor
  · rintro ⟨-, kept, text⟩
    cases x
    cases y
    simp only [DataLog.mk.injEq]
    exact ⟨(funext fun f => kept f List.not_mem_nil).symm, text.symm⟩
  · rintro rfl
    exact ⟨by simp, fun _ _ => rfl, rfl⟩

theorem fillsIn_cons {alloc : Allocator} {j : Json} {g : Field} {rest : List Field}
    {pointer : Option g.ctype.Value} (fresh : g ∉ rest) (value : fieldValue alloc j g = .ok pointer)
    (x y : DataLog) : FillsIn alloc j (g :: rest) x y ↔ FillsIn alloc j rest (x.put g pointer) y := by
  constructor
  · rintro ⟨written, kept, text⟩
    refine ⟨fun f inside => written f (List.mem_cons_of_mem g inside), fun f outside => ?_, text⟩
    by_cases same : f = g
    · subst same
      have own := written f List.mem_cons_self
      rw [value] at own
      rw [put_number_same]
      exact (Except.ok.inj own).symm
    · rw [put_number_of_ne x pointer same]
      exact kept f (by simp [same, outside])
  · rintro ⟨written, kept, text⟩
    refine ⟨fun f inside => ?_, fun f outside => ?_, text⟩
    · rcases List.mem_cons.mp inside with rfl | inside
      · rw [value, kept f fresh, put_number_same]
      · exact written f inside
    · rw [List.mem_cons, not_or] at outside
      rw [kept f outside.2, put_number_of_ne x pointer outside.1]

/-- The blocks of distinct members that are still blank fill in exactly those members. -/
theorem decodeNumbers_ok_iff (alloc : Allocator) (j : Json) (y : DataLog) (fields : List Field) :
    ∀ x : DataLog, fields.Nodup → (∀ f ∈ fields, x.number f = none) →
      ((fields.map Field.decoderBlock).foldlM (decodeNumber alloc j) x = .ok y ↔
        FillsIn alloc j fields x y) := by
  induction fields with
  | nil =>
    intro x _ _
    exact (iff_of_eq (Except.ok.injEq x y)).trans (fillsIn_nil alloc j x y).symm
  | cons g rest ih =>
    intro x distinct blank
    obtain ⟨fresh, distinct⟩ := List.nodup_cons.mp distinct
    simp only [List.map_cons, List.foldlM_cons, decodeNumber_field alloc j (blank g List.mem_cons_self)]
    cases value : fieldValue alloc j g with
    | error fault =>
      constructor
      · intro done
        contradiction
      · intro filled
        have own := filled.written g List.mem_cons_self
        rw [value] at own
        contradiction
    | ok pointer =>
      have still : ∀ f ∈ rest, (x.put g pointer).number f = none := by
        intro f inside
        have apart : f ≠ g := by
          rintro rfl
          exact fresh inside
        rw [put_number_of_ne x pointer apart]
        exact blank f (List.mem_cons_of_mem g inside)
      exact (ih (x.put g pointer) distinct still).trans (fillsIn_cons fresh value x y).symm

theorem decodeText_ok_iff (alloc : Allocator) (j : Json) (x y : DataLog) (blank : x.datalog = none) :
    decodeText alloc j x = .ok y ↔ y.number = x.number ∧ textValue alloc j = .ok y.datalog := by
  cases x with
  | mk numbers text =>
  cases y with
  | mk shown shownText =>
    simp only at blank
    subst blank
    unfold decodeText textValue
    split
    · cases getStringValue (getObjectItemCaseSensitive j (ascii "datalog")) with
      | none => simp
      | some text =>
        simp only [Except.ok.injEq, DataLog.mk.injEq]
        rw [@eq_comm _ numbers]
    · simp only [Except.ok.injEq, DataLog.mk.injEq]
      rw [@eq_comm _ numbers]

theorem bind_eq_ok_iff {ε α β : Type} {first : Except ε α} {next : α → Except ε β} {result : β} :
    first >>= next = .ok result ↔ ∃ value, first = .ok value ∧ next value = .ok result := by
  cases first with
  | error fault => simp [bind, Except.bind]
  | ok value => simp [bind, Except.bind]

/-- The decoder returns a struct exactly if every member's own block does. -/
theorem getDataLogValue_ok_iff (alloc : Allocator) (j : Json) (y : DataLog) :
    cJSONGetDataLogValue alloc (some j) = .ok (some y) ↔
      alloc.whole = true ∧ (∀ f, fieldValue alloc j f = .ok (y.number f)) ∧
        textValue alloc j = .ok y.datalog := by
  have filled := fun z => decodeNumbers_ok_iff alloc j z Field.all .zero Field.all_nodup (fun _ _ => rfl)
  cases whole : alloc.whole with
  | false => simp [cJSONGetDataLogValue, whole]
  | true =>
    simp only [cJSONGetDataLogValue, whole, if_true, decoderBlocks_eq, bind_eq_ok_iff, filled, true_and]
    constructor
    · rintro ⟨z, ⟨written, -, blank⟩, w, labelled, done⟩
      obtain rfl := Option.some.inj (Except.ok.inj done)
      obtain ⟨kept, text⟩ := (decodeText_ok_iff alloc j z w blank).mp labelled
      refine ⟨fun f => ?_, text⟩
      rw [kept]
      exact written f f.mem_all
    · rintro ⟨written, text⟩
      have numbers : FillsIn alloc j Field.all .zero { y with datalog := none } :=
        ⟨fun f _ => written f, fun f outside => absurd f.mem_all outside, rfl⟩
      refine ⟨{ y with datalog := none }, numbers, y, ?_, rfl⟩
      exact (decodeText_ok_iff alloc j _ y rfl).mpr ⟨rfl, text⟩

/-- A member of this type holds a JSON number, truncated toward zero for `int64_t`. -/
def Carries : (t : CType) → CDouble → t.Value → Prop
  | .int64, v, n => ∃ q, doubleValue v = some q ∧ n.toInt = truncate q
  | .double, v, w => w = v

/-- The number can be assigned to a member of this type. -/
def Fits : CType → CDouble → Prop
  | .int64, v => ∃ q, doubleValue v = some q ∧ -2 ^ 63 ≤ truncate q ∧ truncate q < 2 ^ 63
  | .double, _ => True

theorem convert_eq_some_iff (t : CType) (v : CDouble) (value : t.Value) :
    convert t v = some value ↔ Carries t v value := by
  cases t with
  | double => exact Option.some_inj.trans eq_comm
  | int64 =>
    constructor
    · exact toInt64_eq_some
    · rintro ⟨q, exact, truncated⟩
      have inRange : -2 ^ 63 ≤ truncate q ∧ truncate q < 2 ^ 63 := by
        rw [← truncated]
        exact ⟨Int64.le_toInt value, Int64.toInt_lt value⟩
      rw [convert, toInt64_of_range exact inRange, ← truncated, Int64.ofInt_toInt]

theorem Fits.converts {t : CType} {v : CDouble} (fits : Fits t v) : ∃ value, convert t v = some value := by
  cases t with
  | double => exact ⟨v, rfl⟩
  | int64 =>
    obtain ⟨q, exact, inRange⟩ := fits
    exact ⟨Int64.ofInt (truncate q), toInt64_of_range exact inRange⟩

/-- A finite number in the range of `int64_t` can be assigned to either type. -/
theorem fits_of_range {v : CDouble} {q : ℚ} (exact : doubleValue v = some q) (low : -2 ^ 63 ≤ q)
    (high : q < 2 ^ 63) (t : CType) : Fits t v := by
  cases t with
  | double => trivial
  | int64 =>
    refine ⟨q, exact, ?_, ?_⟩
    · exact le_truncate (by exact_mod_cast low)
    · exact truncate_lt (by norm_num) (by exact_mod_cast high)

/-- Reading a value back from the number printed for it. -/
theorem convert_toDouble {t : CType} {v : CDouble} {value : t.Value} (converted : convert t v = some value) :
    convert t (toDouble t value) = some value := by
  cases t with
  | double => rfl
  | int64 => exact toInt64_ofInt64 converted

/-- What a member should show of a JSON value: the number of the first item of exactly
its name. -/
def presentNumber (j : Json) (f : Field) : Option f.ctype.Value :=
  match getObjectItemCaseSensitive j (ascii f.name) with
  | some (.number v) => convert f.ctype v
  | _ => none

def presentText (j : Json) : Option Bytes := getStringValue (getObjectItemCaseSensitive j (ascii "datalog"))

/-- Every number fits the member it is named for. -/
def NumbersFit (j : Json) : Prop :=
  ∀ (f : Field) v, getObjectItemCaseSensitive j (ascii f.name) = some (.number v) → Fits f.ctype v

theorem presentNumber_of_not {j : Json} {f : Field}
    (other : isNumber (getObjectItemCaseSensitive j (ascii f.name)) = false) : presentNumber j f = none := by
  unfold presentNumber
  split
  next v found =>
    rw [found] at other
    contradiction
  · rfl

/-- A block shows the right number exactly if, where the name test succeeds, the item
fetched is a number just when there is room for it. -/
theorem fieldValue_present_iff {alloc : Allocator} {j : Json} (fit : NumbersFit j) (f : Field) :
    fieldValue alloc j f = .ok (presentNumber j f) ↔
      (hasObjectItem j (ascii f.name) = true →
        isNumber (getObjectItemCaseSensitive j (ascii f.name)) = alloc.number f) := by
  unfold fieldValue
  split
  next tested =>
    simp only [tested, forall_const]
    cases number : isNumber (getObjectItemCaseSensitive j (ascii f.name)) with
    | true =>
      obtain ⟨v, found⟩ := isNumber_eq_true number
      obtain ⟨value, converted⟩ := (fit f v found).converts
      have shown : presentNumber j f = some value := by
        rw [presentNumber, found]
        exact converted
      rw [found, shown, getNumberValue, converted]
      cases alloc.number f <;> simp
    | false =>
      rw [presentNumber_of_not number, getNumberValue_of_not number]
      cases alloc.number f with
      | false => simp
      | true =>
        -- NaN is a fault for an integer and a spurious value for a double
        cases convert f.ctype nan <;> simp
  next untested =>
    have absent : isNumber (getObjectItemCaseSensitive j (ascii f.name)) = false := by
      rw [← Bool.not_eq_true]
      intro number
      obtain ⟨v, found⟩ := isNumber_eq_true number
      exact untested (hasObjectItem_of_exact found)
    simp [presentNumber_of_not absent, untested]

theorem textValue_present_iff (alloc : Allocator) (j : Json) :
    textValue alloc j = .ok (presentText j) ↔
      (hasObjectItem j (ascii "datalog") = true →
        isString (getObjectItemCaseSensitive j (ascii "datalog")) = true ∧ alloc.text = true) := by
  unfold textValue presentText
  split
  next tested =>
    simp only [tested, forall_const]
    cases string : isString (getObjectItemCaseSensitive j (ascii "datalog")) with
    | true =>
      obtain ⟨text, found⟩ := isString_eq_true string
      rw [found]
      cases alloc.text <;> simp [getStringValue]
    | false => simp [getStringValue_of_not string]
  next untested =>
    have absent : isString (getObjectItemCaseSensitive j (ascii "datalog")) = false := by
      rw [← Bool.not_eq_true]
      intro string
      obtain ⟨text, found⟩ := isString_eq_true string
      exact untested (hasObjectItem_of_exact found)
    simp [getStringValue_of_not absent, untested]

/-- The pointer of a member against the first item of exactly its name. -/
def Shows (j : Json) (f : Field) (pointer : Option f.ctype.Value) : Prop :=
  match getObjectItemCaseSensitive j (ascii f.name) with
  | some (.number v) => ∃ value, pointer = some value ∧ Carries f.ctype v value
  | _ => pointer = none

/-- The decoder completes and shows every member of the struct as the JSON value has it. -/
def Faithful (alloc : Allocator) (j : Json) : Prop :=
  ∃ x, cJSONGetDataLogValue alloc (some j) = .ok (some x) ∧
    (∀ f, Shows j f (x.number f)) ∧ x.datalog = presentText j

theorem shows_iff {j : Json} (fit : NumbersFit j) (f : Field) (pointer : Option f.ctype.Value) :
    Shows j f pointer ↔ pointer = presentNumber j f := by
  unfold Shows presentNumber
  split
  next v found =>
    obtain ⟨value, converted⟩ := (fit f v found).converts
    rw [converted]
    constructor
    · rintro ⟨shown, rfl, carried⟩
      rw [← convert_eq_some_iff, converted] at carried
      exact carried.symm
    · rintro rfl
      exact ⟨value, rfl, (convert_eq_some_iff _ _ _).mp converted⟩
  · rfl

/-- The decoder is faithful exactly when every name it tests for leads the fetch to an
item of the right type, just where there is room for it. -/
theorem decoding_faithful_iff {alloc : Allocator} {j : Json} (fit : NumbersFit j) :
    Faithful alloc j ↔
      alloc.whole = true ∧
      (∀ f : Field, hasObjectItem j (ascii f.name) = true →
        isNumber (getObjectItemCaseSensitive j (ascii f.name)) = alloc.number f) ∧
      (hasObjectItem j (ascii "datalog") = true →
        isString (getObjectItemCaseSensitive j (ascii "datalog")) = true ∧ alloc.text = true) := by
  simp only [← fieldValue_present_iff fit, ← textValue_present_iff]
  constructor
  · rintro ⟨x, decoded, numbers, text⟩
    obtain ⟨whole, fields, label⟩ := (getDataLogValue_ok_iff alloc j x).mp decoded
    refine ⟨whole, fun f => ?_, text ▸ label⟩
    rw [← (shows_iff fit f _).mp (numbers f)]
    exact fields f
  · rintro ⟨whole, fields, label⟩
    refine ⟨⟨presentNumber j, presentText j⟩, ?_, fun f => ?_, rfl⟩
    · exact (getDataLogValue_ok_iff alloc j _).mpr ⟨whole, fields, label⟩
    · exact (shows_iff fit f _).mpr rfl

/-- 42.5 -/
def sampleReading : CDouble := 0x4045400000000000

/-- `{"status": 42.5, "v_pv_1": 42.5, "datalog": "ok"}` -/
def plainMembers : List (Bytes × Json) := [(ascii "status", .number sampleReading),
  (ascii "v_pv_1", .number sampleReading), (ascii "datalog", .string (ascii "ok"))]

/-- `{"STATUS": 42.5}` -/
def miscasedMembers : List (Bytes × Json) := [(ascii "STATUS", .number sampleReading)]

theorem sampleReading_value : doubleValue sampleReading = some (85 / 2) := by
  decide +kernel

theorem numbersFit_of_sample {members : List (Bytes × Json)}
    (sampled : ∀ name v, (name, .number v) ∈ members → v = sampleReading) : NumbersFit (.object members) := by
  intro f v found
  rw [sampled _ v (mem_of_exact found)]
  exact fits_of_range sampleReading_value (by norm_num) (by norm_num) f.ctype

theorem plainMembers_sample (name : Bytes) (v : CDouble) (inside : (name, .number v) ∈ plainMembers) :
    v = sampleReading := by
  simp only [plainMembers, List.mem_cons, Prod.mk.injEq, Json.number.injEq, reduceCtorEq, and_false,
    List.not_mem_nil, or_false] at inside
  rcases inside with ⟨_, same⟩ | ⟨_, same⟩
  · exact same
  · exact same

theorem plainMembers_fit : NumbersFit (.object plainMembers) := numbersFit_of_sample plainMembers_sample

theorem decoding_faithful_plain : Faithful .succeeds (.object plainMembers) := by
  refine (decoding_faithful_iff plainMembers_fit).mpr ⟨rfl, fun f => ?_, by decide⟩
  have all : ∀ f ∈ Field.all, hasObjectItem (.object plainMembers) (ascii f.name) = true →
      isNumber (getObjectItemCaseSensitive (.object plainMembers) (ascii f.name)) = true := by
    decide +kernel
  exact all f f.mem_all

/-- The name test accepts `STATUS`, the fetch does not, and NaN goes to an integer. -/
theorem miscased_status_faults :
    NumbersFit (.object miscasedMembers) ∧ ¬ Faithful .succeeds (.object miscasedMembers) := by
  constructor
  · refine numbersFit_of_sample fun name v inside => ?_
    simp only [miscasedMembers, List.mem_cons, Prod.mk.injEq, Json.number.injEq, List.not_mem_nil,
      or_false] at inside
    exact inside.2
  · rintro ⟨x, decoded, _⟩
    obtain ⟨_, fields, _⟩ := (getDataLogValue_ok_iff _ _ x).mp decoded
    have tested : hasObjectItem (.object miscasedMembers) (ascii Field.status.name) = true := by decide
    have missing : getNumberValue (getObjectItemCaseSensitive (.object miscasedMembers)
        (ascii Field.status.name)) = nan := rfl
    have undefined : convert Field.status.ctype nan = none := toInt64_nan
    have faulted := fields .status
    rw [fieldValue, if_pos tested, if_pos (Allocator.succeeds_number _), missing, undefined] at faulted
    contradiction

/-- What the block of a member adds to the object. -/
def entry (alloc : Allocator) (x : DataLog) (f : Field) : Option (Bytes × Json) :=
  if alloc.number f then
    (x.number f).map fun value => (ascii f.name, .number (toDouble f.ctype value))
  else none

def encoded (alloc : Allocator) (x : DataLog) : List (Bytes × Json) := Field.all.filterMap (entry alloc x)

theorem encodeNumbers_eq (alloc : Allocator) (x : DataLog) (fields : List Field) :
    ∀ members, (fields.map Field.encoderBlock).foldlM (encodeNumber alloc x) members =
      .ok (members ++ fields.filterMap (entry alloc x)) := by
  induction fields with
  | nil =>
    intro members
    simp only [List.map_nil, List.foldlM_nil, List.filterMap_nil, List.append_nil]
    rfl
  | cons f rest ih =>
    intro members
    simp only [List.map_cons, List.foldlM_cons, Field.encoderBlock, encodeNumber]
    cases pointer : x.number f with
    | none =>
      have nothing : entry alloc x f = none := by simp [entry, pointer]
      rw [List.filterMap_cons_none nothing]
      exact ih members
    | some value =>
      cases room : alloc.number f with
      | false =>
        have nothing : entry alloc x f = none := by simp [entry, room]
        rw [List.filterMap_cons_none nothing]
        exact ih members
      | true =>
        have added : entry alloc x f = some (ascii f.name, .number (toDouble f.ctype value)) := by
          simp [entry, room, pointer]
        rw [List.filterMap_cons_some added, List.append_cons]
        exact ih _

/-- The encoder never follows a null pointer: each block prints the member it tests. -/
theorem createDataLog_eq (alloc : Allocator) (x : DataLog) :
    cJSONCreateDataLog alloc (some x) =
      .ok (if alloc.whole then some (.object (encoded alloc x)) else none) := by
  cases whole : alloc.whole with
  | false => simp [cJSONCreateDataLog, whole]
  | true =>
    simp only [cJSONCreateDataLog, whole, if_true, encoderBlocks_eq, encodeNumbers_eq]
    rfl

theorem mem_encoded {x : DataLog} {name : Bytes} {item : Json} :
    (name, item) ∈ encoded .succeeds x ↔
      ∃ (f : Field) (value : f.ctype.Value), x.number f = some value ∧
        name = ascii f.name ∧ item = .number (toDouble f.ctype value) := by
  simp only [encoded, List.mem_filterMap, entry, Allocator.succeeds_number, if_true, Option.map_eq_some_iff,
    Prod.mk.injEq]
  constructor
  · rintro ⟨f, _, value, pointer, rfl, rfl⟩
    exact ⟨f, value, pointer, rfl, rfl⟩
  · rintro ⟨f, value, pointer, rfl, rfl⟩
    exact ⟨f, f.mem_all, value, pointer, rfl, rfl⟩

theorem Field.name_inj {f g : Field} (same : ascii f.name = ascii g.name) : f = g :=
  Field.eq_of_lowered (congrArg lowered same)

theorem encoded_names_nodup (x : DataLog) : ((encoded .succeeds x).map Prod.fst).Nodup := by
  rw [encoded, List.map_filterMap]
  apply List.Nodup.filterMap _ Field.all_nodup
  intro f g name first second
  simp only [entry, Allocator.succeeds_number, if_true, Option.map_map, Option.mem_def,
    Option.map_eq_some_iff, Function.comp_apply] at first second
  obtain ⟨_, _, named⟩ := first
  obtain ⟨_, _, renamed⟩ := second
  exact Field.name_inj (named.trans renamed.symm)

/-- Looking a member up in the printed object finds what its own block printed. -/
theorem exact_encoded (x : DataLog) (f : Field) :
    getObjectItemCaseSensitive (.object (encoded .succeeds x)) (ascii f.name) =
      (x.number f).map fun value => .number (toDouble f.ctype value) := by
  cases pointer : x.number f with
  | some value =>
    have once := List.nodup_iff_count_le_one.mp (encoded_names_nodup x) (ascii f.name)
    exact exact_of_count once (mem_encoded.mpr ⟨f, value, pointer, rfl, rfl⟩)
  | none =>
    rw [Option.map_none, Option.eq_none_iff_forall_ne_some]
    intro item found
    obtain ⟨g, value, present, named, _⟩ := mem_encoded.mp (mem_of_exact found)
    obtain rfl := Field.name_inj named
    rw [pointer] at present
    contradiction

/-- The printed object names only members of the struct, and only those that are present. -/
theorem hasObjectItem_encoded {x : DataLog} {name : Bytes}
    (found : hasObjectItem (.object (encoded .succeeds x)) name = true) :
    ∃ f : Field, lowered (ascii f.name) = lowered name ∧ (x.number f).isSome = true := by
  rw [hasObjectItem, List.any_eq_true] at found
  obtain ⟨⟨spelling, item⟩, inside, same⟩ := found
  obtain ⟨f, value, pointer, rfl, _⟩ := mem_encoded.mp inside
  refine ⟨f, eq_of_beq same, ?_⟩
  rw [pointer, Option.isSome_some]

/-- Every integer in the struct can be printed as a `double` without loss. -/
def Printable (x : DataLog) : Prop :=
  ∀ (f : Field) value, x.number f = some value → convert f.ctype (toDouble f.ctype value) = some value

/-- Decoding inverts encoding, the text aside. -/
theorem decode_encoded {x : DataLog} (printable : Printable x) :
    cJSONGetDataLogValue .succeeds (some (.object (encoded .succeeds x))) =
      .ok (some { x with datalog := none }) := by
  refine (getDataLogValue_ok_iff _ _ _).mpr ⟨rfl, fun f => ?_, ?_⟩
  · cases pointer : x.number f with
    | some value =>
      have looked := exact_encoded x f
      rw [pointer, Option.map_some] at looked
      simp only [fieldValue, hasObjectItem_of_exact looked, Allocator.succeeds_number, if_true, looked,
        getNumberValue, printable f value pointer]
    | none =>
      have untested : ¬ hasObjectItem (.object (encoded .succeeds x)) (ascii f.name) = true := by
        intro found
        obtain ⟨g, same, present⟩ := hasObjectItem_encoded found
        obtain rfl := Field.eq_of_lowered same
        rw [pointer] at present
        contradiction
      rw [fieldValue, if_neg untested]
  · have untested : ¬ hasObjectItem (.object (encoded .succeeds x)) (ascii "datalog") = true := by
      intro found
      obtain ⟨g, same, _⟩ := hasObjectItem_encoded found
      exact g.lowered_ne_datalog same
    rw [textValue, if_neg untested]

/-- Every member with the name of a member of the struct, case ignored, is spelled exactly
so, occurs once and holds a finite number in the range of `int64_t`; the text member is
spelled exactly so and holds a string. -/
structure Regular (members : List (Bytes × Json)) : Prop where
  spelled : ∀ (f : Field) name item, (name, item) ∈ members →
    lowered name = lowered (ascii f.name) → name = ascii f.name
  once : ∀ f : Field, (members.map Prod.fst).count (ascii f.name) ≤ 1
  number : ∀ (f : Field) item, (ascii f.name, item) ∈ members →
    ∃ v q, item = .number v ∧ doubleValue v = some q ∧ -2 ^ 63 ≤ q ∧ q < 2 ^ 63
  text : ∀ name item, (name, item) ∈ members → lowered name = lowered (ascii "datalog") →
    name = ascii "datalog" ∧ ∃ text, item = .string text

/-- The same number in a `double` member, truncated toward zero in an `int64_t` member. -/
def Printed : CType → CDouble → CDouble → Prop
  | .int64, v, w => ∃ q, doubleValue v = some q ∧ doubleValue w = some (truncate q : ℚ)
  | .double, v, w => w = v

/-- The printed object has exactly the members with names of the struct. -/
structure SameNumbers (members printed : List (Bytes × Json)) : Prop where
  distinct : (printed.map Prod.fst).Nodup
  sound : ∀ name item, (name, item) ∈ printed → ∃ (f : Field) (v w : CDouble), name = ascii f.name ∧
    (name, .number v) ∈ members ∧ item = .number w ∧ Printed f.ctype v w
  complete : ∀ (f : Field) item, (ascii f.name, item) ∈ members → ∃ v w, item = .number v ∧
    (ascii f.name, .number w) ∈ printed ∧ Printed f.ctype v w

theorem Regular.fits {members : List (Bytes × Json)} (regular : Regular members) :
    NumbersFit (.object members) := by
  intro f v found
  obtain ⟨u, q, same, exact, low, high⟩ := regular.number f _ (mem_of_exact found)
  obtain rfl := Json.number.inj same
  exact fits_of_range exact low high f.ctype

/-- On a regular object the name test and the fetch agree. -/
theorem Regular.decodes {members : List (Bytes × Json)} (regular : Regular members) :
    cJSONGetDataLogValue .succeeds (some (.object members)) =
      .ok (some ⟨presentNumber (.object members), presentText (.object members)⟩) := by
  refine (getDataLogValue_ok_iff _ _ _).mpr ⟨rfl, fun f => ?_, ?_⟩
  · refine (fieldValue_present_iff regular.fits f).mpr fun tested => ?_
    rw [hasObjectItem, List.any_eq_true] at tested
    obtain ⟨⟨name, item⟩, inside, same⟩ := tested
    have spelled := regular.spelled f name item inside (eq_of_beq same)
    rw [spelled] at inside
    obtain ⟨v, q, rfl, _⟩ := regular.number f item inside
    rw [exact_of_count (regular.once f) inside]
    rfl
  · refine (textValue_present_iff _ _).mpr fun tested => ⟨?_, rfl⟩
    rw [hasObjectItem, List.any_eq_true] at tested
    obtain ⟨⟨name, item⟩, inside, same⟩ := tested
    have spelled := (regular.text name item inside (eq_of_beq same)).1
    rw [spelled] at inside
    obtain ⟨first, found⟩ := exists_exact inside
    obtain ⟨_, text, rfl⟩ := regular.text _ first (mem_of_exact found) rfl
    rw [found]
    rfl

theorem presentNumber_eq_some {members : List (Bytes × Json)} {f : Field} {value : f.ctype.Value}
    (present : presentNumber (.object members) f = some value) :
    ∃ v, (ascii f.name, .number v) ∈ members ∧ convert f.ctype v = some value := by
  unfold presentNumber at present
  split at present
  next v found => exact ⟨v, mem_of_exact found, present⟩
  · contradiction

theorem printed_of_convert {t : CType} {v : CDouble} {value : t.Value} (converted : convert t v = some value) :
    Printed t v (toDouble t value) := by
  cases t with
  | double => exact (Option.some.inj converted).symm
  | int64 =>
    obtain ⟨q, exact, truncated⟩ := toInt64_eq_some converted
    refine ⟨q, exact, ?_⟩
    rw [← truncated]
    exact doubleValue_ofInt64 converted

/-- The printed object of a decoded one has its numbers. -/
theorem Regular.sameNumbers {members : List (Bytes × Json)} (regular : Regular members) (text : Option Bytes) :
    SameNumbers members (encoded .succeeds ⟨presentNumber (.object members), text⟩) := by
  refine ⟨encoded_names_nodup _, ?_, ?_⟩
  · intro name item inside
    obtain ⟨f, value, present, rfl, rfl⟩ := mem_encoded.mp inside
    obtain ⟨v, member, converted⟩ := presentNumber_eq_some present
    exact ⟨f, v, toDouble f.ctype value, rfl, member, rfl, printed_of_convert converted⟩
  · intro f item member
    obtain ⟨v, q, rfl, _⟩ := regular.number f item member
    have found := exact_of_count (regular.once f) member
    obtain ⟨value, converted⟩ := (regular.fits f v found).converts
    have present : presentNumber (.object members) f = some value := by
      rw [presentNumber, found]
      exact converted
    refine ⟨v, toDouble f.ctype value, rfl, ?_, printed_of_convert converted⟩
    exact mem_encoded.mpr ⟨f, value, present, rfl, rfl⟩

theorem decoded_printable (members : List (Bytes × Json)) (text : Option Bytes) :
    Printable ⟨presentNumber (.object members), text⟩ := by
  intro f value present
  obtain ⟨v, _, converted⟩ := presentNumber_eq_some present
  exact convert_toDouble converted

/-- Decoding an object, encoding the struct and decoding that again. -/
def RoundTrips (members : List (Bytes × Json)) : Prop :=
  ∃ x printed, cJSONGetDataLogValue .succeeds (some (.object members)) = .ok (some x) ∧
    cJSONCreateDataLog .succeeds (some x) = .ok (some (.object printed)) ∧
    SameNumbers members printed ∧
    ∃ y, cJSONGetDataLogValue .succeeds (some (.object printed)) = .ok (some y) ∧
      ∀ f, y.number f = x.number f

/-- On a regular object the encoder gives the numbers back, and decoding them again
gives the same struct. -/
theorem encode_inverts_decode {members : List (Bytes × Json)} (regular : Regular members) :
    RoundTrips members := by
  refine ⟨_, _, regular.decodes, createDataLog_eq _ _, regular.sameNumbers _, ?_⟩
  exact ⟨_, decode_encoded (decoded_printable members _), fun f => rfl⟩

theorem plainMembers_regular : Regular plainMembers := by
  have named : ∀ member ∈ plainMembers, ∀ f ∈ Field.all, lowered member.1 = lowered (ascii f.name) →
      member.1 = ascii f.name ∧ isNumber (some member.2) = true := by
    decide +kernel
  have once : ∀ f ∈ Field.all, (plainMembers.map Prod.fst).count (ascii f.name) ≤ 1 := by
    decide +kernel
  have text : ∀ member ∈ plainMembers, lowered member.1 = lowered (ascii "datalog") →
      member.1 = ascii "datalog" ∧ isString (some member.2) = true := by
    decide +kernel
  refine ⟨?_, fun f => once f f.mem_all, ?_, ?_⟩
  · intro f name item inside same
    exact (named _ inside f f.mem_all same).1
  · intro f item inside
    obtain ⟨v, number⟩ := isNumber_eq_true (named _ inside f f.mem_all rfl).2
    obtain rfl := Option.some.inj number
    refine ⟨v, 85 / 2, rfl, ?_, by norm_num, by norm_num⟩
    rw [plainMembers_sample _ v inside, sampleReading_value]
  · intro name item inside same
    obtain ⟨spelled, string⟩ := text _ inside same
    obtain ⟨held, found⟩ := isString_eq_true string
    exact ⟨spelled, held, Option.some.inj found⟩

theorem encode_inverts_decode_plain : RoundTrips plainMembers :=
  encode_inverts_decode plainMembers_regular

end XMeterLogger.DataLogCodec
