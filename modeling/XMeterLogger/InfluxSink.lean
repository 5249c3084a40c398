import XMeterLogger.Lib.FloatText
import XMeterLogger.Lib.LineProtocol
import XMeterLogger.MeterReader

/-! The text the InfluxDB sink posts for a record, with what the line protocol
reads back from it and how much of its buffer it takes. -/
namespace XMeterLogger.InfluxSink

open Float.Model
open XMeterLogger.Decimal XMeterLogger.FloatText XMeterLogger.LineProtocol XMeterLogger.MeterReader

/-- `%f` of a float, which the call promotes to double without changing its value. -/
def printF (bits : CFloat) : Bytes := @printFixed Format.binary32 6 bits.toBitVec

/-- What the `sprintf` call formats, without the terminating NUL. -/
def lineProtocol (measurement : Bytes) (data : MeterDataLog) : Bytes :=
  measurement ++ ascii " " ++
    ascii "voltage=" ++ printF data.voltage ++ ascii "," ++
    ascii "current=" ++ printF data.current ++ ascii "," ++
    ascii "power=" ++ printF data.power ++ ascii "," ++
    ascii "reactive_power=" ++ printF data.reactivePower ++ ascii "," ++
    ascii "power_factor=" ++ printF data.powerFactor ++ ascii "," ++
    ascii "freq=" ++ printF data.freq ++ ascii "," ++
    ascii "import_active=" ++ printF data.importActive ++ ascii "," ++
    ascii "export_active=" ++ printF data.exportActive

/-- The argument of `malloc`. -/
def bufferSize : Nat := 256

/-- None when `sprintf` runs over the end of the buffer. -/
def convertToInfluxdbLine (measurement : Bytes) (data : MeterDataLog) : Option Bytes :=
  let line := lineProtocol measurement data
  if line.length + 1 ≤ bufferSize then some line else none

/-- The record as named fields, in the order of the struct. -/
def fields (data : MeterDataLog) : List (Bytes × CFloat) :=
  [(ascii "voltage", data.voltage), (ascii "current", data.current), (ascii "power", data.power),
    (ascii "reactive_power", data.reactivePower), (ascii "power_factor", data.powerFactor),
    (ascii "freq", data.freq), (ascii "import_active", data.importActive),
    (ascii "export_active", data.exportActive)]

/-- The value of a field rounded to six decimals, none for an infinity or a NaN. -/
def exactField (field : Bytes × CFloat) : Option (Bytes × ℚ) :=
  (@exactValue Format.binary32 field.2.toBitVec).map fun q => (field.1, roundTo 6 q)

def isFinite (bits : CFloat) : Bool := @finiteBits Format.binary32 bits.toBitVec

/-- Characters `%f` takes, by arithmetic on the value. -/
def fieldWidth (bits : CFloat) : Nat := @printedWidth Format.binary32 6 bits.toBitVec

def printedTotal (data : MeterDataLog) : Nat := ((fields data).map fun field => fieldWidth field.2).sum

/-- The posted body is one point without tags, with the configured measurement
and the eight fields of the record to six decimals. -/
def RoundTrips (comments : Bool) (measurement : Bytes) (data : MeterDataLog) : Prop :=
  ∃ body read, convertToInfluxdbLine measurement data = some body ∧
    (fields data).mapM exactField = some read ∧
    parseBody comments body = some [⟨measurement, [], read⟩]

def render (field : Bytes × CFloat) : Bytes := field.1 ++ equals :: printF field.2

def fieldText (data : MeterDataLog) : Bytes := [comma].intercalate ((fields data).map render)

theorem labels_split : ascii " " = [space] ∧ ascii "," = [comma] ∧
    ascii "voltage=" = ascii "voltage" ++ [equals] ∧ ascii "current=" = ascii "current" ++ [equals] ∧
    ascii "power=" = ascii "power" ++ [equals] ∧
    ascii "reactive_power=" = ascii "reactive_power" ++ [equals] ∧
    ascii "power_factor=" = ascii "power_factor" ++ [equals] ∧
    ascii "freq=" = ascii "freq" ++ [equals] ∧
    ascii "import_active=" = ascii "import_active" ++ [equals] ∧
    ascii "export_active=" = ascii "export_active" ++ [equals] := by
  decide

theorem label_lengths : (ascii " ").length = 1 ∧ (ascii ",").length = 1 ∧
    (ascii "voltage=").length = 8 ∧ (ascii "current=").length = 8 ∧ (ascii "power=").length = 6 ∧
    (ascii "reactive_power=").length = 15 ∧ (ascii "power_factor=").length = 13 ∧
    (ascii "freq=").length = 5 ∧ (ascii "import_active=").length = 14 ∧
    (ascii "export_active=").length = 14 := by
  decide

theorem lineProtocol_eq (measurement : Bytes) (data : MeterDataLog) :
    lineProtocol measurement data = measurement ++ space :: fieldText data := by
  unfold lineProtocol fieldText fields
  simp only [labels_split, render, List.map_cons, List.map_nil, List.intercalate_cons_cons,
    List.intercalate_singleton, List.append_assoc, List.cons_append, List.nil_append]

theorem keys_clean (data : MeterDataLog) : ∀ field ∈ fields data,
    field.1 ≠ [] ∧ (∀ b ∈ field.1, endsKey b = false) ∧ backslash ∉ field.1 ∧ newline ∉ field.1 := by
  have names : (fields data).map Prod.fst = (fields ⟨0, 0, 0, 0, 0, 0, 0, 0⟩).map Prod.fst := rfl
  have clean : ∀ key ∈ (fields ⟨0, 0, 0, 0, 0, 0, 0, 0⟩).map Prod.fst,
      key ≠ [] ∧ (key.all fun b => decide (endsKey b = false)) = true ∧
        backslash ∉ key ∧ newline ∉ key := by
    decide
  intro field member
  obtain ⟨nonempty, free, rest⟩ := clean field.1 (names ▸ List.mem_map_of_mem member)
  exact ⟨nonempty, forall_mem_of_all free, rest⟩

theorem render_avoids {data : MeterDataLog} {field : Bytes × CFloat} (member : field ∈ fields data) :
    comma ∉ render field ∧ space ∉ render field ∧ backslash ∉ render field ∧
      newline ∉ render field := by
  obtain ⟨-, key, noSlash, noLine⟩ := keys_clean data field member
  have noComma : comma ∉ field.1 := fun inside => absurd (key _ inside) (by decide)
  have noSpace : space ∉ field.1 := fun inside => absurd (key _ inside) (by decide)
  have value (c : UInt8) (notDigit : isDigit c = false) (other : c ∉ dot :: minus :: ascii "nanif") :
      c ∉ printF field.2 := printFixed_avoids 6 _ notDigit other
  simp only [render, List.mem_append, List.mem_cons, not_or]
  refine ⟨⟨noComma, by decide, value _ ?_ ?_⟩, ⟨noSpace, by decide, value _ ?_ ?_⟩,
    ⟨noSlash, by decide, value _ ?_ ?_⟩, ⟨noLine, by decide, value _ ?_ ?_⟩⟩
  all_goals decide

theorem fieldText_avoids (data : MeterDataLog) : space ∉ fieldText data ∧ newline ∉ fieldText data := by
  constructor
  all_goals
    intro member
    rcases mem_intercalate member with joint | ⟨text, known, inside⟩
    · exact absurd joint (by decide)
    · obtain ⟨field, listed, rfl⟩ := List.mem_map.mp known
      obtain ⟨-, noSpace, -, noLine⟩ := render_avoids listed
      contradiction

/-- A field reads back as its value to six decimals, a non-finite one not at all. -/
theorem parseField_render {data : MeterDataLog} {field : Bytes × CFloat}
    (member : field ∈ fields data) : parseField (render field) = exactField field := by
  obtain ⟨nonempty, clean, noSlash, -⟩ := keys_clean data field member
  have ending : field.1.getLast? ≠ some backslash :=
    fun last => noSlash (List.mem_of_getLast? last)
  rw [render, parseField_pair _ nonempty clean ending, exactField, printF]
  cases value : @exactValue Format.binary32 field.2.toBitVec with
  | none =>
    have nonfinite : @finiteBits Format.binary32 field.2.toBitVec = false := by
      rw [← exactValue_isSome, value]
      rfl
    rw [parseNumber_printFixed_nonfinite 6 nonfinite]
    rfl
  | some q =>
    rw [parseNumber_printFixed (by decide) value]
    rfl

theorem parseFields_fieldText (data : MeterDataLog) :
    parseFields (fieldText data) = (fields data).mapM exactField := by
  rw [fieldText, parseFields_intercalate, List.mapM_map]
  · exact mapM_congr fun field member => parseField_render member
  · simp [fields]
  · intro text known
    obtain ⟨field, listed, rfl⟩ := List.mem_map.mp known
    obtain ⟨noComma, -, noSlash, -⟩ := render_avoids listed
    exact ⟨noComma, noSlash⟩

theorem exactField_isSome (field : Bytes × CFloat) : (exactField field).isSome = isFinite field.2 := by
  rw [exactField, Option.isSome_map, exactValue_isSome, isFinite]

theorem printF_length (bits : CFloat) : (printF bits).length = fieldWidth bits :=
  printFixed_length (by decide) _

/-- Eighty-three characters of labels, seven commas, the space and the NUL. -/
theorem lineProtocol_length (measurement : Bytes) (data : MeterDataLog) :
    (lineProtocol measurement data).length + 1 = measurement.length + printedTotal data + 92 := by
  unfold lineProtocol printedTotal fields
  simp only [List.length_append, printF_length, label_lengths, List.map_cons, List.map_nil,
    List.sum_cons, List.sum_nil]
  omega

theorem convert_eq_some_iff (measurement : Bytes) (data : MeterDataLog) (body : Bytes) :
    convertToInfluxdbLine measurement data = some body ↔
      body = lineProtocol measurement data ∧ measurement.length + printedTotal data ≤ 164 := by
  have length := lineProtocol_length measurement data
  unfold convertToInfluxdbLine bufferSize
  dsimp only
  split
  next fits =>
    rw [Option.some.injEq]
    constructor
    · intro same
      exact ⟨same.symm, by omega⟩
    · intro same
      exact same.1.symm
  next =>
    constructor
    · intro none
      contradiction
    · rintro ⟨-, fits⟩
      omega

theorem exactFields_isSome (data : MeterDataLog) :
    ((fields data).mapM exactField).isSome = true ↔ ∀ field ∈ fields data, isFinite field.2 = true := by
  simp only [mapM_isSome, exactField_isSome, List.all_eq_true]

/-- What the server makes of the line under a plain measurement: the point with
every field to six decimals, or nothing as soon as one field is not finite. -/
theorem parseBody_lineProtocol {comments : Bool} {measurement : Bytes} (data : MeterDataLog)
    (nonempty : measurement ≠ []) (oneLine : newline ∉ measurement)
    (plain : PlainName comments measurement) :
    parseBody comments (lineProtocol measurement data) =
      ((fields data).mapM exactField).map fun read => [⟨measurement, [], read⟩] := by
  rw [lineProtocol_eq, parseBody_plain nonempty oneLine (fieldText_avoids data).2 plain,
    parseFields_fieldText]

/-- The body round-trips exactly when the measurement needs no escaping, every
field is finite and the line fits its buffer. -/
theorem body_round_trips_iff (comments : Bool) {measurement : Bytes} (data : MeterDataLog)
    (nonempty : measurement ≠ []) (oneLine : newline ∉ measurement) :
    RoundTrips comments measurement data ↔
      PlainName comments measurement ∧ (∀ field ∈ fields data, isFinite field.2 = true) ∧
        measurement.length + printedTotal data ≤ 164 := by
  constructor
  · rintro ⟨body, read, converted, exact, parsed⟩
    obtain ⟨same, fits⟩ := (convert_eq_some_iff _ _ _).mp converted
    refine ⟨?_, (exactFields_isSome data).mp (by rw [exact]; rfl), fits⟩
    rw [same, lineProtocol_eq] at parsed
    obtain ⟨noSpace, noLine⟩ := fieldText_avoids data
    exact plain_of_parseBody nonempty oneLine noLine noSpace parsed
  · rintro ⟨plain, finite, fits⟩
    obtain ⟨read, exact⟩ := Option.isSome_iff_exists.mp ((exactFields_isSome data).mpr finite)
    refine ⟨_, read, (convert_eq_some_iff _ _ _).mpr ⟨rfl, fits⟩, exact, ?_⟩
    rw [parseBody_lineProtocol data nonempty oneLine plain, exact]
    rfl

theorem body_round_trips_sample : RoundTrips true (ascii "meter_dss666") sampleRecord := by
  refine (body_round_trips_iff true sampleRecord (by decide) (by decide)).mpr
    ⟨⟨forall_mem_of_all ?_, ?_, ?_⟩, ?_, ?_⟩
  all_goals decide

/-- The documented byte order of `modbus_get_float_dcba`. -/
def floatDcba (first second : UInt16) : CFloat :=
  let high (w : UInt16) : UInt32 := (w >>> 8).toUInt32
  let low (w : UInt16) : UInt32 := (w &&& 0xFF).toUInt32
  low second <<< 24 ||| high second <<< 16 ||| low first <<< 8 ||| high first

theorem floatDcba_toNat (first second : UInt16) :
    (floatDcba first second).toNat = second.toNat % 256 * 16777216 + (second.toNat / 256 * 65536 +
      (first.toNat % 256 * 256 + first.toNat / 256)) := by
  have ends := first.toNat_lt
  have begins := second.toNat_lt
  have low (w : UInt16) : (w &&& 0xFF).toUInt32.toNat = w.toNat % 256 := by
    simpa using Nat.and_two_pow_sub_one_eq_mod w.toNat 8
  have high (w : UInt16) : (w >>> 8).toUInt32.toNat = w.toNat / 256 := by
    simp [Nat.shiftRight_eq_div_pow]
  have shifted (a i : Nat) (small : a * 2 ^ i < 2 ^ 32) : a <<< i % 2 ^ 32 = a * 2 ^ i := by
    rw [Nat.shiftLeft_eq, Nat.mod_eq_of_lt small]
  have join (a b i : Nat) (small : b < 2 ^ i) : a * 2 ^ i ||| b = a * 2 ^ i + b := by
    rw [← Nat.shiftLeft_eq, Nat.shiftLeft_add_eq_or_of_lt small]
  simp only [floatDcba, UInt32.toNat_or, UInt32.toNat_shiftLeft, low, high, Nat.lor_assoc]
  change (second.toNat % 256) <<< 24 % 2 ^ 32 ||| ((second.toNat / 256) <<< 16 % 2 ^ 32 |||
    ((first.toNat % 256) <<< 8 % 2 ^ 32 ||| first.toNat / 256)) = _
  rw [shifted _ 24 (by omega), shifted _ 16 (by omega), shifted _ 8 (by omega), join _ _ 8 (by omega),
    join _ _ 16 (by omega), join _ _ 24 (by omega)]
  norm_num

/-- The two words that a meter sends for a float. -/
def dcbaWords (bits : CFloat) : UInt16 × UInt16 :=
  (UInt16.ofNat (bits.toNat % 256 * 256 + bits.toNat / 256 % 256),
    UInt16.ofNat (bits.toNat / 65536 % 256 * 256 + bits.toNat / 16777216))

theorem floatDcba_dcbaWords (bits : CFloat) :
    floatDcba (dcbaWords bits).1 (dcbaWords bits).2 = bits := by
  have size := bits.toNat_lt
  apply UInt32.toNat_inj.mp
  have pair (a b : Nat) (first : a < 256) (second : b < 256) :
      (UInt16.ofNat (a * 256 + b)).toNat % 256 = b ∧ (UInt16.ofNat (a * 256 + b)).toNat / 256 = a := by
    rw [UInt16.toNat_ofNat']
    omega
  obtain ⟨b, a⟩ := pair (bits.toNat % 256) (bits.toNat / 256 % 256) (by omega) (by omega)
  obtain ⟨d, c⟩ := pair (bits.toNat / 65536 % 256) (bits.toNat / 16777216) (by omega) (by omega)
  rw [floatDcba_toNat, dcbaWords, a, b, c, d]
  omega

/-- Some meter reports any given record. -/
theorem every_record_read (record : MeterDataLog) : ∃ device, ∀ data unspecified,
    readMeterData floatDcba dssu666 device unspecified data = .returned 0 record := by
  obtain ⟨device, reads⟩ := readDss666_reaches floatDcba_dcbaWords record
  exact ⟨device, fun data _ => reads data⟩
/-- A meter that answers every read with the same two words in turn. -/
def constantMeter (first second : UInt16) : Device where
  read _ _ _ := some (Vector.ofFn fun i => if i.val % 2 = 0 then first else second)

def constantRecord (bits : CFloat) : MeterDataLog := ⟨bits, bits, bits, bits, bits, bits, bits, bits⟩

/-- A meter that reports NaN has its whole body refused. -/
theorem nan_reading_refused :
    readMeterData floatDcba dssu666 (constantMeter 0x0000 0xC07F) 0 (constantRecord 0) =
      .returned 0 (constantRecord 0x7FC00000) ∧
    (∃ body, convertToInfluxdbLine (ascii "meter_dss666") (constantRecord 0x7FC00000) = some body ∧
      parseBody true body = none) ∧
    ¬ RoundTrips true (ascii "meter_dss666") (constantRecord 0x7FC00000) := by
  have none : (fields (constantRecord 0x7FC00000)).mapM exactField = none := by
    rw [← Option.isNone_iff_eq_none]
    rfl
  refine ⟨by decide, ⟨_, (convert_eq_some_iff _ _ _).mpr ⟨rfl, by decide⟩, ?_⟩, ?_⟩
  · have plain : PlainName true (ascii "meter_dss666") := ⟨forall_mem_of_all (by decide), by decide, by decide⟩
    rw [parseBody_lineProtocol _ (by decide) (by decide) plain, none]
    rfl
  · rintro ⟨_, read, -, exact, -⟩
    rw [none] at exact
    contradiction

/-- The formatted line fits the buffer exactly when the measurement and the eight
numbers leave room for the labels. -/
theorem line_fits_buffer_iff (measurement : Bytes) (data : MeterDataLog) :
    (lineProtocol measurement data).length + 1 ≤ bufferSize ↔
      measurement.length + printedTotal data ≤ 164 := by
  rw [lineProtocol_length, bufferSize]
  omega

/-- The most negative float in every register pair takes 47 characters a field. -/
theorem huge_readings_overrun_buffer :
    readMeterData floatDcba dssu666 (constantMeter 0xFFFF 0x7FFF) 0 (constantRecord 0) =
      .returned 0 (constantRecord 0xFF7FFFFF) ∧
    ¬ (lineProtocol (ascii "meter_dss666") (constantRecord 0xFF7FFFFF)).length + 1 ≤ bufferSize := by
  refine ⟨by decide, ?_⟩
  rw [lineProtocol_length]
  decide

end XMeterLogger.InfluxSink
