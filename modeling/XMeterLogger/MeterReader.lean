import Mathlib.Tactic.Common

/-! The two meter readers and their dispatcher. A record is stored field by field
as the 32 bits of each C `float`, so leftover stack bytes and decoded values live
in one type; PZEM-16 scaling is the binary32 arithmetic of the source. -/
namespace XMeterLogger.MeterReader

/-- A C `float` as its stored bits. -/
abbrev CFloat := UInt32

structure MeterDataLog where
  voltage : CFloat
  current : CFloat
  power : CFloat
  reactivePower : CFloat
  powerFactor : CFloat
  freq : CFloat
  importActive : CFloat
  exportActive : CFloat
  deriving DecidableEq, Repr

/-- A running meter: 230.1 V, 1.5 A, 345.2 W, everything else zero. -/
def sampleRecord : MeterDataLog := ⟨0x4366199A, 0x3FC00000, 0x43AC999A, 0, 0, 0, 0, 0⟩

/-- `modbus_read_registers` reads holding registers, `modbus_read_input_registers`
the input ones. -/
inductive Table where
  | holding
  | input
  deriving DecidableEq, Repr

structure Request where
  table : Table
  address : Nat
  count : Nat
  deriving DecidableEq, Repr

/-- The meter during one poll. A read fills exactly the requested registers, or
returns -1 and fills nothing. -/
structure Device where
  read : Table → (address count : Nat) → Option (Vector UInt16 count)

def Device.answers (device : Device) (q : Request) : Option (Vector UInt16 q.count) :=
  device.read q.table q.address q.count

/-- A reader returns a code with the record it filled, or ends the process. -/
inductive Outcome where
  | returned (rc : Int) (data : MeterDataLog)
  | exited (status : Nat)
  deriving DecidableEq, Repr

def exitFailure : Nat := 1

/-- `enum METER_TYPE`. -/
def dssu666 : Int := 0
def pzem16 : Int := 1

section Readers

-- `modbus_get_float_dcba` of the Modbus library: two registers to one float.
variable (getFloatDcba : UInt16 → UInt16 → CFloat)

def readDss666MeterData (device : Device) (data : MeterDataLog) : Outcome :=
  match device.read .holding 0x2000 (9 * 2) with
  | none => .exited exitFailure
  | some regs =>
    let data := { data with
      voltage := getFloatDcba regs[0x00] regs[0x01]
      current := getFloatDcba regs[0x02] regs[0x03]
      power := getFloatDcba regs[0x04] regs[0x05]
      reactivePower := getFloatDcba regs[0x06] regs[0x07]
      powerFactor := getFloatDcba regs[0x0A] regs[0x0B]
      freq := getFloatDcba regs[0x0E] regs[0x0F] }
    match device.read .holding 0x4000 2 with
    | none => .exited exitFailure
    | some regw =>
      let data := { data with importActive := getFloatDcba regw[0] regw[1] }
      match device.read .holding 0x400A 2 with
      | none => .exited exitFailure
      | some regw => .returned 0 { data with exportActive := getFloatDcba regw[0] regw[1] }

/-- `(uint32_t) high << 16 | low`. -/
def word32 (high low : UInt16) : UInt32 := high.toUInt32 <<< 16 ||| low.toUInt32

/-- `export_active` is not among the assigned fields. -/
def readPzem16MeterData (device : Device) (data : MeterDataLog) : Outcome :=
  match device.read .input 0x0000 10 with
  | none => .exited exitFailure
  | some regs => .returned 0 { data with
      voltage := (regs[0x00].toFloat32 * 0.1).toBits
      current := ((word32 regs[0x02] regs[0x01]).toFloat32 * 0.001).toBits
      power := ((word32 regs[0x04] regs[0x03]).toFloat32 * 0.1).toBits
      reactivePower := 0
      importActive := (word32 regs[0x06] regs[0x05]).toFloat32.toBits
      freq := (regs[0x07].toFloat32 * 0.1).toBits
      powerFactor := (regs[0x08].toFloat32 * 0.01).toBits }

/-- For any other meter type control falls off the end of the function: the
record is untouched and the returned code is `unspecified`. -/
def readMeterData (mtype : Int) (device : Device) (unspecified : Int)
    (data : MeterDataLog) : Outcome :=
  if mtype = dssu666 then readDss666MeterData getFloatDcba device data
  else if mtype = pzem16 then readPzem16MeterData device data
  else .returned unspecified data

end Readers

/-- The reads one poll issues, in order. -/
def requests (mtype : Int) : List Request :=
  if mtype = dssu666 then
    [⟨.holding, 0x2000, 18⟩, ⟨.holding, 0x4000, 2⟩, ⟨.holding, 0x400A, 2⟩]
  else if mtype = pzem16 then [⟨.input, 0x0000, 10⟩]
  else []

def readsSucceed (mtype : Int) (device : Device) : Bool :=
  (requests mtype).all fun q => (device.answers q).isSome

/-- Two devices hold the same contents in every register this meter type reads. -/
def SameRegisters (mtype : Int) (left right : Device) : Prop :=
  ∀ q ∈ requests mtype, left.answers q = right.answers q

variable {getFloatDcba : UInt16 → UInt16 → CFloat} {mtype : Int}

/-- All eight fields come from registers: neither leftover bytes nor unrelated
registers reach the outcome. -/
theorem readDss666_determined {left right : Device} (same : SameRegisters dssu666 left right)
    (a b : MeterDataLog) :
    readDss666MeterData getFloatDcba left a = readDss666MeterData getFloatDcba right b := by
  have first := same ⟨.holding, 0x2000, 18⟩ (by decide)
  have second := same ⟨.holding, 0x4000, 2⟩ (by decide)
  have third := same ⟨.holding, 0x400A, 2⟩ (by decide)
  simp only [Device.answers] at first second third
  simp only [readDss666MeterData, first, second, third]

/-- Every record comes out of some register contents when every pattern of bits
comes out of some register pair. -/
theorem readDss666_reaches {pair : CFloat → UInt16 × UInt16}
    (decodes : ∀ bits, getFloatDcba (pair bits).1 (pair bits).2 = bits) (record : MeterDataLog) :
    ∃ device, ∀ data, readDss666MeterData getFloatDcba device data = .returned 0 record := by
  let words := [record.voltage, record.current, record.power, record.reactivePower, 0,
    record.powerFactor, 0, record.freq, 0]
  let base : Vector UInt16 18 := Vector.ofFn fun i =>
    let word := words[i.val / 2]?.getD 0
    if i.val % 2 = 0 then (pair word).1 else (pair word).2
  let energy (bits : CFloat) : Vector UInt16 2 := #v[(pair bits).1, (pair bits).2]
  let read : Table → (address count : Nat) → Option (Vector UInt16 count) := fun _ address count =>
    if wide : count = 18 then some (wide ▸ base)
    else if narrow : count = 2 then
      some (narrow ▸ energy (if address = 0x4000 then record.importActive else record.exportActive))
    else none
  refine ⟨⟨read⟩, fun data => ?_⟩
  simp [readDss666MeterData, read, base, energy, words, decodes]

theorem readMeterData_dssu666_determined (getFloatDcba : UInt16 → UInt16 → CFloat)
    {left right : Device} (same : SameRegisters dssu666 left right) (ul ur : Int) (a b : MeterDataLog) :
    readMeterData getFloatDcba dssu666 left ul a = readMeterData getFloatDcba dssu666 right ur b := by
  simpa only [readMeterData, ↓reduceIte] using readDss666_determined same a b

/-- Whatever the device answers, a returning poll of another meter type hands
the leftover `export_active` on. -/
theorem readMeterData_keeps_exportActive {device : Device} {unspecified rc : Int}
    {data record : MeterDataLog} (other : mtype ≠ dssu666)
    (returns : readMeterData getFloatDcba mtype device unspecified data = .returned rc record) :
    record.exportActive = data.exportActive := by
  simp only [readMeterData, if_neg other] at returns
  split at returns
  · unfold readPzem16MeterData at returns
    split at returns
    · contradiction
    · obtain ⟨-, rfl⟩ := Outcome.returned.inj returns
      rfl
  · obtain ⟨-, rfl⟩ := Outcome.returned.inj returns
    rfl

/-- The readers return 0 when all their reads succeed and exit otherwise; the
code of an unknown meter type is unspecified. -/
theorem readMeterData_cases (getFloatDcba : UInt16 → UInt16 → CFloat)
    (known : mtype = dssu666 ∨ mtype = pzem16) (device : Device) (unspecified : Int) (data : MeterDataLog) :
    (readsSucceed mtype device = true ∧ ∃ record,
      readMeterData getFloatDcba mtype device unspecified data = .returned 0 record) ∨
    (readsSucceed mtype device = false ∧
      readMeterData getFloatDcba mtype device unspecified data = .exited exitFailure) := by
  rcases known with rfl | rfl
  · cases h1 : device.read .holding 0x2000 18 with
    | none => right; simp [readsSucceed, requests, Device.answers, readMeterData, readDss666MeterData, h1]
    | some regs =>
      cases h2 : device.read .holding 0x4000 2 with
      | none =>
        right
        simp [readsSucceed, requests, Device.answers, readMeterData, readDss666MeterData, h1, h2]
      | some regw =>
        cases h3 : device.read .holding 0x400A 2 with
        | none =>
          right
          simp [readsSucceed, requests, Device.answers, readMeterData, readDss666MeterData, h1, h2, h3]
        | some regx =>
          left
          simp [readsSucceed, requests, Device.answers, readMeterData, readDss666MeterData, h1, h2, h3]
  · cases h : device.read .input 0x0000 10 with
    | none =>
      right
      simp [readsSucceed, requests, Device.answers, readMeterData, readPzem16MeterData, h, pzem16, dssu666]
    | some regs =>
      left
      simp [readsSucceed, requests, Device.answers, readMeterData, readPzem16MeterData, h, pzem16, dssu666]

end XMeterLogger.MeterReader
