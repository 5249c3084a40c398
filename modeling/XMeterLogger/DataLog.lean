import XMeterLogger.CJson
import Mathlib.Logic.Function.Basic

/-! `struct DataLog` with its decoder and its encoder. The struct, the decoder and the
encoder are three separate listings of the 85 numeric members in the source; each
is transcribed on its own here, and their agreement is a theorem. -/
namespace XMeterLogger.DataLogCodec

open XMeterLogger.Decimal XMeterLogger.CJson

inductive CType where
  | int64
  | double
  deriving DecidableEq, Repr

def CType.sizeof : CType → Nat
  | .int64 => 8
  | .double => 8

abbrev CType.Value : CType → Type
  | .int64 => Int64
  | .double => CDouble

/-- The numeric members. -/
inductive Field where
  | status | vPv1 | vPv2 | vPv3 | vBat | soc | soh | pPv | pPv1 | pPv2 | pPv3 | pCharge
  | pDischarge | vAcR | vAcS | vAcT | fAc | pInv | pRec | pf | vEpsR | vEpsS | vEpsT | fEps
  | pEps | sEps | pToGrid | pToUser | ePvDay | ePvDay1 | ePvDay2 | ePvDay3 | eInvDay | eRecDay
  | eChgDay | eDischgDay | eEpsDay | eToGridDay | eToUserDay | vBus1 | vBus2 | ePvAll | ePvAll1
  | ePvAll2 | ePvAll3 | eInvAll | eRecAll | eChgAll | eDischgAll | eEpsAll | eToGridAll
  | eToUserAll | tInner | tRad1 | tRad2 | tBat | runtime | maxChgCurr | maxDischgCurr
  | chargeVoltRef | dischgCutVolt | batStatus0 | batStatus1 | batStatus2 | batStatus3
  | batStatus4 | batStatus5 | batStatus6 | batStatus7 | batStatus8 | batStatus9 | batStatusInv
  | batCount | batCapacity | batCurrent | bmsEvent1 | bmsEvent2 | maxCellVoltage | minCellVoltage
  | maxCellTemp | minCellTemp | bmsFwUpdateState | cycleCount | vbatInv | time
  deriving DecidableEq, Repr

def Field.ctype : Field → CType
  | .vPv1 | .vPv3 | .vAcR | .fAc | .vEpsS | .fEps | .ePvDay | .ePvDay1 | .eInvDay | .eToUserDay
  | .vBus1 | .vBus2 | .ePvAll | .ePvAll1 | .eInvAll | .eToUserAll | .vbatInv => .double
  | _ => .int64

/-- The members in the order of the struct. -/
def Field.all : List Field := [
  .status, .vPv1, .vPv2, .vPv3, .vBat, .soc, .soh, .pPv, .pPv1, .pPv2, .pPv3, .pCharge,
  .pDischarge, .vAcR, .vAcS, .vAcT, .fAc, .pInv, .pRec, .pf, .vEpsR, .vEpsS, .vEpsT, .fEps,
  .pEps, .sEps, .pToGrid, .pToUser, .ePvDay, .ePvDay1, .ePvDay2, .ePvDay3, .eInvDay, .eRecDay,
  .eChgDay, .eDischgDay, .eEpsDay, .eToGridDay, .eToUserDay, .vBus1, .vBus2, .ePvAll, .ePvAll1,
  .ePvAll2, .ePvAll3, .eInvAll, .eRecAll, .eChgAll, .eDischgAll, .eEpsAll, .eToGridAll,
  .eToUserAll, .tInner, .tRad1, .tRad2, .tBat, .runtime, .maxChgCurr, .maxDischgCurr,
  .chargeVoltRef, .dischgCutVolt, .batStatus0, .batStatus1, .batStatus2, .batStatus3,
  .batStatus4, .batStatus5, .batStatus6, .batStatus7, .batStatus8, .batStatus9, .batStatusInv,
  .batCount, .batCapacity, .batCurrent, .bmsEvent1, .bmsEvent2, .maxCellVoltage, .minCellVoltage,
  .maxCellTemp, .minCellTemp, .bmsFwUpdateState, .cycleCount, .vbatInv, .time]

def Field.name : Field → String
  | .status => "status"
  | .vPv1 => "v_pv_1"
  | .vPv2 => "v_pv_2"
  | .vPv3 => "v_pv_3"
  | .vBat => "v_bat"
  | .soc => "soc"
  | .soh => "soh"
  | .pPv => "p_pv"
  | .pPv1 => "p_pv_1"
  | .pPv2 => "p_pv_2"
  | .pPv3 => "p_pv_3"
  | .pCharge => "p_charge"
  | .pDischarge => "p_discharge"
  | .vAcR => "v_ac_r"
  | .vAcS => "v_ac_s"
  | .vAcT => "v_ac_t"
  | .fAc => "f_ac"
  | .pInv => "p_inv"
  | .pRec => "p_rec"
  | .pf => "pf"
  | .vEpsR => "v_eps_r"
  | .vEpsS => "v_eps_s"
  | .vEpsT => "v_eps_t"
  | .fEps => "f_eps"
  | .pEps => "p_eps"
  | .sEps => "s_eps"
  | .pToGrid => "p_to_grid"
  | .pToUser => "p_to_user"
  | .ePvDay => "e_pv_day"
  | .ePvDay1 => "e_pv_day_1"
  | .ePvDay2 => "e_pv_day_2"
  | .ePvDay3 => "e_pv_day_3"
  | .eInvDay => "e_inv_day"
  | .eRecDay => "e_rec_day"
  | .eChgDay => "e_chg_day"
  | .eDischgDay => "e_dischg_day"
  | .eEpsDay => "e_eps_day"
  | .eToGridDay => "e_to_grid_day"
  | .eToUserDay => "e_to_user_day"
  | .vBus1 => "v_bus_1"
  | .vBus2 => "v_bus_2"
  | .ePvAll => "e_pv_all"
  | .ePvAll1 => "e_pv_all_1"
  | .ePvAll2 => "e_pv_all_2"
  | .ePvAll3 => "e_pv_all_3"
  | .eInvAll => "e_inv_all"
  | .eRecAll => "e_rec_all"
  | .eChgAll => "e_chg_all"
  | .eDischgAll => "e_dischg_all"
  | .eEpsAll => "e_eps_all"
  | .eToGridAll => "e_to_grid_all"
  | .eToUserAll => "e_to_user_all"
  | .tInner => "t_inner"
  | .tRad1 => "t_rad_1"
  | .tRad2 => "t_rad_2"
  | .tBat => "t_bat"
  | .runtime => "runtime"
  | .maxChgCurr => "max_chg_curr"
  | .maxDischgCurr => "max_dischg_curr"
  | .chargeVoltRef => "charge_volt_ref"
  | .dischgCutVolt => "dischg_cut_volt"
  | .batStatus0 => "bat_status_0"
  | .batStatus1 => "bat_status_1"
  | .batStatus2 => "bat_status_2"
  | .batStatus3 => "bat_status_3"
  | .batStatus4 => "bat_status_4"
  | .batStatus5 => "bat_status_5"
  | .batStatus6 => "bat_status_6"
  | .batStatus7 => "bat_status_7"
  | .batStatus8 => "bat_status_8"
  | .batStatus9 => "bat_status_9"
  | .batStatusInv => "bat_status_inv"
  | .batCount => "bat_count"
  | .batCapacity => "bat_capacity"
  | .batCurrent => "bat_current"
  | .bmsEvent1 => "bms_event_1"
  | .bmsEvent2 => "bms_event_2"
  | .maxCellVoltage => "max_cell_voltage"
  | .minCellVoltage => "min_cell_voltage"
  | .maxCellTemp => "max_cell_temp"
  | .minCellTemp => "min_cell_temp"
  | .bmsFwUpdateState => "bms_fw_update_state"
  | .cycleCount => "cycle_count"
  | .vbatInv => "vbat_inv"
  | .time => "time"

/-- Each numeric member is a pointer, none for NULL, and so is the text. -/
structure DataLog where
  number : (f : Field) → Option f.ctype.Value
  datalog : Option Bytes

/-- After `memset`. -/
def DataLog.zero : DataLog := ⟨fun _ => none, none⟩

def DataLog.put (x : DataLog) (f : Field) (pointer : Option f.ctype.Value) : DataLog :=
  { x with number := Function.update x.number f pointer }

/-- Which allocations succeed: of the struct or the object, of a member, of the text. -/
structure Allocator where
  whole : Bool
  number : Field → Bool
  text : Bool

def Allocator.succeeds : Allocator := ⟨true, fun _ => true, true⟩

@[simp] theorem Allocator.succeeds_whole : Allocator.succeeds.whole = true := rfl

@[simp] theorem Allocator.succeeds_number (f : Field) : Allocator.succeeds.number f = true := rfl

@[simp] theorem Allocator.succeeds_text : Allocator.succeeds.text = true := rfl

/-- Undefined behaviour the codec can run into. -/
inductive Fault where
  | overrun
  | badCast
  | nullString
  | nullPointer
  deriving DecidableEq, Repr

/-- One block of the decoder: the name tested, the member whose pointer is allocated
for a type and assigned through, and the name fetched. -/
structure DecoderBlock where
  tested : String
  target : Field
  allocated : CType
  fetched : String
  deriving DecidableEq

/-- One block of the encoder. -/
structure EncoderBlock where
  tested : Field
  name : String
  printed : Field
  deriving DecidableEq

def decoderBlocks : List DecoderBlock := [
  ⟨"status", .status, .int64, "status"⟩,
  ⟨"v_pv_1", .vPv1, .double, "v_pv_1"⟩,
  ⟨"v_pv_2", .vPv2, .int64, "v_pv_2"⟩,
  ⟨"v_pv_3", .vPv3, .double, "v_pv_3"⟩,
  ⟨"v_bat", .vBat, .int64, "v_bat"⟩,
  ⟨"soc", .soc, .int64, "soc"⟩,
  ⟨"soh", .soh, .int64, "soh"⟩,
  ⟨"p_pv", .pPv, .int64, "p_pv"⟩,
  ⟨"p_pv_1", .pPv1, .int64, "p_pv_1"⟩,
  ⟨"p_pv_2", .pPv2, .int64, "p_pv_2"⟩,
  ⟨"p_pv_3", .pPv3, .int64, "p_pv_3"⟩,
  ⟨"p_charge", .pCharge, .int64, "p_charge"⟩,
  ⟨"p_discharge", .pDischarge, .int64, "p_discharge"⟩,
  ⟨"v_ac_r", .vAcR, .double, "v_ac_r"⟩,
  ⟨"v_ac_s", .vAcS, .int64, "v_ac_s"⟩,
  ⟨"v_ac_t", .vAcT, .int64, "v_ac_t"⟩,
  ⟨"f_ac", .fAc, .double, "f_ac"⟩,
  ⟨"p_inv", .pInv, .int64, "p_inv"⟩,
  ⟨"p_rec", .pRec, .int64, "p_rec"⟩,
  ⟨"pf", .pf, .int64, "pf"⟩,
  ⟨"v_eps_r", .vEpsR, .int64, "v_eps_r"⟩,
  ⟨"v_eps_s", .vEpsS, .double, "v_eps_s"⟩,
  ⟨"v_eps_t", .vEpsT, .int64, "v_eps_t"⟩,
  ⟨"f_eps", .fEps, .double, "f_eps"⟩,
  ⟨"p_eps", .pEps, .int64, "p_eps"⟩,
  ⟨"s_eps", .sEps, .int64, "s_eps"⟩,
  ⟨"p_to_grid", .pToGrid, .int64, "p_to_grid"⟩,
  ⟨"p_to_user", .pToUser, .int64, "p_to_user"⟩,
  ⟨"e_pv_day", .ePvDay, .double, "e_pv_day"⟩,
  ⟨"e_pv_day_1", .ePvDay1, .double, "e_pv_day_1"⟩,
  ⟨"e_pv_day_2", .ePvDay2, .int64, "e_pv_day_2"⟩,
  ⟨"e_pv_day_3", .ePvDay3, .int64, "e_pv_day_3"⟩,
  ⟨"e_inv_day", .eInvDay, .double, "e_inv_day"⟩,
  ⟨"e_rec_day", .eRecDay, .int64, "e_rec_day"⟩,
  ⟨"e_chg_day", .eChgDay, .int64, "e_chg_day"⟩,
  ⟨"e_dischg_day", .eDischgDay, .int64, "e_dischg_day"⟩,
  ⟨"e_eps_day", .eEpsDay, .int64, "e_eps_day"⟩,
  ⟨"e_to_grid_day", .eToGridDay, .int64, "e_to_grid_day"⟩,
  ⟨"e_to_user_day", .eToUserDay, .double, "e_to_user_day"⟩,
  ⟨"v_bus_1", .vBus1, .double, "v_bus_1"⟩,
  ⟨"v_bus_2", .vBus2, .double, "v_bus_2"⟩,
  ⟨"e_pv_all", .ePvAll, .double, "e_pv_all"⟩,
  ⟨"e_pv_all_1", .ePvAll1, .double, "e_pv_all_1"⟩,
  ⟨"e_pv_all_2", .ePvAll2, .int64, "e_pv_all_2"⟩,
  ⟨"e_pv_all_3", .ePvAll3, .int64, "e_pv_all_3"⟩,
  ⟨"e_inv_all", .eInvAll, .double, "e_inv_all"⟩,
  ⟨"e_rec_all", .eRecAll, .int64, "e_rec_all"⟩,
  ⟨"e_chg_all", .eChgAll, .int64, "e_chg_all"⟩,
  ⟨"e_dischg_all", .eDischgAll, .int64, "e_dischg_all"⟩,
  ⟨"e_eps_all", .eEpsAll, .int64, "e_eps_all"⟩,
  ⟨"e_to_grid_all", .eToGridAll, .int64, "e_to_grid_all"⟩,
  ⟨"e_to_user_all", .eToUserAll, .double, "e_to_user_all"⟩,
  ⟨"t_inner", .tInner, .int64, "t_inner"⟩,
  ⟨"t_rad_1", .tRad1, .int64, "t_rad_1"⟩,
  ⟨"t_rad_2", .tRad2, .int64, "t_rad_2"⟩,
  ⟨"t_bat", .tBat, .int64, "t_bat"⟩,
  ⟨"runtime", .runtime, .int64, "runtime"⟩,
  ⟨"max_chg_curr", .maxChgCurr, .int64, "max_chg_curr"⟩,
  ⟨"max_dischg_curr", .maxDischgCurr, .int64, "max_dischg_curr"⟩,
  ⟨"charge_volt_ref", .chargeVoltRef, .int64, "charge_volt_ref"⟩,
  ⟨"dischg_cut_volt", .dischgCutVolt, .int64, "dischg_cut_volt"⟩,
  ⟨"bat_status_0", .batStatus0, .int64, "bat_status_0"⟩,
  ⟨"bat_status_1", .batStatus1, .int64, "bat_status_1"⟩,
  ⟨"bat_status_2", .batStatus2, .int64, "bat_status_2"⟩,
  ⟨"bat_status_3", .batStatus3, .int64, "bat_status_3"⟩,
  ⟨"bat_status_4", .batStatus4, .int64, "bat_status_4"⟩,
  ⟨"bat_status_5", .batStatus5, .int64, "bat_status_5"⟩,
  ⟨"bat_status_6", .batStatus6, .int64, "bat_status_6"⟩,
  ⟨"bat_status_7", .batStatus7, .int64, "bat_status_7"⟩,
  ⟨"bat_status_8", .batStatus8, .int64, "bat_status_8"⟩,
  ⟨"bat_status_9", .batStatus9, .int64, "bat_status_9"⟩,
  ⟨"bat_status_inv", .batStatusInv, .int64, "bat_status_inv"⟩,
  ⟨"bat_count", .batCount, .int64, "bat_count"⟩,
  ⟨"bat_capacity", .batCapacity, .int64, "bat_capacity"⟩,
  ⟨"bat_current", .batCurrent, .int64, "bat_current"⟩,
  ⟨"bms_event_1", .bmsEvent1, .int64, "bms_event_1"⟩,
  ⟨"bms_event_2", .bmsEvent2, .int64, "bms_event_2"⟩,
  ⟨"max_cell_voltage", .maxCellVoltage, .int64, "max_cell_voltage"⟩,
  ⟨"min_cell_voltage", .minCellVoltage, .int64, "min_cell_voltage"⟩,
  ⟨"max_cell_temp", .maxCellTemp, .int64, "max_cell_temp"⟩,
  ⟨"min_cell_temp", .minCellTemp, .int64, "min_cell_temp"⟩,
  ⟨"bms_fw_update_state", .bmsFwUpdateState, .int64, "bms_fw_update_state"⟩,
  ⟨"cycle_count", .cycleCount, .int64, "cycle_count"⟩,
  ⟨"vbat_inv", .vbatInv, .double, "vbat_inv"⟩,
  ⟨"time", .time, .int64, "time"⟩]

def encoderBlocks : List EncoderBlock := [
  ⟨.status, "status", .status⟩,
  ⟨.vPv1, "v_pv_1", .vPv1⟩,
  ⟨.vPv2, "v_pv_2", .vPv2⟩,
  ⟨.vPv3, "v_pv_3", .vPv3⟩,
  ⟨.vBat, "v_bat", .vBat⟩,
  ⟨.soc, "soc", .soc⟩,
  ⟨.soh, "soh", .soh⟩,
  ⟨.pPv, "p_pv", .pPv⟩,
  ⟨.pPv1, "p_pv_1", .pPv1⟩,
  ⟨.pPv2, "p_pv_2", .pPv2⟩,
  ⟨.pPv3, "p_pv_3", .pPv3⟩,
  ⟨.pCharge, "p_charge", .pCharge⟩,
  ⟨.pDischarge, "p_discharge", .pDischarge⟩,
  ⟨.vAcR, "v_ac_r", .vAcR⟩,
  ⟨.vAcS, "v_ac_s", .vAcS⟩,
  ⟨.vAcT, "v_ac_t", .vAcT⟩,
  ⟨.fAc, "f_ac", .fAc⟩,
  ⟨.pInv, "p_inv", .pInv⟩,
  ⟨.pRec, "p_rec", .pRec⟩,
  ⟨.pf, "pf", .pf⟩,
  ⟨.vEpsR, "v_eps_r", .vEpsR⟩,
  ⟨.vEpsS, "v_eps_s", .vEpsS⟩,
  ⟨.vEpsT, "v_eps_t", .vEpsT⟩,
  ⟨.fEps, "f_eps", .fEps⟩,
  ⟨.pEps, "p_eps", .pEps⟩,
  ⟨.sEps, "s_eps", .sEps⟩,
  ⟨.pToGrid, "p_to_grid", .pToGrid⟩,
  ⟨.pToUser, "p_to_user", .pToUser⟩,
  ⟨.ePvDay, "e_pv_day", .ePvDay⟩,
  ⟨.ePvDay1, "e_pv_day_1", .ePvDay1⟩,
  ⟨.ePvDay2, "e_pv_day_2", .ePvDay2⟩,
  ⟨.ePvDay3, "e_pv_day_3", .ePvDay3⟩,
  ⟨.eInvDay, "e_inv_day", .eInvDay⟩,
  ⟨.eRecDay, "e_rec_day", .eRecDay⟩,
  ⟨.eChgDay, "e_chg_day", .eChgDay⟩,
  ⟨.eDischgDay, "e_dischg_day", .eDischgDay⟩,
  ⟨.eEpsDay, "e_eps_day", .eEpsDay⟩,
  ⟨.eToGridDay, "e_to_grid_day", .eToGridDay⟩,
  ⟨.eToUserDay, "e_to_user_day", .eToUserDay⟩,
  ⟨.vBus1, "v_bus_1", .vBus1⟩,
  ⟨.vBus2, "v_bus_2", .vBus2⟩,
  ⟨.ePvAll, "e_pv_all", .ePvAll⟩,
  ⟨.ePvAll1, "e_pv_all_1", .ePvAll1⟩,
  ⟨.ePvAll2, "e_pv_all_2", .ePvAll2⟩,
  ⟨.ePvAll3, "e_pv_all_3", .ePvAll3⟩,
  ⟨.eInvAll, "e_inv_all", .eInvAll⟩,
  ⟨.eRecAll, "e_rec_all", .eRecAll⟩,
  ⟨.eChgAll, "e_chg_all", .eChgAll⟩,
  ⟨.eDischgAll, "e_dischg_all", .eDischgAll⟩,
  ⟨.eEpsAll, "e_eps_all", .eEpsAll⟩,
  ⟨.eToGridAll, "e_to_grid_all", .eToGridAll⟩,
  ⟨.eToUserAll, "e_to_user_all", .eToUserAll⟩,
  ⟨.tInner, "t_inner", .tInner⟩,
  ⟨.tRad1, "t_rad_1", .tRad1⟩,
  ⟨.tRad2, "t_rad_2", .tRad2⟩,
  ⟨.tBat, "t_bat", .tBat⟩,
  ⟨.runtime, "runtime", .runtime⟩,
  ⟨.maxChgCurr, "max_chg_curr", .maxChgCurr⟩,
  ⟨.maxDischgCurr, "max_dischg_curr", .maxDischgCurr⟩,
  ⟨.chargeVoltRef, "charge_volt_ref", .chargeVoltRef⟩,
  ⟨.dischgCutVolt, "dischg_cut_volt", .dischgCutVolt⟩,
  ⟨.batStatus0, "bat_status_0", .batStatus0⟩,
  ⟨.batStatus1, "bat_status_1", .batStatus1⟩,
  ⟨.batStatus2, "bat_status_2", .batStatus2⟩,
  ⟨.batStatus3, "bat_status_3", .batStatus3⟩,
  ⟨.batStatus4, "bat_status_4", .batStatus4⟩,
  ⟨.batStatus5, "bat_status_5", .batStatus5⟩,
  ⟨.batStatus6, "bat_status_6", .batStatus6⟩,
  ⟨.batStatus7, "bat_status_7", .batStatus7⟩,
  ⟨.batStatus8, "bat_status_8", .batStatus8⟩,
  ⟨.batStatus9, "bat_status_9", .batStatus9⟩,
  ⟨.batStatusInv, "bat_status_inv", .batStatusInv⟩,
  ⟨.batCount, "bat_count", .batCount⟩,
  ⟨.batCapacity, "bat_capacity", .batCapacity⟩,
  ⟨.batCurrent, "bat_current", .batCurrent⟩,
  ⟨.bmsEvent1, "bms_event_1", .bmsEvent1⟩,
  ⟨.bmsEvent2, "bms_event_2", .bmsEvent2⟩,
  ⟨.maxCellVoltage, "max_cell_voltage", .maxCellVoltage⟩,
  ⟨.minCellVoltage, "min_cell_voltage", .minCellVoltage⟩,
  ⟨.maxCellTemp, "max_cell_temp", .maxCellTemp⟩,
  ⟨.minCellTemp, "min_cell_temp", .minCellTemp⟩,
  ⟨.bmsFwUpdateState, "bms_fw_update_state", .bmsFwUpdateState⟩,
  ⟨.cycleCount, "cycle_count", .cycleCount⟩,
  ⟨.vbatInv, "vbat_inv", .vbatInv⟩,
  ⟨.time, "time", .time⟩]

/-- Assignment of a `double` to a member of this type. -/
def convert : (t : CType) → CDouble → Option t.Value
  | .int64, v => toInt64 v
  | .double, v => some v

/-- Passing a member of this type as a `double`. -/
def toDouble : (t : CType) → t.Value → CDouble
  | .int64, n => ofInt64 n
  | .double, v => v

def decodeNumber (alloc : Allocator) (j : Json) (x : DataLog) (b : DecoderBlock) :
    Except Fault DataLog :=
  if hasObjectItem j (ascii b.tested) then
    if alloc.number b.target then
      if b.allocated.sizeof < b.target.ctype.sizeof then .error .overrun
      else match convert b.target.ctype (getNumberValue (getObjectItemCaseSensitive j (ascii b.fetched))) with
        | none => .error .badCast
        | some value => .ok (x.put b.target (some value))
    else .ok (x.put b.target none)
  else .ok x

/-- The `datalog` member, whose text goes to `strdup` untested. -/
def decodeText (alloc : Allocator) (j : Json) (x : DataLog) : Except Fault DataLog :=
  if hasObjectItem j (ascii "datalog") then
    match getStringValue (getObjectItemCaseSensitive j (ascii "datalog")) with
    | none => .error .nullString
    | some text => .ok { x with datalog := if alloc.text then some text else none }
  else .ok x

def cJSONGetDataLogValue (alloc : Allocator) : Option Json → Except Fault (Option DataLog)
  | none => .ok none
  | some j =>
    if alloc.whole then do
      let x ← decoderBlocks.foldlM (decodeNumber alloc j) .zero
      let x ← decodeText alloc j x
      return some x
    else .ok none

/-- `cJSON_AddNumberToObject` appends a member, or nothing when it cannot allocate. -/
def encodeNumber (alloc : Allocator) (x : DataLog) (members : List (Bytes × Json)) (b : EncoderBlock) :
    Except Fault (List (Bytes × Json)) :=
  match x.number b.tested with
  | none => .ok members
  | some _ =>
    match x.number b.printed with
    | none => .error .nullPointer
    | some value =>
      .ok (if alloc.number b.printed then
        members ++ [(ascii b.name, .number (toDouble b.printed.ctype value))] else members)

/-- The block of the text member has an empty body. -/
def cJSONCreateDataLog (alloc : Allocator) : Option DataLog → Except Fault (Option Json)
  | none => .ok none
  | some x =>
    if alloc.whole then do
      let members ← encoderBlocks.foldlM (encodeNumber alloc x) []
      return some (.object members)
    else .ok none

/-- The block of the decoder that treats a member consistently. -/
def Field.decoderBlock (f : Field) : DecoderBlock := ⟨f.name, f, f.ctype, f.name⟩

def Field.encoderBlock (f : Field) : EncoderBlock := ⟨f, f.name, f⟩

/-- The decoder has one block for each member of the struct, with its name and type. -/
theorem decoderBlocks_eq : decoderBlocks = Field.all.map Field.decoderBlock := rfl

theorem encoderBlocks_eq : encoderBlocks = Field.all.map Field.encoderBlock := rfl

theorem Field.mem_all (f : Field) : f ∈ Field.all := by
  cases f <;> decide

/-- No two member names agree when case is ignored: as numbers in base 256 they differ. -/
theorem memberNames_nodup :
    (lowered (ascii "datalog") :: Field.all.map fun f => lowered (ascii f.name)).Nodup := by
  apply List.Nodup.of_map fun bytes : Bytes => bytes.foldl (fun n b => n * 256 + b.toNat) 0
  decide +kernel

theorem Field.names_nodup : (Field.all.map fun f => lowered (ascii f.name)).Nodup :=
  (List.nodup_cons.mp memberNames_nodup).2

theorem Field.all_nodup : Field.all.Nodup := List.Nodup.of_map _ Field.names_nodup

theorem Field.eq_of_lowered {f g : Field}
    (same : lowered (ascii f.name) = lowered (ascii g.name)) : f = g :=
  List.inj_on_of_nodup_map Field.names_nodup f.mem_all g.mem_all same

theorem Field.lowered_ne_datalog (f : Field) : lowered (ascii f.name) ≠ lowered (ascii "datalog") := by
  intro same
  apply (List.nodup_cons.mp memberNames_nodup).1
  rw [← same]
  exact List.mem_map_of_mem f.mem_all

end XMeterLogger.DataLogCodec
