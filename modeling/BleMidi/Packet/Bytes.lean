/- Module: BleMidi/Packet/Bytes
   source: ble_midi/src/ble_midi_packet.c (byte helpers), ble_midi/src/ble_midi_packet.h
   digest: Timestamp bytes, status byte classes and message sizes of BLE MIDI. -/

import Mathlib.Data.UInt
import Mathlib.Tactic.IntervalCases

set_option autoImplicit false
set_option relaxedAutoImplicit false

namespace BleMidi.Packet.Bytes

/-- `enum ble_midi_packet_error_t`. -/
inductive PacketError
  | success
  | packetFull
  | alreadyInSysexSequence
  | notInSysexSequence
  | invalidDataByte
  | invalidStatusByte
  | invalidMessage
  | unexpectedEndOfData
  | unexpectedDataByte
  | unexpectedStatusByte
  | invalidHeaderByte
  deriving DecidableEq, Repr

/-- The six high bits of a 13 bit BLE MIDI timestamp. -/
def timestampHigh (timestampMs : UInt16) : UInt8 :=
  ((0x3f : UInt16) &&& (timestampMs >>> 7)).toUInt8

/-- The seven low bits of a 13 bit BLE MIDI timestamp. -/
def timestampLow (timestampMs : UInt16) : UInt8 := ((0x7f : UInt16) &&& timestampMs).toUInt8

def headerByte (timestampMs : UInt16) : UInt8 := 0x80 ||| timestampHigh timestampMs

def timestampByte (timestampMs : UInt16) : UInt8 := 0x80 ||| timestampLow timestampMs

def timestampMs (timestampHigh timestampByte : UInt8) : UInt16 :=
  (timestampHigh.toUInt16 <<< 7) ||| (0x7f &&& timestampByte).toUInt16

def isStatusByte (byte : UInt8) : Bool := 0x80 ≤ byte

def isDataByte (byte : UInt8) : Bool := byte < 0x80

def isRealtimeMessage (statusByte : UInt8) : Bool :=
  match statusByte with
  | 0xf8 | 0xfa | 0xfb | 0xfc | 0xfe | 0xff => true
  | _ => false

def isSystemCommonMessage (statusByte : UInt8) : Bool :=
  match statusByte with
  | 0xf1 | 0xf3 | 0xf2 | 0xf6 => true
  | _ => false

def isChannelMessage (statusByte : UInt8) : Bool :=
  match statusByte >>> 4 with
  | 0x8 | 0x9 | 0xa | 0xb | 0xe | 0xc | 0xd => true
  | _ => false

/-- The number of bytes of a message, status included; 0 when the byte starts no message. -/
def messageSize (statusByte : UInt8) : UInt8 :=
  match statusByte >>> 4 with
  | 0x8 | 0x9 | 0xa | 0xb | 0xe => 3
  | 0xc | 0xd => 2
  | _ =>
    match statusByte with
    | 0xf8 | 0xfa | 0xfb | 0xfc | 0xfe | 0xff => 1
    | 0xf1 | 0xf3 => 2
    | 0xf2 => 3
    | 0xf6 => 1
    | _ => 0

private theorem forall_byte {P : UInt8 → Prop} (h : ∀ n : Fin 256, P (UInt8.ofFin n))
    (byte : UInt8) : P byte := by
  simpa using h byte.toFin

theorem not_isDataByte {byte : UInt8} : isDataByte byte = false ↔ isStatusByte byte = true := by
  simp [isDataByte, isStatusByte]

theorem messageSize_le (s : UInt8) : (messageSize s).toNat ≤ 3 := by
  revert s
  apply forall_byte
  decide +kernel

theorem isStatusByte_of_messageSize {s : UInt8} (h : messageSize s ≠ 0) :
    isStatusByte s = true := by
  revert s
  apply forall_byte
  decide +kernel

theorem messageSize_channel {s : UInt8} (h : isChannelMessage s = true) :
    messageSize s = 2 ∨ messageSize s = 3 := by
  revert s
  apply forall_byte
  decide +kernel

theorem messageSize_realtime {s : UInt8} (h : isRealtimeMessage s = true) :
    messageSize s = 1 := by
  revert s
  apply forall_byte
  decide +kernel

/-- The three classes are exactly the statuses that have a size, and they are disjoint. -/
theorem messageSize_class (s : UInt8) :
    messageSize s ≠ 0 ↔
      isChannelMessage s = true ∨ isRealtimeMessage s = true ∨ isSystemCommonMessage s = true := by
  revert s
  apply forall_byte
  decide +kernel

theorem not_channel_of_realtime {s : UInt8} (h : isRealtimeMessage s = true) :
    isChannelMessage s = false := by
  revert s
  apply forall_byte
  decide +kernel

theorem isStatusByte_of_realtime {s : UInt8} (h : isRealtimeMessage s = true) :
    isStatusByte s = true :=
  isStatusByte_of_messageSize (by rw [messageSize_realtime h]; decide)

theorem noteOff_noteOn {s : UInt8} (h : s >>> 4 = 0x8) :
    messageSize s = 3 ∧ isChannelMessage s = true ∧ messageSize (0x90 ||| (s &&& 0xf)) = 3 ∧
      isChannelMessage (0x90 ||| (s &&& 0xf)) = true := by
  revert s
  apply forall_byte
  decide +kernel

private theorem or_128 (n : Nat) (h : n < 128) : 128 ||| n = 128 + n := by
  have := Nat.two_pow_add_eq_or_of_lt (i := 7) (b := n) (by simpa using h) 1
  simpa using this.symm

private theorem and_127 (n : Nat) : 127 &&& n = n % 128 := by
  have := Nat.and_two_pow_sub_one_eq_mod n 7
  rw [Nat.and_comm]
  simpa using this

private theorem and_63 (n : Nat) : 63 &&& n = n % 64 := by
  have := Nat.and_two_pow_sub_one_eq_mod n 6
  rw [Nat.and_comm]
  simpa using this

@[simp] theorem timestampHigh_toNat (t : UInt16) :
    (timestampHigh t).toNat = t.toNat / 128 % 64 := by
  simp only [timestampHigh, UInt16.toNat_toUInt8, UInt16.toNat_and, UInt16.toNat_shiftRight]
  simp only [UInt16.reduceToNat, Nat.reduceMod, Nat.shiftRight_eq_div_pow, and_63]
  omega

@[simp] theorem timestampLow_toNat (t : UInt16) : (timestampLow t).toNat = t.toNat % 128 := by
  simp only [timestampLow, UInt16.toNat_toUInt8, UInt16.toNat_and, UInt16.reduceToNat, and_127]
  omega

@[simp] theorem headerByte_toNat (t : UInt16) :
    (headerByte t).toNat = 128 + t.toNat / 128 % 64 := by
  simp only [headerByte, UInt8.toNat_or, timestampHigh_toNat, UInt8.reduceToNat]
  exact or_128 _ (by omega)

@[simp] theorem timestampByte_toNat (t : UInt16) :
    (timestampByte t).toNat = 128 + t.toNat % 128 := by
  simp only [timestampByte, UInt8.toNat_or, timestampLow_toNat, UInt8.reduceToNat]
  exact or_128 _ (by omega)

/-- The timestamp put together from its high bits and a timestamp byte. -/
theorem timestampMs_toNat {high : UInt8} (byte : UInt8) (h : high.toNat < 64) :
    (timestampMs high byte).toNat = high.toNat * 128 + byte.toNat % 128 := by
  have shifted : (high.toUInt16 <<< 7).toNat = 2 ^ 7 * high.toNat := by
    simp only [UInt16.toNat_shiftLeft, UInt8.toNat_toUInt16, UInt16.reduceToNat, Nat.reduceMod,
      Nat.shiftLeft_eq]
    omega
  have low : ((0x7f &&& byte).toUInt16).toNat = byte.toNat % 128 := by
    simp only [UInt8.toNat_toUInt16, UInt8.toNat_and, UInt8.reduceToNat, and_127]
  rw [timestampMs, UInt16.toNat_or, shifted, low,
    ← Nat.two_pow_add_eq_or_of_lt (i := 7) (by omega)]
  omega

theorem isStatusByte_headerByte (t : UInt16) : isStatusByte (headerByte t) = true := by
  simp only [isStatusByte, decide_eq_true_eq, UInt8.le_iff_toNat_le, headerByte_toNat]
  simp

theorem isStatusByte_timestampByte (t : UInt16) : isStatusByte (timestampByte t) = true := by
  simp only [isStatusByte, decide_eq_true_eq, UInt8.le_iff_toNat_le, timestampByte_toNat]
  simp

theorem high_headerByte (t : UInt16) : 0x3f &&& headerByte t = timestampHigh t := by
  apply UInt8.toNat_inj.mp
  simp only [UInt8.toNat_and, headerByte_toNat, timestampHigh_toNat, UInt8.reduceToNat, and_63]
  omega

end BleMidi.Packet.Bytes
