/- Module: BleMidi/Packet/SysexPaths
   source: ble_midi/src/ble_midi_packet.c (ble_midi_writer_add_sysex_msg, ble_midi_writer_*_sysex_*)
   digest: A whole sysex message and its start, data and end in turn come to the same writer. -/

import BleMidi.Packet.WriterSpec

set_option autoImplicit false
set_option relaxedAutoImplicit false

namespace BleMidi.Packet.SysexPaths

open BleMidi.Packet.Bytes
open BleMidi.Packet.PacketWriter
open BleMidi.Packet.WriterSpec

variable {maxSize : Nat}

/-- The writer behind `ble_midi_writer_start_sysex_msg`. -/
def startedWriter (w : Writer maxSize) (timestamp : UInt16) : Writer maxSize :=
  (writerStartSysexMsg w timestamp).2

/-- The writer behind `ble_midi_writer_add_sysex_data` in turn. -/
def filledWriter (w : Writer maxSize) (data : List UInt8) (timestamp : UInt16) : Writer maxSize :=
  (writerAddSysexData (startedWriter w timestamp) data timestamp).2

/-- Start, data and end of a sysex message all succeed, and all of the data is taken. -/
structure Streams (w : Writer maxSize) (data : List UInt8) (timestamp : UInt16) : Prop where
  start : (writerStartSysexMsg w timestamp).1 = .success
  taken : (writerAddSysexData (startedWriter w timestamp) data timestamp).1 = .ok data.length
  finish : (writerEndSysexMsg (filledWriter w data timestamp) timestamp).1 = .success

variable {w : Writer maxSize} {data : List UInt8} {t : UInt16}

private theorem putAll_with (w : Writer maxSize) (flag : Bool) (running : UInt8)
    (bytes : List UInt8) :
    ({ w with inSysexMsg := flag, prevRunningStatusByte := running } :
        Writer maxSize).putAll bytes =
      { w.putAll bytes with inSysexMsg := flag, prevRunningStatusByte := running } := by
  induction bytes generalizing w with
  | nil => rfl
  | cons byte bytes ih => exact ih (w.put byte)

/-- The bytes of a whole sysex message, behind a header that is due. -/
def wholeBytes (w : Writer maxSize) (data : List UInt8) (t : UInt16) : List UInt8 :=
  w.header t ++ (timestampByte t :: 0xf0 :: (data ++ [timestampByte t, 0xf7]))

private theorem wholeBytes_eq (w : Writer maxSize) (data : List UInt8) (t : UInt16) :
    wholeBytes w data t = statusBytes w t 0xf0 ++ (data ++ [timestampByte t, 0xf7]) := by
  unfold wholeBytes statusBytes
  rw [List.append_assoc]
  rfl

private theorem start_success (hclosed : w.inSysexMsg = false) :
    (writerStartSysexMsg w t).1 = .success ↔ HasRoom w (statusBytes w t 0xf0) := by
  rw [writerStartSysexMsg_eq, if_neg (by simp [hclosed]), added]
  split
  · rename_i room
    exact iff_of_true rfl room
  · rename_i full
    exact iff_of_false PacketError.noConfusion full

private theorem startedWriter_eq (hclosed : w.inSysexMsg = false)
    (hroom : HasRoom w (statusBytes w t 0xf0)) :
    startedWriter w t = { w.putAll (statusBytes w t 0xf0) with
      inSysexMsg := true, prevRunningStatusByte := 0 } := by
  rw [startedWriter, writerStartSysexMsg_eq, if_neg (by simp [hclosed]), added, if_pos hroom]

/-- Behind the start the packet is not empty, and a sysex message is open in it. -/
private structure Opened (w : Writer maxSize) : Prop where
  size_le : w.txBufSize.toNat ≤ w.txBufMaxSize.toNat
  flag : w.inSysexMsg = true
  written : w.txBufSize ≠ 0

private theorem Opened.header (h : Opened w) (t : UInt16) : w.header t = [] := if_neg h.written

private theorem Opened.dataRoom (h : Opened w) :
    dataRoom w = w.txBufMaxSize.toNat - w.txBufSize.toNat := by
  rw [WriterSpec.dataRoom, if_neg h.written, Nat.sub_zero]

private theorem opened_start (hclosed : w.inSysexMsg = false)
    (hroom : HasRoom w (statusBytes w t 0xf0)) :
    Opened (startedWriter w t) ∧ (startedWriter w t).txBufMaxSize = w.txBufMaxSize ∧
      (startedWriter w t).txBufSize.toNat =
        w.txBufSize.toNat + (statusBytes w t 0xf0).length := by
  have length : 2 ≤ (statusBytes w t 0xf0).length := by
    rw [statusBytes, List.length_append]
    exact Nat.le_add_left 2 _
  have size := hroom.size
  have fits : (w.putAll (statusBytes w t 0xf0)).txBufSize.toNat ≤ w.txBufMaxSize.toNat := by
    rw [size]
    exact hroom
  rw [startedWriter_eq hclosed hroom]
  refine ⟨⟨?_, rfl, ?_⟩, putAll_txBufMaxSize _ _, size⟩
  · change _ ≤ (w.putAll (statusBytes w t 0xf0)).txBufMaxSize.toNat
    rw [putAll_txBufMaxSize]
    exact fits
  · intro empty
    have zero : (w.putAll (statusBytes w t 0xf0)).txBufSize.toNat = 0 := by
      change (w.putAll (statusBytes w t 0xf0)).txBufSize = 0 at empty
      rw [empty]
      rfl
    omega

private theorem Opened.takes (h : Opened w) (hdata : ∀ b ∈ data, isDataByte b = true) :
    ((writerAddSysexData w data t).1 = .ok data.length ↔ HasRoom w data) ∧
      (HasRoom w data → (writerAddSysexData w data t).2 = w.putAll data) := by
  have positive : 0 < w.txBufMaxSize.toNat := by
    have nonzero : w.txBufSize.toNat ≠ 0 := fun zero => h.written (UInt16.toNat_inj.mp zero)
    have fits := h.size_le
    omega
  obtain ⟨eq, -⟩ := writerAddSysexData_eq h.size_le (.inl h.flag) hdata positive t
  have size_le := h.size_le
  rw [eq, h.header, List.nil_append, h.dataRoom]
  unfold HasRoom
  constructor
  · constructor
    · intro taken
      have count := Except.ok.inj taken
      omega
    · intro room
      rw [Nat.min_eq_left (by omega)]
  · intro room
    change w.putAll (data.take _) = w.putAll data
    rw [List.take_of_length_le (by omega)]

private theorem Opened.finish (h : Opened w) :
    ((writerEndSysexMsg w t).1 = .success ↔ HasRoom w [timestampByte t, 0xf7]) ∧
      (HasRoom w [timestampByte t, 0xf7] →
        (writerEndSysexMsg w t).2 =
          { w.putAll [timestampByte t, 0xf7] with inSysexMsg := false }) := by
  have bytes : statusBytes w t 0xf7 = [timestampByte t, 0xf7] := by
    rw [statusBytes, h.header]
    rfl
  rw [writerEndSysexMsg_eq, if_pos h.flag, added, bytes]
  by_cases room : HasRoom w [timestampByte t, 0xf7]
  · rw [if_pos room]
    exact ⟨iff_of_true rfl room, fun _ => rfl⟩
  · rw [if_neg room]
    exact ⟨iff_of_false PacketError.noConfusion room, fun has => absurd has room⟩

private theorem Opened.putAll (h : Opened w) (hroom : HasRoom w data) : Opened (w.putAll data) := by
  have size := hroom.size
  refine ⟨?_, ?_, ?_⟩
  · rw [size, putAll_txBufMaxSize]
    exact hroom
  · rw [putAll_inSysexMsg]
    exact h.flag
  · intro empty
    rw [empty] at size
    have zero : w.txBufSize.toNat = 0 := by
      change 0 = _ at size
      omega
    exact h.written (UInt16.toNat_inj.mp zero)

private theorem streams_iff (hclosed : w.inSysexMsg = false)
    (hdata : ∀ b ∈ data, isDataByte b = true) :
    Streams w data t ↔ HasRoom w (wholeBytes w data t) := by
  have length : (wholeBytes w data t).length =
      (statusBytes w t 0xf0).length + (data.length + 2) := by
    rw [wholeBytes_eq, List.length_append, List.length_append]
    rfl
  constructor
  · rintro ⟨start, taken, finish⟩
    obtain ⟨opened, limit, size⟩ := opened_start hclosed ((start_success hclosed).mp start)
    have room := (opened.takes hdata).1.mp taken
    rw [filledWriter, (opened.takes hdata).2 room] at finish
    have last := (opened.putAll room).finish.1.mp finish
    unfold HasRoom at last ⊢
    rw [room.size, putAll_txBufMaxSize, limit, size, List.length_cons, List.length_cons,
      List.length_nil] at last
    rw [length]
    omega
  · intro room
    have whole : w.txBufSize.toNat + ((statusBytes w t 0xf0).length + (data.length + 2)) ≤
        w.txBufMaxSize.toNat := by
      rw [← length]
      exact room
    have first : HasRoom w (statusBytes w t 0xf0) := by
      unfold HasRoom
      omega
    obtain ⟨opened, limit, size⟩ := opened_start hclosed first
    have second : HasRoom (startedWriter w t) data := by
      unfold HasRoom
      rw [limit, size]
      omega
    refine ⟨(start_success hclosed).mpr first, (opened.takes hdata).1.mpr second, ?_⟩
    rw [filledWriter, (opened.takes hdata).2 second]
    apply (opened.putAll second).finish.1.mpr
    unfold HasRoom
    rw [second.size, putAll_txBufMaxSize, limit, size, List.length_cons, List.length_cons,
      List.length_nil]
    omega

private theorem end_eq (hclosed : w.inSysexMsg = false) (hdata : ∀ b ∈ data, isDataByte b = true)
    (hroom : HasRoom w (wholeBytes w data t)) :
    (writerEndSysexMsg (filledWriter w data t) t).2 =
      { w.putAll (wholeBytes w data t) with prevRunningStatusByte := 0 } := by
  obtain ⟨start, taken, finish⟩ := (streams_iff hclosed hdata).mpr hroom
  have first := (start_success hclosed).mp start
  have opened := (opened_start hclosed first).1
  have second := (opened.takes hdata).1.mp taken
  rw [filledWriter, (opened.takes hdata).2 second] at finish ⊢
  have last := (opened.putAll second).finish.1.mp finish
  have bytes : w.putAll (wholeBytes w data t) =
      ((w.putAll (statusBytes w t 0xf0)).putAll data).putAll [timestampByte t, 0xf7] := by
    rw [wholeBytes_eq, putAll_append, putAll_append]
  have closed : (w.putAll (wholeBytes w data t)).inSysexMsg = false := by
    rw [putAll_inSysexMsg, hclosed]
  rw [(opened.putAll second).finish.2 last, startedWriter_eq hclosed first,
    putAll_with (w.putAll (statusBytes w t 0xf0)) true 0 data, putAll_with _ true 0, ← bytes,
    ← closed]

/-- A whole sysex message succeeds exactly when its start, its data and its end in turn do, and then
both ways leave the same writer. -/
theorem wholeMessage_iff_streams (hclosed : w.inSysexMsg = false)
    (hdata : ∀ b ∈ data, isDataByte b = true) (hlength : data.length < 2 ^ 31 - 5)
    (t : UInt16) :
    ((writerAddSysexMsg w (sysexMessage data) t).1 = .success ↔ Streams w data t) ∧
      (Streams w data t → (writerEndSysexMsg (filledWriter w data t) t).2 =
        (writerAddSysexMsg w (sysexMessage data) t).2) := by
  have short : (sysexMessage data).length < 2 ^ 31 - 3 := by
    rw [sysexMessage, List.length_cons, List.length_append, List.length_singleton]
    omega
  have whole := writerAddSysexMsg_eq w t hdata short
  change _ = added w (wholeBytes w data t) _ at whole
  rw [whole, added, streams_iff hclosed hdata]
  by_cases room : HasRoom w (wholeBytes w data t)
  · rw [if_pos room]
    exact ⟨iff_of_true rfl room, fun _ => end_eq hclosed hdata room⟩
  · rw [if_neg room]
    exact ⟨iff_of_false PacketError.noConfusion room, fun has => absurd has room⟩

/-- A message that fits a packet of 10 bytes exactly. -/
theorem wholeMessage_exact_fit :
    let w : Writer 64 := ⟨.replicate 64 0, 10, 0, 0, 0, 0, false, true, false⟩
    (writerAddSysexMsg w (sysexMessage [1, 2, 3, 4, 5]) 99).1 = .success ∧
      (writerEndSysexMsg (filledWriter w [1, 2, 3, 4, 5] 99) 99).2 =
        (writerAddSysexMsg w (sysexMessage [1, 2, 3, 4, 5]) 99).2 := by
  intro w
  have data : ∀ b ∈ [1, 2, 3, 4, 5], isDataByte b = true := List.all_eq_true.mp rfl
  obtain ⟨agree, same⟩ := wholeMessage_iff_streams (w := w) rfl data (by decide) 99
  have whole : (writerAddSysexMsg w (sysexMessage [1, 2, 3, 4, 5]) 99).1 = .success := by
    decide +kernel
  exact ⟨whole, same (agree.mp whole)⟩

end BleMidi.Packet.SysexPaths
