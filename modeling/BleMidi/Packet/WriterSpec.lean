/- Module: BleMidi/Packet/WriterSpec
   source: ble_midi/src/ble_midi_packet.c (ble_midi_writer_*)
   digest: What each writer function appends to the packet, and when it refuses to. -/

import BleMidi.Packet.PacketWriter
import Mathlib.Tactic.Linarith

set_option autoImplicit false
set_option relaxedAutoImplicit false

namespace BleMidi.Packet.WriterSpec

open BleMidi.Packet.Bytes
open BleMidi.Packet.PacketWriter

variable {maxSize : Nat}

theorem putAll_fields (w : Writer maxSize) (bytes : List UInt8) :
    ∃ txBuf txBufSize, w.putAll bytes = { w with txBuf := txBuf, txBufSize := txBufSize } := by
  induction bytes generalizing w with
  | nil => exact ⟨w.txBuf, w.txBufSize, rfl⟩
  | cons byte bytes ih =>
    obtain ⟨txBuf, txBufSize, h⟩ := ih (w.put byte)
    exact ⟨txBuf, txBufSize, h⟩

@[simp] theorem putAll_txBufMaxSize (w : Writer maxSize) (bytes : List UInt8) :
    (w.putAll bytes).txBufMaxSize = w.txBufMaxSize := by
  obtain ⟨_, _, h⟩ := putAll_fields w bytes
  rw [h]

@[simp] theorem putAll_inSysexMsg (w : Writer maxSize) (bytes : List UInt8) :
    (w.putAll bytes).inSysexMsg = w.inSysexMsg := by
  obtain ⟨_, _, h⟩ := putAll_fields w bytes
  rw [h]

@[simp] theorem putAll_prevStatusByte (w : Writer maxSize) (bytes : List UInt8) :
    (w.putAll bytes).prevStatusByte = w.prevStatusByte := by
  obtain ⟨_, _, h⟩ := putAll_fields w bytes
  rw [h]

@[simp] theorem putAll_prevRunningStatusByte (w : Writer maxSize) (bytes : List UInt8) :
    (w.putAll bytes).prevRunningStatusByte = w.prevRunningStatusByte := by
  obtain ⟨_, _, h⟩ := putAll_fields w bytes
  rw [h]

@[simp] theorem putAll_prevTimestamp (w : Writer maxSize) (bytes : List UInt8) :
    (w.putAll bytes).prevTimestamp = w.prevTimestamp := by
  obtain ⟨_, _, h⟩ := putAll_fields w bytes
  rw [h]

@[simp] theorem putAll_runningStatusEnabled (w : Writer maxSize) (bytes : List UInt8) :
    (w.putAll bytes).runningStatusEnabled = w.runningStatusEnabled := by
  obtain ⟨_, _, h⟩ := putAll_fields w bytes
  rw [h]

@[simp] theorem putAll_noteOffAsNoteOn (w : Writer maxSize) (bytes : List UInt8) :
    (w.putAll bytes).noteOffAsNoteOn = w.noteOffAsNoteOn := by
  obtain ⟨_, _, h⟩ := putAll_fields w bytes
  rw [h]

theorem putAll_append (w : Writer maxSize) (v bytes : List UInt8) :
    w.putAll (v ++ bytes) = (w.putAll v).putAll bytes :=
  List.foldl_append

private theorem put_size {w : Writer maxSize} (byte : UInt8)
    (h : w.txBufSize.toNat + 1 < 2 ^ 16) :
    (w.put byte).txBufSize.toNat = w.txBufSize.toNat + 1 := by
  simp only [Writer.put, UInt16.toNat_add, UInt16.reduceToNat]
  omega

theorem putAll_size {w : Writer maxSize} {bytes : List UInt8}
    (h : w.txBufSize.toNat + bytes.length < 2 ^ 16) :
    (w.putAll bytes).txBufSize.toNat = w.txBufSize.toNat + bytes.length := by
  induction bytes generalizing w with
  | nil => rfl
  | cons byte bytes ih =>
    rw [List.length_cons] at h
    have size := put_size (w := w) byte (by omega)
    have rest : ((w.put byte).putAll bytes).txBufSize.toNat = _ := ih (by omega)
    change ((w.put byte).putAll bytes).txBufSize.toNat = _
    rw [rest, size, List.length_cons]
    omega

private theorem put_payload {w : Writer maxSize} (byte : UInt8)
    (inside : w.txBufSize.toNat < maxSize) (small : w.txBufSize.toNat + 1 < 2 ^ 16) :
    (w.put byte).payload = w.payload ++ [byte] := by
  have position : w.txBufSize.toNat < w.txBuf.toList.length := by simpa using inside
  have written : (w.put byte).txBuf.toList = w.txBuf.toList.set w.txBufSize.toNat byte := by
    simp [Writer.put]
  unfold Writer.payload
  rw [put_size byte small, written, List.take_add_one, List.take_set_of_le le_rfl,
    List.getElem?_set_self position]
  rfl

theorem putAll_payload {w : Writer maxSize} {bytes : List UInt8}
    (inside : w.txBufSize.toNat + bytes.length ≤ maxSize)
    (small : w.txBufSize.toNat + bytes.length < 2 ^ 16) :
    (w.putAll bytes).payload = w.payload ++ bytes := by
  induction bytes generalizing w with
  | nil => simp [Writer.putAll]
  | cons byte bytes ih =>
    rw [List.length_cons] at inside small
    have size := put_size (w := w) byte (by omega)
    change ((w.put byte).putAll bytes).payload = _
    rw [ih (by omega) (by omega), put_payload byte (by omega) (by omega)]
    simp

/-- The packet is not longer than its maximum size, nor that than the buffer. -/
structure Fits (w : Writer maxSize) : Prop where
  size_le : w.txBufSize.toNat ≤ w.txBufMaxSize.toNat
  max_le : w.txBufMaxSize.toNat ≤ maxSize

/-- There is room for the bytes. -/
def HasRoom (w : Writer maxSize) (bytes : List UInt8) : Prop :=
  w.txBufSize.toNat + bytes.length ≤ w.txBufMaxSize.toNat

instance (w : Writer maxSize) (bytes : List UInt8) : Decidable (HasRoom w bytes) :=
  inferInstanceAs (Decidable (_ ≤ _))

namespace HasRoom

variable {w : Writer maxSize} {bytes : List UInt8}

theorem size (h : HasRoom w bytes) :
    (w.putAll bytes).txBufSize.toNat = w.txBufSize.toNat + bytes.length := by
  have bound := UInt16.toNat_lt w.txBufMaxSize
  unfold HasRoom at h
  exact putAll_size (by omega)

theorem payload (h : HasRoom w bytes) (hmax : w.txBufMaxSize.toNat ≤ maxSize) :
    (w.putAll bytes).payload = w.payload ++ bytes := by
  have bound := UInt16.toNat_lt w.txBufMaxSize
  unfold HasRoom at h
  exact putAll_payload (by omega) (by omega)

theorem fits (h : HasRoom w bytes) (hmax : w.txBufMaxSize.toNat ≤ maxSize) :
    Fits (w.putAll bytes) := by
  refine ⟨?_, by simpa using hmax⟩
  rw [h.size, putAll_txBufMaxSize]
  exact h

end HasRoom

theorem payload_length {w : Writer maxSize} (h : w.txBufSize.toNat ≤ maxSize) :
    w.payload.length = w.txBufSize.toNat := by
  simpa [Writer.payload] using h

theorem payload_eq_nil {w : Writer maxSize} (h : w.txBufSize.toNat ≤ maxSize) :
    w.payload = [] ↔ w.txBufSize = 0 := by
  rw [← List.length_eq_zero_iff, payload_length h, ← UInt16.toNat_inj]
  rfl

theorem header_length (w : Writer maxSize) (timestamp : UInt16) :
    (w.header timestamp).length = if w.txBufSize = 0 then 1 else 0 := by
  unfold Writer.header
  split <;> rfl

private theorem room_lt (w : Writer maxSize) (n : Nat) :
    w.room < n ↔ ¬ w.txBufSize.toNat + n ≤ w.txBufMaxSize.toNat := by
  unfold Writer.room
  omega

/-- A status byte with its timestamp is appended if there is room for it and for a header that
is due. -/
theorem appendStatusByte_eq (w : Writer maxSize) (timestamp : UInt16) (status : UInt8) :
    appendStatusByteWithTimestamp w timestamp status =
      if HasRoom w (w.header timestamp ++ [timestampByte timestamp, status]) then
        (.success, w.putAll (w.header timestamp ++ [timestampByte timestamp, status]))
      else (.packetFull, w) := by
  have count : (2 + if w.txBufSize = 0 then 1 else 0 : Int) =
      ((w.header timestamp ++ [timestampByte timestamp, status]).length : Nat) := by
    rw [List.length_append, header_length]
    split <;> rfl
  unfold appendStatusByteWithTimestamp
  simp only [count, room_lt]
  unfold HasRoom
  exact ite_not _ _ _

/-- What a function that adds `bytes` to the packet returns. -/
def added (w : Writer maxSize) (bytes : List UInt8) (f : Writer maxSize → Writer maxSize) :
    PacketError × Writer maxSize :=
  if HasRoom w bytes then (.success, f (w.putAll bytes)) else (.packetFull, w)

/-- The bytes that start and end a sysex message. -/
def statusBytes (w : Writer maxSize) (timestamp : UInt16) (status : UInt8) : List UInt8 :=
  w.header timestamp ++ [timestampByte timestamp, status]

theorem writerStartSysexMsg_eq (w : Writer maxSize) (timestamp : UInt16) :
    writerStartSysexMsg w timestamp =
      if w.inSysexMsg then (.alreadyInSysexSequence, w)
      else added w (statusBytes w timestamp 0xf0) fun w' =>
        { w' with inSysexMsg := true, prevRunningStatusByte := 0 } := by
  unfold writerStartSysexMsg added statusBytes
  rw [appendStatusByte_eq]
  by_cases room : HasRoom w (w.header timestamp ++ [timestampByte timestamp, 0xf0])
  · simp only [if_pos room]
  · simp only [if_neg room]

theorem writerEndSysexMsg_eq (w : Writer maxSize) (timestamp : UInt16) :
    writerEndSysexMsg w timestamp =
      if w.inSysexMsg then added w (statusBytes w timestamp 0xf7) fun w' =>
        { w' with inSysexMsg := false }
      else (.notInSysexSequence, w) := by
  unfold writerEndSysexMsg added statusBytes
  rw [appendStatusByte_eq]
  cases w.inSysexMsg with
  | true =>
    by_cases room : HasRoom w (w.header timestamp ++ [timestampByte timestamp, 0xf7])
    · simp only [if_pos room, Bool.not_true, Bool.false_eq_true, if_false, if_true]
    · simp only [if_neg room, Bool.not_true, Bool.false_eq_true, if_false, if_true]
  | false => rfl

/-- The bytes of a message outside sysex messages. -/
def messageBytesToAppend (w : Writer maxSize) (m : MessageBytes) (timestamp : UInt16) :
    List UInt8 :=
  w.bytesToAppend (w.choose m.byte0 m.byte2).statusByte
    ([m.byte1, (w.choose m.byte0 m.byte2).dataByte1].take (messageSize m.byte0 - 1).toNat)
    timestamp

/-- What `ble_midi_writer_add_msg` keeps of a message outside sysex messages. -/
def remember (w : Writer maxSize) (m : MessageBytes) (timestamp : UInt16)
    (w' : Writer maxSize) : Writer maxSize :=
  { w' with
    prevStatusByte := (w.choose m.byte0 m.byte2).statusByte
    prevRunningStatusByte := (w.choose m.byte0 m.byte2).runningStatusByte
    prevTimestamp := timestamp }

/-- A message that the writer accepts outside sysex messages. -/
def ValidMessage (m : MessageBytes) : Prop :=
  messageSize m.byte0 ≠ 0 ∧ isDataByte m.byte1 = true ∧ isDataByte m.byte2 = true

instance (m : MessageBytes) : Decidable (ValidMessage m) :=
  inferInstanceAs (Decidable (_ ∧ _))

theorem writerAddMsg_inside {w : Writer maxSize} (hw : w.inSysexMsg = true) (m : MessageBytes)
    (timestamp : UInt16) :
    writerAddMsg w m timestamp =
      if isRealtimeMessage m.byte0 then added w [timestampByte timestamp, m.byte0] id
      else (.invalidStatusByte, w) := by
  have count : 2 ≤ w.room ↔ HasRoom w [timestampByte timestamp, m.byte0] := by
    rw [← not_lt, show (2 : Int) = (2 : Nat) from rfl, room_lt, not_not]
    rfl
  unfold writerAddMsg added
  rw [if_pos hw]
  simp only [count]
  rfl

theorem writerAddMsg_outside {w : Writer maxSize} (hw : w.inSysexMsg = false) {m : MessageBytes}
    (hm : ValidMessage m) (timestamp : UInt16) :
    writerAddMsg w m timestamp =
      added w (messageBytesToAppend w m timestamp) (remember w m timestamp) := by
  obtain ⟨size, data1, data2⟩ := hm
  unfold writerAddMsg
  rw [if_neg (by simp [hw])]
  simp only [size, if_false, data1, data2, Bool.not_true, Bool.or_false, Bool.false_eq_true]
  rfl

theorem writerAddMsg_invalid {w : Writer maxSize} (hw : w.inSysexMsg = false) {m : MessageBytes}
    (hm : ¬ ValidMessage m) (timestamp : UInt16) :
    ∃ code, code ≠ .success ∧ code ≠ .packetFull ∧ writerAddMsg w m timestamp = (code, w) := by
  unfold writerAddMsg
  rw [if_neg (by simp [hw])]
  by_cases size : messageSize m.byte0 = 0
  · refine ⟨.invalidStatusByte, by decide, by decide, ?_⟩
    simp only [size, if_true]
  · refine ⟨.invalidDataByte, by decide, by decide, ?_⟩
    have data : (!isDataByte m.byte1 || !isDataByte m.byte2) = true := by
      by_contra both
      simp only [Bool.or_eq_true, Bool.not_eq_true', not_or, Bool.not_eq_false] at both
      exact hm ⟨size, both.1, both.2⟩
    simp only [size, if_false, data, if_true]

/-- A whole sysex message, from its start byte to its end byte. -/
def sysexMessage (data : List UInt8) : List UInt8 := 0xf0 :: (data ++ [0xf7])

/-- What `sysexMsgBytes` makes of a byte of a message of `count` bytes. -/
def sysexMsgPiece (count : Nat) (timestamp : UInt16) (p : UInt8 × Nat) : List UInt8 :=
  if p.2 = 0 ∨ p.2 = count - 1 then [timestampByte timestamp, p.1] else [p.1]

theorem sysexMsgBytes_sysexMessage (data : List UInt8) (timestamp : UInt16) :
    sysexMsgBytes (sysexMessage data) timestamp =
      timestampByte timestamp :: 0xf0 :: (data ++ [timestampByte timestamp, 0xf7]) := by
  have inner : (data.zipIdx 1).flatMap (sysexMsgPiece (sysexMessage data).length timestamp) =
      data := by
    have single : ∀ p ∈ data.zipIdx 1,
        sysexMsgPiece (sysexMessage data).length timestamp p = [p.1] := by
      rintro ⟨byte, i⟩ hp
      have bounds := List.mem_zipIdx hp
      refine if_neg ?_
      simp only [sysexMessage, List.length_cons, List.length_append, List.length_nil]
      omega
    rw [List.flatMap_congr single, ← List.map_eq_flatMap, List.zipIdx_map_fst]
  have last : 1 + data.length = (sysexMessage data).length - 1 := by
    simp only [sysexMessage, List.length_cons, List.length_append, List.length_nil]
    omega
  change (sysexMessage data).zipIdx.flatMap (sysexMsgPiece _ timestamp) = _
  rw [show (sysexMessage data).zipIdx = (0xf0, 0) :: (data ++ [0xf7]).zipIdx 1 from rfl,
    List.zipIdx_append, List.flatMap_cons, List.flatMap_append, inner]
  simp [sysexMsgPiece, last]

theorem writerAddSysexMsg_eq (w : Writer maxSize) {data : List UInt8} (timestamp : UInt16)
    (hdata : ∀ b ∈ data, isDataByte b = true) (hlen : (sysexMessage data).length < 2 ^ 31 - 3) :
    writerAddSysexMsg w (sysexMessage data) timestamp =
      added w (w.header timestamp ++ (timestampByte timestamp :: 0xf0 ::
        (data ++ [timestampByte timestamp, 0xf7]))) fun w' =>
        { w' with prevRunningStatusByte := 0 } := by
  have size : (sysexMessage data).length = data.length + 2 := by simp [sysexMessage]
  have long : ¬ (sysexMessage data).length < 2 := by omega
  have last : (sysexMessage data)[(sysexMessage data).length - 1]? = some 0xf7 := by
    simp [sysexMessage]
  have framed : ¬ ((sysexMessage data)[0]? ≠ some 0xf0 ∨
      (sysexMessage data)[(sysexMessage data).length - 1]? ≠ some 0xf7) := by
    rw [last]
    simp [sysexMessage]
  have middle : ((sysexMessage data).drop 1).take ((sysexMessage data).length - 2) = data := by
    simp [sysexMessage]
  have valid : data.all isDataByte = true := List.all_eq_true.mpr hdata
  have count : (int32 ((sysexMessage data).length + 2) + if w.txBufSize = 0 then 1 else 0 : Int) =
      ((w.header timestamp ++ (timestampByte timestamp :: 0xf0 ::
        (data ++ [timestampByte timestamp, 0xf7]))).length : Nat) := by
    have wide : int32 ((sysexMessage data).length + 2) = (data.length + 4 : Nat) := by
      unfold int32
      rw [size] at hlen ⊢
      rw [BitVec.toInt_eq_toNat_of_lt] <;> simp <;> omega
    rw [wide, List.length_append, header_length]
    simp only [List.length_cons, List.length_append, List.length_nil]
    split <;> push_cast <;> omega
  unfold writerAddSysexMsg
  simp only [if_neg long, if_neg framed, middle, valid, Bool.not_true, Bool.false_eq_true, if_false,
    count, room_lt, sysexMsgBytes_sysexMessage]
  exact ite_not _ _ _

/-- Anything else than a whole sysex message is refused. -/
theorem writerAddSysexMsg_cases (w : Writer maxSize) {bytes : List UInt8} (timestamp : UInt16)
    (hlen : bytes.length < 2 ^ 31 - 3) :
    (∃ data, bytes = sysexMessage data ∧ (∀ b ∈ data, isDataByte b = true) ∧
      writerAddSysexMsg w bytes timestamp =
        added w (w.header timestamp ++ (timestampByte timestamp :: 0xf0 ::
          (data ++ [timestampByte timestamp, 0xf7]))) fun w' =>
          { w' with prevRunningStatusByte := 0 }) ∨
      ∃ code, code ≠ .success ∧ writerAddSysexMsg w bytes timestamp = (code, w) := by
  by_cases short : bytes.length < 2
  · refine .inr ⟨.invalidMessage, by decide, ?_⟩
    unfold writerAddSysexMsg
    exact if_pos short
  by_cases framed : bytes[0]? ≠ some 0xf0 ∨ bytes[bytes.length - 1]? ≠ some 0xf7
  · refine .inr ⟨.invalidStatusByte, by decide, ?_⟩
    unfold writerAddSysexMsg
    simp only [if_neg short, if_pos framed]
  obtain ⟨data, rfl⟩ : ∃ data, bytes = sysexMessage data := by
    simp only [ne_eq, not_or, not_not] at framed
    cases bytes with
    | nil => simp at short
    | cons first rest =>
      obtain rfl : first = 0xf0 := by simpa using framed.1
      have nonempty : rest ≠ [] := by
        rintro rfl
        simp at short
      have last : rest.getLast nonempty = 0xf7 := by
        have := framed.2
        rw [← List.getLast?_eq_getElem?, List.getLast?_cons_of_ne_nil nonempty,
          List.getLast?_eq_some_getLast nonempty] at this
        exact Option.some.inj this
      refine ⟨rest.dropLast, ?_⟩
      rw [sysexMessage, ← last, List.dropLast_append_getLast]
  by_cases valid : data.all isDataByte = true
  · have data' := List.all_eq_true.mp valid
    exact .inl ⟨data, rfl, data', writerAddSysexMsg_eq w timestamp data' hlen⟩
  · refine .inr ⟨.invalidDataByte, by decide, ?_⟩
    have middle : ((sysexMessage data).drop 1).take ((sysexMessage data).length - 2) = data := by
      simp [sysexMessage]
    unfold writerAddSysexMsg
    simp only [if_neg short, if_neg framed, middle]
    simp [valid]

/-- The number of data bytes that the packet has room for, behind a header that is due. -/
def dataRoom (w : Writer maxSize) : Nat :=
  w.txBufMaxSize.toNat - w.txBufSize.toNat - if w.txBufSize = 0 then 1 else 0

private theorem uint32_room {w : Writer maxSize} (h : w.txBufSize.toNat ≤ w.txBufMaxSize.toNat) :
    uint32 w.room = w.txBufMaxSize.toNat - w.txBufSize.toNat := by
  have bound := UInt16.toNat_lt w.txBufMaxSize
  unfold uint32 Writer.room
  omega

/-- Sysex data goes into a packet that is empty or has an open sysex message, up to its end. -/
theorem writerAddSysexData_eq {w : Writer maxSize} (hw : w.txBufSize.toNat ≤ w.txBufMaxSize.toNat)
    (hopen : w.inSysexMsg = true ∨ w.txBufSize = 0) {bytes : List UInt8}
    (hdata : ∀ b ∈ bytes, isDataByte b = true) (hmax : 0 < w.txBufMaxSize.toNat)
    (timestamp : UInt16) :
    writerAddSysexData w bytes timestamp =
        (.ok (min bytes.length (dataRoom w)),
          w.putAll (w.header timestamp ++ bytes.take (dataRoom w))) ∧
      HasRoom w (w.header timestamp ++ bytes.take (dataRoom w)) := by
  have header : HasRoom w (w.header timestamp) := by
    unfold HasRoom
    rw [header_length]
    by_cases empty : w.txBufSize = 0
    · rw [if_pos empty, empty]
      exact hmax
    · rw [if_neg empty]
      exact hw
  have room : (w.putAll (w.header timestamp)).txBufMaxSize.toNat -
      (w.putAll (w.header timestamp)).txBufSize.toNat = dataRoom w := by
    rw [header.size, putAll_txBufMaxSize, header_length, dataRoom]
    omega
  have left : uint32 (w.putAll (w.header timestamp)).room = dataRoom w := by
    rw [uint32_room, room]
    rw [header.size, putAll_txBufMaxSize]
    exact header
  have left' : (w.putAll (w.header timestamp)).room.toNat = dataRoom w := by
    rw [← room]
    unfold Writer.room
    omega
  have count : (w.putAll (w.header timestamp)).numDataBytesToAdd bytes.length =
      min bytes.length (dataRoom w) := by
    unfold Writer.numDataBytesToAdd
    rw [left, left']
    split <;> omega
  constructor
  · unfold writerAddSysexData
    have notRefused : (!w.inSysexMsg && decide (0 < w.txBufSize)) = false := by
      rcases hopen with h | h <;> simp [h]
    have valid : bytes.all isDataByte = true := List.all_eq_true.mpr hdata
    have notTiny : ¬ (w.txBufSize = 0 ∧ w.txBufMaxSize < 1) := by
      rintro ⟨-, tiny⟩
      rw [UInt16.lt_iff_toNat_lt] at tiny
      simp at tiny
      omega
    have chunk : bytes.take (min bytes.length (dataRoom w)) = bytes.take (dataRoom w) := by
      rw [List.take_eq_take_iff]
      omega
    simp only [notRefused, valid, notTiny, if_false, Bool.false_eq_true, Bool.not_true, count,
      chunk, putAll_append]
  · unfold HasRoom at header ⊢
    rw [List.length_append, List.length_take, header_length] at *
    unfold dataRoom
    omega

theorem writerAddSysexData_refused {w : Writer maxSize} (hflag : w.inSysexMsg = false)
    (hsize : w.txBufSize ≠ 0) (bytes : List UInt8) (timestamp : UInt16) :
    writerAddSysexData w bytes timestamp = (.error .notInSysexSequence, w) := by
  have positive : 0 < w.txBufSize := UInt16.pos_iff_ne_zero.mpr hsize
  unfold writerAddSysexData
  simp [hflag, positive]

theorem writerAddSysexData_invalid (w : Writer maxSize) {bytes : List UInt8}
    (hdata : ¬ ∀ b ∈ bytes, isDataByte b = true) (timestamp : UInt16) :
    ∃ code, writerAddSysexData w bytes timestamp = (.error code, w) := by
  have invalid : bytes.all isDataByte = false := by
    rw [Bool.eq_false_iff, ne_eq, List.all_eq_true]
    exact hdata
  unfold writerAddSysexData
  by_cases refused : (!w.inSysexMsg && decide (0 < w.txBufSize)) = true
  · exact ⟨.notInSysexSequence, if_pos refused⟩
  · refine ⟨.invalidDataByte, ?_⟩
    rw [if_neg refused, invalid]
    rfl

theorem writerAddSysexData_full {w : Writer maxSize} (hsize : w.txBufSize = 0)
    (hmax : w.txBufMaxSize = 0) {bytes : List UInt8} (hdata : ∀ b ∈ bytes, isDataByte b = true)
    (timestamp : UInt16) : writerAddSysexData w bytes timestamp = (.error .packetFull, w) := by
  have valid : bytes.all isDataByte = true := List.all_eq_true.mpr hdata
  have tiny : w.txBufSize = 0 ∧ w.txBufMaxSize < 1 := ⟨hsize, by rw [hmax]; decide⟩
  unfold writerAddSysexData
  rw [if_neg (by simp [hsize]), if_neg (by simp [valid]), if_pos tiny]

@[simp] theorem writerAddSysexData_txBufMaxSize (w : Writer maxSize) (bytes : List UInt8)
    (timestamp : UInt16) :
    (writerAddSysexData w bytes timestamp).2.txBufMaxSize = w.txBufMaxSize := by
  unfold writerAddSysexData
  split
  · rfl
  · split
    · rfl
    · split
      · rfl
      · simp

theorem writerAddSysexData_inSysexMsg (w : Writer maxSize) (bytes : List UInt8)
    (timestamp : UInt16) :
    (writerAddSysexData w bytes timestamp).2.inSysexMsg = w.inSysexMsg := by
  unfold writerAddSysexData
  split
  · rfl
  · split
    · rfl
    · split
      · rfl
      · simp

theorem writerReset_payload (w : Writer maxSize) : (writerReset w).payload = [] := by
  simp [Writer.payload, writerReset]

theorem writerReset_fits {w : Writer maxSize} (h : w.txBufMaxSize.toNat ≤ maxSize) :
    Fits (writerReset w) :=
  ⟨Nat.zero_le _, h⟩

theorem writerAddSysexData_count_le {w w' : Writer maxSize} {bytes : List UInt8}
    {timestamp : UInt16} {count : Nat}
    (h : writerAddSysexData w bytes timestamp = (.ok count, w')) : count ≤ bytes.length := by
  have most (w : Writer maxSize) (n : Nat) : w.numDataBytesToAdd n ≤ n := by
    have := UInt16.toNat_lt w.txBufMaxSize
    unfold Writer.numDataBytesToAdd uint32 Writer.room
    split <;> omega
  unfold writerAddSysexData at h
  by_cases refused : (!w.inSysexMsg && decide (0 < w.txBufSize)) = true
  · rw [if_pos refused] at h
    cases h
  by_cases invalid : (!bytes.all isDataByte) = true
  · rw [if_neg refused, if_pos invalid] at h
    cases h
  by_cases tiny : w.txBufSize = 0 ∧ w.txBufMaxSize < 1
  · rw [if_neg refused, if_neg invalid, if_pos tiny] at h
    cases h
  · rw [if_neg refused, if_neg invalid, if_neg tiny] at h
    cases h
    exact most _ _

end BleMidi.Packet.WriterSpec
