/- Module: BleMidi/Packet/Packing
   source: ble_midi/src/ble_midi_packet.c (ble_midi_writer_reset, ble_midi_writer_add_msg)
   digest: Which timed messages fit into one packet. Fewer of them always do. -/

import BleMidi.Core.Segmentation
import BleMidi.Packet.WriterPieces
import BleMidi.Packet.WriterTwins

set_option autoImplicit false
set_option relaxedAutoImplicit false

namespace BleMidi.Packet.Packing

open BleMidi.Core.Segmentation
open BleMidi.Packet.Bytes
open BleMidi.Packet.PacketWriter
open BleMidi.Packet.WriterSpec
open BleMidi.Packet.WriterPieces
open BleMidi.Packet.WriterTwins

variable {maxSize : Nat}

/-- A message and the time at which it is written. -/
structure Timed where
  message : MessageBytes
  time : UInt16
  deriving DecidableEq

/-- The packet with one more message, if there is room for it. -/
def addTimed (w : Writer maxSize) (m : Timed) : Option (Writer maxSize) :=
  match writerAddMsg w m.message m.time with
  | (.success, w') => some w'
  | _ => none

/-- The packet with all of the messages, if there is room for them. -/
def pack (w : Writer maxSize) (messages : List Timed) : Option (Writer maxSize) :=
  messages.foldlM addTimed w

def FitInto (w : Writer maxSize) (messages : List Timed) : Prop := (pack w messages).isSome = true

instance (w : Writer maxSize) : DecidablePred (FitInto w) :=
  fun _ => inferInstanceAs (Decidable (_ = true))

variable {v v' w w' : Writer maxSize} {m : Timed} {messages : List Timed}

theorem addTimed_eq_some : addTimed w m = some w' ↔
    writerAddMsg w m.message m.time = (.success, w') := by
  unfold addTimed
  rcases writerAddMsg w m.message m.time with ⟨code, w''⟩
  cases code <;> simp

theorem addTimed_iff (hclear : w.inSysexMsg = false) : addTimed w m = some w' ↔
    ValidMessage m.message ∧ HasRoom w (messageBytesToAppend w m.message m.time) ∧
      w' = remember w m.message m.time (w.putAll (messageBytesToAppend w m.message m.time)) := by
  rw [addTimed_eq_some]
  by_cases valid : ValidMessage m.message
  · rw [writerAddMsg_outside hclear valid, added]
    by_cases room : HasRoom w (messageBytesToAppend w m.message m.time)
    · rw [if_pos room]
      simp [valid, room, eq_comm]
    · rw [if_neg room]
      simp [room]
  · obtain ⟨code, failed, -, eq⟩ := writerAddMsg_invalid hclear valid m.time
    rw [eq]
    simp [valid, failed]

theorem pack_append (messages' : List Timed) : pack w (messages ++ messages') =
    (pack w messages).bind fun w' => pack w' messages' :=
  List.foldlM_append

theorem pack_concat :
    pack w (messages ++ [m]) = (pack w messages).bind fun w' => addTimed w' m := by
  rw [pack_append]
  refine congrArg _ (funext fun w' => ?_)
  rw [pack, List.foldlM_cons, Option.bind_eq_bind]
  exact Option.bind_fun_some _

section Length

theorem sentData_length_eq (v w : Writer maxSize) (m : MessageBytes) :
    (sentData v m).length = (sentData w m).length := by
  rw [sentData, sentData, List.length_take, List.length_take]
  rfl

theorem sentData_length_le (w : Writer maxSize) (m : MessageBytes) (t : UInt16) :
    (sentData w m).length ≤ (messageTail w m t).length := by
  unfold messageTail
  rw [List.length_append, List.length_append]
  omega

/-- A message has its timestamp and its status byte if it is no channel message or there is no
running status. -/
theorem messageTail_length (w : Writer maxSize) (m : MessageBytes) (t : UInt16)
    (h : isChannelMessage m.byte0 = false ∨ w.prevRunningStatusByte = 0) :
    (messageTail w m t).length = (sentData w m).length + 2 := by
  have different : ¬ (w.isRunningStatus (w.choose m.byte0 m.byte2).statusByte = true ∧
      isChannelMessage (w.choose m.byte0 m.byte2).statusByte = true) := by
    rintro ⟨running, channel⟩
    rcases h with other | unset
    · rw [(choose_class w m.byte0 m.byte2).2, other] at channel
      cases channel
    · rw [eq_of_beq running, unset] at channel
      cases channel
  have timed : ¬ w.skipMsgTimestamp (w.choose m.byte0 m.byte2).statusByte t = true := by
    intro skipped
    simp only [Writer.skipMsgTimestamp, Bool.and_eq_true] at skipped
    exact different ⟨skipped.1.1.1, skipped.1.2⟩
  have status : ¬ w.skipStatusByte (w.choose m.byte0 m.byte2).statusByte = true := by
    intro skipped
    rw [Writer.skipStatusByte, Bool.and_eq_true] at skipped
    exact different skipped
  unfold messageTail
  rw [if_neg timed, if_neg status]
  rfl

theorem messageBytesToAppend_length (w : Writer maxSize) (m : MessageBytes) (t : UInt16) :
    (messageBytesToAppend w m t).length =
      (if w.txBufSize = 0 then 1 else 0) + (messageTail w m t).length := by
  change (w.header t ++ messageTail w m t).length = _
  rw [List.length_append, header_length]

end Length

/-- Packets with the same settings, outside sysex messages. -/
structure SamePlace (v w : Writer maxSize) : Prop where
  txBufMaxSize : v.txBufMaxSize = w.txBufMaxSize
  runningStatusEnabled : v.runningStatusEnabled = w.runningStatusEnabled
  noteOffAsNoteOn : v.noteOffAsNoteOn = w.noteOffAsNoteOn
  clear : v.inSysexMsg = false
  clear' : w.inSysexMsg = false

/-- Packets that remember the same of their last message, the first one being no longer. -/
structure Recalls (v w : Writer maxSize) : Prop where
  prevStatusByte : v.prevStatusByte = w.prevStatusByte
  prevRunningStatusByte : v.prevRunningStatusByte = w.prevRunningStatusByte
  prevTimestamp : v.prevTimestamp = w.prevTimestamp
  written : v.txBufSize ≠ 0
  size_le : v.txBufSize.toNat ≤ w.txBufSize.toNat

/-- A packet without running status, which is shorter by what it may have to say again: a header, a
timestamp and a status byte. -/
structure Repeats (v w : Writer maxSize) : Prop where
  unset : v.prevRunningStatusByte = 0
  size_le : v.txBufSize.toNat + (if v.txBufSize = 0 then 3 else 2) ≤ w.txBufSize.toNat

/-- Two packets, the second one of which got the messages of the first one behind others. -/
structure Leaner (v w : Writer maxSize) : Prop where
  place : SamePlace v w
  written : w.txBufSize ≠ 0
  shorter : Recalls v w ∨ Repeats v w

namespace SamePlace

/-- A message is sent with the same status byte, and a channel message leaves the same running
status. -/
theorem choose_eq (h : SamePlace v w) (m : MessageBytes) :
    (v.choose m.byte0 m.byte2).statusByte = (w.choose m.byte0 m.byte2).statusByte ∧
      (isChannelMessage m.byte0 = true → (v.choose m.byte0 m.byte2).runningStatusByte =
        (w.choose m.byte0 m.byte2).runningStatusByte) := by
  unfold Writer.choose
  rw [h.runningStatusEnabled, h.noteOffAsNoteOn]
  cases w.runningStatusEnabled with
  | false => exact ⟨rfl, fun _ => rfl⟩
  | true =>
    cases isChannelMessage m.byte0 with
    | true => exact ⟨rfl, fun _ => rfl⟩
    | false =>
      refine ⟨?_, fun channel => by cases channel⟩
      simp only [Bool.not_true, Bool.false_eq_true, if_false]
      split <;> rfl

theorem symm (h : SamePlace v w) : SamePlace w v :=
  ⟨h.txBufMaxSize.symm, h.runningStatusEnabled.symm, h.noteOffAsNoteOn.symm, h.clear', h.clear⟩

theorem message (h : SamePlace v w) (m : MessageBytes) (t : UInt16) (bytes : List UInt8) :
    SamePlace v (remember w m t (w.putAll bytes)) where
  txBufMaxSize := h.txBufMaxSize.trans (putAll_txBufMaxSize w bytes).symm
  runningStatusEnabled := h.runningStatusEnabled.trans (putAll_runningStatusEnabled w bytes).symm
  noteOffAsNoteOn := h.noteOffAsNoteOn.trans (putAll_noteOffAsNoteOn w bytes).symm
  clear := h.clear
  clear' := (putAll_inSysexMsg w bytes).trans h.clear'

end SamePlace

theorem choose_unset {m : MessageBytes} (hunset : v.prevRunningStatusByte = 0)
    (hother : isChannelMessage m.byte0 = false) :
    (v.choose m.byte0 m.byte2).runningStatusByte = 0 := by
  rcases choose_cases v m.byte0 m.byte2 with ⟨noteOff, -⟩ | ⟨-, running, eq, kept⟩
  · rw [(noteOff_noteOn noteOff).2.1] at hother
    cases hother
  · rw [eq]
    rcases kept with unset | ⟨channel, -⟩ | ⟨-, same⟩
    · exact unset
    · rw [hother] at channel
      cases channel
    · exact same.trans hunset

theorem Recalls.choose_eq (h : Recalls v w) (hplace : SamePlace v w) (m : MessageBytes) :
    v.choose m.byte0 m.byte2 = w.choose m.byte0 m.byte2 := by
  unfold Writer.choose
  rw [hplace.runningStatusEnabled, hplace.noteOffAsNoteOn, h.prevRunningStatusByte]

theorem Recalls.messageTail_eq (h : Recalls v w) (hplace : SamePlace v w) (m : MessageBytes)
    (t : UInt16) : messageTail v m t = messageTail w m t := by
  have choice := h.choose_eq hplace m
  unfold messageTail sentData Writer.skipMsgTimestamp Writer.skipStatusByte Writer.isRunningStatus
  rw [choice, h.prevStatusByte, h.prevRunningStatusByte, h.prevTimestamp]

namespace Leaner

private theorem message_le (h : Leaner v w) (m : MessageBytes) (t : UInt16) :
    v.txBufSize.toNat + (messageBytesToAppend v m t).length ≤
      w.txBufSize.toNat + (messageBytesToAppend w m t).length := by
  rw [messageBytesToAppend_length, messageBytesToAppend_length, if_neg h.written]
  rcases h.shorter with recalls | repeats
  · rw [if_neg recalls.written, recalls.messageTail_eq h.place]
    have size := recalls.size_le
    omega
  · have size := repeats.size_le
    have again := messageTail_length v m t (.inr repeats.unset)
    have data := sentData_length_le w m t
    rw [sentData_length_eq v w] at again
    by_cases empty : v.txBufSize = 0
    · rw [if_pos empty] at size ⊢
      omega
    · rw [if_neg empty] at size ⊢
      omega

/-- A message that is no channel message costs the second packet a timestamp and a status byte as
well. -/
private theorem message_repeats (h : Repeats v w) (hwritten : w.txBufSize ≠ 0) {m : MessageBytes}
    (hother : isChannelMessage m.byte0 = false) (t : UInt16) :
    v.txBufSize.toNat + (messageBytesToAppend v m t).length + 2 ≤
      w.txBufSize.toNat + (messageBytesToAppend w m t).length := by
  rw [messageBytesToAppend_length, messageBytesToAppend_length, if_neg hwritten,
    messageTail_length v m t (.inl hother), messageTail_length w m t (.inl hother),
    sentData_length_eq v w]
  have size := h.size_le
  by_cases empty : v.txBufSize = 0
  · rw [if_pos empty] at size ⊢
    omega
  · rw [if_neg empty] at size ⊢
    omega

private theorem written_remember {m : MessageBytes} {t : UInt16} (hvalid : ValidMessage m)
    (hroom : HasRoom w (messageBytesToAppend w m t)) :
    (remember w m t (w.putAll (messageBytesToAppend w m t))).txBufSize ≠ 0 := by
  intro empty
  have size : (w.putAll (messageBytesToAppend w m t)).txBufSize.toNat = _ := hroom.size
  have zero : (w.putAll (messageBytesToAppend w m t)).txBufSize.toNat = 0 :=
    congrArg UInt16.toNat empty
  have positive := List.length_pos_of_ne_nil (messageTail_ne_nil w hvalid t)
  rw [zero, messageBytesToAppend_length] at size
  omega

/-- A message that the second packet has room for, the first one has room for as well. -/
theorem addTimed (h : Leaner v w) (hadd : Packing.addTimed w m = some w') :
    ∃ v', Packing.addTimed v m = some v' ∧ Leaner v' w' := by
  obtain ⟨valid, room, rfl⟩ := (addTimed_iff h.place.clear').mp hadd
  have le := h.message_le m.message m.time
  have room' : HasRoom v (messageBytesToAppend v m.message m.time) := by
    unfold HasRoom at room ⊢
    rw [h.place.txBufMaxSize]
    exact le.trans room
  have written := written_remember valid room
  have written' := written_remember valid room'
  refine ⟨_, (addTimed_iff h.place.clear).mpr ⟨valid, room', rfl⟩,
    ((h.place.message _ _ _).symm.message _ _ _).symm, written, ?_⟩
  have longer : (v.putAll (messageBytesToAppend v m.message m.time)).txBufSize.toNat ≤
      (w.putAll (messageBytesToAppend w m.message m.time)).txBufSize.toNat := by
    rw [room.size, room'.size]
    exact le
  have status := (h.place.choose_eq m.message).1
  rcases h.shorter with recalls | repeats
  · have choice := recalls.choose_eq h.place m.message
    exact .inl ⟨status, congrArg Choice.runningStatusByte choice, rfl, written', longer⟩
  · cases channel : isChannelMessage m.message.byte0 with
    | true =>
      exact .inl ⟨status, (h.place.choose_eq m.message).2 channel, rfl, written', longer⟩
    | false =>
      refine .inr ⟨choose_unset repeats.unset channel, ?_⟩
      rw [if_neg written']
      change (v.putAll _).txBufSize.toNat + 2 ≤ (w.putAll _).txBufSize.toNat
      rw [room.size, room'.size]
      exact message_repeats repeats h.written channel m.time

theorem pack (h : Leaner v w) (hpack : Packing.pack w messages = some w') :
    ∃ v', Packing.pack v messages = some v' := by
  induction messages generalizing v w with
  | nil => exact ⟨v, rfl⟩
  | cons m messages ih =>
    obtain ⟨next, added, rest⟩ := Option.bind_eq_some_iff.mp hpack
    obtain ⟨next', added', leaner⟩ := h.addTimed added
    obtain ⟨v', packed⟩ := ih leaner rest
    exact ⟨v', Option.bind_eq_some_iff.mpr ⟨next', added', packed⟩⟩

end Leaner

/-- An empty packet outside sysex messages. -/
structure Blank (w : Writer maxSize) : Prop where
  size : w.txBufSize = 0
  unset : w.prevRunningStatusByte = 0
  clear : w.inSysexMsg = false

theorem Blank.leaner (h : Blank w) (hadd : addTimed w m = some w') : Leaner w w' := by
  obtain ⟨valid, room, rfl⟩ := (addTimed_iff h.clear).mp hadd
  have place : SamePlace w w := ⟨rfl, rfl, rfl, h.clear, h.clear⟩
  have size : (w.putAll (messageBytesToAppend w m.message m.time)).txBufSize.toNat =
      w.txBufSize.toNat + _ := room.size
  refine ⟨place.message _ _ _, Leaner.written_remember valid room, .inr ⟨h.unset, ?_⟩⟩
  change w.txBufSize.toNat + (if w.txBufSize = 0 then 3 else 2) ≤ (w.putAll _).txBufSize.toNat
  rw [size, messageBytesToAppend_length, if_pos h.size, if_pos h.size,
    messageTail_length w m.message m.time (.inr h.unset)]
  omega

/-- Messages that fit into an empty packet fit without the first or the last one of them. -/
theorem Blank.hereditary (h : Blank w) : Hereditary (FitInto w) where
  tail := by
    intro m messages fits
    obtain ⟨w', packed⟩ := Option.isSome_iff_exists.mp fits
    obtain ⟨next, added, rest⟩ := Option.bind_eq_some_iff.mp packed
    exact Option.isSome_iff_exists.mpr ((h.leaner added).pack rest)
  init := by
    intro messages m fits
    obtain ⟨w', packed⟩ := Option.isSome_iff_exists.mp fits
    rw [pack_concat] at packed
    obtain ⟨next, packed, -⟩ := Option.bind_eq_some_iff.mp packed
    exact Option.isSome_iff_exists.mpr ⟨next, packed⟩

end BleMidi.Packet.Packing
