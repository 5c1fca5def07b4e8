/- Module: BleMidi/Service/SingleStream
   source: ble_midi/src/ble_midi.c (ble_midi_tx_*, on_mtu_changed, on_connected), with
     CONFIG_BLE_MIDI_TX_MODE_SINGLE_MSG
   digest: What the packets of a connection say, to a receiver and to the parser of the library. -/

import BleMidi.Packet.Standalone
import BleMidi.Service.SingleMtu

set_option autoImplicit false
set_option relaxedAutoImplicit false

namespace BleMidi.Service

open BleMidi.Core.Runs
open BleMidi.Packet.Bytes
open BleMidi.Packet.PacketParser
open BleMidi.Packet.PacketScan
open BleMidi.Packet.Segments
open BleMidi.Packet.Grammar
open BleMidi.Packet.PacketStream
open BleMidi.Packet.PacketWriter
open BleMidi.Packet.WriterSpec
open BleMidi.Packet.WriterSimulation
open BleMidi.Packet.RoundTrip
open BleMidi.Packet.Standalone
open BleMidi.Packet.Truncation (deliveries)

variable {maxSize : Nat}

/-- An event that the parser hears when it has a packet of its own: it takes a sysex end at the
start of a packet for an error. -/
def HeardAlone (event : MidiEvent) : Prop := event ≠ .sysexEnd

instance : DecidablePred HeardAlone := fun event => inferInstanceAs (Decidable (event ≠ .sysexEnd))

/-- What packets say, and whether they leave a sysex message open. -/
structure Speaks (packets : List (List UInt8)) (inSysex : Bool) (es : List MidiEvent)
    (inSysex' : Bool) : Prop where
  received : receiveAll inSysex packets = some es
  opened : inSysex' = streamOpen inSysex es
  delivered : packets.flatMap deliveries = es.filter HeardAlone

namespace Speaks

variable {packets packets' : List (List UInt8)} {inSysex inSysex' inSysex'' : Bool}
  {es es' : List MidiEvent}

theorem nil (inSysex : Bool) : Speaks [] inSysex [] inSysex := ⟨rfl, rfl, rfl⟩

theorem append (h : Speaks packets inSysex es inSysex')
    (h' : Speaks packets' inSysex' es' inSysex'') :
    Speaks (packets ++ packets') inSysex (es ++ es') inSysex'' := by
  refine ⟨receiveAll_append h.received ?_, ?_, ?_⟩
  · rw [← h.opened]
    exact h'.received
  · rw [h'.opened, h.opened, streamOpen_append]
  · rw [List.flatMap_append, List.filter_append, h.delivered, h'.delivered]

theorem singleton {packet : List UInt8} (received : receive inSysex packet = some es)
    (delivered : deliveries packet = es.filter HeardAlone) :
    Speaks [packet] inSysex es (streamOpen inSysex es) := by
  refine ⟨?_, rfl, ?_⟩
  · rw [receiveAll, received, Option.bind_some]
    simp [receiveAll]
  · rw [List.flatMap_singleton, delivered]

end Speaks

namespace SingleMessage

variable {s : SingleMessage maxSize} {bytes : List UInt8}

private theorem data_speaks {header : UInt8} (hheader : isStatusByte header = true)
    (hdata : ∀ b ∈ bytes, isDataByte b = true) {inSysex : Bool} (hsysex : inSysex = true) :
    Speaks [header :: bytes] inSysex (bytes.map .sysexData) inSysex := by
  subst hsysex
  have plain : (bytes.map Event.sysexData).map untimed = bytes.map .sysexData := by
    rw [List.map_map]
    rfl
  have received : receive true (header :: bytes) = some (bytes.map .sysexData) := by
    rw [receive, if_pos hheader, (emits_sysexData rfl hdata).run_eq, ← plain]
    rfl
  have heard : (bytes.map MidiEvent.sysexData).filter HeardAlone = bytes.map .sysexData := by
    rw [List.filter_eq_self]
    intro e he
    obtain ⟨b, -, rfl⟩ := List.mem_map.mp he
    rfl
  have speaks := Speaks.singleton received
    ((congrArg (List.map untimed) (parsePacket_data hheader hdata).2).trans
      (plain.trans heard.symm))
  rw [streamOpen_sysexData] at speaks
  exact speaks

theorem deliveries_packed (hsized : s.Sized) (c : TxCall) (h : s.Encodes c.transmission) :
    deliveries (s.packed c).payload = [s.eventOf c.transmission].filter HeardAlone := by
  obtain ⟨received, -⟩ := packed_encodes hsized c h
  have outside (closed : s.txWriter.inSysexMsg = false) :
      deliveries (s.packed c).payload = [s.eventOf c.transmission] := by
    rw [closed] at received
    rcases received_outside received with ⟨-, none⟩ | loose
    · cases none
    · exact loose.parses.2
  obtain ⟨transmission, t, result⟩ := c
  cases transmission with
  | msg bytes => exact outside h.1
  | sysexStart => exact outside h
  | sysexEnd =>
    have flag : s.txWriter.inSysexMsg = true := h
    have room : HasRoom (writerReset s.txWriter) (statusBytes (writerReset s.txWriter) t 0xf7) := by
      have five := hsized.five_le
      change 0 + 3 ≤ s.txWriter.txBufMaxSize.toNat
      omega
    have written : s.packed ⟨.sysexEnd, t, result⟩ = _ :=
      congrArg Prod.snd ((writerEndSysexMsg_eq (writerReset s.txWriter) t).trans
        ((if_pos flag).trans (if_pos room)))
    have payload : (s.packed ⟨.sysexEnd, t, result⟩).payload =
        [headerByte t, timestampByte t, 0xf7] := by
      rw [written]
      exact (room.payload hsized.le_max).trans (by rw [writerReset_payload]; rfl)
    have lost : deliveries (headerByte t :: ([] ++ timestampByte t :: 0xf7 :: [])) = [] :=
      (EndsFirst.parse (isStatusByte_headerByte t) .nil (isStatusByte_timestampByte t)).2
    rw [List.nil_append] at lost
    rw [payload, lost]
    rfl

private theorem txSysexData_inSysexMsg (s : SingleMessage maxSize) (bytes : List UInt8)
    (t : UInt16) (result : Int) :
    (s.txSysexData bytes t result).2.txWriter.inSysexMsg = s.txWriter.inSysexMsg := by
  by_cases hbytes : bytes = []
  · rw [hbytes, SingleDevice.txSysexData_nil]
  · rw [SingleDevice.txSysexData_txWriter s hbytes]
    exact writerAddSysexData_inSysexMsg (writerReset s.txWriter) bytes t

private theorem errorCode_nonpos (code : PacketError) : errorCode code ≤ 0 := by
  cases code <;> decide

private theorem txSysexData_refused (hdata : ¬ ∀ b ∈ bytes, isDataByte b = true) (t : UInt16)
    (result : Int) : (s.txSysexData bytes t result).1 ≤ 0 ∧
      (s.txSysexData bytes t result).2.accepted = s.accepted := by
  obtain ⟨code, refused⟩ := writerAddSysexData_invalid (writerReset s.txWriter) hdata t
  have some : bytes ≠ [] := by
    rintro rfl
    exact hdata (by simp)
  have positive := List.length_pos_of_ne_nil some
  rw [txSysexData, if_neg (by omega), refused]
  exact ⟨errorCode_nonpos code, rfl⟩

theorem txSysexData_speaks (hsized : s.Sized) (bytes : List UInt8) (t : UInt16) {result : Int}
    (h : result = 0 → s.txWriter.inSysexMsg = true) : ∃ packets,
      (s.txSysexData bytes t result).2.accepted = s.accepted ++ packets ∧
      Speaks packets s.txWriter.inSysexMsg
        ((bytes.take ((s.txSysexData bytes t result).1 - 1).toNat).map .sysexData)
        (s.txSysexData bytes t result).2.txWriter.inSysexMsg := by
  rw [txSysexData_inSysexMsg]
  have silent (nothing : (s.txSysexData bytes t result).1 ≤ 0)
      (same : (s.txSysexData bytes t result).2.accepted = s.accepted) : ∃ packets,
        (s.txSysexData bytes t result).2.accepted = s.accepted ++ packets ∧
        Speaks packets s.txWriter.inSysexMsg
          ((bytes.take ((s.txSysexData bytes t result).1 - 1).toNat).map .sysexData)
          s.txWriter.inSysexMsg := by
    have none : ((s.txSysexData bytes t result).1 - 1).toNat = 0 := by omega
    rw [none]
    exact ⟨[], by rw [same, List.append_nil], Speaks.nil _⟩
  by_cases hdata : ∀ b ∈ bytes, isDataByte b = true
  swap
  · obtain ⟨nothing, same⟩ := txSysexData_refused (s := s) hdata t result
    exact silent nothing same
  by_cases some : bytes = []
  · subst some
    exact silent (show invalidArgument ≤ 0 by decide) rfl
  have five := hsized.five_le
  obtain ⟨returned, handed⟩ :=
    txSysexData_eq (by omega) hsized.le_max some hdata t result
  have accepted : (s.txSysexData bytes t result).2.accepted = s.accepted ++
      if result = 0 then [headerByte t ::
        bytes.take (min bytes.length (s.txWriter.txBufMaxSize.toNat - 1) - 1)] else [] := by
    unfold SingleMessage.accepted
    rw [handed, List.filter_append, List.map_append]
    by_cases success : result = 0 <;> simp [success]
  by_cases success : result = 0
  · rw [if_pos success] at returned accepted
    have taken : ((s.txSysexData bytes t result).1 - 1).toNat =
        min bytes.length (s.txWriter.txBufMaxSize.toNat - 1) - 1 := by
      rw [returned]
      omega
    rw [taken]
    refine ⟨_, accepted, ?_⟩
    generalize min bytes.length (s.txWriter.txBufMaxSize.toNat - 1) - 1 = count
    have valid : ∀ b ∈ bytes.take count, isDataByte b = true :=
      fun b mem => hdata b (List.mem_of_mem_take mem)
    exact data_speaks (isStatusByte_headerByte t) valid (h success)
  · rw [if_neg success] at returned accepted
    exact silent returned.le (accepted.trans (List.append_nil _))

end SingleMessage

namespace SingleDevice

/-- The device is told of an MTU that leaves room for a message, and the transport answers so that
the calls are honest and no data is sent outside a sysex message. -/
def Orderly (s : SingleDevice maxSize) : SingleAction → Prop
  | .onMtuChanged mtuSize => 8 ≤ mtuSize.toNat
  | .onConnected _ _ _ => False
  | .transmit c => s.single.Suits c
  | .transmitData _ _ result => result = 0 → s.single.txWriter.inSysexMsg = true

instance (s : SingleDevice maxSize) : DecidablePred s.Orderly
  | .onMtuChanged mtuSize => inferInstanceAs (Decidable (8 ≤ mtuSize.toNat))
  | .onConnected _ _ _ => inferInstanceAs (Decidable False)
  | .transmit c => inferInstanceAs (Decidable (s.single.Suits c))
  | .transmitData _ _ _ => inferInstanceAs (Decidable (_ = 0 → _ = true))

/-- What a call reports: the event if it returns 0, and the data bytes that it returns the number of
but for the last one. -/
def reports (s : SingleDevice maxSize) : SingleAction → List MidiEvent
  | .transmit c => if (s.single.exec c).1 = 0 then [s.single.eventOf c.transmission] else []
  | .transmitData bytes timestamp result =>
      (bytes.take ((s.single.txSysexData bytes timestamp result).1 - 1).toNat).map .sysexData
  | _ => []

def reported (s : SingleDevice maxSize) : List SingleAction → List MidiEvent
  | [] => []
  | a :: actions => s.reports a ++ (s.step a).reported actions

variable {s : SingleDevice maxSize}

theorem sized_onMtuChanged (hmax : 5 ≤ maxSize) (s : SingleDevice maxSize) {mtuSize : UInt16}
    (h : 8 ≤ mtuSize.toNat) : (s.onMtuChanged mtuSize).single.Sized := by
  have size : (requestedSize maxSize mtuSize).toNat = min maxSize (mtuSize.toNat - 3) :=
    requestedSize_toNat (by omega)
  constructor
  · change 5 ≤ (requestedSize maxSize mtuSize).toNat
    omega
  · change (requestedSize maxSize mtuSize).toNat ≤ maxSize
    omega

/-- A step keeps the size in order, and the packets that it adds say what it reports. -/
theorem step_speaks (hmax : 5 ≤ maxSize) (hsized : s.single.Sized) {a : SingleAction}
    (h : s.Orderly a) : (s.step a).single.Sized ∧ ∃ packets,
      (s.step a).single.accepted = s.single.accepted ++ packets ∧
      Speaks packets s.single.txWriter.inSysexMsg (s.reports a)
        (s.step a).single.txWriter.inSysexMsg := by
  cases a with
  | onMtuChanged mtuSize =>
    exact ⟨sized_onMtuChanged hmax s h, [], (List.append_nil _).symm, Speaks.nil _⟩
  | onConnected txRunningStatus txNoteOffAsNoteOn mtuSize => exact h.elim
  | transmit c =>
    refine ⟨hsized.exec c, ?_⟩
    have accepts := h.1
    have returns : (s.single.exec c).1 = c.result := by rw [SingleMessage.exec_eq]
    by_cases zero : c.result = 0
    · obtain ⟨received, flag⟩ := SingleMessage.packed_encodes hsized c (accepts zero)
      have delivered := SingleMessage.deliveries_packed hsized c (accepts zero)
      refine ⟨[(s.single.packed c).payload], ?_, ?_⟩
      · exact (SingleMessage.accepted_exec s.single c).trans (by rw [if_pos zero])
      · have said : s.reports (.transmit c) = [s.single.eventOf c.transmission] :=
          if_pos (returns.trans zero)
        have opened : (s.step (.transmit c)).single.txWriter.inSysexMsg =
            streamOpen s.single.txWriter.inSysexMsg [s.single.eventOf c.transmission] := flag
        rw [said, opened]
        exact Speaks.singleton received delivered
    · have honest := (SingleMessage.honest_iff hsized c).mpr h
      have nonzero : (s.single.exec c).1 ≠ 0 := returns.trans_ne zero
      obtain ⟨accepted, flag⟩ := honest.failure nonzero
      have said : s.reports (.transmit c) = [] := if_neg nonzero
      refine ⟨[], accepted.trans (List.append_nil _).symm, ?_⟩
      rw [said]
      exact flag.symm ▸ Speaks.nil _
  | transmitData bytes timestamp result =>
    have size := txSysexData_txBufMaxSize s.single bytes timestamp result
    refine ⟨⟨?_, ?_⟩, SingleMessage.txSysexData_speaks hsized bytes timestamp h⟩
    · exact hsized.five_le.trans_eq (congrArg UInt16.toNat size.symm)
    · exact (congrArg UInt16.toNat size).trans_le hsized.le_max

/-- The packets of a run, one step after another. -/
theorem run_speaks (hmax : 5 ≤ maxSize) (hsized : s.single.Sized) {actions : List SingleAction}
    (h : EachStep step Orderly s actions) : ∃ packets,
      (actions.foldl step s).single.accepted = s.single.accepted ++ packets ∧
      Speaks packets s.single.txWriter.inSysexMsg (s.reported actions)
        (actions.foldl step s).single.txWriter.inSysexMsg := by
  induction actions generalizing s with
  | nil => exact ⟨[], (List.append_nil _).symm, Speaks.nil _⟩
  | cons a actions ih =>
    obtain ⟨orderly, later⟩ := h
    obtain ⟨sized, packets, accepted, speaks⟩ := step_speaks hmax hsized orderly
    obtain ⟨packets', accepted', speaks'⟩ := ih sized later
    refine ⟨packets ++ packets', ?_, speaks.append speaks'⟩
    rw [List.foldl_cons, accepted', accepted, List.append_assoc]

/-- Behind `on_connected`, whatever was before it, the packets that the transport accepts say to a
receiver what the calls report, each data call without its last byte. The parser of the library
hears the same without the sysex ends. -/
theorem connection_speaks (hmax : 5 ≤ maxSize) (s : SingleDevice maxSize)
    (txRunningStatus txNoteOffAsNoteOn : Bool) {mtuSize : UInt16} (hmtu : 8 ≤ mtuSize.toNat)
    {actions : List SingleAction}
    (h : EachStep step Orderly
      (s.step (.onConnected txRunningStatus txNoteOffAsNoteOn mtuSize)) actions) :
    let start := s.step (.onConnected txRunningStatus txNoteOffAsNoteOn mtuSize)
    ∃ packets, (actions.foldl step start).single.accepted = s.single.accepted ++ packets ∧
      receiveAll false packets = some (start.reported actions) ∧
      packets.flatMap deliveries = (start.reported actions).filter HeardAlone := by
  intro start
  have sized : start.single.Sized := sized_onMtuChanged hmax _ hmtu
  obtain ⟨packets, accepted, speaks⟩ := run_speaks hmax sized h
  exact ⟨packets, accepted, speaks.received, speaks.delivered⟩

/-- A device that has lost its connection inside a sysex message. -/
private def lostDevice : SingleDevice 64 :=
  ⟨⟨{ freshWriter blankWriter false false 20 with inSysexMsg := true }, [([0x80, 1], 0)]⟩, some 23⟩

private def mixedActions : List SingleAction :=
  [.transmit ⟨.msg ⟨0x90, 60, 127⟩, 10, 0⟩, .transmit ⟨.sysexStart, 11, 0⟩,
    .transmitData [1, 2, 3] 12 (-12), .transmitData [1, 2, 3] 13 0, .onMtuChanged 8,
    .transmitData [4, 5, 6, 7, 8, 9] 14 0, .transmit ⟨.sysexEnd, 15, 0⟩,
    .transmit ⟨.msg ⟨0xc0, 5, 0⟩, 16, -12⟩, .transmit ⟨.msg ⟨0xc0, 5, 0⟩, 17, 0⟩]

/-- A sysex message with a data call that the transport refuses, an MTU that shrinks, and messages
around it. Of the seven bytes that the data calls return the number of, five are there. -/
theorem connection_speaks_mixed :
    let start := lostDevice.step (.onConnected true false 23)
    start.reported mixedActions =
        [.message [0x90, 60, 127], .sysexStart, .sysexData 1, .sysexData 2, .sysexData 4,
          .sysexData 5, .sysexData 6, .sysexEnd, .message [0xc0, 5]] ∧
      ∃ packets, (mixedActions.foldl step start).single.accepted =
          lostDevice.single.accepted ++ packets ∧
        receiveAll false packets = some (start.reported mixedActions) ∧
        packets.flatMap deliveries = (start.reported mixedActions).filter HeardAlone :=
  ⟨by decide +kernel,
    connection_speaks (by decide) lostDevice true false (by decide) (by decide +kernel)⟩

end SingleDevice

end BleMidi.Service
