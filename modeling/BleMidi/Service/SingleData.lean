/- Module: BleMidi/Service/SingleData
   source: ble_midi/src/ble_midi.c (ble_midi_tx_sysex_data), with CONFIG_BLE_MIDI_TX_MODE_SINGLE_MSG
   digest: How many of the sysex bytes that a call reports are in the packet that it hands out. -/

import BleMidi.Service.SingleMessage

set_option autoImplicit false
set_option relaxedAutoImplicit false

namespace BleMidi.Service

open BleMidi.Core.Transducer
open BleMidi.Packet.Bytes
open BleMidi.Packet.PacketParser
open BleMidi.Packet.PacketScan
open BleMidi.Packet.ParserRefinement
open BleMidi.Packet.Segments
open BleMidi.Packet.PacketWriter
open BleMidi.Packet.WriterSpec
open BleMidi.Packet.RoundTrip

variable {maxSize : Nat}

/-- The values of `enum ble_midi_packet_error_t`. -/
def errorCode : PacketError → Int
  | .success => 0
  | .packetFull => -1
  | .alreadyInSysexSequence => -2
  | .notInSysexSequence => -3
  | .invalidDataByte => -4
  | .invalidStatusByte => -5
  | .invalidMessage => -6
  | .unexpectedEndOfData => -7
  | .unexpectedDataByte => -8
  | .unexpectedStatusByte => -9
  | .invalidHeaderByte => -10

/-- `BLE_MIDI_INVALID_ARGUMENT` -/
def invalidArgument : Int := -102

namespace SingleMessage

/-- What `ble_midi_tx_sysex_data` returns once the writer has returned `addResult`. The length that
it hands to `send_packet` is the number of data bytes, not the size of the packet. -/
def sendData (s : SingleMessage maxSize) (addResult : Except PacketError Nat) (result : Int) :
    Int × SingleMessage maxSize :=
  match addResult with
  | .error code => (errorCode code, s)
  | .ok count =>
      let (sendRc, s) := s.sendPacket count result
      (if sendRc = 0 then (count : Int) else 0, s)

/-- `ble_midi_tx_sysex_data` for the `num_bytes` bytes, where `bt_gatt_notify_cb` returns
`result`. -/
def txSysexData (s : SingleMessage maxSize) (bytes : List UInt8) (timestamp : UInt16)
    (result : Int) : Int × SingleMessage maxSize :=
  if (bytes.length : Int) ≤ 0 then (invalidArgument, s)
  else
    let added := writerAddSysexData (writerReset s.txWriter) bytes timestamp
    { s with txWriter := added.2 }.sendData added.1 result

/-- If the call returns a positive number, the packet that it has handed to the transport is parsed
without error, as that many of the data bytes from the first one on. -/
def Delivered (s : SingleMessage maxSize) (bytes : List UInt8) (timestamp : UInt16)
    (result : Int) : Prop :=
  0 < (s.txSysexData bytes timestamp result).1 →
    ∃ packet, (s.txSysexData bytes timestamp result).2.handed = s.handed ++ [(packet, result)] ∧
      (parsePacket packet).halt = .returned .success ∧
      (parsePacket packet).callbacks =
        (bytes.take (s.txSysexData bytes timestamp result).1.toNat).map .sysexData

variable {s : SingleMessage maxSize} {bytes : List UInt8}

/-- A header with data bytes behind it is parsed as the data bytes. -/
theorem parsePacket_data {header : UInt8} (hheader : isStatusByte header = true)
    (hdata : ∀ b ∈ bytes, isDataByte b = true) :
    (parsePacket (header :: bytes)).halt = .returned .success ∧
      (parsePacket (header :: bytes)).callbacks = bytes.map .sysexData := by
  have scanned : scanPacket header bytes = (bytes.map .sysexData, .success) := by
    unfold scanPacket
    cases bytes with
    | nil =>
      simp only [preScan_nil, if_pos hheader]
      exact run_nil scanner _
    | cons first rest =>
      simp only [preScan_data (hdata first List.mem_cons_self), if_pos hheader]
      exact (emits_sysexData rfl hdata).run_eq
  obtain ⟨callbacks, ends⟩ := parsePacket_scan header bytes
  rw [scanned] at callbacks ends
  exact ⟨ends.1, callbacks⟩

private theorem take_txBuf {w : Writer maxSize} {n : Nat} (h : n ≤ w.txBufSize.toNat) :
    w.txBuf.toList.take n = w.payload.take n := by
  rw [Writer.payload, List.take_take, Nat.min_eq_left h]

/-- What a call does: it fills the packet, and hands out one byte less than there is in it. -/
theorem txSysexData_eq (hmax : 2 ≤ s.txWriter.txBufMaxSize.toNat)
    (hle : s.txWriter.txBufMaxSize.toNat ≤ maxSize) (hbytes : bytes ≠ [])
    (hdata : ∀ b ∈ bytes, isDataByte b = true) (t : UInt16) (result : Int) :
    let count := min bytes.length (s.txWriter.txBufMaxSize.toNat - 1)
    (s.txSysexData bytes t result).1 = (if result = 0 then (count : Int) else 0) ∧
      (s.txSysexData bytes t result).2.handed =
        s.handed ++ [(headerByte t :: bytes.take (count - 1), result)] := by
  intro count
  have size : (writerReset s.txWriter).txBufSize = 0 := rfl
  have room : dataRoom (writerReset s.txWriter) = s.txWriter.txBufMaxSize.toNat - 1 := rfl
  have positive : 0 < bytes.length := List.length_pos_of_ne_nil hbytes
  have some : 0 < (writerReset s.txWriter).txBufMaxSize.toNat := lt_of_lt_of_le (by decide) hmax
  obtain ⟨eq, fits⟩ := writerAddSysexData_eq (w := writerReset s.txWriter) (Nat.zero_le _)
    (.inr size) hdata some t
  have header : (writerReset s.txWriter).header t = [headerByte t] := if_pos size
  rw [room, header, List.singleton_append] at eq fits
  have payload := fits.payload hle
  rw [writerReset_payload, List.nil_append] at payload
  have inside : count ≤ ((writerReset s.txWriter).putAll
      (headerByte t :: bytes.take (s.txWriter.txBufMaxSize.toNat - 1))).txBufSize.toNat := by
    rw [fits.size, List.length_cons, List.length_take]
    omega
  have written : ((writerReset s.txWriter).putAll
      (headerByte t :: bytes.take (s.txWriter.txBufMaxSize.toNat - 1))).txBuf.toList.take count =
        headerByte t :: bytes.take (count - 1) := by
    obtain ⟨n, succ⟩ : ∃ n, count = n + 1 := ⟨count - 1, by omega⟩
    rw [take_txBuf inside, payload, succ, List.take_succ_cons, List.take_take,
      Nat.add_sub_cancel, Nat.min_eq_left (by omega)]
  rw [txSysexData, if_neg (by omega)]
  simp only [eq, sendData, sendPacket]
  exact ⟨rfl, congrArg (fun packet => s.handed ++ [(packet, result)]) written⟩

/-- The last byte that a call reports is not in the packet: the bytes that it reports are delivered
exactly when it reports none. -/
theorem delivered_iff (hmax : 2 ≤ s.txWriter.txBufMaxSize.toNat)
    (hle : s.txWriter.txBufMaxSize.toNat ≤ maxSize) (hbytes : bytes ≠ [])
    (hdata : ∀ b ∈ bytes, isDataByte b = true) (timestamp : UInt16) (result : Int) :
    s.Delivered bytes timestamp result ↔ result ≠ 0 := by
  obtain ⟨returned, handed⟩ := txSysexData_eq hmax hle hbytes hdata timestamp result
  have positive : 0 < bytes.length := List.length_pos_of_ne_nil hbytes
  unfold Delivered
  rw [returned, handed]
  constructor
  · rintro delivered rfl
    rw [if_pos rfl] at delivered
    obtain ⟨packet, same, -, callbacks⟩ := delivered (by omega)
    have packet_eq := congrArg Prod.fst (List.singleton_injective (List.append_cancel_left same))
    dsimp only at packet_eq
    have taken : ∀ b ∈ bytes.take (min bytes.length (s.txWriter.txBufMaxSize.toNat - 1) - 1),
        isDataByte b = true := fun b mem => hdata b (List.mem_of_mem_take mem)
    rw [← packet_eq, (parsePacket_data (isStatusByte_headerByte timestamp) taken).2] at callbacks
    have lengths := congrArg List.length callbacks
    simp only [List.length_map, List.length_take, Int.toNat_natCast] at lengths
    omega
  · intro refused reported
    rw [if_neg refused] at reported
    exact absurd reported (lt_irrefl 0)

/-- A device with packets of 20 bytes, inside a sysex message. -/
private def openSingle : SingleMessage 64 :=
  ⟨{ freshWriter blankWriter false false 20 with inSysexMsg := true }, []⟩

/-- A transport that refuses three data bytes. -/
theorem delivered_refused : openSingle.Delivered [1, 2, 3] 10 (-12) :=
  (delivered_iff (by decide) (by decide) (by decide) (List.all_eq_true.mp rfl) 10 (-12)).mpr
    (by decide)

/-- Three data bytes are reported, and the packet has two of them. -/
theorem delivered_fails :
    (openSingle.txSysexData [1, 2, 3] 10 0).1 = 3 ∧
      (openSingle.txSysexData [1, 2, 3] 10 0).2.handed = [([0x80, 1, 2], 0)] ∧
      (parsePacket [0x80, 1, 2]).callbacks = [.sysexData 1, .sysexData 2] ∧
      ¬ openSingle.Delivered [1, 2, 3] 10 0 := by
  have returned : (openSingle.txSysexData [1, 2, 3] 10 0).1 = 3 := by decide +kernel
  have handed : (openSingle.txSysexData [1, 2, 3] 10 0).2.handed = [([0x80, 1, 2], 0)] := by
    decide +kernel
  refine ⟨returned, handed, by decide +kernel, ?_⟩
  unfold Delivered
  rw [returned, handed]
  intro delivered
  obtain ⟨packet, same, -, callbacks⟩ := delivered (by decide)
  obtain rfl : [0x80, 1, 2] = packet := congrArg Prod.fst (List.singleton_injective same)
  exact absurd callbacks (by decide +kernel)

end SingleMessage

end BleMidi.Service
