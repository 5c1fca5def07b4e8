/- Module: BleMidi/Packet/MultiPacket
   source: ble_midi/src/ble_midi_packet.c, test/ble_midi_packet_test.c (test_multi_packet_sysex)
   digest: A sysex message over several packets is lost when its end starts a packet. -/

import BleMidi.Packet.RoundTrip

set_option autoImplicit false
set_option relaxedAutoImplicit false

namespace BleMidi.Packet.MultiPacket

open BleMidi.Packet.Bytes
open BleMidi.Packet.PacketParser
open BleMidi.Packet.PacketScan
open BleMidi.Packet.Segments
open BleMidi.Packet.Grammar
open BleMidi.Packet.Timestamps
open BleMidi.Packet.PacketWriter
open BleMidi.Packet.WriterSpec
open BleMidi.Packet.WriterSimulation
open BleMidi.Packet.RoundTrip

variable {maxSize : Nat}

/-- Append the data, finishing the packet and resetting the writer whenever bytes remain. The
result is the finished packets and the writer with the packet that holds the last byte. -/
def appendData (dataTime : Nat → UInt16) :
    Nat → Writer maxSize → List UInt8 → Option (List (List UInt8) × Writer maxSize)
  | 0, _, _ => none
  | fuel + 1, w, bytes =>
      match writerAddSysexData w bytes (dataTime fuel) with
      | (.error _, _) => none
      | (.ok count, w') =>
          if count < bytes.length then do
            let (packets, w'') ← appendData dataTime fuel (writerReset w') (bytes.drop count)
            some (w'.payload :: packets, w'')
          else some ([], w')

/-- End the sysex message, in a new packet if the first attempt finds no room. -/
def finishSysex (endTime retryTime : UInt16) (w : Writer maxSize) :
    Option (List (List UInt8)) :=
  match writerEndSysexMsg w endTime with
  | (.success, w') => some [w'.payload]
  | (.packetFull, w') =>
      match writerEndSysexMsg (writerReset w') retryTime with
      | (.success, w'') => some [w'.payload, w''.payload]
      | _ => none
  | _ => none

/-- The packets of a sysex message, in the order in which they are finished. -/
def sendSysex (startTime : UInt16) (dataTime : Nat → UInt16) (endTime retryTime : UInt16)
    (w : Writer maxSize) (data : List UInt8) : Option (List (List UInt8)) :=
  match writerStartSysexMsg w startTime with
  | (.success, w') => do
      let (packets, w'') ← appendData dataTime (data.length + 1) w' data
      let last ← finishSysex endTime retryTime w''
      some (packets ++ last)
  | _ => none

/-- The packets are parsed one after another, successfully and to the given events. -/
def ParsesTo (packets : List (List UInt8)) (events : List MidiEvent) : Prop :=
  (∀ packet ∈ packets, (parsePacket packet).halt = .returned .success) ∧
    packets.flatMap (fun packet => (parsePacket packet).callbacks.map untimed) = events

/-- A packet that continues a sysex message starts with a data byte. -/
def Begins (openBefore : Bool) (w : Writer maxSize) : Prop :=
  openBefore = true → ∃ header d rest, w.payload = header :: d :: rest ∧ isDataByte d = true

theorem parse_of_begins {openBefore : Bool} {w : Writer maxSize} {events : List Event}
    (h : Carries openBefore w events) (hbegins : Begins openBefore w) (hwritten : w.payload ≠ []) :
    (parsePacket w.payload).halt = .returned .success ∧
      (parsePacket w.payload).callbacks.map untimed = events.map untimed := by
  rcases h.shown with ⟨empty, _, _⟩ | ⟨t, body, s, view⟩
  · exact absurd empty hwritten
  · have scan : preScan body = .ok openBefore := by
      cases openBefore with
      | false => exact view.preScan_outside
      | true =>
        obtain ⟨header, d, rest, payload, data⟩ := hbegins rfl
        rw [view.payload] at payload
        obtain ⟨-, rfl⟩ := List.cons.inj payload
        exact preScan_data data rest
    obtain ⟨halt, callbacks⟩ := view.parse scan
    exact ⟨halt, by rw [callbacks, Receiver.untimed_reports]⟩

theorem Begins.append {openBefore : Bool} {w w' : Writer maxSize} {bytes : List UInt8}
    (h : Begins openBefore w) (hpayload : w'.payload = w.payload ++ bytes) :
    Begins openBefore w' := by
  intro continued
  obtain ⟨header, d, rest, begun, data⟩ := h continued
  refine ⟨header, d, rest ++ bytes, ?_, data⟩
  rw [hpayload, begun]
  rfl

/-- A packet inside the sysex message. -/
structure Filling (openBefore : Bool) (w : Writer maxSize) (events : List Event) : Prop where
  carries : Carries openBefore w events
  inside : openAfter openBefore events = true
  flag : w.inSysexMsg = true
  begins : w.payload ≠ [] → Begins openBefore w

namespace Filling

variable {openBefore : Bool} {w : Writer maxSize} {events : List Event}

theorem reset (h : Filling openBefore w events) : Filling true (writerReset w) [] :=
  ⟨carries_reset true h.carries.fits.max_le, rfl, h.flag,
    fun written => absurd (writerReset_payload w) written⟩

theorem addData (h : Filling openBefore w events) {t : UInt16} {bytes : List UInt8}
    (hdata : ∀ b ∈ bytes, isDataByte b = true) (hroom : HasRoom w (w.header t ++ bytes))
    (hbytes : w.payload ≠ [] ∨ bytes ≠ []) :
    Filling openBefore (w.putAll (w.header t ++ bytes)) (events ++ bytes.map .sysexData) := by
  have payload := hroom.payload h.carries.fits.max_le
  refine ⟨h.carries.addSysexData h.inside hdata hroom, ?_, ?_, fun _ => ?_⟩
  · rw [openAfter_append, h.inside, openAfter_sysexData]
  · rw [putAll_inSysexMsg]
    exact h.flag
  · by_cases empty : w.payload = []
    · intro _
      obtain ⟨d, rest, rfl⟩ := List.exists_cons_of_ne_nil (hbytes.resolve_left fun h => h empty)
      have due : w.header t = [headerByte t] := by
        rw [payload_eq_nil (h.carries.fits.size_le.trans h.carries.fits.max_le)] at empty
        exact if_pos empty
      refine ⟨headerByte t, d, rest, ?_, hdata d List.mem_cons_self⟩
      rw [payload, empty, due]
      rfl
    · exact (h.begins empty).append payload

end Filling

/-- The bytes of the packet behind its header. -/
def used (w : Writer maxSize) : Nat := w.txBufSize.toNat - 1

private theorem dataRoom_eq {w : Writer maxSize} (h : 0 < w.txBufMaxSize.toNat) :
    dataRoom w = w.txBufMaxSize.toNat - 1 - used w := by
  unfold dataRoom used
  by_cases empty : w.txBufSize = 0
  · rw [if_pos empty, empty]
    rfl
  · have positive : w.txBufSize.toNat ≠ 0 := fun zero => empty (UInt16.toNat_inj.mp zero)
    rw [if_neg empty]
    omega

private theorem used_addData {w : Writer maxSize} {t : UInt16} {bytes : List UInt8}
    (hroom : HasRoom w (w.header t ++ bytes)) :
    used (w.putAll (w.header t ++ bytes)) = used w + bytes.length := by
  unfold used
  rw [hroom.size, List.length_append, header_length]
  by_cases empty : w.txBufSize = 0
  · rw [if_pos empty, empty]
    change 0 + (1 + bytes.length) - 1 = 0 + bytes.length
    omega
  · have positive : w.txBufSize.toNat ≠ 0 := fun zero => empty (UInt16.toNat_inj.mp zero)
    rw [if_neg empty]
    omega

private theorem addData_round {openBefore : Bool} {w : Writer maxSize} {events : List Event}
    {bytes : List UInt8} (h : Filling openBefore w events)
    (hdata : ∀ b ∈ bytes, isDataByte b = true) (hmax : 4 ≤ w.txBufMaxSize.toNat)
    (hused : used w < w.txBufMaxSize.toNat - 1) (hbytes : w.payload ≠ [] ∨ bytes ≠ [])
    (t : UInt16) :
    ∃ count w', writerAddSysexData w bytes t = (.ok count, w') ∧
      count = min bytes.length (w.txBufMaxSize.toNat - 1 - used w) ∧
      Filling openBefore w' (events ++ (bytes.take count).map .sysexData) ∧ w'.payload ≠ [] ∧
      used w' = used w + count ∧ w'.txBufMaxSize = w.txBufMaxSize := by
  have fits := h.carries.fits
  obtain ⟨eq, room⟩ := writerAddSysexData_eq fits.size_le (.inl h.flag) hdata (by omega) t
  have level := dataRoom_eq (w := w) (by omega)
  have chunk : ∀ b ∈ bytes.take (dataRoom w), isDataByte b = true :=
    fun b hb => hdata b (List.mem_of_mem_take hb)
  have some : w.payload ≠ [] ∨ bytes.take (dataRoom w) ≠ [] := by
    refine hbytes.imp_right fun nonempty empty => ?_
    rcases List.take_eq_nil_iff.mp empty with zero | none
    · omega
    · exact nonempty none
  have counted : bytes.take (min bytes.length (dataRoom w)) = bytes.take (dataRoom w) := by
    rw [List.take_eq_take_iff]
    omega
  refine ⟨_, _, eq, by rw [level], ?_, ?_, ?_, putAll_txBufMaxSize _ _⟩
  · rw [counted]
    exact h.addData chunk room some
  · rw [room.payload fits.max_le]
    rcases some with nonempty | nonempty
    · exact List.append_ne_nil_of_left_ne_nil nonempty _
    · refine List.append_ne_nil_of_right_ne_nil _ ?_
      exact List.append_ne_nil_of_right_ne_nil _ nonempty
  · rw [used_addData room, List.length_take, Nat.min_comm]

/-- What the loop has done: the finished packets and the current one say the data, and the fill
level of the current packet is known. -/
structure Appended (w : Writer maxSize) (events : List MidiEvent) (count : Nat)
    (packets : List (List UInt8)) (w' : Writer maxSize) : Prop where
  maxSize_eq : w'.txBufMaxSize = w.txBufMaxSize
  written : w'.payload ≠ []
  halts : ∀ packet ∈ packets, (parsePacket packet).halt = .returned .success
  level : used w' = (used w + count - 1) % (w.txBufMaxSize.toNat - 1) + 1
  filling : ∃ openBefore current, Filling openBefore w' current ∧
    packets.flatMap (fun packet => (parsePacket packet).callbacks.map untimed) ++
      current.map untimed = events

/-- The loop ends, and each round but the last fills its packet. The induction is on the rounds;
a round writes at least one byte. -/
theorem appendData_spec (dataTime : Nat → UInt16) (fuel : Nat) :
    ∀ {openBefore : Bool} {w : Writer maxSize} {events : List Event} {bytes : List UInt8},
      Filling openBefore w events → (∀ b ∈ bytes, isDataByte b = true) →
      4 ≤ w.txBufMaxSize.toNat → used w < w.txBufMaxSize.toNat - 1 →
      1 ≤ used w + bytes.length → (w.payload ≠ [] ∨ bytes ≠ []) → bytes.length < fuel →
      ∃ packets w', appendData dataTime fuel w bytes = some (packets, w') ∧
        Appended w (events.map untimed ++ bytes.map .sysexData) bytes.length packets w' := by
  induction fuel with
  | zero =>
    intro _ _ _ bytes _ _ _ _ _ _ hfuel
    exact absurd hfuel (Nat.not_lt_zero _)
  | succ fuel ih =>
    intro openBefore w events bytes h hdata hmax hused hcount hbytes hfuel
    obtain ⟨count, w', eq, hn, next, written, grown, kept⟩ :=
      addData_round h hdata hmax hused hbytes (dataTime fuel)
    rw [appendData, eq]
    by_cases full : count < bytes.length
    · have remain : (bytes.drop count).length = bytes.length - count := List.length_drop
      have rest : ∀ b ∈ bytes.drop count, isDataByte b = true :=
        fun b hb => hdata b (List.mem_of_mem_drop hb)
      have left : bytes.drop count ≠ [] := by
        intro empty
        rw [empty, List.length_nil] at remain
        omega
      have fresh : used (writerReset w') = 0 := rfl
      have kept' : (writerReset w').txBufMaxSize = w.txBufMaxSize := kept
      obtain ⟨packets, w'', recursion, appended⟩ := ih next.reset rest (by rw [kept']; exact hmax)
        (by rw [kept', fresh]; omega) (by rw [fresh, remain]; omega) (.inr left)
        (by rw [remain]; omega)
      obtain ⟨halt, callbacks⟩ := parse_of_begins next.carries (next.begins written) written
      refine ⟨w'.payload :: packets, w'', ?_, appended.maxSize_eq.trans kept', appended.written,
        ?_, ?_, ?_⟩
      · simp only [if_pos full, recursion]
        rfl
      · intro packet hpacket
        rcases List.mem_cons.mp hpacket with rfl | hpacket
        · exact halt
        · exact appended.halts packet hpacket
      · have total : used w + bytes.length - 1 =
            (w.txBufMaxSize.toNat - 1) + (0 + (bytes.length - count) - 1) := by omega
        rw [appended.level, kept', fresh, remain, total, Nat.add_mod_left]
      · obtain ⟨openBefore', current, filling, said⟩ := appended.filling
        refine ⟨openBefore', current, filling, ?_⟩
        have halves : bytes.map MidiEvent.sysexData =
            (bytes.take count).map .sysexData ++ (bytes.drop count).map .sysexData := by
          rw [← List.map_append, List.take_append_drop]
        rw [List.flatMap_cons, List.append_assoc, said, callbacks, halves, List.map_append,
          List.map_map]
        simp [Function.comp_def, untimed]
    · have all : bytes.take count = bytes := List.take_of_length_le (by omega)
      have most : used w + count - 1 < w.txBufMaxSize.toNat - 1 := by omega
      have same : count = bytes.length := by omega
      rw [all] at next
      refine ⟨[], w', if_neg full, kept, written, by simp, ?_, openBefore, _, next, ?_⟩
      · rw [grown, ← same, Nat.mod_eq_of_lt most]
        omega
      · simp [Function.comp_def, untimed]

theorem parse_lone_end (t : UInt16) :
    (parsePacket [headerByte t, timestampByte t, 0xf7]).halt = .returned .invalidStatusByte := by
  have timed := isStatusByte_timestampByte t
  have scan : preScan [timestampByte t, 0xf7] = .ok false := preScan_status timed rfl rfl []
  have stopped : (scanPacket (headerByte t) [timestampByte t, 0xf7]).2 =
      .failed .invalidStatusByte := by
    rw [scanPacket, scan]
    refine (congrArg Prod.snd (if_pos (isStatusByte_headerByte t))).trans ?_
    have step : scanner.step (startState false (headerByte t)) (timestampByte t) [0xf7] =
        .stop [] (.failed .invalidStatusByte) := by
      change scanStep (startState false (headerByte t)) (timestampByte t) [0xf7] = _
      unfold scanStep
      rw [if_neg (by simp [startState]), if_neg (by simp [not_isDataByte.mpr timed])]
      rfl
    rw [Core.Transducer.run_stop step]
  have ends := (ParserRefinement.parsePacket_scan (headerByte t) [timestampByte t, 0xf7]).2
  rw [stopped] at ends
  exact ends.1

/-- The end of the sysex message: in the packet of the last data byte if two bytes are left
there, else in a packet of its own. -/
private theorem finishSysex_spec {openBefore : Bool} {w : Writer maxSize} {events : List Event}
    (h : Filling openBefore w events) (hwritten : w.payload ≠ [])
    (hmax : 4 ≤ w.txBufMaxSize.toNat) (endTime retryTime : UInt16) :
    if used w + 3 ≤ w.txBufMaxSize.toNat then
      ∃ packet, finishSysex endTime retryTime w = some [packet] ∧
        (parsePacket packet).halt = .returned .success ∧
        (parsePacket packet).callbacks.map untimed = events.map untimed ++ [.sysexEnd]
    else
      finishSysex endTime retryTime w =
        some [w.payload, [headerByte retryTime, timestampByte retryTime, 0xf7]] := by
  have fits := h.carries.fits
  have size : w.txBufSize.toNat ≠ 0 := by
    intro zero
    rw [ne_eq, payload_eq_nil (fits.size_le.trans fits.max_le)] at hwritten
    exact hwritten (UInt16.toNat_inj.mp zero)
  have room : HasRoom w (statusBytes w endTime 0xf7) ↔ used w + 3 ≤ w.txBufMaxSize.toNat := by
    unfold HasRoom statusBytes used
    rw [h.carries.header_nil hwritten]
    simp only [List.nil_append, List.length_cons, List.length_nil]
    omega
  by_cases fit : used w + 3 ≤ w.txBufMaxSize.toNat
  · rw [if_pos fit]
    have carries := h.carries.endSysexMsg h.inside (room.mpr fit)
    have payload := (room.mpr fit).payload fits.max_le
    obtain ⟨halt, callbacks⟩ := parse_of_begins carries ((h.begins hwritten).append payload) (by
      change (w.putAll (statusBytes w endTime 0xf7)).payload ≠ []
      rw [payload]
      exact List.append_ne_nil_of_left_ne_nil hwritten _)
    refine ⟨_, ?_, halt, ?_⟩
    · rw [finishSysex, writerEndSysexMsg_eq, if_pos h.flag, added, if_pos (room.mpr fit)]
    · rw [callbacks, List.map_append]
      rfl
  · rw [if_neg fit]
    have again : HasRoom (writerReset w) (statusBytes (writerReset w) retryTime 0xf7) := by
      change 0 + 3 ≤ w.txBufMaxSize.toNat
      omega
    have max : (writerReset w).txBufMaxSize.toNat ≤ maxSize := fits.max_le
    have payload := again.payload max
    have flag : (writerReset w).inSysexMsg = true := h.flag
    rw [finishSysex, writerEndSysexMsg_eq, if_pos h.flag, added, if_neg (room.not.mpr fit)]
    simp only
    rw [writerEndSysexMsg_eq, if_pos flag, added, if_pos again]
    simp only
    rw [writerReset_payload] at payload
    refine congrArg (fun packet => some [w.payload, packet]) ?_
    exact payload

private theorem startSysex_spec {w : Writer maxSize} (h : Writing w []) (hempty : w.txBufSize = 0)
    (hmax : 4 ≤ w.txBufMaxSize.toNat) (t : UInt16) :
    ∃ w', writerStartSysexMsg w t = (.success, w') ∧ Filling false w' [.sysexStart t] ∧
      w'.payload ≠ [] ∧ used w' = 2 ∧ w'.txBufMaxSize = w.txBufMaxSize := by
  have three : (statusBytes w t 0xf0).length = 3 := by
    rw [statusBytes, List.length_append, header_length, if_pos hempty]
    rfl
  have room : HasRoom w (statusBytes w t 0xf0) := by
    unfold HasRoom
    rw [three, hempty]
    exact (show 0 + 3 ≤ 4 by omega).trans hmax
  have closed : ¬ w.inSysexMsg = true := by
    rw [h.flag]
    simp [openAfter]
  have carries := h.carries.startSysexMsg rfl room
  refine ⟨_, ?_, ⟨carries, rfl, rfl, fun _ continued => by cases continued⟩,
    carries.payload_ne_nil rfl, ?_, putAll_txBufMaxSize _ _⟩
  · rw [writerStartSysexMsg_eq, if_neg closed, added, if_pos room]
  · change (w.putAll (statusBytes w t 0xf0)).txBufSize.toNat - 1 = 2
    rw [room.size, three, hempty]
    rfl

private theorem level_iff {room : Nat} (h : 3 ≤ room) (count : Nat) :
    (2 + count - 1) % room + 1 + 3 ≤ room + 1 ↔ 2 ≤ (count + 3) % room := by
  have last : (2 + count - 1) % room < room := Nat.mod_lt _ (by omega)
  have shift : (count + 3) % room = ((2 + count - 1) % room + 2) % room := by
    rw [Nat.mod_add_mod]
    congr 1
    omega
  rw [shift]
  generalize (2 + count - 1) % room = level at last
  by_cases fit : level + 2 < room
  · rw [Nat.mod_eq_of_lt fit]
    omega
  · rw [Nat.mod_eq_sub_mod (by omega), Nat.mod_eq_of_lt (by omega)]
    omega

/-- A sysex message of `data.length` bytes in packets of `txBufMaxSize` bytes comes back exactly
when its end does not start a packet. -/
theorem sendSysex_parses_iff (w : Writer maxSize) (runningStatusEnabled noteOffAsNoteOn : Bool)
    {txBufMaxSize : UInt16} (hmin : 4 ≤ txBufMaxSize.toNat) (hmax : txBufMaxSize.toNat ≤ maxSize)
    {data : List UInt8} (hdata : ∀ b ∈ data, isDataByte b = true)
    (startTime : UInt16) (dataTime : Nat → UInt16) (endTime retryTime : UInt16) :
    ∃ packets,
      sendSysex startTime dataTime endTime retryTime
          (freshWriter w runningStatusEnabled noteOffAsNoteOn txBufMaxSize) data = some packets ∧
        (ParsesTo packets (.sysexStart :: (data.map .sysexData ++ [.sysexEnd])) ↔
          2 ≤ (data.length + 3) % (txBufMaxSize.toNat - 1)) := by
  have fresh := writing_fresh w runningStatusEnabled noteOffAsNoteOn hmax
  obtain ⟨w1, start, filling, written, level, kept⟩ := startSysex_spec fresh rfl hmin startTime
  have max1 : w1.txBufMaxSize = txBufMaxSize := kept
  obtain ⟨packets, w2, append, appended⟩ := appendData_spec dataTime (data.length + 1) filling
    hdata (by rw [max1]; exact hmin) (by rw [max1, level]; omega) (by rw [level]; omega)
    (.inl written) (Nat.lt_succ_self _)
  obtain ⟨openBefore, current, filling2, said⟩ := appended.filling
  have max2 : w2.txBufMaxSize = txBufMaxSize := appended.maxSize_eq.trans max1
  have finish := finishSysex_spec filling2 appended.written (by rw [max2]; exact hmin) endTime
    retryTime
  have fit : used w2 + 3 ≤ w2.txBufMaxSize.toNat ↔
      2 ≤ (data.length + 3) % (txBufMaxSize.toNat - 1) := by
    rw [appended.level, level, max2, max1, ← level_iff (by omega)]
    omega
  by_cases room : used w2 + 3 ≤ w2.txBufMaxSize.toNat
  · rw [if_pos room] at finish
    obtain ⟨packet, finished, halt, callbacks⟩ := finish
    refine ⟨packets ++ [packet], ?_, fun _ => fit.mp room, fun _ => ⟨?_, ?_⟩⟩
    · simp [sendSysex, start, append, finished]
    · intro p hp
      rcases List.mem_append.mp hp with hp | hp
      · exact appended.halts p hp
      · rw [List.mem_singleton.mp hp]
        exact halt
    · rw [List.flatMap_append, List.flatMap_singleton, callbacks, ← List.append_assoc, said]
      rfl
  · rw [if_neg room] at finish
    refine ⟨packets ++ [w2.payload, [headerByte retryTime, timestampByte retryTime, 0xf7]], ?_,
      fun parses => ?_, fun fits => absurd (fit.mpr fits) room⟩
    · simp [sendSysex, start, append, finish]
    · have lone := parses.1 _ (List.mem_append_right _ (List.mem_cons_of_mem _
        List.mem_cons_self))
      rw [parse_lone_end] at lone
      cases lone

/-- Ten data bytes in packets of nine bytes. -/
theorem sendSysex_parses_ten :
    ∃ packets,
      sendSysex 100 (fun _ => 101) 102 102 (freshWriter blankWriter true true 9)
          [0, 1, 2, 3, 4, 5, 6, 7, 8, 9] = some packets ∧
        ParsesTo packets (.sysexStart :: (([0, 1, 2, 3, 4, 5, 6, 7, 8, 9].map .sysexData) ++
          [.sysexEnd])) := by
  obtain ⟨packets, sent, parses⟩ := sendSysex_parses_iff blankWriter true true
    (show 4 ≤ (9 : UInt16).toNat by decide) (by decide)
    (List.all_eq_true.mp (show [0, 1, 2, 3, 4, 5, 6, 7, 8, 9].all isDataByte = true from rfl)) 100
    (fun _ => 101) 102 102
  exact ⟨packets, sent, parses.mpr (by decide)⟩

/-- Five data bytes in packets of nine bytes: the end is sent alone and is not parsed. -/
theorem sendSysex_end_lost :
    ∃ packets,
      sendSysex 100 (fun _ => 101) 102 102 (freshWriter blankWriter true true 9)
          [0, 1, 2, 3, 4] = some packets ∧
        packets = [[0x80, 0xe4, 0xf0, 0, 1, 2, 3, 4], [0x80, 0xe6, 0xf7]] ∧
        ¬ ParsesTo packets (.sysexStart :: (([0, 1, 2, 3, 4].map .sysexData) ++ [.sysexEnd])) := by
  refine ⟨[[0x80, 0xe4, 0xf0, 0, 1, 2, 3, 4], [0x80, 0xe6, 0xf7]], by decide +kernel, rfl, ?_⟩
  rintro ⟨halts, -⟩
  have lone := halts [0x80, 0xe6, 0xf7] (by decide)
  revert lone
  decide +kernel

end BleMidi.Packet.MultiPacket
