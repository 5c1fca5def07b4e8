/- Module: BleMidi/Packet/WriterPieces
   source: ble_midi/src/ble_midi_packet.c (ble_midi_writer_*)
   digest: Each writer function appends a piece that says the events of the call. -/

import BleMidi.Packet.WriterSimulation

set_option autoImplicit false
set_option relaxedAutoImplicit false

namespace BleMidi.Packet.WriterPieces

open BleMidi.Core.Transducer
open BleMidi.Packet.Bytes
open BleMidi.Packet.PacketParser
open BleMidi.Packet.PacketScan
open BleMidi.Packet.Segments
open BleMidi.Packet.Timestamps
open BleMidi.Packet.PacketWriter
open BleMidi.Packet.WriterSpec
open BleMidi.Packet.WriterSimulation

variable {maxSize : Nat}

/-- The bytes of a message as a receiver gets them: a note off is sent as a note on with velocity
0 if and only if both flags are set. -/
def delivered (runningStatusEnabled noteOffAsNoteOn : Bool) (m : MessageBytes) : List UInt8 :=
  if m.byte0 >>> 4 = 0x8 ∧ runningStatusEnabled = true ∧ noteOffAsNoteOn = true then
    [0x90 ||| (m.byte0 &&& 0xf), m.byte1, 0]
  else [m.byte0, m.byte1, m.byte2].take (messageSize m.byte0).toNat

/-- The status byte and the second data byte are replaced together, and the running status is
unset, the status sent or the one before. -/
theorem choose_cases (w : Writer maxSize) (statusByte dataByte1 : UInt8) :
    (statusByte >>> 4 = 0x8 ∧ w.runningStatusEnabled = true ∧ w.noteOffAsNoteOn = true ∧
      w.choose statusByte dataByte1 =
        ⟨0x90 ||| (statusByte &&& 0xf), 0, 0x90 ||| (statusByte &&& 0xf)⟩) ∨
    (¬ (statusByte >>> 4 = 0x8 ∧ w.runningStatusEnabled = true ∧ w.noteOffAsNoteOn = true) ∧
      ∃ running, w.choose statusByte dataByte1 = ⟨statusByte, dataByte1, running⟩ ∧
        (running = 0 ∨ isChannelMessage statusByte = true ∧ running = statusByte ∨
          isChannelMessage statusByte = false ∧ running = w.prevRunningStatusByte)) := by
  unfold Writer.choose
  by_cases enabled : w.runningStatusEnabled = true
  · rw [if_neg (by simp [enabled])]
    by_cases channel : isChannelMessage statusByte = true
    · rw [if_pos channel]
      by_cases noteOff : statusByte >>> 4 = 0x8 ∧ w.noteOffAsNoteOn = true
      · refine .inl ⟨noteOff.1, enabled, noteOff.2, if_pos ?_⟩
        simpa using noteOff
      · refine .inr ⟨fun h => noteOff ⟨h.1, h.2.2⟩, statusByte, if_neg ?_,
          .inr (.inl ⟨channel, rfl⟩)⟩
        simpa using noteOff
    · rw [if_neg channel]
      have other : ¬ (statusByte >>> 4 = 0x8 ∧ w.runningStatusEnabled = true ∧
          w.noteOffAsNoteOn = true) := fun h => channel (noteOff_noteOn h.1).2.1
      by_cases system : (isRealtimeMessage statusByte || isSystemCommonMessage statusByte) = true
      · rw [if_pos system]
        exact .inr ⟨other, _, rfl, .inr (.inr ⟨Bool.eq_false_iff.mpr channel, rfl⟩)⟩
      · rw [if_neg system]
        exact .inr ⟨other, _, rfl, .inl rfl⟩
  · rw [if_pos (by simp [enabled])]
    exact .inr ⟨fun h => enabled h.2.1, _, rfl, .inl rfl⟩

/-- The status byte that a message is sent with is of the same class and size. -/
theorem choose_class (w : Writer maxSize) (statusByte dataByte1 : UInt8) :
    messageSize (w.choose statusByte dataByte1).statusByte = messageSize statusByte ∧
      isChannelMessage (w.choose statusByte dataByte1).statusByte =
        isChannelMessage statusByte := by
  rcases choose_cases w statusByte dataByte1 with ⟨noteOff, -, -, eq⟩ | ⟨-, running, eq, -⟩
  · obtain ⟨size, channel, size', channel'⟩ := noteOff_noteOn noteOff
    rw [eq]
    exact ⟨size'.trans size.symm, channel'.trans channel.symm⟩
  · rw [eq]
    exact ⟨rfl, rfl⟩

/-- The data bytes of a message as they are sent. -/
def sentData (w : Writer maxSize) (m : MessageBytes) : List UInt8 :=
  [m.byte1, (w.choose m.byte0 m.byte2).dataByte1].take (messageSize m.byte0 - 1).toNat

private theorem size_sub_one {statusByte : UInt8} (h : messageSize statusByte ≠ 0) :
    (messageSize statusByte - 1).toNat + 1 = (messageSize statusByte).toNat := by
  have positive : (messageSize statusByte).toNat ≠ 0 := fun zero =>
    h (UInt8.toNat_inj.mp zero)
  rw [UInt8.toNat_sub_of_le]
  · simp only [UInt8.reduceToNat]
    omega
  · rw [UInt8.le_iff_toNat_le]
    simp only [UInt8.reduceToNat]
    omega

theorem sentData_length (w : Writer maxSize) {m : MessageBytes} (hm : ValidMessage m) :
    (sentData w m).length + 1 =
      (messageSize (w.choose m.byte0 m.byte2).statusByte).toNat := by
  have small := messageSize_le m.byte0
  have size := size_sub_one hm.1
  rw [(choose_class w m.byte0 m.byte2).1, sentData, List.length_take]
  simp only [List.length_cons, List.length_nil]
  omega

theorem sentData_isDataByte (w : Writer maxSize) {m : MessageBytes} (hm : ValidMessage m) :
    ∀ b ∈ sentData w m, isDataByte b = true := by
  intro b hb
  have member := List.mem_of_mem_take hb
  rcases choose_cases w m.byte0 m.byte2 with ⟨-, -, -, eq⟩ | ⟨-, _, eq, -⟩ <;>
    rw [eq] at member <;> simp only [List.mem_cons, List.not_mem_nil, or_false] at member <;>
    rcases member with rfl | rfl
  · exact hm.2.1
  · rfl
  · exact hm.2.1
  · exact hm.2.2

theorem delivered_eq (w : Writer maxSize) {m : MessageBytes} (hm : ValidMessage m) :
    delivered w.runningStatusEnabled w.noteOffAsNoteOn m =
      (w.choose m.byte0 m.byte2).statusByte :: sentData w m := by
  have size := size_sub_one hm.1
  unfold delivered sentData
  rcases choose_cases w m.byte0 m.byte2 with ⟨noteOff, enabled, asNoteOn, eq⟩ | ⟨other, _, eq, -⟩
  · rw [if_pos ⟨noteOff, enabled, asNoteOn⟩, eq, (noteOff_noteOn noteOff).1]
    rfl
  · rw [if_neg other, eq, ← size]
    rfl

theorem reports_outside {s : ScanState} (hs : s.inSysex = false) {e : Event} {t : UInt16}
    (he : time? e = some t) :
    (receiver s).reports [e] =
        [mapTime (fun _ => timestampMs (s.seeTimestamp (timestampByte t)).high
          (timestampByte t)) e] ∧
      (receiver s).after [e] =
        { receiver (s.seeTimestamp (timestampByte t)) with
          inSysex := openBehind false e } := by
  have outside : (receiver s).inSysex = false := hs
  have track : (receiver s).track e = receiver (s.seeTimestamp (timestampByte t)) := by
    simp only [Receiver.track, outside, he]
    rfl
  constructor
  · simp only [Receiver.reports, Receiver.report, track]
    cases e with
    | sysexData dataByte => cases he
    | _ =>
      obtain rfl : _ = t := Option.some.inj he
      rfl
  · change (receiver s).next e = _
    rw [Receiver.next, track, outside]

private theorem seeTimestamp_again {s : ScanState} {t : UInt16}
    (h : s.prevTimestamp = timestampByte t) : s.seeTimestamp (timestampByte t) = s := by
  have same : ¬ timestampByte t < s.prevTimestamp := by simp [h]
  rw [ScanState.seeTimestamp, if_neg same, ← h]

/-- The bytes of a message behind the header. -/
def messageTail (w : Writer maxSize) (m : MessageBytes) (t : UInt16) : List UInt8 :=
  (if w.skipMsgTimestamp (w.choose m.byte0 m.byte2).statusByte t then []
    else [timestampByte t]) ++
    ((if w.skipStatusByte (w.choose m.byte0 m.byte2).statusByte then []
      else [(w.choose m.byte0 m.byte2).statusByte]) ++ sentData w m)

/-- A message takes a byte at least: a status byte that is skipped has data bytes. -/
theorem messageTail_ne_nil (w : Writer maxSize) {m : MessageBytes} (hm : ValidMessage m)
    (t : UInt16) : messageTail w m t ≠ [] := by
  intro tail
  obtain ⟨-, rest⟩ := List.append_eq_nil_iff.mp tail
  obtain ⟨skipped, data⟩ := List.append_eq_nil_iff.mp rest
  have channel : isChannelMessage (w.choose m.byte0 m.byte2).statusByte = true := by
    by_contra other
    simp [Writer.skipStatusByte, other] at skipped
  have length := sentData_length w hm
  rw [data] at length
  rcases messageSize_channel channel with size | size <;> rw [size] at length <;> cases length

theorem messageTail_length_le (w : Writer maxSize) (m : MessageBytes) (t : UInt16) :
    (messageTail w m t).length ≤ 4 := by
  have data : (sentData w m).length ≤ 2 := List.length_take_le' _ _
  have single (p : Prop) [Decidable p] (b : UInt8) :
      (if p then [] else [b] : List UInt8).length ≤ 1 := by
    split <;> simp
  have time := single (w.skipMsgTimestamp (w.choose m.byte0 m.byte2).statusByte t = true)
    (timestampByte t)
  have status := single (w.skipStatusByte (w.choose m.byte0 m.byte2).statusByte = true)
    (w.choose m.byte0 m.byte2).statusByte
  unfold messageTail
  rw [List.length_append, List.length_append]
  omega

/-- The running status that a writer keeps behind a message with the given status byte. -/
def KeepsRunning (w w' : Writer maxSize) (status : UInt8) : Prop :=
  w'.prevRunningStatusByte = 0 ∨
    isChannelMessage status = true ∧ w'.prevRunningStatusByte = status ∨
    isChannelMessage status = false ∧ w'.prevRunningStatusByte = w.prevRunningStatusByte

theorem choose_keepsRunning {w w' : Writer maxSize} {statusByte dataByte1 : UInt8}
    (h : w'.prevRunningStatusByte = (w.choose statusByte dataByte1).runningStatusByte) :
    KeepsRunning w w' (w.choose statusByte dataByte1).statusByte := by
  unfold KeepsRunning
  rw [h]
  rcases choose_cases w statusByte dataByte1 with ⟨noteOff, -, -, eq⟩ | ⟨-, running, eq, rest⟩
  · rw [eq]
    exact .inr (.inl ⟨(noteOff_noteOn noteOff).2.2.2, rfl⟩)
  · rw [eq]
    exact rest

private theorem piece_complete {w w' : Writer maxSize} {s : ScanState} (hs : s.inSysex = false)
    (hstep : InStep w s) {status : UInt8} {data : List UInt8} (hsize : messageSize status ≠ 0)
    (hlen : data.length + 1 = (messageSize status).toNat) (hkeeps : KeepsRunning w w' status) :
    Piece w w' s (timestampByte w'.prevTimestamp :: status :: data)
      [.midiMessage (status :: data) w'.prevTimestamp]
      ((s.seeTimestamp (timestampByte w'.prevTimestamp)).seeStatus status) := by
  obtain ⟨reports, after⟩ := reports_outside hs
    (e := .midiMessage (status :: data) w'.prevTimestamp) rfl
  have timed := isStatusByte_timestampByte w'.prevTimestamp
  refine ⟨?_, ?_, ?_, ?_⟩
  · rw [reports]
    exact emits_message hs timed hsize hlen
  · rw [after]
    exact congrArg (fun inSysex => Receiver.mk inSysex _ _) hs
  · rcases hkeeps with unset | ⟨channel, kept⟩ | ⟨system, kept⟩
    · exact .inl unset
    · refine .inr ⟨by rwa [kept], ?_, rfl⟩
      rw [kept]
      exact if_pos channel
    · rcases hstep with unset | ⟨channel, same, -⟩
      · exact .inl (kept.trans unset)
      · refine .inr ⟨by rwa [kept], ?_, rfl⟩
        rw [kept, ← same]
        have class' := (messageSize_class status).mp hsize
        simp only [system, Bool.false_eq_true, false_or] at class'
        rcases class' with realtime | common
        · simp [ScanState.seeStatus, ScanState.seeTimestamp, system, realtime]
        · simp [ScanState.seeStatus, ScanState.seeTimestamp, system, common]
  · intro unset _
    cases realtime : isRealtimeMessage status with
    | true =>
      have none : data = [] := by
        rw [messageSize_realtime realtime] at hlen
        exact List.length_eq_zero_iff.mp (by simpa using hlen)
      subst none
      refine .inr ⟨preScan_realtime timed realtime, ?_, hs⟩
      rcases hkeeps with unset' | ⟨channel, -⟩ | ⟨-, kept⟩
      · exact unset'
      · rw [not_channel_of_realtime realtime] at channel
        cases channel
      · exact kept.trans unset
    | false =>
      have started := isStatusByte_of_messageSize hsize
      exact .inl fun rest => preScan_status timed started realtime (data ++ rest)

private theorem piece_running {w w' : Writer maxSize} {s : ScanState} (hs : s.inSysex = false)
    (hstep : InStep w s) {data : List UInt8}
    (hchannel : isChannelMessage w.prevRunningStatusByte = true)
    (hlen : data.length + 1 = (messageSize w.prevRunningStatusByte).toNat)
    (hdata : ∀ b ∈ data, isDataByte b = true)
    (hkeeps : KeepsRunning w w' w.prevRunningStatusByte) {skip : Bool}
    (hskip : skip = true → w'.prevTimestamp = w.prevTimestamp) :
    Piece w w' s ((if skip then [] else [timestampByte w'.prevTimestamp]) ++ data)
      [.midiMessage (w.prevRunningStatusByte :: data) w'.prevTimestamp]
      (s.seeTimestamp (timestampByte w'.prevTimestamp)) := by
  obtain ⟨reports, after⟩ := reports_outside hs
    (e := .midiMessage (w.prevRunningStatusByte :: data) w'.prevTimestamp) rfl
  have set : w.prevRunningStatusByte ≠ 0 := by
    intro unset
    rw [unset] at hchannel
    cases hchannel
  obtain ⟨-, same, seen⟩ := hstep.resolve_left set
  have hsize : messageSize s.running ≠ 0 := by
    rw [same]
    exact (messageSize_class _).mpr (.inl hchannel)
  obtain ⟨d, more, rfl⟩ : ∃ d more, data = d :: more := by
    cases data with
    | nil =>
      rcases messageSize_channel hchannel with size | size <;> rw [size] at hlen <;> cases hlen
    | cons d more => exact ⟨d, more, rfl⟩
  have hd : isDataByte d = true := hdata d List.mem_cons_self
  have hmore : more.length + 2 = (messageSize s.running).toNat := by
    rw [same]
    exact hlen
  refine ⟨?_, ?_, ?_, fun unset => absurd unset set⟩
  · rw [reports, ← same]
    cases skip with
    | true =>
      have again : s.seeTimestamp (timestampByte w'.prevTimestamp) = s := by
        apply seeTimestamp_again
        rw [hskip rfl]
        exact seen
      have emits := emits_running hs hd hsize hmore
      rw [again]
      rw [seen, ← hskip rfl] at emits
      exact emits
    | false =>
      exact emits_runningTimed hs (isStatusByte_timestampByte _) hd hsize hmore
  · rw [after]
    exact congrArg (fun inSysex => Receiver.mk inSysex _ _) hs
  · have kept : w'.prevRunningStatusByte = 0 ∨
        w'.prevRunningStatusByte = w.prevRunningStatusByte := by
      rcases hkeeps with unset | ⟨-, kept⟩ | ⟨-, kept⟩
      · exact .inl unset
      · exact .inr kept
      · exact .inr kept
    rcases kept with unset | kept
    · exact .inl unset
    · refine .inr ⟨by rwa [kept], ?_, rfl⟩
      rw [kept]
      exact same

theorem piece_message {w w' : Writer maxSize} {s : ScanState} (hs : s.inSysex = false)
    (hstep : InStep w s) {m : MessageBytes} (hm : ValidMessage m)
    (hrunning : w'.prevRunningStatusByte = (w.choose m.byte0 m.byte2).runningStatusByte) :
    ∃ s', Piece w w' s (messageTail w m w'.prevTimestamp)
      [.midiMessage (delivered w.runningStatusEnabled w.noteOffAsNoteOn m) w'.prevTimestamp]
      s' := by
  obtain ⟨size, channel⟩ := choose_class w m.byte0 m.byte2
  have valid : messageSize (w.choose m.byte0 m.byte2).statusByte ≠ 0 := by
    rw [size]
    exact hm.1
  have length := sentData_length w hm
  have keeps := choose_keepsRunning hrunning
  rw [delivered_eq w hm]
  unfold messageTail
  by_cases skipStatus : w.skipStatusByte (w.choose m.byte0 m.byte2).statusByte = true
  · obtain ⟨used, isChannel⟩ : (w.choose m.byte0 m.byte2).statusByte = w.prevRunningStatusByte ∧
        isChannelMessage (w.choose m.byte0 m.byte2).statusByte = true := by
      simpa [Writer.skipStatusByte, Writer.isRunningStatus] using skipStatus
    have skipped : w.skipMsgTimestamp (w.choose m.byte0 m.byte2).statusByte w'.prevTimestamp =
        true → w'.prevTimestamp = w.prevTimestamp := by
      intro skip
      simp only [Writer.skipMsgTimestamp, Bool.and_eq_true, Bool.not_eq_true', bne_eq_false_iff_eq]
        at skip
      exact skip.1.1.2
    have data := sentData_isDataByte w hm
    rw [if_pos skipStatus]
    rw [used] at isChannel length keeps skipped ⊢
    exact ⟨_, piece_running hs hstep isChannel length data keeps skipped⟩
  · have timed : w.skipMsgTimestamp (w.choose m.byte0 m.byte2).statusByte w'.prevTimestamp =
        false := by
      simp only [Writer.skipStatusByte, Bool.and_eq_true, not_and, Bool.not_eq_true] at skipStatus
      simp only [Writer.skipMsgTimestamp, Bool.and_eq_false_iff]
      by_cases same : w.isRunningStatus (w.choose m.byte0 m.byte2).statusByte = true
      · exact .inl (.inr (skipStatus same))
      · exact .inl (.inl (.inl (Bool.eq_false_iff.mpr same)))
    rw [if_neg skipStatus, timed]
    exact ⟨_, piece_complete hs hstep valid length keeps⟩

theorem piece_sysexStart {w w' : Writer maxSize} {s : ScanState} (hs : s.inSysex = false)
    (t : UInt16) (hunset : w'.prevRunningStatusByte = 0) :
    Piece w w' s [timestampByte t, 0xf0] [.sysexStart t]
      { (s.seeTimestamp (timestampByte t)).seeStatus 0xf0 with inSysex := true } := by
  obtain ⟨reports, after⟩ := reports_outside hs (e := .sysexStart t) rfl
  have timed := isStatusByte_timestampByte t
  refine ⟨?_, ?_, .inl hunset, ?_⟩
  · rw [reports]
    exact emits_sysexStart hs timed
  · rw [after]
    rfl
  · intro _ _
    exact .inl fun rest => preScan_status timed rfl rfl rest

private theorem reports_inside {s : ScanState} (hs : s.inSysex = true) (e : Event) :
    (receiver s).reports [e] =
        [mapTime (fun t => timestampMs s.high (timestampByte t)) e] ∧
      (receiver s).after [e] = receiver { s with inSysex := openBehind true e } := by
  have inside : (receiver s).inSysex = true := hs
  have track : (receiver s).track e = receiver s := by
    rw [Receiver.track, if_pos inside]
  constructor
  · rw [Receiver.reports, Receiver.report, track]
    rfl
  · change (receiver s).next e = _
    rw [Receiver.next, track, inside]
    rfl

variable {w w' : Writer maxSize} {s : ScanState}

theorem piece_sysexEnd (hs : s.inSysex = true) (hstep : InStep w s) (t : UInt16)
    (hrunning : w'.prevRunningStatusByte = w.prevRunningStatusByte)
    (htime : w'.prevTimestamp = w.prevTimestamp) :
    Piece w w' s [timestampByte t, 0xf7] [.sysexEnd t] { s with inSysex := false } := by
  obtain ⟨reports, after⟩ := reports_inside hs (.sysexEnd t)
  refine ⟨?_, ?_, hstep.keep hrunning htime rfl rfl, ?_⟩
  · rw [reports]
    exact emits_sysexEnd hs (isStatusByte_timestampByte t)
  · rw [after]
    rfl
  · intro _ outside
    cases hs.symm.trans outside

theorem piece_realtime (hs : s.inSysex = true) (hstep : InStep w s) (t : UInt16) {rt : UInt8}
    (hrt : isRealtimeMessage rt = true)
    (hrunning : w'.prevRunningStatusByte = w.prevRunningStatusByte)
    (htime : w'.prevTimestamp = w.prevTimestamp) :
    Piece w w' s [timestampByte t, rt] [.midiMessage [rt] t] s := by
  obtain ⟨reports, after⟩ := reports_inside hs (.midiMessage [rt] t)
  refine ⟨?_, ?_, hstep.keep hrunning htime rfl rfl, ?_⟩
  · rw [reports]
    exact emits_sysexRealtime hs (isStatusByte_timestampByte t) hrt
  · rw [after]
    exact congrArg (fun inSysex => Receiver.mk inSysex _ _) hs
  · intro _ outside
    cases hs.symm.trans outside

private theorem reports_sysexData (hs : s.inSysex = true) (bytes : List UInt8) :
    (receiver s).reports (bytes.map .sysexData) = bytes.map .sysexData ∧
      (receiver s).after (bytes.map .sysexData) = receiver s := by
  induction bytes with
  | nil => exact ⟨rfl, rfl⟩
  | cons b bytes ih =>
    obtain ⟨reports, after⟩ := reports_inside hs (.sysexData b)
    have same : (receiver s).after [.sysexData b] = receiver s := by
      rw [after]
      exact congrArg (fun inSysex => Receiver.mk inSysex _ _) hs.symm
    change (receiver s).reports ([.sysexData b] ++ bytes.map .sysexData) = _ ∧
      (receiver s).after ([.sysexData b] ++ bytes.map .sysexData) = _
    rw [Receiver.reports_append, Receiver.after_append, same, reports, ih.1, ih.2]
    exact ⟨rfl, rfl⟩

theorem piece_sysexData (hs : s.inSysex = true) (hstep : InStep w s) {bytes : List UInt8}
    (hdata : ∀ b ∈ bytes, isDataByte b = true)
    (hrunning : w'.prevRunningStatusByte = w.prevRunningStatusByte)
    (htime : w'.prevTimestamp = w.prevTimestamp) :
    Piece w w' s bytes (bytes.map .sysexData) s := by
  obtain ⟨reports, after⟩ := reports_sysexData hs bytes
  refine ⟨?_, after.symm, hstep.keep hrunning htime rfl rfl, ?_⟩
  · rw [reports]
    exact emits_sysexData hs hdata
  · intro _ outside
    cases hs.symm.trans outside

theorem piece_sysexMsg (hs : s.inSysex = false) (t : UInt16) {data : List UInt8}
    (hdata : ∀ b ∈ data, isDataByte b = true) (hunset : w'.prevRunningStatusByte = 0) :
    ∃ s', Piece w w' s (timestampByte t :: 0xf0 :: (data ++ [timestampByte t, 0xf7]))
      (.sysexStart t :: (data.map .sysexData ++ [.sysexEnd t])) s' := by
  have start := piece_sysexStart (w := w) hs t hunset
  have middle := piece_sysexData (w := w') rfl start.inStep hdata rfl rfl
  have finish := piece_sysexEnd (w := w') rfl middle.inStep t rfl rfl
  exact ⟨_, start.trans (middle.trans finish)⟩

end BleMidi.Packet.WriterPieces
