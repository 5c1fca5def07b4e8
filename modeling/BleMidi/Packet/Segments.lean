/- Module: BleMidi/Packet/Segments
   digest: The pieces of a packet body that the scan turns into one event, whatever follows. -/

import BleMidi.Packet.PacketScan

set_option autoImplicit false
set_option relaxedAutoImplicit false

namespace BleMidi.Packet.Segments

open BleMidi.Core.Transducer
open BleMidi.Packet.Bytes
open BleMidi.Packet.PacketParser
open BleMidi.Packet.PacketScan

private theorem not_data_of_status {byte : UInt8} (h : isStatusByte byte = true) :
    ¬ isDataByte byte = true := by
  rw [not_isDataByte.mpr h]
  simp

private theorem takeMessage_append (s : ScanState) (front bytes rest : List UInt8) :
    takeMessage s front bytes.length (bytes ++ rest) =
      .more [.midiMessage (front ++ bytes) (timestampMs s.high s.prevTimestamp)] s rest := by
  have enough : ¬ (bytes ++ rest).length < bytes.length := by
    rw [List.length_append]
    omega
  rw [takeMessage, if_neg enough, List.take_left, List.drop_left]

variable {s : ScanState}

theorem emits_sysexData (hs : s.inSysex = true) {bytes : List UInt8}
    (hdata : ∀ b ∈ bytes, isDataByte b = true) :
    Emits scanner s bytes (bytes.map .sysexData) s := by
  refine Emits.map_of_step fun b hb rest => ?_
  change scanStep s b rest = _
  unfold scanStep
  rw [if_pos hs, if_pos (hdata b hb)]

private theorem sysexStatus_step (hs : s.inSysex = true) {ts : UInt8}
    (hts : isStatusByte ts = true) (status : UInt8) (rest : List UInt8) :
    scanner.step s ts ([status] ++ rest) = scanSysexStatus s ts status rest := by
  change scanStep s ts (status :: rest) = _
  rw [scanStep, if_pos hs, if_neg (not_data_of_status hts)]

theorem emits_sysexRealtime (hs : s.inSysex = true) {ts rt : UInt8}
    (hts : isStatusByte ts = true) (hrt : isRealtimeMessage rt = true) :
    Emits scanner s [ts, rt] [.midiMessage [rt] (timestampMs s.high ts)] s := by
  refine Emits.of_step fun rest => ?_
  rw [sysexStatus_step hs hts, scanSysexStatus, if_pos hrt]

theorem emits_sysexEnd (hs : s.inSysex = true) {ts : UInt8} (hts : isStatusByte ts = true) :
    Emits scanner s [ts, 0xf7] [.sysexEnd (timestampMs s.high ts)]
      { s with inSysex := false } := by
  refine Emits.of_step fun rest => ?_
  rw [sysexStatus_step hs hts, scanSysexStatus, if_neg (by decide), if_pos rfl]

private theorem status_step (hs : s.inSysex = false) {ts status : UInt8}
    (hts : isStatusByte ts = true) (hstatus : isStatusByte status = true)
    (rest : List UInt8) :
    scanner.step s ts (status :: rest) = scanStatus (s.seeTimestamp ts) status rest := by
  change scanStep s ts (status :: rest) = _
  rw [scanStep, if_neg (by simp [hs]), if_neg (not_data_of_status hts)]
  exact if_neg (not_data_of_status hstatus)

theorem emits_sysexStart (hs : s.inSysex = false) {ts : UInt8} (hts : isStatusByte ts = true) :
    Emits scanner s [ts, 0xf0]
      [.sysexStart (timestampMs (s.seeTimestamp ts).high ts)]
      { (s.seeTimestamp ts).seeStatus 0xf0 with inSysex := true } := by
  refine Emits.of_step fun rest => ?_
  change scanner.step s ts (0xf0 :: rest) = _
  rw [status_step hs hts (by decide), scanStatus, if_pos rfl]
  rfl

theorem emits_message (hs : s.inSysex = false) {ts status : UInt8} {data : List UInt8}
    (hts : isStatusByte ts = true) (hstatus : messageSize status ≠ 0)
    (hlen : data.length + 1 = (messageSize status).toNat) :
    Emits scanner s (ts :: status :: data)
      [.midiMessage (status :: data) (timestampMs (s.seeTimestamp ts).high ts)]
      ((s.seeTimestamp ts).seeStatus status) := by
  refine Emits.of_step fun rest => ?_
  have notStart : status ≠ 0xf0 := by
    rintro rfl
    exact hstatus rfl
  have size : (messageSize status).toNat - 1 = data.length := by omega
  rw [List.cons_append, status_step hs hts (isStatusByte_of_messageSize hstatus), scanStatus,
    if_neg notStart, if_neg hstatus, size, takeMessage_append]
  rfl

private theorem scanRunning_append {d : UInt8} {more : List UInt8}
    (hrunning : messageSize s.running ≠ 0)
    (hlen : more.length + 2 = (messageSize s.running).toNat) (rest : List UInt8) :
    scanRunning s d (more ++ rest) =
      .more [.midiMessage (s.running :: d :: more) (timestampMs s.high s.prevTimestamp)] s
        rest := by
  have size : (messageSize s.running).toNat - 2 = more.length := by omega
  rw [scanRunning, if_neg hrunning, size, takeMessage_append]
  rfl

/-- A message with running status and no timestamp. -/
theorem emits_running (hs : s.inSysex = false) {d : UInt8} {more : List UInt8}
    (hd : isDataByte d = true) (hrunning : messageSize s.running ≠ 0)
    (hlen : more.length + 2 = (messageSize s.running).toNat) :
    Emits scanner s (d :: more)
      [.midiMessage (s.running :: d :: more) (timestampMs s.high s.prevTimestamp)] s := by
  refine Emits.of_step fun rest => ?_
  change scanStep s d (more ++ rest) = _
  unfold scanStep
  rw [if_neg (by simp [hs]), if_pos hd, scanRunning_append hrunning hlen]

/-- A message with running status behind a timestamp. -/
theorem emits_runningTimed (hs : s.inSysex = false) {ts d : UInt8} {more : List UInt8}
    (hts : isStatusByte ts = true) (hd : isDataByte d = true)
    (hrunning : messageSize s.running ≠ 0)
    (hlen : more.length + 2 = (messageSize s.running).toNat) :
    Emits scanner s (ts :: d :: more)
      [.midiMessage (s.running :: d :: more) (timestampMs (s.seeTimestamp ts).high ts)]
      (s.seeTimestamp ts) := by
  refine Emits.of_step fun rest => ?_
  change scanStep s ts (d :: (more ++ rest)) = _
  rw [scanStep, if_neg (by simp [hs]), if_neg (not_data_of_status hts)]
  refine (if_pos hd).trans ?_
  exact scanRunning_append (s := s.seeTimestamp ts) hrunning hlen rest

/-- What an iteration of the scan can do: one case for every kind of piece it reads, the orphan
data bytes, and the returned errors. -/
inductive ScanCase (s : ScanState) : UInt8 → List UInt8 → ScanMove → Prop
  | sysexData {b : UInt8} {rest : List UInt8} :
      s.inSysex = true → isDataByte b = true →
      ScanCase s b rest (.more [.sysexData b] s rest)
  | sysexRealtime {ts rt : UInt8} {rest : List UInt8} :
      s.inSysex = true → isStatusByte ts = true → isRealtimeMessage rt = true →
      ScanCase s ts (rt :: rest) (.more [.midiMessage [rt] (timestampMs s.high ts)] s rest)
  | sysexEnd {ts : UInt8} {rest : List UInt8} :
      s.inSysex = true → isStatusByte ts = true →
      ScanCase s ts (0xf7 :: rest)
        (.more [.sysexEnd (timestampMs s.high ts)] { s with inSysex := false } rest)
  | sysexStart {ts : UInt8} {rest : List UInt8} :
      s.inSysex = false → isStatusByte ts = true →
      ScanCase s ts (0xf0 :: rest)
        (.more [.sysexStart (timestampMs (s.seeTimestamp ts).high ts)]
          { (s.seeTimestamp ts).seeStatus 0xf0 with inSysex := true } rest)
  | message {ts status : UInt8} {data rest : List UInt8} :
      s.inSysex = false → isStatusByte ts = true → messageSize status ≠ 0 →
      data.length + 1 = (messageSize status).toNat →
      ScanCase s ts (status :: (data ++ rest))
        (.more [.midiMessage (status :: data) (timestampMs (s.seeTimestamp ts).high ts)]
          ((s.seeTimestamp ts).seeStatus status) rest)
  | running {d : UInt8} {data rest : List UInt8} :
      s.inSysex = false → isDataByte d = true → isChannelMessage s.running = true →
      data.length + 2 = (messageSize s.running).toNat →
      ScanCase s d (data ++ rest)
        (.more [.midiMessage (s.running :: d :: data) (timestampMs s.high s.prevTimestamp)] s
          rest)
  | runningTimed {ts d : UInt8} {data rest : List UInt8} :
      s.inSysex = false → isStatusByte ts = true → isDataByte d = true →
      isChannelMessage s.running = true → data.length + 2 = (messageSize s.running).toNat →
      ScanCase s ts (d :: (data ++ rest))
        (.more [.midiMessage (s.running :: d :: data) (timestampMs (s.seeTimestamp ts).high ts)]
          (s.seeTimestamp ts) rest)
  | orphan {d : UInt8} {rest : List UInt8} :
      s.inSysex = false → isDataByte d = true → s.running = 0 →
      ScanCase s d rest (.stop [] (.orphan rest.length))
  | orphanTimed {ts d : UInt8} {rest : List UInt8} :
      s.inSysex = false → isStatusByte ts = true → isDataByte d = true → s.running = 0 →
      ScanCase s ts (d :: rest) (.stop [] (.orphan rest.length))
  | failed {b : UInt8} {rest : List UInt8} (code : PacketError) :
      ScanCase s b rest (.stop [] (.failed code))

private theorem takeMessage_cases (s : ScanState) (front rest : List UInt8) (count : Nat) :
    takeMessage s front count rest = .stop [] (.failed .unexpectedEndOfData) ∨
      ∃ data out, data.length = count ∧ rest = data ++ out ∧
        takeMessage s front count rest =
          .more [.midiMessage (front ++ data) (timestampMs s.high s.prevTimestamp)] s out := by
  by_cases short : rest.length < count
  · exact .inl (if_pos short)
  · refine .inr ⟨rest.take count, rest.drop count, ?_, (List.take_append_drop _ _).symm,
      if_neg short⟩
    rw [List.length_take]
    omega

private theorem scanRunning_cases {s : ScanState} (hs : s.RunningOk) (d : UInt8)
    (rest : List UInt8) :
    (s.running = 0 ∧ scanRunning s d rest = .stop [] (.orphan rest.length)) ∨
      scanRunning s d rest = .stop [] (.failed .unexpectedEndOfData) ∨
      (isChannelMessage s.running = true ∧ ∃ data out,
        data.length + 2 = (messageSize s.running).toNat ∧ rest = data ++ out ∧
        scanRunning s d rest =
          .more [.midiMessage (s.running :: d :: data) (timestampMs s.high s.prevTimestamp)] s
            out) := by
  rcases hs with unset | channel
  · exact .inl ⟨unset, by rw [scanRunning, unset]; rfl⟩
  · have size : messageSize s.running ≠ 0 := (messageSize_class _).mpr (.inl channel)
    have two : 2 ≤ (messageSize s.running).toNat := by
      rcases messageSize_channel channel with h | h <;> rw [h] <;> decide
    rw [scanRunning, if_neg size]
    rcases takeMessage_cases s [s.running, d] rest ((messageSize s.running).toNat - 2) with
      short | ⟨data, out, len, split, taken⟩
    · exact .inr (.inl short)
    · exact .inr (.inr ⟨channel, data, out, by omega, split, taken⟩)

theorem scanStep_case {s : ScanState} (hs : s.RunningOk) (b : UInt8) (unread : List UInt8) :
    ScanCase s b unread (scanStep s b unread) := by
  unfold scanStep
  by_cases sysex : s.inSysex = true
  · rw [if_pos sysex]
    by_cases data : isDataByte b = true
    · rw [if_pos data]
      exact .sysexData sysex data
    · rw [if_neg data]
      have status := not_isDataByte.mp (Bool.not_eq_true _ ▸ data)
      cases unread with
      | nil => exact .failed _
      | cons second rest =>
        simp only [scanSysexStatus]
        split
        · rename_i realtime
          exact .sysexRealtime sysex status realtime
        · split
          · rename_i ends
            subst ends
            exact .sysexEnd sysex status
          · exact .failed _
  · have outside : s.inSysex = false := Bool.not_eq_true _ ▸ sysex
    rw [if_neg sysex]
    by_cases data : isDataByte b = true
    · rw [if_pos data]
      rcases scanRunning_cases hs b unread with ⟨unset, h⟩ | h | ⟨channel, more, out, len, rfl, h⟩
      · rw [h]
        exact .orphan outside data unset
      · rw [h]
        exact .failed _
      · rw [h]
        exact .running outside data channel len
    · rw [if_neg data]
      have status := not_isDataByte.mp (Bool.not_eq_true _ ▸ data)
      cases unread with
      | nil => exact .failed _
      | cons second rest =>
        dsimp only
        by_cases data' : isDataByte second = true
        · rw [if_pos data']
          have seen : (s.seeTimestamp b).RunningOk := hs
          rcases scanRunning_cases seen second rest with
            ⟨unset, h⟩ | h | ⟨channel, more, out, len, rfl, h⟩
          · rw [h]
            exact .orphanTimed outside status data' unset
          · rw [h]
            exact .failed _
          · rw [h]
            exact .runningTimed outside status data' channel len
        · rw [if_neg data']
          unfold scanStatus
          split
          · rename_i start
            subst start
            exact .sysexStart outside status
          · split
            · exact .failed _
            · rename_i size
              have one : 1 ≤ (messageSize second).toNat := by
                have zero := mt UInt8.toNat_inj.mp size
                simp only [UInt8.reduceToNat] at zero
                omega
              rcases takeMessage_cases ((s.seeTimestamp b).seeStatus second) [second] rest
                ((messageSize second).toNat - 1) with h | ⟨more, out, len, rfl, h⟩
              · rw [h]
                exact .failed _
              · rw [h]
                exact .message outside status size (by omega)

theorem preScan_realtime {ts rt : UInt8} (hts : isStatusByte ts = true)
    (hrt : isRealtimeMessage rt = true) (rest : List UInt8) :
    preScan (ts :: rt :: rest) = preScan rest := by
  rw [preScan_pair (not_data_of_status hts),
    if_neg (not_data_of_status (isStatusByte_of_realtime hrt)), if_pos hrt]

/-- Any other status byte ends the pre-scan: the packet does not continue a sysex message. -/
theorem preScan_status {ts status : UInt8} (hts : isStatusByte ts = true)
    (hstatus : isStatusByte status = true) (hrt : isRealtimeMessage status = false)
    (rest : List UInt8) : preScan (ts :: status :: rest) = .ok false := by
  rw [preScan_pair (not_data_of_status hts), if_neg (not_data_of_status hstatus),
    if_neg (by simp [hrt])]

end BleMidi.Packet.Segments
