/- Module: BleMidi/Packet/PacketScan
   digest: The packet parser as a reader of the unread bytes, and its agreement with the indices. -/

import BleMidi.Core.Transducer
import BleMidi.Packet.PacketParser

set_option autoImplicit false
set_option relaxedAutoImplicit false

namespace BleMidi.Packet.PacketScan

open BleMidi.Core.Transducer
open BleMidi.Packet.Bytes
open BleMidi.Packet.PacketParser

/-- The parser fields that decide how the unread bytes are taken. -/
@[ext] structure ScanState where
  inSysex : Bool
  running : UInt8
  prevTimestamp : UInt8
  high : UInt8
  deriving DecidableEq

/-- Why a scan stops. An orphan is a data byte outside sysex with no running status in force, with
the number of unread bytes behind it. -/
inductive ScanEnd
  | success
  | failed (code : PacketError)
  | orphan (unread : Nat)
  deriving DecidableEq

def ScanEnd.IsOrphan : ScanEnd → Prop
  | .orphan _ => True
  | _ => False

abbrev ScanMove := Move ScanState UInt8 Event ScanEnd

def ScanState.seeTimestamp (s : ScanState) (byte0 : UInt8) : ScanState :=
  { s with
    high := if byte0 < s.prevTimestamp then (s.high + 1) % 0x40 else s.high
    prevTimestamp := byte0 }

def ScanState.seeStatus (s : ScanState) (status : UInt8) : ScanState :=
  { s with running :=
      if isChannelMessage status then status
      else if !isRealtimeMessage status && !isSystemCommonMessage status then 0
      else s.running }

/-- Take `count` bytes as the rest of a message that starts with `front`. -/
def takeMessage (s : ScanState) (front : List UInt8) (count : Nat) (rest : List UInt8) :
    ScanMove :=
  if rest.length < count then .stop [] (.failed .unexpectedEndOfData)
  else .more [.midiMessage (front ++ rest.take count) (timestampMs s.high s.prevTimestamp)] s
    (rest.drop count)

def scanRunning (s : ScanState) (byte0 : UInt8) (rest : List UInt8) : ScanMove :=
  if messageSize s.running = 0 then .stop [] (.orphan rest.length)
  else takeMessage s [s.running, byte0] ((messageSize s.running).toNat - 2) rest

def scanStatus (s : ScanState) (status : UInt8) (rest : List UInt8) : ScanMove :=
  if status = 0xf0 then
    .more [.sysexStart (timestampMs s.high s.prevTimestamp)]
      { s.seeStatus status with inSysex := true } rest
  else if messageSize status = 0 then .stop [] (.failed .invalidStatusByte)
  else takeMessage (s.seeStatus status) [status] ((messageSize status).toNat - 1) rest

def scanSysexStatus (s : ScanState) (byte0 status : UInt8) (rest : List UInt8) : ScanMove :=
  if isRealtimeMessage status then
    .more [.midiMessage [status] (timestampMs s.high byte0)] s rest
  else if status = 0xf7 then
    .more [.sysexEnd (timestampMs s.high byte0)] { s with inSysex := false } rest
  else .stop [] (.failed .invalidStatusByte)

/-- One iteration of the parse loop on the unread bytes. -/
def scanStep (s : ScanState) (byte0 : UInt8) (unread : List UInt8) : ScanMove :=
  if s.inSysex then
    if isDataByte byte0 then .more [.sysexData byte0] s unread
    else
      match unread with
      | [] => .stop [] (.failed .unexpectedEndOfData)
      | status :: rest => scanSysexStatus s byte0 status rest
  else if isDataByte byte0 then scanRunning s byte0 unread
  else
    match unread with
    | [] => .stop [] (.failed .unexpectedEndOfData)
    | byte1 :: rest =>
        if isDataByte byte1 then scanRunning (s.seeTimestamp byte0) byte1 rest
        else scanStatus (s.seeTimestamp byte0) byte1 rest

private theorem takeMessage_rest {s s' : ScanState} {front rest out : List UInt8} {count : Nat}
    {events : List Event} (h : takeMessage s front count rest = .more events s' out) :
    out.length ≤ rest.length := by
  unfold takeMessage at h
  split at h
  · cases h
  · simp only [Move.more.injEq] at h
    obtain ⟨-, -, rfl⟩ := h
    simp

private theorem scanRunning_rest {s s' : ScanState} {byte0 : UInt8} {rest out : List UInt8}
    {events : List Event} (h : scanRunning s byte0 rest = .more events s' out) :
    out.length ≤ rest.length := by
  unfold scanRunning at h
  split at h
  · cases h
  · exact takeMessage_rest h

private theorem scanStatus_rest {s s' : ScanState} {status : UInt8} {rest out : List UInt8}
    {events : List Event} (h : scanStatus s status rest = .more events s' out) :
    out.length ≤ rest.length := by
  unfold scanStatus at h
  split at h
  · cases h
    exact le_rfl
  · split at h
    · cases h
    · exact takeMessage_rest h

private theorem scanSysexStatus_rest {s s' : ScanState} {byte0 status : UInt8}
    {rest out : List UInt8} {events : List Event}
    (h : scanSysexStatus s byte0 status rest = .more events s' out) :
    out.length ≤ rest.length := by
  unfold scanSysexStatus at h
  split at h
  · cases h
    exact le_rfl
  · split at h
    · cases h
      exact le_rfl
    · cases h

theorem scanStep_rest {s s' : ScanState} {byte0 : UInt8} {unread out : List UInt8}
    {events : List Event} (h : scanStep s byte0 unread = .more events s' out) :
    out.length ≤ unread.length := by
  unfold scanStep at h
  split at h
  · split at h
    · cases h
      exact le_rfl
    · cases unread with
      | nil => cases h
      | cons status rest => exact (scanSysexStatus_rest h).trans (Nat.le_succ _)
  · split at h
    · exact scanRunning_rest h
    · cases unread with
      | nil => cases h
      | cons byte1 rest =>
        simp only at h
        split at h
        · exact (scanRunning_rest h).trans (Nat.le_succ _)
        · exact (scanStatus_rest h).trans (Nat.le_succ _)

/-- The parse loop as a reader. -/
def scanner : Reader ScanState UInt8 Event ScanEnd where
  step := scanStep
  finished _ := .success
  consumes := scanStep_rest

/-- The running status is a channel status or unset. -/
def ScanState.RunningOk (s : ScanState) : Prop :=
  s.running = 0 ∨ isChannelMessage s.running = true

private theorem runningOk_seeStatus {s : ScanState} (h : s.RunningOk) (status : UInt8) :
    (s.seeStatus status).RunningOk := by
  unfold ScanState.RunningOk ScanState.seeStatus
  split
  · rename_i channel
    exact .inr channel
  · split
    · exact .inl rfl
    · exact h

private theorem takeMessage_state {s s' : ScanState} {front rest out : List UInt8} {count : Nat}
    {events : List Event} (h : takeMessage s front count rest = .more events s' out) :
    s' = s := by
  unfold takeMessage at h
  split at h
  · cases h
  · simp only [Move.more.injEq] at h
    exact h.2.1.symm

private theorem scanRunning_state {s s' : ScanState} {byte0 : UInt8} {rest out : List UInt8}
    {events : List Event} (h : scanRunning s byte0 rest = .more events s' out) : s' = s := by
  unfold scanRunning at h
  split at h
  · cases h
  · exact takeMessage_state h

/-- An iteration keeps the running status a channel status or unset. -/
theorem scanStep_runningOk {s s' : ScanState} {byte0 : UInt8} {unread out : List UInt8}
    {events : List Event} (hs : s.RunningOk)
    (h : scanStep s byte0 unread = .more events s' out) : s'.RunningOk := by
  unfold scanStep at h
  split at h
  · split at h
    · cases h
      exact hs
    · cases unread with
      | nil => cases h
      | cons status rest =>
        simp only [scanSysexStatus] at h
        split at h
        · cases h
          exact hs
        · split at h
          · cases h
            exact hs
          · cases h
  · split at h
    · rw [scanRunning_state h]
      exact hs
    · cases unread with
      | nil => cases h
      | cons byte1 rest =>
        simp only at h
        split at h
        · rw [scanRunning_state h]
          exact hs
        · have seen : (s.seeTimestamp byte0).RunningOk := hs
          simp only [scanStatus] at h
          split at h
          · cases h
            exact runningOk_seeStatus seen byte1
          · split at h
            · cases h
            · rw [takeMessage_state h]
              exact runningOk_seeStatus seen byte1

theorem ScanState.RunningOk.size_ne_one {s : ScanState} (h : s.RunningOk) :
    messageSize s.running ≠ 1 := by
  rcases h with h | h
  · rw [h]
    decide
  · rcases messageSize_channel h with h | h <;> rw [h] <;> decide

/-- `is_sysex_continuation` on the bytes behind the header. -/
def preScan : List UInt8 → Except PacketError Bool
  | [] => .ok false
  | byte1 :: rest =>
      if isDataByte byte1 then .ok true
      else
        match rest with
        | [] => .error .unexpectedEndOfData
        | byte2 :: rest =>
            if isDataByte byte2 then .error .unexpectedDataByte
            else if isRealtimeMessage byte2 then preScan rest
            else .ok false

@[simp] theorem preScan_nil : preScan [] = .ok false := rfl

theorem preScan_data {byte1 : UInt8} (h : isDataByte byte1 = true) (rest : List UInt8) :
    preScan (byte1 :: rest) = .ok true := by
  cases rest <;> simp [preScan, h]

theorem preScan_lone {byte1 : UInt8} (h : ¬ isDataByte byte1 = true) :
    preScan [byte1] = .error .unexpectedEndOfData := by
  simp [preScan, h]

theorem preScan_pair {byte1 : UInt8} (h : ¬ isDataByte byte1 = true) (byte2 : UInt8)
    (rest : List UInt8) :
    preScan (byte1 :: byte2 :: rest) =
      if isDataByte byte2 then .error .unexpectedDataByte
      else if isRealtimeMessage byte2 then preScan rest
      else .ok false := by
  simp [preScan, h]

/-- The state in which the parse loop starts. -/
def startState (isSysexCont : Bool) (header : UInt8) : ScanState :=
  ⟨isSysexCont, 0, 0, 0x3f &&& header⟩

/-- A nonempty packet: the pre-scan, the header check, the parse loop. -/
def scanPacket (header : UInt8) (body : List UInt8) : List Event × ScanEnd :=
  match preScan body with
  | .error code => ([], .failed code)
  | .ok isSysexCont =>
      if isStatusByte header then run scanner (startState isSysexCont header) body
      else ([], .failed .invalidHeaderByte)

end BleMidi.Packet.PacketScan
