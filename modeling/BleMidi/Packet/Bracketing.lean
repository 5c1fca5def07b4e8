/- Module: BleMidi/Packet/Bracketing
   source: ble_midi/src/ble_midi_packet.c (is_sysex_continuation, ble_midi_parse_packet)
   digest: The callbacks of any packet are bracketed by sysex starts and ends, with 13 bit times. -/

import BleMidi.Packet.Decomposition

set_option autoImplicit false
set_option relaxedAutoImplicit false

namespace BleMidi.Packet.Bracketing

open BleMidi.Core.Transducer
open BleMidi.Packet.Bytes
open BleMidi.Packet.PacketParser
open BleMidi.Packet.PacketScan
open BleMidi.Packet.ParserRefinement
open BleMidi.Packet.Segments
open BleMidi.Packet.Grammar
open BleMidi.Packet.Decomposition

/-- The events inside a sysex message: its data and real-time messages. -/
def IsInner : MidiEvent → Prop
  | .sysexData _ => True
  | .message bytes => ∃ status, bytes = [status] ∧ isRealtimeMessage status = true
  | _ => False

/-- A message that is no part of a sysex message. -/
def IsMessage (bytes : List UInt8) : Prop :=
  ∃ status data, bytes = status :: data ∧ messageSize status ≠ 0

/-- Messages and sysex blocks, of which the last one may be left open. -/
inductive Blocks : List MidiEvent → Prop
  | nil : Blocks []
  | message {bytes : List UInt8} {events : List MidiEvent} :
      IsMessage bytes → Blocks events → Blocks (.message bytes :: events)
  | block {inner events : List MidiEvent} :
      (∀ e ∈ inner, IsInner e) → Blocks events →
      Blocks (.sysexStart :: (inner ++ .sysexEnd :: events))
  | openBlock {inner : List MidiEvent} :
      (∀ e ∈ inner, IsInner e) → Blocks (.sysexStart :: inner)

/-- Blocks, behind the continuation of a sysex message if there is one. The continuation ends before
anything else follows. -/
inductive Bracketed : List MidiEvent → Prop
  | blocks {events : List MidiEvent} : Blocks events → Bracketed events
  | continued {inner : List MidiEvent} : (∀ e ∈ inner, IsInner e) → Bracketed inner
  | closed {inner events : List MidiEvent} :
      (∀ e ∈ inner, IsInner e) → Blocks events → Bracketed (inner ++ .sysexEnd :: events)

/-- The timestamp that a callback reports, if it reports one. -/
def reportedTime : Event → Option UInt16
  | .midiMessage _ timestamp => some timestamp
  | .sysexStart timestamp => some timestamp
  | .sysexData _ => none
  | .sysexEnd timestamp => some timestamp

/-- The timestamps of the events have 13 bits. -/
def TimesOk (events : List Event) : Prop :=
  ∀ e ∈ events, ∀ timestamp, reportedTime e = some timestamp → timestamp.toNat < 8192

theorem inner_of_mix {w : List UInt8} {events : List MidiEvent} (h : SysexMix w events) :
    ∀ e ∈ events, IsInner e := by
  induction h with
  | nil => simp
  | data _ _ ih =>
    rw [List.forall_mem_cons]
    exact ⟨trivial, ih⟩
  | pair _ hrt _ ih =>
    rw [List.forall_mem_cons]
    exact ⟨⟨_, rfl, hrt⟩, ih⟩

private theorem isMessage_running {status : UInt8} {data bytes : List UInt8}
    (hlen : data.length + 2 = (messageSize status).toNat) : IsMessage (status :: bytes) := by
  refine ⟨status, bytes, rfl, ?_⟩
  intro zero
  rw [zero] at hlen
  cases hlen

theorem blocks_of_items {D : UInt8 → Prop} {r r' : Option UInt8} {w : List UInt8}
    {events rest : List MidiEvent} (h : Items D r w events r') (hrest : Blocks rest) :
    Blocks (events ++ rest) := by
  induction h with
  | nil r => exact hrest
  | message _ hstatus _ _ _ ih => exact .message ⟨_, _, rfl, hstatus⟩ ih
  | sysex _ hmix _ _ ih =>
    rw [List.cons_append, List.append_assoc]
    exact .block (inner_of_mix hmix) ih
  | running _ hlen _ _ ih => exact .message (isMessage_running hlen) ih
  | runningTimed _ _ hlen _ _ ih => exact .message (isMessage_running hlen) ih

theorem blocks_of_stops {r : Option UInt8} {w : List UInt8} {result : List Event × ScanEnd}
    (h : Stops (fun _ => True) r w result) : Blocks (result.1.map untimed) := by
  cases h with
  | finished => exact .nil
  | orphan _ => exact .nil
  | orphanTimed _ _ => exact .nil
  | failed _ => exact .nil
  | unchecked _ unchecked => exact absurd (fun _ _ => trivial) unchecked
  | openSysex _ hmix _ => exact .openBlock (inner_of_mix hmix)

theorem blocks_of_decomposes {r : Option UInt8} {w : List UInt8} {result : List Event × ScanEnd}
    (h : Decomposes (fun _ => True) r w result) : Blocks (result.1.map untimed) := by
  obtain ⟨items, out, r', rest, stop, -, hitems, rfl, stops⟩ := h
  rw [List.map_append]
  exact blocks_of_items hitems (blocks_of_stops stops)

private theorem bracketed_of_opening {pre : List UInt8} {events rest : List MidiEvent}
    (h : Opening pre events) (hrest : Blocks rest) : Bracketed (events ++ rest) := by
  cases h with
  | nil => exact .blocks hrest
  | closed continuation _ =>
    obtain ⟨pairs, hd, mix⟩ := continuation
    rw [List.append_assoc]
    refine .closed ?_ hrest
    intro e mem
    rcases List.mem_append.mp mem with pair | data
    · exact inner_of_mix pairs.mix e pair
    · exact inner_of_mix (.data hd mix) e data

private theorem seeTimestamp_high {s : ScanState} (h : s.high.toNat < 64) (ts : UInt8) :
    (s.seeTimestamp ts).high.toNat < 64 := by
  unfold ScanState.seeTimestamp
  dsimp only
  split
  · rw [UInt8.toNat_mod]
    exact Nat.mod_lt _ (by decide)
  · exact h

private theorem time_lt {high : UInt8} (h : high.toNat < 64) (ts : UInt8) :
    (timestampMs high ts).toNat < 8192 := by
  rw [timestampMs_toNat ts h]
  omega

private theorem step_times {s s' : ScanState} {b : UInt8} {unread rest : List UInt8}
    {out : List Event} (h : ScanCase s b unread (.more out s' rest)) (hhigh : s.high.toNat < 64) :
    s'.high.toNat < 64 ∧ TimesOk out := by
  have single {e : Event} {timestamp : UInt16} (he : reportedTime e = some timestamp)
      (hlt : timestamp.toNat < 8192) : TimesOk [e] := by
    intro e' mem timestamp' report
    rw [List.mem_singleton.mp mem, he] at report
    exact Option.some.inj report ▸ hlt
  have seen := seeTimestamp_high hhigh b
  cases h with
  | sysexData _ _ =>
    refine ⟨hhigh, ?_⟩
    intro e mem timestamp report
    rw [List.mem_singleton.mp mem] at report
    cases report
  | sysexRealtime _ _ _ => exact ⟨hhigh, single rfl (time_lt hhigh _)⟩
  | sysexEnd _ _ => exact ⟨hhigh, single rfl (time_lt hhigh _)⟩
  | sysexStart _ _ => exact ⟨seen, single rfl (time_lt seen _)⟩
  | message _ _ _ _ => exact ⟨seen, single rfl (time_lt seen _)⟩
  | running _ _ _ _ => exact ⟨hhigh, single rfl (time_lt hhigh _)⟩
  | runningTimed _ _ _ _ _ => exact ⟨seen, single rfl (time_lt seen _)⟩

/-- A run with high bits below 64 reports timestamps of 13 bits. -/
theorem run_times (s : ScanState) (w : List UInt8) :
    s.RunningOk → s.high.toNat < 64 → TimesOk (run scanner s w).1 := by
  apply run_induction (R := scanner)
    (P := fun s _ result => s.RunningOk → s.high.toNat < 64 → TimesOk result.1)
  · intro s _ _ e mem
    cases mem
  · intro s b unread out reason hmove hrunning hhigh
    have step := scanStep_case hrunning b unread
    change scanStep s b unread = _ at hmove
    rw [hmove] at step
    cases step <;> (intro e mem; cases mem)
  · intro s s' b unread rest out hmove ih hrunning hhigh
    change scanStep s b unread = _ at hmove
    have step := scanStep_case hrunning b unread
    rw [hmove] at step
    obtain ⟨high, times⟩ := step_times step hhigh
    have later := ih (scanStep_runningOk hrunning hmove) high
    intro e mem
    rcases List.mem_append.mp mem with here | there
    · exact times e here
    · exact later e there

theorem startState_high (isSysexCont : Bool) (header : UInt8) :
    (startState isSysexCont header).high.toNat < 64 := by
  change (0x3f &&& header).toNat < 64
  rw [UInt8.toNat_and]
  exact Nat.lt_succ_of_le Nat.and_le_left

private theorem times_scanPacket (header : UInt8) (body : List UInt8) :
    TimesOk (scanPacket header body).1 := by
  have silent : TimesOk [] := by
    intro e mem
    cases mem
  unfold scanPacket
  cases preScan body with
  | error code => exact silent
  | ok isSysexCont =>
    by_cases hheader : isStatusByte header = true
    · simp only [if_pos hheader]
      exact run_times _ _ (.inl rfl) (startState_high isSysexCont header)
    · simp only [if_neg hheader]
      exact silent

/-- Whatever bytes come in, the callbacks are bracketed by sysex starts and ends, and their
timestamps have 13 bits. -/
theorem callbacks_bracketed (rxBuf : List UInt8) :
    Bracketed ((parsePacket rxBuf).callbacks.map untimed) ∧
      TimesOk (parsePacket rxBuf).callbacks := by
  cases rxBuf with
  | nil =>
    constructor
    · exact .blocks .nil
    · intro e mem
      cases mem
  | cons header body =>
    rw [(parsePacket_scan header body).1]
    refine ⟨?_, times_scanPacket header body⟩
    have packet := scanPacket_case (fun _ => True) header body
    revert packet
    generalize scanPacket header body = result
    intro packet
    cases packet with
    | rejected code => exact .blocks .nil
    | items _ _ opening _ decomposes =>
      rw [List.map_append]
      exact bracketed_of_opening opening (blocks_of_decomposes decomposes)
    | continued _ hmix _ => exact .continued (inner_of_mix hmix)

end BleMidi.Packet.Bracketing
