/- Module: BleMidi/Packet/Standalone
   source: ble_midi/src/ble_midi_packet.c (is_sysex_continuation, ble_midi_parse_packet), TODO.md
   digest: When the parser, which forgets between packets, hears what a receiver hears that carries
     an open sysex message over. -/

import BleMidi.Packet.Language
import BleMidi.Packet.MultiPacket
import BleMidi.Packet.PacketStream
import BleMidi.Packet.Truncation

set_option autoImplicit false
set_option relaxedAutoImplicit false

namespace BleMidi.Packet.Standalone

open BleMidi.Core.Transducer
open BleMidi.Packet.Bytes
open BleMidi.Packet.PacketParser
open BleMidi.Packet.PacketScan
open BleMidi.Packet.ParserRefinement
open BleMidi.Packet.Segments
open BleMidi.Packet.Grammar
open BleMidi.Packet.PacketStream
open BleMidi.Packet.MultiPacket
open BleMidi.Packet.Language
open BleMidi.Packet.Truncation (deliveries)

/-- A sysex end comes first in the packet, real-time messages aside. -/
inductive EndsFirst : List UInt8 → Prop
  | intro {header te : UInt8} {pairs rest : List UInt8} {events : List MidiEvent} :
      isStatusByte header = true → RealtimePairs pairs events → isStatusByte te = true →
      EndsFirst (header :: (pairs ++ te :: 0xf7 :: rest))

variable {inSysex : Bool} {packet w : List UInt8} {events : List MidiEvent}

theorem realtime_items (h : RealtimePairs w events) : LooseItems none w events none := by
  induction h with
  | nil => exact .nil none
  | @pair ts rt w events hts hrt _ ih =>
    have size := messageSize_realtime hrt
    have nonzero : messageSize rt ≠ 0 := by
      rw [size]
      decide
    have alone : ([] : List UInt8).length + 1 = (messageSize rt).toNat := by
      rw [size]
      rfl
    have keeps : (if isChannelMessage rt then some rt else none) = none :=
      if_neg (by simp [not_channel_of_realtime hrt])
    refine .message hts nonzero alone (by simp) ?_
    rw [keeps]
    exact ih

/-- A sysex end that comes first is an invalid status byte for the parser. What comes behind it is
lost. -/
theorem EndsFirst.parse {header te : UInt8} {pairs rest : List UInt8}
    (hheader : isStatusByte header = true) (hpairs : RealtimePairs pairs events)
    (hte : isStatusByte te = true) :
    (parsePacket (header :: (pairs ++ te :: 0xf7 :: rest))).halt = .returned .invalidStatusByte ∧
      deliveries (header :: (pairs ++ te :: 0xf7 :: rest)) = events := by
  have start : Between none (startState false header) := ⟨rfl, rfl, by simp⟩
  obtain ⟨out, s, rfl, emits, between⟩ := (realtime_items hpairs).reads start
  have stops : scanner.step s te (0xf7 :: rest) = .stop [] (.failed .invalidStatusByte) := by
    change scanStep s te (0xf7 :: rest) = _
    have status : ¬ isDataByte te = true := by
      rw [not_isDataByte.mpr hte]
      exact Bool.false_ne_true
    rw [scanStep, if_neg (by simp [between.outside]), if_neg status]
    rfl
  have scanned : scanPacket header (pairs ++ te :: 0xf7 :: rest) =
      (out, .failed .invalidStatusByte) := by
    rw [scanPacket, hpairs.preScan, preScan_status hte rfl rfl]
    simp only [if_pos hheader]
    rw [emits, run_stop stops, List.append_nil]
  obtain ⟨callbacks, ends⟩ := parsePacket_scan header (pairs ++ te :: 0xf7 :: rest)
  rw [scanned] at callbacks ends
  exact ⟨ends.1, congrArg (List.map untimed) callbacks⟩

theorem EndsFirst.halt (h : EndsFirst packet) :
    (parsePacket packet).halt ≠ .returned .success := by
  obtain ⟨hheader, hpairs, hte⟩ := h
  rw [(EndsFirst.parse hheader hpairs hte).1]
  rintro ⟨⟩

private theorem run_of_receive {header : UInt8} (h : receive inSysex (header :: w) = some events) :
    isStatusByte header = true ∧ ∃ out,
      run scanner (startState inSysex header) w = (out, .success) ∧ events = out.map untimed := by
  rw [receive] at h
  split at h
  · rename_i hheader
    split at h
    · rename_i out scanned
      exact ⟨hheader, out, scanned, (Option.some.inj h).symm⟩
    · cases h
  · cases h

/-- A mix is real-time messages only, or its first data byte makes the packet a continuation. -/
theorem mix_cases (h : SysexMix w events) :
    RealtimePairs w events ∨ ∀ rest, preScan (w ++ rest) = .ok true := by
  induction h with
  | nil => exact .inl .nil
  | data hb _ _ => exact .inr fun rest => preScan_data hb _
  | pair hts hrt _ ih =>
    rcases ih with pairs | settled
    · exact .inl (.pair hts hrt pairs)
    · exact .inr fun rest => (preScan_realtime hts hrt _).trans (settled rest)

/-- Between sysex messages the packets of a receiver are those of the grammar. -/
theorem received_outside (h : receive false packet = some events) :
    (packet = [] ∧ events = []) ∨ LoosePacket packet events := by
  cases packet with
  | nil =>
    cases h
    exact .inl ⟨rfl, rfl⟩
  | cons header body =>
    obtain ⟨hheader, out, scanned, rfl⟩ := run_of_receive h
    have outside := outside_of_run (r := none) (s := startState false header) (w := body)
      ⟨rfl, rfl, by simp⟩ (by rw [scanned])
    rw [scanned] at outside
    exact .inr (outside.packet hheader)

/-- Inside a sysex message the packets of a receiver are those of the grammar, or a sysex end comes
first, and the parser hears what is in front of it. -/
theorem received_inside (h : receive true packet = some events) :
    (packet = [] ∧ events = []) ∨ LoosePacket packet events ∨
      (EndsFirst packet ∧ deliveries packet <+: events) := by
  cases packet with
  | nil =>
    cases h
    exact .inl ⟨rfl, rfl⟩
  | cons header body =>
    right
    obtain ⟨hheader, out, scanned, rfl⟩ := run_of_receive h
    have inside := inside_of_run (s := startState true header) (w := body) rfl rfl
      (by rw [scanned])
    rw [scanned] at inside
    generalize out.map untimed = events at inside ⊢
    cases inside with
    | opened mix =>
      rcases mix_cases mix with pairs | settled
      · have outside := Outside.intro (realtime_items pairs) .nil
        rw [List.append_nil, List.append_nil] at outside
        exact .inl (outside.packet hheader)
      · have scan : preScan body = .ok true := by
          simpa using settled []
        exact .inl ((Inside.opened mix).packet hheader scan)
    | closed mix hte behind =>
      rcases mix_cases mix with pairs | settled
      · refine .inr ⟨.intro hheader pairs hte, ?_⟩
        rw [(EndsFirst.parse hheader pairs hte).2]
        exact List.prefix_append _ _
      · exact .inl ((Inside.closed mix hte behind).packet hheader (settled _))

/-- The parser hears nothing of a packet that a receiver does not hear, and it hears all of it
exactly if the packet is not empty and no sysex end comes first. -/
theorem deliveries_of_received (h : receive inSysex packet = some events) :
    deliveries packet <+: events ∧ ((parsePacket packet).halt = .returned .success ↔
      packet ≠ [] ∧ ¬ EndsFirst packet) ∧
        ((parsePacket packet).halt = .returned .success → deliveries packet = events) := by
  have cases : (packet = [] ∧ events = []) ∨ LoosePacket packet events ∨
      (EndsFirst packet ∧ deliveries packet <+: events) := by
    cases inSysex with
    | false => exact (received_outside h).imp_right .inl
    | true => exact received_inside h
  rcases cases with ⟨rfl, rfl⟩ | loose | ⟨first, front⟩
  · exact ⟨List.nil_prefix, iff_of_false (by decide) fun alone => alone.1 rfl, fun _ => rfl⟩
  · obtain ⟨success, callbacks⟩ := loose.parses
    have whole : deliveries packet = events := callbacks
    refine ⟨whole ▸ List.prefix_rfl, iff_of_true success ⟨?_, ?_⟩, fun _ => whole⟩
    · rintro rfl
      cases success
    · exact fun first => first.halt success
  · exact ⟨front, iff_of_false first.halt fun alone => alone.2 first,
      fun success => absurd success first.halt⟩

/-- The parser, which forgets between packets, calls back a part of what packets say to a receiver
that carries an open sysex message over, in order. -/
theorem deliveries_sublist {packets : List (List UInt8)} {es : List MidiEvent}
    (h : receiveAll inSysex packets = some es) : (packets.flatMap deliveries).Sublist es := by
  induction packets generalizing inSysex es with
  | nil => exact List.nil_sublist es
  | cons packet packets ih =>
    obtain ⟨events, received, later⟩ := Option.bind_eq_some_iff.mp h
    obtain ⟨fs, behind, rfl⟩ := Option.map_eq_some_iff.mp later
    exact (deliveries_of_received received).1.sublist.append (ih behind)

/-- It calls back everything, with a success for each packet, exactly if no packet is empty and no
packet begins with a sysex end behind real-time messages. -/
theorem parsesTo_iff {packets : List (List UInt8)} {es : List MidiEvent}
    (h : receiveAll inSysex packets = some es) :
    ParsesTo packets es ↔ ∀ packet ∈ packets, packet ≠ [] ∧ ¬ EndsFirst packet := by
  change (_ ∧ packets.flatMap deliveries = es) ↔ _
  induction packets generalizing inSysex es with
  | nil =>
    cases h
    simp
  | cons packet packets ih =>
    obtain ⟨events, received, later⟩ := Option.bind_eq_some_iff.mp h
    obtain ⟨fs, behind, rfl⟩ := Option.map_eq_some_iff.mp later
    obtain ⟨-, alone, whole⟩ := deliveries_of_received received
    rw [List.forall_mem_cons, List.forall_mem_cons, ← alone, ← ih behind, List.flatMap_cons]
    constructor
    · rintro ⟨⟨success, halts⟩, hears⟩
      rw [whole success] at hears
      exact ⟨success, halts, List.append_cancel_left hears⟩
    · rintro ⟨success, halts, hears⟩
      exact ⟨⟨success, halts⟩, by rw [whole success, hears]⟩

/-- Packets that a receiver reads which carries an open sysex message from one to the next: the
parser invents, changes and reorders nothing, and it loses nothing exactly if every packet stands
alone. -/
theorem standalone_iff {packets : List (List UInt8)} {es : List MidiEvent}
    (h : receiveAll inSysex packets = some es) :
    (packets.flatMap deliveries).Sublist es ∧
      (ParsesTo packets es ↔ ∀ packet ∈ packets, packet ≠ [] ∧ ¬ EndsFirst packet) :=
  ⟨deliveries_sublist h, parsesTo_iff h⟩

/-- Two data bytes, of which the second packet has one behind a clock, and its sysex end. -/
theorem standalone_iff_continued :
    ([[0x80, 0x80, 0xf0, 1], [0x80, 0x81, 0xf8, 2, 0x81, 0xf7]].flatMap deliveries).Sublist
        [.sysexStart, .sysexData 1, .message [0xf8], .sysexData 2, .sysexEnd] ∧
      ParsesTo [[0x80, 0x80, 0xf0, 1], [0x80, 0x81, 0xf8, 2, 0x81, 0xf7]]
        [.sysexStart, .sysexData 1, .message [0xf8], .sysexData 2, .sysexEnd] ∧
      ∀ packet ∈ [[0x80, 0x80, 0xf0, 1], [0x80, 0x81, 0xf8, 2, 0x81, 0xf7]],
        packet ≠ [] ∧ ¬ EndsFirst packet := by
  obtain ⟨heard, alone⟩ := standalone_iff
    (show receiveAll false [[0x80, 0x80, 0xf0, 1], [0x80, 0x81, 0xf8, 2, 0x81, 0xf7]] =
      some [.sysexStart, .sysexData 1, .message [0xf8], .sysexData 2, .sysexEnd] by decide +kernel)
  have parses : ParsesTo [[0x80, 0x80, 0xf0, 1], [0x80, 0x81, 0xf8, 2, 0x81, 0xf7]]
      [.sysexStart, .sysexData 1, .message [0xf8], .sysexData 2, .sysexEnd] := by
    unfold ParsesTo
    decide +kernel
  exact ⟨heard, parses, alone.mp parses⟩

end BleMidi.Packet.Standalone
