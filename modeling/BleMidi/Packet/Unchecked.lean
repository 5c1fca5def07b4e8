/- Module: BleMidi/Packet/Unchecked
   source: ble_midi/src/ble_midi_packet.c (ble_midi_parse_packet)
   digest: The parser delivers valid messages except from packets with an unchecked status byte. -/

import BleMidi.Packet.Bounds

set_option autoImplicit false
set_option relaxedAutoImplicit false

namespace BleMidi.Packet.Unchecked

open BleMidi.Core.Transducer
open BleMidi.Packet.Bytes
open BleMidi.Packet.PacketParser
open BleMidi.Packet.PacketScan
open BleMidi.Packet.ParserRefinement
open BleMidi.Packet.Segments
open BleMidi.Packet.Grammar
open BleMidi.Packet.Decomposition
open BleMidi.Packet.Bounds

/-- The bytes of a MIDI message: a status byte and as many data bytes as it calls for. -/
def ValidDelivery (bytes : List UInt8) : Prop :=
  ∃ status data, bytes = status :: data ∧
    (1 ≤ (messageSize status).toNat ∧ (messageSize status).toNat ≤ 3) ∧
    bytes.length = (messageSize status).toNat ∧ ∀ b ∈ data, isDataByte b = true

/-- Items whose data bytes are data bytes. -/
abbrev CheckedItems := Items fun b => isDataByte b = true

/-- Items, and then a message with a status byte among its data. -/
def UncheckedFrom (r : Option UInt8) (w : List UInt8) : Prop :=
  ∃ items events r' v data bytes r'' rest, w = items ++ (v ++ rest) ∧
    CheckedItems r items events r' ∧ MessageForm r' v data bytes r'' ∧
    ∃ b ∈ data, isStatusByte b = true

/-- The packets with a complete message that has a status byte behind the byte that decides its
form. -/
inductive UncheckedPacket : List UInt8 → Prop
  | intro {header : UInt8} {pre items v data bytes : List UInt8} {r r' : Option UInt8}
      {preEvents events : List MidiEvent} (rest : List UInt8) :
      isStatusByte header = true → Opening pre preEvents → CheckedItems none items events r →
      MessageForm r v data bytes r' → (∃ b ∈ data, isStatusByte b = true) →
      UncheckedPacket (header :: (pre ++ (items ++ (v ++ rest))))

variable {r r' : Option UInt8} {v w data bytes : List UInt8}

theorem form_bytes (h : MessageForm r v data bytes r') :
    ∃ status front, bytes = status :: (front ++ data) ∧ (∀ b ∈ front, isDataByte b = true) ∧
      bytes.length = (messageSize status).toNat := by
  cases h with
  | @full _ ts status data _ _ hlen => exact ⟨status, [], rfl, by simp, hlen⟩
  | @running status d data hd hlen => exact ⟨status, [d], rfl, by simpa using hd, hlen⟩
  | @runningTimed status ts d data _ hd hlen => exact ⟨status, [d], rfl, by simpa using hd, hlen⟩

theorem form_valid (h : MessageForm r v data bytes r') :
    ValidDelivery bytes ↔ ∀ b ∈ data, isDataByte b = true := by
  obtain ⟨status, front, rfl, hfront, hlen⟩ := form_bytes h
  constructor
  · rintro ⟨status', data', same, -, -, valid⟩ b mem
    rw [List.cons.injEq] at same
    apply valid
    rw [← same.2]
    exact List.mem_append_right front mem
  · intro hdata
    have positive : 1 ≤ (messageSize status).toNat := by
      rw [← hlen, List.length_cons]
      exact Nat.le_add_left 1 _
    refine ⟨status, front ++ data, rfl, ⟨positive, messageSize_le status⟩, hlen, ?_⟩
    intro b mem
    rcases List.mem_append.mp mem with first | later
    · exact hfront b first
    · exact hdata b later

private theorem exists_status : (¬ ∀ b ∈ data, isDataByte b = true) ↔
    ∃ b ∈ data, isStatusByte b = true := by
  constructor
  · intro h
    by_contra none
    apply h
    intro b mem
    by_contra other
    rw [Bool.not_eq_true, not_isDataByte] at other
    exact none ⟨b, mem, other⟩
  · rintro ⟨b, mem, status⟩ valid
    have data := valid b mem
    rw [not_isDataByte.mpr status] at data
    cases data

/-- All messages among the events are valid. -/
def AllValid (events : List MidiEvent) : Prop :=
  ∀ bytes, MidiEvent.message bytes ∈ events → ValidDelivery bytes

theorem AllValid.nil : AllValid [] := by
  intro bytes mem
  cases mem

theorem AllValid.append {events events' : List MidiEvent} (h : AllValid events)
    (h' : AllValid events') : AllValid (events ++ events') := by
  intro bytes mem
  rcases List.mem_append.mp mem with first | later
  · exact h bytes first
  · exact h' bytes later

theorem AllValid.message {events : List MidiEvent} (hbytes : ValidDelivery bytes)
    (h : AllValid events) : AllValid (.message bytes :: events) := by
  intro bytes' mem
  rcases List.mem_cons.mp mem with first | later
  · rw [MidiEvent.message.inj first]
    exact hbytes
  · exact h bytes' later

theorem AllValid.other {event : MidiEvent} {events : List MidiEvent}
    (hevent : ∀ bytes, event ≠ .message bytes) (h : AllValid events) :
    AllValid (event :: events) := by
  intro bytes mem
  rcases List.mem_cons.mp mem with first | later
  · exact absurd first.symm (hevent bytes)
  · exact h bytes later

theorem allValid_mix {events : List MidiEvent} (h : SysexMix w events) : AllValid events := by
  induction h with
  | nil => exact .nil
  | data _ _ ih => exact .other (fun _ => MidiEvent.noConfusion) ih
  | @pair ts rt w events _ hrt _ ih =>
    have size : (messageSize rt).toNat = 1 := by
      rw [messageSize_realtime hrt]
      rfl
    exact .message ⟨rt, [], rfl, ⟨size.ge, size.le.trans (by decide)⟩, size.symm, by simp⟩ ih

theorem allValid_items {events : List MidiEvent} (h : CheckedItems r w events r') :
    AllValid events := by
  induction h with
  | nil => exact .nil
  | message hts hstatus hlen hdata _ ih =>
    exact .message ((form_valid (.full (r := none) hts hstatus hlen)).mpr hdata) ih
  | sysex _ hmix _ _ ih =>
    refine .other (fun _ => MidiEvent.noConfusion) ?_
    exact (allValid_mix hmix).append (.other (fun _ => MidiEvent.noConfusion) ih)
  | running hd hlen hdata _ ih =>
    exact .message ((form_valid (.running hd hlen)).mpr hdata) ih
  | runningTimed hts hd hlen hdata _ ih =>
    exact .message ((form_valid (.runningTimed hts hd hlen)).mpr hdata) ih

theorem allValid_opening {events : List MidiEvent} (h : Opening w events) : AllValid events := by
  cases h with
  | nil => exact .nil
  | closed continuation _ =>
    obtain ⟨pairs, hd, mix⟩ := continuation
    have closing : AllValid [.sysexEnd] := .other (fun _ => MidiEvent.noConfusion) .nil
    exact ((allValid_mix pairs.mix).append (allValid_mix (.data hd mix))).append closing

theorem allValid_or_unchecked {result : List Event × ScanEnd}
    (h : Decomposes (fun b => isDataByte b = true) r w result) :
    AllValid (result.1.map untimed) ∨ UncheckedFrom r w := by
  obtain ⟨items, out, r', rest, stop, rfl, hitems, rfl, stops⟩ := h
  have front := allValid_items hitems
  rw [List.map_append]
  cases stops with
  | finished => exact .inl (front.append .nil)
  | orphan => exact .inl (front.append .nil)
  | orphanTimed => exact .inl (front.append .nil)
  | failed => exact .inl (front.append .nil)
  | openSysex _ hmix _ =>
    exact .inl (front.append (.other (fun _ => MidiEvent.noConfusion) (allValid_mix hmix)))
  | unchecked form invalid =>
    exact .inr ⟨items, _, r', _, _, _, _, _, rfl, hitems, form, exists_status.mp invalid⟩

theorem form_emits (h : MessageForm r v data bytes r') {s : ScanState} (hs : Between r s) :
    ∃ timestamp s', Emits scanner s v [.midiMessage bytes timestamp] s' := by
  cases h with
  | full hts hstatus hlen => exact ⟨_, _, emits_message hs.outside hts hstatus hlen⟩
  | running hd hlen =>
    obtain ⟨rfl, size⟩ := hs.size
    exact ⟨_, _, emits_running hs.outside hd size hlen⟩
  | runningTimed hts hd hlen =>
    obtain ⟨rfl, size⟩ := hs.size
    exact ⟨_, _, emits_runningTimed hs.outside hts hd size hlen⟩

private theorem delivers {events : List MidiEvent} {items : List UInt8} {s : ScanState}
    (hs : Between r s) (hitems : CheckedItems r items events r') {r'' : Option UInt8}
    (hform : MessageForm r' v data bytes r'') (rest : List UInt8) :
    ∃ timestamp, .midiMessage bytes timestamp ∈ (run scanner s (items ++ (v ++ rest))).1 := by
  obtain ⟨out, s', -, emits, hs'⟩ := hitems.reads hs
  obtain ⟨timestamp, s'', message⟩ := form_emits hform hs'
  refine ⟨timestamp, ?_⟩
  rw [emits, message]
  simp

private theorem preScan_form (h : MessageForm none v data bytes r') (hdata : data ≠ [])
    (rest : List UInt8) : preScan (v ++ rest) = .ok false := by
  cases h with
  | full hts hstatus hlen =>
    refine preScan_status hts (isStatusByte_of_messageSize hstatus) ?_ _
    by_contra realtime
    rw [Bool.not_eq_false] at realtime
    rw [messageSize_realtime realtime] at hlen
    exact hdata (List.length_eq_zero_iff.mp (Nat.succ.inj hlen))

theorem delivers_unchecked {header : UInt8} {body : List UInt8}
    (h : UncheckedPacket (header :: body)) :
    ∃ bytes timestamp, .midiMessage bytes timestamp ∈ (scanPacket header body).1 ∧
      ¬ ValidDelivery bytes := by
  obtain @⟨_, pre, items, v, data, bytes, r, r', preEvents, events, rest, hheader, hpre, hitems,
    hform, hstatus⟩ := h
  have invalid : ¬ ValidDelivery bytes := by
    rw [form_valid hform]
    exact exists_status.mpr hstatus
  have nonempty : data ≠ [] := by
    rintro rfl
    obtain ⟨b, mem, -⟩ := hstatus
    cases mem
  cases hpre with
  | nil =>
    have scan : preScan (items ++ (v ++ rest)) = .ok false := by
      rcases hitems.preScan_cases rfl with ⟨rfl, pairs⟩ | settles
      · rw [pairs.preScan]
        exact preScan_form hform nonempty rest
      · exact settles _
    obtain ⟨timestamp, mem⟩ := delivers (s := startState false header) ⟨rfl, rfl, by simp⟩ hitems
      hform rest
    refine ⟨bytes, timestamp, ?_, invalid⟩
    rw [List.nil_append, scanPacket, scan]
    simp only [if_pos hheader]
    exact mem
  | @closed pre preEvents te hcont hte =>
    have scan : preScan (pre ++ [te, 0xf7] ++ (items ++ (v ++ rest))) = .ok true := by
      rw [List.append_assoc]
      exact hcont.preScan _
    obtain ⟨out, s', -, emits, rfl⟩ := hcont.reads (s := startState true header) rfl
    have ends := emits_sysexEnd (s := startState true header) rfl hte
    obtain ⟨timestamp, mem⟩ := delivers
      (s := { startState true header with inSysex := false }) ⟨rfl, rfl, by simp⟩ hitems hform rest
    refine ⟨bytes, timestamp, ?_, invalid⟩
    rw [scanPacket, scan]
    simp only [if_pos hheader]
    rw [List.append_assoc, emits, ends]
    simp [mem]

/-- A packet that delivers an invalid message has an unchecked status byte. -/
theorem allValid_scan {header : UInt8} {body : List UInt8}
    (h : ¬ UncheckedPacket (header :: body)) :
    AllValid ((scanPacket header body).1.map untimed) := by
  have packet := scanPacket_case (fun b => isDataByte b = true) header body
  revert packet
  generalize scanPacket header body = result
  intro packet
  cases packet with
  | rejected code => exact .nil
  | continued _ hmix _ => exact allValid_mix hmix
  | items hheader hbody opening _ decomposes =>
    rw [List.map_append]
    apply (allValid_opening opening).append
    rcases allValid_or_unchecked decomposes with valid | unchecked
    · exact valid
    · obtain ⟨items, events, r', v, data, bytes, r'', rest, rfl, hitems, hform, hstatus⟩ :=
        unchecked
      rw [hbody] at h
      exact absurd (.intro rest hheader opening hitems hform hstatus) h

/-- The parser stays inside its arrays and every message that it delivers is valid, exactly on the
nonempty packets without an unchecked status byte and without an orphan that it reads on behind. -/
theorem delivered_valid_iff (rxBuf : List UInt8) :
    ((parsePacket rxBuf).halt ≠ .outOfBounds ∧
      ∀ bytes timestamp, .midiMessage bytes timestamp ∈ (parsePacket rxBuf).callbacks →
        ValidDelivery bytes) ↔
      rxBuf ≠ [] ∧ ¬ OverreadPacket rxBuf ∧ ¬ UncheckedPacket rxBuf := by
  rw [Ne, outOfBounds_iff, not_or, and_assoc]
  refine and_congr_right fun nonempty => and_congr_right fun _ => ?_
  cases rxBuf with
  | nil => exact absurd rfl nonempty
  | cons header body =>
    rw [(parsePacket_scan header body).1]
    constructor
    · intro valid unchecked
      obtain ⟨bytes, timestamp, mem, invalid⟩ := delivers_unchecked unchecked
      exact invalid (valid bytes timestamp mem)
    · intro checked bytes timestamp mem
      exact allValid_scan checked bytes (List.mem_map_of_mem (f := untimed) mem)

/-- A status byte in the place of the second data byte is delivered, as a note on with the data
bytes 0x3c and 0xff. -/
theorem delivered_valid_fails :
    (parsePacket [0x80, 0x80, 0x90, 0x3c, 0xff]).callbacks =
        [.midiMessage [0x90, 0x3c, 0xff] 0] ∧
      ¬ ∀ bytes timestamp, .midiMessage bytes timestamp ∈
        (parsePacket [0x80, 0x80, 0x90, 0x3c, 0xff]).callbacks → ValidDelivery bytes := by
  have delivered : (parsePacket [0x80, 0x80, 0x90, 0x3c, 0xff]).callbacks =
      [.midiMessage [0x90, 0x3c, 0xff] 0] := by decide +kernel
  refine ⟨delivered, ?_⟩
  intro valid
  obtain ⟨status, data, same, -, -, checked⟩ := valid [0x90, 0x3c, 0xff] 0 (by simp [delivered])
  rw [List.cons.injEq] at same
  have last := checked 0xff (by simp [← same.2])
  cases last

end BleMidi.Packet.Unchecked
