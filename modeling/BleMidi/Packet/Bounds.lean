/- Module: BleMidi/Packet/Bounds
   source: ble_midi/src/ble_midi_packet.c (ble_midi_parser_read, ble_midi_parse_packet)
   digest: The parser stays inside its buffers except on empty packets and orphan data bytes. -/

import BleMidi.Packet.Decomposition

set_option autoImplicit false
set_option relaxedAutoImplicit false

namespace BleMidi.Packet.Bounds

open BleMidi.Core.Transducer
open BleMidi.Packet.Bytes
open BleMidi.Packet.PacketParser
open BleMidi.Packet.PacketScan
open BleMidi.Packet.ParserRefinement
open BleMidi.Packet.Segments
open BleMidi.Packet.Grammar
open BleMidi.Packet.Decomposition

/-- Items as the parser takes them: it looks at the first byte of a message only. -/
abbrev RawItems := Items fun _ => True

/-- The bytes that start a message without status byte. -/
inductive DataStart : List UInt8 → Prop
  | bare {d : UInt8} : isDataByte d = true → DataStart [d]
  | timed {ts d : UInt8} : isStatusByte ts = true → isDataByte d = true → DataStart [ts, d]

/-- Complete items from the running status `r` that leave none in force, then a message without
status byte, and `unread` more bytes. -/
def OrphanFrom (r : Option UInt8) (w : List UInt8) (unread : Nat) : Prop :=
  ∃ items events orphan rest, w = items ++ (orphan ++ rest) ∧ RawItems r items events none ∧
    DataStart orphan ∧ rest.length = unread

/-- A message without status byte has no running status to use, and `unread` bytes behind it.
Directly behind the header and its real-time messages such a byte is taken for sysex data
instead. -/
inductive OrphanAt : Nat → List UInt8 → Prop
  | intro {header : UInt8} {pre items orphan : List UInt8} {preEvents events : List MidiEvent}
      (rest : List UInt8) :
      isStatusByte header = true → Opening pre preEvents → RawItems none items events none →
      (pre ≠ [] ∨ ¬ RealtimePairs items events) → DataStart orphan →
      OrphanAt rest.length (header :: (pre ++ (items ++ (orphan ++ rest))))

/-- The packets with such a message. -/
def OrphanPacket (rxBuf : List UInt8) : Prop := ∃ unread, OrphanAt unread rxBuf

/-- The packets with such a message where the check of the 254 bytes that are to be read behind it
lets them pass, as it wraps around for shorter packets. -/
def OverreadPacket (rxBuf : List UInt8) : Prop :=
  ∃ unread, OrphanAt unread rxBuf ∧ (rxBuf.length < 254 ∨ 254 ≤ unread)

private theorem run_dataStart {s : ScanState} (hs : Between none s) {orphan : List UInt8}
    (h : DataStart orphan) (rest : List UInt8) :
    run scanner s (orphan ++ rest) = ([], .orphan rest.length) := by
  have unset (t : ScanState) (ht : t.running = 0) (d : UInt8) :
      scanRunning t d rest = .stop [] (.orphan rest.length) := by
    rw [scanRunning, ht]
    rfl
  have running : s.running = 0 := hs.running
  cases h with
  | @bare d hd =>
    refine run_stop (R := scanner) ?_
    change scanStep s d rest = _
    unfold scanStep
    rw [if_neg (by simp [hs.outside]), if_pos hd, unset s running]
  | @timed ts d hts hd =>
    refine run_stop (R := scanner) ?_
    change scanStep s ts (d :: rest) = _
    unfold scanStep
    rw [if_neg (by simp [hs.outside]), if_neg (by simp [not_isDataByte.mpr hts])]
    exact (if_pos hd).trans (unset (s.seeTimestamp ts) running d)

theorem run_of_orphanFrom {r : Option UInt8} {w : List UInt8} {unread : Nat}
    (h : OrphanFrom r w unread) {s : ScanState} (hs : Between r s) :
    (run scanner s w).2 = .orphan unread := by
  obtain ⟨items, events, orphan, rest, rfl, hitems, horphan, rfl⟩ := h
  obtain ⟨out, s', _, emits, hs'⟩ := hitems.reads hs
  rw [emits, run_dataStart hs' horphan]

/-- Inside a sysex message: its end comes first, then the items in front of the orphan. -/
def OrphanBehindSysex (w : List UInt8) (unread : Nat) : Prop :=
  ∃ mix events te rest, w = mix ++ te :: 0xf7 :: rest ∧ SysexMix mix events ∧
    isStatusByte te = true ∧ OrphanFrom none rest unread

private theorem orphanFrom_of_decomposes {r : Option UInt8} {w : List UInt8} {unread : Nat}
    {result : List Event × ScanEnd} (h : Decomposes (fun _ => True) r w result)
    (hresult : result.2 = .orphan unread) : OrphanFrom r w unread := by
  obtain ⟨items, out, r', rest, stop, rfl, hitems, rfl, stops⟩ := h
  cases stops with
  | finished => cases hresult
  | @orphan d rest hd =>
    exact ⟨items, _, [d], rest, rfl, hitems, .bare hd, ScanEnd.orphan.inj hresult⟩
  | @orphanTimed ts d rest hts hd =>
    exact ⟨items, _, [ts, d], rest, rfl, hitems, .timed hts hd, ScanEnd.orphan.inj hresult⟩
  | failed code => cases hresult
  | unchecked _ unchecked => exact absurd (fun _ _ => trivial) unchecked
  | openSysex _ _ other =>
    obtain rfl : _ = ScanEnd.orphan unread := hresult
    exact absurd trivial other

private theorem orphanBehindSysex_of_inside {w : List UInt8} {unread : Nat}
    {result : List Event × ScanEnd} (h : DecomposesInside (fun _ => True) w result)
    (hresult : result.2 = .orphan unread) : OrphanBehindSysex w unread := by
  rcases h with ⟨mix, out, te, t, rest, behind, rfl, hmix, hte, rfl, closed⟩ | ⟨_, _, -, -, other⟩
  · exact ⟨mix, _, te, rest, rfl, hmix, hte, orphanFrom_of_decomposes closed hresult⟩
  · rw [hresult] at other
    exact absurd trivial other

/-- Real-time messages in front of an orphan: the pre-scan takes the packet for a sysex
continuation or rejects it. -/
private theorem preScan_pairs {items orphan : List UInt8} {events : List MidiEvent}
    (h : RealtimePairs items events) (horphan : DataStart orphan) (rest : List UInt8) :
    preScan (items ++ (orphan ++ rest)) = .ok true ∨
      preScan (items ++ (orphan ++ rest)) = .error .unexpectedDataByte := by
  rw [h.preScan]
  cases horphan with
  | bare hd => exact .inl (preScan_data hd _)
  | @timed ts d hts hd =>
    refine .inr ?_
    change preScan (ts :: d :: rest) = _
    rw [preScan_pair (by simp [not_isDataByte.mpr hts]), if_pos hd]

theorem scan_of_orphanAt {header : UInt8} {body : List UInt8} {unread : Nat}
    (h : OrphanAt unread (header :: body)) : (scanPacket header body).2 = .orphan unread := by
  obtain @⟨_, pre, items, orphan, preEvents, events, rest, hheader, hpre, hitems, hplain,
    horphan⟩ := h
  cases hpre with
  | nil =>
    have scan : preScan (items ++ (orphan ++ rest)) = .ok false := by
      rcases hitems.preScan_cases rfl with ⟨-, pairs⟩ | settles
      · exact absurd pairs (hplain.resolve_left (by simp))
      · exact settles _
    have stops : OrphanFrom none (items ++ (orphan ++ rest)) rest.length :=
      ⟨items, events, orphan, rest, rfl, hitems, horphan, rfl⟩
    rw [List.nil_append, scanPacket, scan]
    refine (congrArg Prod.snd (if_pos hheader)).trans ?_
    exact run_of_orphanFrom stops ⟨rfl, rfl, by simp⟩
  | @closed v vEvents te hv hte =>
    have scan : preScan (v ++ [te, 0xf7] ++ (items ++ (orphan ++ rest))) = .ok true := by
      rw [List.append_assoc]
      exact hv.preScan _
    obtain ⟨out, s', _, emits, rfl⟩ := hv.reads (s := startState true header) rfl
    have ends := emits_sysexEnd (s := startState true header) rfl hte
    have stops : OrphanFrom none (items ++ (orphan ++ rest)) rest.length :=
      ⟨items, events, orphan, rest, rfl, hitems, horphan, rfl⟩
    rw [scanPacket, scan]
    refine (congrArg Prod.snd (if_pos hheader)).trans ?_
    rw [List.append_assoc, emits]
    refine (congrArg Prod.snd (ends _)).trans ?_
    exact run_of_orphanFrom stops ⟨rfl, rfl, by simp⟩

/-- A scan reaches an orphan only in a packet that has one. -/
theorem orphanAt_of_scan {header : UInt8} {body : List UInt8} {unread : Nat}
    (h : (scanPacket header body).2 = .orphan unread) : OrphanAt unread (header :: body) := by
  unfold scanPacket at h
  cases hscan : preScan body with
  | error code =>
    rw [hscan] at h
    cases h
  | ok isSysexCont =>
    rw [hscan] at h
    by_cases hheader : isStatusByte header = true
    · replace h : (run scanner (startState isSysexCont header) body).2 = .orphan unread := by
        simpa only [if_pos hheader] using h
      cases isSysexCont with
      | false =>
        obtain ⟨items, events, orphan, rest, rfl, hitems, horphan, rfl⟩ :=
          orphanFrom_of_decomposes ((run_decomposes _ (startState false header) body).1 none
            ⟨rfl, rfl, by simp⟩) h
        have plain : ¬ RealtimePairs items events := by
          intro pairs
          rcases preScan_pairs pairs horphan rest with hpairs | hpairs <;>
            cases hscan.symm.trans hpairs
        have packet := OrphanAt.intro rest hheader .nil hitems (.inr plain) horphan
        exact packet
      | true =>
        obtain ⟨mix, mixEvents, te, tail, rfl, hmix, hte, horphan⟩ :=
          orphanBehindSysex_of_inside ((run_decomposes _ (startState true header) body).2 rfl rfl) h
        obtain ⟨items, events, orphan, rest, rfl, hitems, hstart, rfl⟩ := horphan
        have opening : Opening (mix ++ [te, 0xf7]) (mixEvents ++ [.sysexEnd]) :=
          .closed (continuation_of_preScan hmix hte hscan) hte
        have packet := OrphanAt.intro rest hheader opening hitems (.inl (by simp)) hstart
        simpa using packet
    · replace h : (([], .failed .invalidHeaderByte) : List Event × ScanEnd).2 =
          .orphan unread := by
        simpa only [if_neg hheader] using h
      cases h

theorem orphanAt_iff_scan {header : UInt8} {body : List UInt8} {unread : Nat} :
    OrphanAt unread (header :: body) ↔ (scanPacket header body).2 = .orphan unread :=
  ⟨scan_of_orphanAt, orphanAt_of_scan⟩

/-- The parser's accesses to a nonempty packet are safe unless its scan stops at an orphan. -/
theorem safe_cons_iff (header : UInt8) (body : List UInt8) :
    SafeTrace (parsePacket (header :: body)).accesses ↔ ¬ OrphanPacket (header :: body) := by
  have ends := (parsePacket_scan header body).2
  unfold ParseEndsWith at ends
  constructor
  · rintro safe ⟨unread, packet⟩
    rw [orphanAt_iff_scan.mp packet] at ends
    exact ends.2 safe
  · intro none
    cases hend : (scanPacket header body).2 with
    | success =>
      rw [hend] at ends
      exact ends.2
    | failed code =>
      rw [hend] at ends
      exact ends.2
    | orphan unread => exact absurd ⟨unread, orphanAt_iff_scan.mpr hend⟩ none

/-- The parser reads or writes outside its arrays exactly on the empty packet and on those with an
orphan whose 254 bytes it does not refuse. -/
theorem outOfBounds_iff (rxBuf : List UInt8) :
    (parsePacket rxBuf).halt = .outOfBounds ↔ rxBuf = [] ∨ OverreadPacket rxBuf := by
  cases rxBuf with
  | nil => exact iff_of_true (by decide) (.inl rfl)
  | cons header body =>
    have ends := (parsePacket_scan header body).2
    unfold ParseEndsWith at ends
    rw [or_iff_right (List.cons_ne_nil header body)]
    constructor
    · intro halt
      cases hend : (scanPacket header body).2 with
      | success =>
        rw [hend] at ends
        cases ends.1.symm.trans halt
      | failed code =>
        rw [hend] at ends
        cases ends.1.symm.trans halt
      | orphan unread =>
        rw [hend] at ends
        refine ⟨unread, orphanAt_iff_scan.mpr hend, ?_⟩
        by_contra refused
        have returned := ends.1.symm.trans halt
        rw [orphanHalt, if_neg refused] at returned
        cases returned
    · rintro ⟨unread, packet, passes⟩
      rw [orphanAt_iff_scan.mp packet] at ends
      exact ends.1.trans (if_pos passes)

/-- Every read and write of the parser stays inside its array and none of its subtractions wraps
around, exactly on the nonempty packets without orphan. -/
theorem accesses_safe_iff (rxBuf : List UInt8) :
    (∀ a ∈ (parsePacket rxBuf).accesses, a.Safe) ↔ rxBuf ≠ [] ∧ ¬ OrphanPacket rxBuf := by
  cases rxBuf with
  | nil =>
    have unsafe' : ¬ SafeTrace (parsePacket []).accesses := by
      unfold SafeTrace
      decide
    exact ⟨fun safe => absurd safe unsafe', fun h => absurd rfl h.1⟩
  | cons header body =>
    exact (safe_cons_iff header body).trans (and_iff_right (List.cons_ne_nil header body)).symm

/-- A tune request leaves no running status, and the parser reads on for 254 data bytes. -/
theorem accesses_unsafe_tuneRequest :
    ¬ ∀ a ∈ (parsePacket [0x80, 0x80, 0xf6, 0x01]).accesses, a.Safe := by
  decide +kernel

end BleMidi.Packet.Bounds
