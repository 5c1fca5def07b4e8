/- Module: BleMidi/Packet/Grammar
   source: ble_midi/src/ble_midi_packet.c (is_sysex_continuation, ble_midi_parse_packet)
   digest: The packet grammar with the events of a derivation, and completeness of the parser. -/

import BleMidi.Packet.ParserRefinement
import BleMidi.Packet.Segments

set_option autoImplicit false
set_option relaxedAutoImplicit false

namespace BleMidi.Packet.Grammar

open BleMidi.Core.Transducer
open BleMidi.Packet.Bytes
open BleMidi.Packet.PacketParser
open BleMidi.Packet.PacketScan
open BleMidi.Packet.ParserRefinement
open BleMidi.Packet.Segments

/-- An event without its timestamp. -/
inductive MidiEvent
  | message (bytes : List UInt8)
  | sysexStart
  | sysexData (dataByte : UInt8)
  | sysexEnd
  deriving DecidableEq, Repr

def untimed : Event → MidiEvent
  | .midiMessage bytes _ => .message bytes
  | .sysexStart _ => .sysexStart
  | .sysexData dataByte => .sysexData dataByte
  | .sysexEnd _ => .sysexEnd

/-- Zero or more pairs of a timestamp byte and a real-time status. -/
inductive RealtimePairs : List UInt8 → List MidiEvent → Prop
  | nil : RealtimePairs [] []
  | pair {ts rt : UInt8} {w : List UInt8} {events : List MidiEvent} :
      isStatusByte ts = true → isRealtimeMessage rt = true → RealtimePairs w events →
      RealtimePairs (ts :: rt :: w) (.message [rt] :: events)

/-- Any mix of data bytes and pairs of a timestamp byte and a real-time status. -/
inductive SysexMix : List UInt8 → List MidiEvent → Prop
  | nil : SysexMix [] []
  | data {b : UInt8} {w : List UInt8} {events : List MidiEvent} :
      isDataByte b = true → SysexMix w events → SysexMix (b :: w) (.sysexData b :: events)
  | pair {ts rt : UInt8} {w : List UInt8} {events : List MidiEvent} :
      isStatusByte ts = true → isRealtimeMessage rt = true → SysexMix w events →
      SysexMix (ts :: rt :: w) (.message [rt] :: events)

/-- Complete items, from the running status `r` to the running status `r'`. The predicate `D`
says which bytes may stand behind the byte that decides the form of a message. -/
inductive Items (D : UInt8 → Prop) :
    Option UInt8 → List UInt8 → List MidiEvent → Option UInt8 → Prop
  | nil (r : Option UInt8) : Items D r [] [] r
  | message {r r' : Option UInt8} {ts status : UInt8} {data w : List UInt8}
      {events : List MidiEvent} :
      isStatusByte ts = true → messageSize status ≠ 0 →
      data.length + 1 = (messageSize status).toNat → (∀ b ∈ data, D b) →
      Items D (if isChannelMessage status then some status else r) w events r' →
      Items D r (ts :: status :: (data ++ w)) (.message (status :: data) :: events) r'
  | sysex {r r' : Option UInt8} {ts te : UInt8} {mix w : List UInt8}
      {mixEvents events : List MidiEvent} :
      isStatusByte ts = true → SysexMix mix mixEvents → isStatusByte te = true →
      Items D none w events r' →
      Items D r (ts :: 0xf0 :: (mix ++ te :: 0xf7 :: w))
        (.sysexStart :: (mixEvents ++ .sysexEnd :: events)) r'
  | running {status d : UInt8} {r' : Option UInt8} {data w : List UInt8}
      {events : List MidiEvent} :
      isDataByte d = true → data.length + 2 = (messageSize status).toNat → (∀ b ∈ data, D b) →
      Items D (some status) w events r' →
      Items D (some status) (d :: (data ++ w)) (.message (status :: d :: data) :: events) r'
  | runningTimed {status ts d : UInt8} {r' : Option UInt8} {data w : List UInt8}
      {events : List MidiEvent} :
      isStatusByte ts = true → isDataByte d = true →
      data.length + 2 = (messageSize status).toNat → (∀ b ∈ data, D b) →
      Items D (some status) w events r' →
      Items D (some status) (ts :: d :: (data ++ w)) (.message (status :: d :: data) :: events) r'

/-- The end of a packet behind its complete items: nothing, or a sysex message left open. -/
inductive Tail : List UInt8 → List MidiEvent → Prop
  | nil : Tail [] []
  | openSysex {ts : UInt8} {mix : List UInt8} {events : List MidiEvent} :
      isStatusByte ts = true → SysexMix mix events →
      Tail (ts :: 0xf0 :: mix) (.sysexStart :: events)

/-- The start of a packet that continues a sysex message. -/
inductive Continuation : List UInt8 → List MidiEvent → Prop
  | intro {pairs mix : List UInt8} {d : UInt8} {pairEvents events : List MidiEvent} :
      RealtimePairs pairs pairEvents → isDataByte d = true → SysexMix mix events →
      Continuation (pairs ++ d :: mix) (pairEvents ++ .sysexData d :: events)

/-- What may stand between the header and the first item. -/
inductive Opening : List UInt8 → List MidiEvent → Prop
  | nil : Opening [] []
  | closed {w : List UInt8} {events : List MidiEvent} {te : UInt8} :
      Continuation w events → isStatusByte te = true →
      Opening (w ++ [te, 0xf7]) (events ++ [.sysexEnd])

/-- The packets of the grammar and the events of a derivation. -/
inductive GrammarPacket : List UInt8 → List MidiEvent → Prop
  | continued {header : UInt8} {w : List UInt8} {events : List MidiEvent} :
      isStatusByte header = true → Continuation w events → GrammarPacket (header :: w) events
  | items {header : UInt8} {pre w tail : List UInt8} {r : Option UInt8}
      {preEvents events tailEvents : List MidiEvent} :
      isStatusByte header = true → Opening pre preEvents →
      Items (fun b => isDataByte b = true) none w events r → Tail tail tailEvents →
      GrammarPacket (header :: (pre ++ (w ++ tail))) (preEvents ++ (events ++ tailEvents))

/-- The scan reads the segment as the given events and ends in a state with property `P`. -/
def Reads (s : ScanState) (w : List UInt8) (events : List MidiEvent) (P : ScanState → Prop) :
    Prop :=
  ∃ out s', out.map untimed = events ∧ Emits scanner s w out s' ∧ P s'

theorem Reads.nil {s : ScanState} {P : ScanState → Prop} (h : P s) : Reads s [] [] P :=
  ⟨[], s, rfl, Emits.nil scanner s, h⟩

theorem Reads.trans {s : ScanState} {v w : List UInt8} {events events' : List MidiEvent}
    {P Q : ScanState → Prop} (hv : Reads s v events P)
    (hw : ∀ s', P s' → Reads s' w events' Q) : Reads s (v ++ w) (events ++ events') Q := by
  obtain ⟨out, s', rfl, emits, hP⟩ := hv
  obtain ⟨out', s'', rfl, emits', hQ⟩ := hw s' hP
  exact ⟨out ++ out', s'', by simp, emits.trans emits', hQ⟩

/-- A segment that is one event, followed by more. -/
theorem Reads.step {s s' : ScanState} {v w : List UInt8} {event : Event}
    {events : List MidiEvent} {Q : ScanState → Prop} (hv : Emits scanner s v [event] s')
    (hw : Reads s' w events Q) : Reads s (v ++ w) (untimed event :: events) Q := by
  obtain ⟨out, s'', rfl, emits, hQ⟩ := hw
  exact ⟨event :: out, s'', rfl, hv.trans emits, hQ⟩

theorem RealtimePairs.mix {w : List UInt8} {events : List MidiEvent}
    (h : RealtimePairs w events) : SysexMix w events := by
  induction h with
  | nil => exact .nil
  | pair hts hrt _ ih => exact .pair hts hrt ih

/-- Inside a sysex message the scan reads any mix and stays inside. -/
theorem SysexMix.reads {w : List UInt8} {events : List MidiEvent} (h : SysexMix w events)
    {s : ScanState} (hs : s.inSysex = true) : Reads s w events (· = s) := by
  induction h with
  | nil => exact Reads.nil rfl
  | @data b w events hb _ ih =>
    have single : ∀ c ∈ [b], isDataByte c = true := by simpa using hb
    exact Reads.step (emits_sysexData hs single) ih
  | pair hts hrt _ ih => exact Reads.step (emits_sysexRealtime hs hts hrt) ih

theorem Continuation.reads {w : List UInt8} {events : List MidiEvent}
    (h : Continuation w events) {s : ScanState} (hs : s.inSysex = true) :
    Reads s w events (· = s) := by
  obtain ⟨pairs, hd, mix⟩ := h
  refine (pairs.mix.reads hs).trans ?_
  rintro s' rfl
  exact (SysexMix.data hd mix).reads hs

/-- The scan state between items, with the running status `r`. -/
structure Between (r : Option UInt8) (s : ScanState) : Prop where
  outside : s.inSysex = false
  running : s.running = r.getD 0
  channel : ∀ status, r = some status → isChannelMessage status = true

theorem Between.runningOk {r : Option UInt8} {s : ScanState} (h : Between r s) :
    s.RunningOk := by
  cases r with
  | none => exact .inl h.running
  | some status => exact .inr (by rw [h.running]; exact h.channel status rfl)

theorem Between.seeTimestamp {r : Option UInt8} {s : ScanState} (h : Between r s) (ts : UInt8) :
    Between r (s.seeTimestamp ts) :=
  ⟨h.outside, h.running, h.channel⟩

theorem Between.seeStatus {r : Option UInt8} {s : ScanState} {status : UInt8}
    (h : Between r s) (hsize : messageSize status ≠ 0) :
    Between (if isChannelMessage status then some status else r) (s.seeStatus status) := by
  by_cases channel : isChannelMessage status = true
  · rw [if_pos channel]
    refine ⟨h.outside, by simp [ScanState.seeStatus, channel], ?_⟩
    rintro _ ⟨⟩
    exact channel
  · rw [if_neg channel]
    refine ⟨h.outside, ?_, h.channel⟩
    have class' := (messageSize_class status).mp hsize
    rcases class' with hc | hr | hc
    · exact absurd hc channel
    · simp [ScanState.seeStatus, channel, hr, h.running]
    · simp [ScanState.seeStatus, channel, hc, h.running]

theorem Between.size {status : UInt8} {s : ScanState} (h : Between (some status) s) :
    s.running = status ∧ messageSize status ≠ 0 :=
  ⟨h.running, (messageSize_class status).mpr (.inl (h.channel status rfl))⟩

/-- A closed sysex message behind its mix: the state is between items without running status. -/
theorem reads_sysex {s : ScanState} (hs : s.inSysex = true) (hr : s.running = 0)
    {mix w : List UInt8} {te : UInt8} {mixEvents events : List MidiEvent}
    {Q : ScanState → Prop} (hmix : SysexMix mix mixEvents) (hte : isStatusByte te = true)
    (hw : ∀ s', Between none s' → Reads s' w events Q) :
    Reads s (mix ++ te :: 0xf7 :: w) (mixEvents ++ .sysexEnd :: events) Q := by
  refine (hmix.reads hs).trans ?_
  rintro s' rfl
  exact Reads.step (emits_sysexEnd hs hte) (hw _ ⟨rfl, hr, by simp⟩)

/-- The scan reads complete items as their events. -/
theorem Items.reads {D : UInt8 → Prop} {r r' : Option UInt8} {w : List UInt8}
    {events : List MidiEvent} (h : Items D r w events r') :
    ∀ {s : ScanState}, Between r s → Reads s w events (Between r') := by
  induction h with
  | nil r =>
    intro s hs
    exact Reads.nil hs
  | message hts hstatus hlen _ _ ih =>
    intro s hs
    exact Reads.step (emits_message hs.outside hts hstatus hlen)
      (ih ((hs.seeTimestamp _).seeStatus hstatus))
  | sysex hts hmix hte _ ih =>
    intro s hs
    exact Reads.step (emits_sysexStart hs.outside hts)
      (reads_sysex rfl rfl hmix hte fun s' hs' => ih hs')
  | running hd hlen _ _ ih =>
    intro s hs
    obtain ⟨rfl, size⟩ := hs.size
    exact Reads.step (emits_running hs.outside hd size hlen) (ih hs)
  | runningTimed hts hd hlen _ _ ih =>
    intro s hs
    obtain ⟨rfl, size⟩ := hs.size
    exact Reads.step (emits_runningTimed hs.outside hts hd size hlen) (ih (hs.seeTimestamp _))

theorem Tail.reads {w : List UInt8} {events : List MidiEvent} (h : Tail w events)
    {r : Option UInt8} {s : ScanState} (hs : Between r s) :
    Reads s w events fun _ => True := by
  cases h with
  | nil => exact Reads.nil trivial
  | openSysex hts hmix =>
    refine Reads.step (emits_sysexStart hs.outside hts) ?_
    obtain ⟨out, s', hout, emits, _⟩ := hmix.reads (s :=
      { (s.seeTimestamp _).seeStatus 0xf0 with inSysex := true }) rfl
    exact ⟨out, s', hout, emits, trivial⟩

theorem RealtimePairs.preScan {w : List UInt8} {events : List MidiEvent}
    (h : RealtimePairs w events) (rest : List UInt8) : preScan (w ++ rest) = preScan rest := by
  induction h with
  | nil => rfl
  | pair hts hrt _ ih => exact (preScan_realtime hts hrt _).trans ih

theorem Continuation.preScan {w : List UInt8} {events : List MidiEvent}
    (h : Continuation w events) (rest : List UInt8) :
    PacketScan.preScan (w ++ rest) = .ok true := by
  obtain ⟨pairs, hd, _⟩ := h
  rw [List.append_assoc, pairs.preScan]
  exact preScan_data hd _

theorem Tail.preScan {w : List UInt8} {events : List MidiEvent} (h : Tail w events) :
    PacketScan.preScan w = .ok false := by
  cases h with
  | nil => rfl
  | openSysex hts _ => exact preScan_status hts rfl rfl _

/-- Items without an earlier channel status settle the pre-scan, unless they are real-time messages
only. -/
theorem Items.preScan_cases {D : UInt8 → Prop} {r r' : Option UInt8} {w : List UInt8}
    {events : List MidiEvent} (h : Items D r w events r') :
    r = none → (r' = none ∧ RealtimePairs w events) ∨
      ∀ rest, PacketScan.preScan (w ++ rest) = .ok false := by
  induction h with
  | nil _ =>
    rintro rfl
    exact .inl ⟨rfl, .nil⟩
  | @message r r' ts status data w events hts hstatus hlen _ _ ih =>
    rintro rfl
    cases realtime : isRealtimeMessage status with
    | false =>
      right
      intro rest
      exact preScan_status hts (isStatusByte_of_messageSize hstatus) realtime _
    | true =>
      have none : data = [] := by
        rw [messageSize_realtime realtime] at hlen
        exact List.length_eq_zero_iff.mp (by simpa using hlen)
      subst none
      rcases ih (by simp [not_channel_of_realtime realtime]) with ⟨unset, pairs⟩ | settles
      · exact .inl ⟨unset, .pair hts realtime pairs⟩
      · exact .inr fun rest => (preScan_realtime hts realtime _).trans (settles rest)
  | sysex hts _ _ _ _ =>
    intro _
    exact .inr fun rest => preScan_status hts rfl rfl _
  | running => rintro ⟨⟩
  | runningTimed => rintro ⟨⟩

/-- Items without an earlier channel status are no continuation of a sysex message, if what
follows them is none. -/
theorem Items.preScan {D : UInt8 → Prop} {r r' : Option UInt8} {w : List UInt8}
    {events : List MidiEvent} (h : Items D r w events r') (hr : r = none) {rest : List UInt8}
    (hrest : PacketScan.preScan rest = .ok false) :
    PacketScan.preScan (w ++ rest) = .ok false := by
  rcases h.preScan_cases hr with ⟨-, pairs⟩ | settles
  · rw [pairs.preScan]
    exact hrest
  · exact settles rest

/-- A body that the scan reads to its end is parsed without error. -/
theorem parsePacket_of_reads {header : UInt8} {body : List UInt8} {isSysexCont : Bool}
    {events : List MidiEvent} {P : ScanState → Prop} (hheader : isStatusByte header = true)
    (hscan : preScan body = .ok isSysexCont)
    (hreads : Reads (startState isSysexCont header) body events P) :
    (parsePacket (header :: body)).halt = .returned .success ∧
      (parsePacket (header :: body)).callbacks.map untimed = events := by
  obtain ⟨out, s', rfl, emits, _⟩ := hreads
  have scanned : scanPacket header body = (out, .success) := by
    rw [scanPacket, hscan]
    exact (if_pos hheader).trans emits.run_eq
  obtain ⟨callbacks, ends⟩ := parsePacket_scan header body
  rw [scanned] at callbacks ends
  exact ⟨ends.1, by rw [callbacks]⟩

/-- Every packet of the grammar is parsed successfully, into the events of its derivation. -/
theorem parsePacket_complete {packet : List UInt8} {events : List MidiEvent}
    (h : GrammarPacket packet events) :
    (parsePacket packet).halt = .returned .success ∧
      (parsePacket packet).callbacks.map untimed = events := by
  cases h with
  | @continued header w events hheader hw =>
    have scan : preScan w = .ok true := by
      simpa using hw.preScan []
    exact parsePacket_of_reads hheader scan (hw.reads rfl)
  | @items header pre w tail r preEvents events tailEvents hheader hpre hitems htail =>
    have rest {s : ScanState} (hs : Between none s) :
        Reads s (w ++ tail) (events ++ tailEvents) fun _ => True :=
      (hitems.reads hs).trans fun s' hs' => htail.reads hs'
    cases hpre with
    | nil =>
      have scan : preScan (w ++ tail) = .ok false := hitems.preScan rfl htail.preScan
      exact parsePacket_of_reads hheader scan (rest ⟨rfl, rfl, by simp⟩)
    | @closed v vEvents te hv hte =>
      have scan : preScan (v ++ [te, 0xf7] ++ (w ++ tail)) = .ok true := by
        rw [List.append_assoc]
        exact hv.preScan _
      refine parsePacket_of_reads hheader scan (P := fun _ => True) ?_
      rw [List.append_assoc, List.append_assoc]
      refine (hv.reads rfl).trans ?_
      rintro s' rfl
      exact Reads.step (emits_sysexEnd rfl hte) (rest ⟨rfl, rfl, by simp⟩)

/-- A closed continuation, a note on and the same key again with running status. -/
theorem parsePacket_complete_continued :
    (parsePacket [0x81, 0xe6, 0xfe, 0x01, 0x02, 0xf0, 0xf7, 0xfa, 0x90, 0x69, 0x7f, 0x69,
        0x00]).halt = .returned .success ∧
      (parsePacket [0x81, 0xe6, 0xfe, 0x01, 0x02, 0xf0, 0xf7, 0xfa, 0x90, 0x69, 0x7f, 0x69,
        0x00]).callbacks.map untimed =
        [.message [0xfe], .sysexData 0x01, .sysexData 0x02, .sysexEnd,
          .message [0x90, 0x69, 0x7f], .message [0x90, 0x69, 0x00]] := by
  have mix : SysexMix [0x02] [.sysexData 0x02] := .data rfl .nil
  have continuation : Continuation [0xe6, 0xfe, 0x01, 0x02]
      [.message [0xfe], .sysexData 0x01, .sysexData 0x02] :=
    .intro (.pair rfl rfl .nil) rfl mix
  have again : Items (fun b => isDataByte b = true) (some 0x90) [0x69, 0x00]
      [.message [0x90, 0x69, 0x00]] (some 0x90) :=
    @Items.running _ 0x90 0x69 _ [0x00] [] [] rfl rfl (List.all_eq_true.mp rfl) (.nil _)
  have items : Items (fun b => isDataByte b = true) none [0xfa, 0x90, 0x69, 0x7f, 0x69, 0x00]
      [.message [0x90, 0x69, 0x7f], .message [0x90, 0x69, 0x00]] (some 0x90) :=
    @Items.message _ none _ 0xfa 0x90 [0x69, 0x7f] _ _ rfl (by decide) rfl
      (List.all_eq_true.mp rfl) again
  exact parsePacket_complete (.items rfl (.closed continuation rfl) items .nil)

end BleMidi.Packet.Grammar
