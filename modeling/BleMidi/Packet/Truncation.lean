/- Module: BleMidi/Packet/Truncation
   source: ble_midi/src/ble_midi_packet.c (is_sysex_continuation, ble_midi_parse_packet)
   digest: What the parser delivers from a packet of which the end is missing. -/

import BleMidi.Packet.Bounds

set_option autoImplicit false
set_option relaxedAutoImplicit false

namespace BleMidi.Packet.Truncation

open BleMidi.Core.Transducer
open BleMidi.Packet.Bytes
open BleMidi.Packet.PacketParser
open BleMidi.Packet.PacketScan
open BleMidi.Packet.ParserRefinement
open BleMidi.Packet.Segments
open BleMidi.Packet.Grammar
open BleMidi.Packet.Bounds

section Scanner

variable {s s' : ScanState} {out : List Event} {reason : ScanEnd}

private theorem takeMessage_silent {front rest : List UInt8} {count : Nat}
    (h : takeMessage s front count rest = .stop out reason) : out = [] := by
  unfold takeMessage at h
  split at h <;> cases h
  rfl

private theorem takeMessage_steps {front rest unread : List UInt8} {count : Nat}
    (h : takeMessage s front count rest = .more out s' unread) (extra : List UInt8) :
    takeMessage s front count (rest ++ extra) = .more out s' (unread ++ extra) := by
  unfold takeMessage at h ⊢
  by_cases short : rest.length < count
  · rw [if_pos short] at h
    cases h
  · have enough : count ≤ rest.length := Nat.le_of_not_lt short
    rw [if_neg short] at h
    rw [if_neg (by rw [List.length_append]; omega), List.take_append_of_le_length enough,
      List.drop_append_of_le_length enough]
    cases h
    rfl

private theorem scanRunning_silent {byte0 : UInt8} {rest : List UInt8}
    (h : scanRunning s byte0 rest = .stop out reason) : out = [] := by
  unfold scanRunning at h
  split at h
  · cases h
    rfl
  · exact takeMessage_silent h

private theorem scanRunning_steps {byte0 : UInt8} {rest unread : List UInt8}
    (h : scanRunning s byte0 rest = .more out s' unread) (extra : List UInt8) :
    scanRunning s byte0 (rest ++ extra) = .more out s' (unread ++ extra) := by
  unfold scanRunning at h ⊢
  split at h
  · cases h
  · rename_i some
    rw [if_neg some]
    exact takeMessage_steps h extra

private theorem scanStatus_silent {status : UInt8} {rest : List UInt8}
    (h : scanStatus s status rest = .stop out reason) : out = [] := by
  unfold scanStatus at h
  split at h
  · cases h
  · split at h
    · cases h
      rfl
    · exact takeMessage_silent h

private theorem scanStatus_steps {status : UInt8} {rest unread : List UInt8}
    (h : scanStatus s status rest = .more out s' unread) (extra : List UInt8) :
    scanStatus s status (rest ++ extra) = .more out s' (unread ++ extra) := by
  unfold scanStatus at h ⊢
  by_cases start : status = 0xf0
  · rw [if_pos start] at h ⊢
    cases h
    rfl
  · rw [if_neg start] at h ⊢
    by_cases none : messageSize status = 0
    · rw [if_pos none] at h
      cases h
    · rw [if_neg none] at h ⊢
      exact takeMessage_steps h extra

private theorem scanSysexStatus_silent {byte0 status : UInt8} {rest : List UInt8}
    (h : scanSysexStatus s byte0 status rest = .stop out reason) : out = [] := by
  unfold scanSysexStatus at h
  split at h
  · cases h
  · split at h <;> cases h
    rfl

private theorem scanSysexStatus_steps {byte0 status : UInt8} {rest unread : List UInt8}
    (h : scanSysexStatus s byte0 status rest = .more out s' unread) (extra : List UInt8) :
    scanSysexStatus s byte0 status (rest ++ extra) = .more out s' (unread ++ extra) := by
  unfold scanSysexStatus at h ⊢
  by_cases realtime : isRealtimeMessage status = true
  · rw [if_pos realtime] at h ⊢
    cases h
    rfl
  · rw [if_neg realtime] at h ⊢
    by_cases finish : status = 0xf7
    · rw [if_pos finish] at h ⊢
      cases h
      rfl
    · rw [if_neg finish] at h
      cases h

/-- An iteration of the parse loop needs no more than the bytes it consumes. -/
theorem scanner_incremental : Incremental scanner := by
  constructor
  · intro s b unread out reason h
    change scanStep s b unread = _ at h
    unfold scanStep at h
    split at h
    · split at h
      · cases h
      · cases unread with
        | nil =>
          cases h
          rfl
        | cons status rest => exact scanSysexStatus_silent h
    · split at h
      · exact scanRunning_silent h
      · cases unread with
        | nil =>
          cases h
          rfl
        | cons byte1 rest =>
          simp only at h
          split at h
          · exact scanRunning_silent h
          · exact scanStatus_silent h
  · intro s s' b unread rest out h extra
    change scanStep s b unread = _ at h
    change scanStep s b (unread ++ extra) = _
    unfold scanStep at h ⊢
    cases inSysex : s.inSysex with
    | true =>
      rw [inSysex] at h
      by_cases data : isDataByte b = true
      · simp only [if_true, if_pos data] at h ⊢
        cases h
        rfl
      · simp only [if_true, if_neg data] at h ⊢
        cases unread with
        | nil => cases h
        | cons status tail => exact scanSysexStatus_steps h extra
    | false =>
      rw [inSysex] at h
      by_cases data : isDataByte b = true
      · simp only [Bool.false_eq_true, if_false, if_pos data] at h ⊢
        exact scanRunning_steps h extra
      · simp only [Bool.false_eq_true, if_false, if_neg data] at h ⊢
        cases unread with
        | nil => cases h
        | cons byte1 tail =>
          simp only [List.cons_append] at h ⊢
          by_cases data1 : isDataByte byte1 = true
          · rw [if_pos data1] at h ⊢
            exact scanRunning_steps h extra
          · rw [if_neg data1] at h ⊢
            exact scanStatus_steps h extra

end Scanner

section PreScan

/-- The pre-scan does not stop with an error at what comes first: a lone timestamp byte or a data
byte behind one. -/
inductive Rejected : List UInt8 → Prop
  | lone {ts : UInt8} : isStatusByte ts = true → Rejected [ts]
  | dataByte {ts d : UInt8} {rest : List UInt8} :
      isStatusByte ts = true → isDataByte d = true → Rejected (ts :: d :: rest)

/-- The packets with real-time messages in front of bytes that the pre-scan rejects. -/
inductive RejectedLate : List UInt8 → Prop
  | intro {header : UInt8} {pairs rest : List UInt8} {events : List MidiEvent} :
      isStatusByte header = true → RealtimePairs pairs events → events ≠ [] → Rejected rest →
      RejectedLate (header :: (pairs ++ rest))

private theorem status_of_not_data {b : UInt8} (h : ¬ isDataByte b = true) :
    isStatusByte b = true := by
  rw [Bool.not_eq_true, not_isDataByte] at h
  exact h

private theorem Rejected.preScan {w : List UInt8} (h : Rejected w) :
    ∃ code, PacketScan.preScan w = .error code := by
  cases h with
  | lone hts =>
    refine ⟨_, preScan_lone ?_⟩
    rw [Bool.not_eq_true, not_isDataByte]
    exact hts
  | dataByte hts hd =>
    refine ⟨.unexpectedDataByte, ?_⟩
    rw [preScan_pair, if_pos hd]
    rw [Bool.not_eq_true, not_isDataByte]
    exact hts

private theorem rejected_of_preScan {w : List UInt8} {code : PacketError}
    (h : preScan w = .error code) : ∃ pairs events rest, w = pairs ++ rest ∧
      RealtimePairs pairs events ∧ Rejected rest := by
  fun_induction preScan w with
  | case1 => cases h
  | case2 => cases h
  | case3 ts hts => exact ⟨[], [], [ts], rfl, .nil, .lone (status_of_not_data hts)⟩
  | case4 ts hts d rest hd =>
    exact ⟨[], [], ts :: d :: rest, rfl, .nil, .dataByte (status_of_not_data hts) hd⟩
  | case5 ts hts rt rest _ hrt ih =>
    obtain ⟨pairs, events, rest, rfl, realtime, rejected⟩ := ih h
    exact ⟨_, _, rest, rfl, .pair (status_of_not_data hts) hrt realtime, rejected⟩
  | case6 => cases h

/-- The pre-scan of a part of a body: nothing but real-time messages, an error, or a decision that
what follows does not change. -/
private theorem preScan_cases (w : List UInt8) : (∃ events, RealtimePairs w events) ∨
    (∃ code, preScan w = .error code) ∨
      ∃ isSysexCont, ∀ extra, preScan (w ++ extra) = .ok isSysexCont := by
  fun_induction preScan w with
  | case1 => exact .inl ⟨[], .nil⟩
  | case2 b rest hb => exact .inr (.inr ⟨true, fun extra => preScan_data hb _⟩)
  | case3 ts hts => exact .inr (.inl ⟨_, rfl⟩)
  | case4 ts hts d rest hd => exact .inr (.inl ⟨_, rfl⟩)
  | case5 ts hts rt rest _ hrt ih =>
    have status := status_of_not_data hts
    rcases ih with ⟨events, pairs⟩ | failed | ⟨isSysexCont, settled⟩
    · exact .inl ⟨_, .pair status hrt pairs⟩
    · exact .inr (.inl failed)
    · exact .inr (.inr ⟨isSysexCont, fun extra => (preScan_realtime status hrt _).trans
        (settled extra)⟩)
  | case6 ts hts status rest hd hrt =>
    refine .inr (.inr ⟨false, fun extra => ?_⟩)
    exact preScan_status (status_of_not_data hts) (status_of_not_data hd)
      (Bool.not_eq_true _ ▸ hrt) _

private theorem pairs_append {v w : List UInt8} {events events' : List MidiEvent}
    (hv : RealtimePairs v events) (hw : RealtimePairs w events') :
    RealtimePairs (v ++ w) (events ++ events') := by
  induction hv with
  | nil => exact hw
  | pair hts hrt _ ih => exact .pair hts hrt ih

end PreScan

private theorem pairs_reads {w : List UInt8} {events : List MidiEvent}
    (h : RealtimePairs w events) (s : ScanState) : Reads s w events fun _ => True := by
  induction h generalizing s with
  | nil => exact Reads.nil trivial
  | @pair ts rt w events hts hrt _ ih =>
    cases inSysex : s.inSysex with
    | true => exact Reads.step (emits_sysexRealtime inSysex hts hrt) (ih s)
    | false =>
      have size := messageSize_realtime hrt
      have some : messageSize rt ≠ 0 := by
        rw [size]
        decide
      have alone : ([] : List UInt8).length + 1 = (messageSize rt).toNat := by
        rw [size]
        rfl
      exact Reads.step (emits_message inSysex hts some alone) (ih _)

/-- What the parser delivers from a packet, timestamps aside. -/
def deliveries (packet : List UInt8) : List MidiEvent :=
  (parsePacket packet).callbacks.map untimed

private theorem deliveries_cons (header : UInt8) (body : List UInt8) :
    deliveries (header :: body) = (scanPacket header body).1.map untimed :=
  congrArg (List.map untimed) (parsePacket_scan header body).1

private theorem deliveries_rejected {header : UInt8} {body : List UInt8} {code : PacketError}
    (h : preScan body = .error code) : deliveries (header :: body) = [] := by
  rw [deliveries_cons, scanPacket, h]
  rfl

private theorem deliveries_headless {header : UInt8} (h : ¬ isStatusByte header = true)
    (body : List UInt8) : deliveries (header :: body) = [] := by
  rw [deliveries_cons]
  unfold scanPacket
  cases preScan body with
  | error code => rfl
  | ok isSysexCont =>
    simp only [if_neg h]
    rfl

private theorem deliveries_scanned {header : UInt8} {body : List UInt8} {isSysexCont : Bool}
    (hheader : isStatusByte header = true) (h : preScan body = .ok isSysexCont) :
    deliveries (header :: body) =
      (run scanner (startState isSysexCont header) body).1.map untimed := by
  rw [deliveries_cons, scanPacket, h]
  simp only [if_pos hheader]

private theorem deliveries_pairs {header : UInt8} {pairs : List UInt8} {events : List MidiEvent}
    (hheader : isStatusByte header = true) (h : RealtimePairs pairs events) {rest : List UInt8}
    {isSysexCont : Bool} (hscan : preScan rest = .ok isSysexCont) :
    events <+: deliveries (header :: (pairs ++ rest)) := by
  obtain ⟨out, s', rfl, emits, -⟩ := pairs_reads h (startState isSysexCont header)
  rw [deliveries_scanned hheader ((h.preScan rest).trans hscan), emits rest, List.map_append]
  exact List.prefix_append _ _

private theorem deliveries_pairs_alone {header : UInt8} {pairs : List UInt8}
    {events : List MidiEvent} (hheader : isStatusByte header = true)
    (h : RealtimePairs pairs events) : deliveries (header :: pairs) = events := by
  have scan : preScan pairs = .ok false := by
    simpa using h.preScan []
  obtain ⟨out, s', rfl, emits, -⟩ := pairs_reads h (startState false header)
  rw [deliveries_scanned hheader scan, emits.run_eq]

private theorem deliveries_prefix {header : UInt8} {w extra : List UInt8}
    (h : ¬ RejectedLate (header :: (w ++ extra))) :
    deliveries (header :: w) <+: deliveries (header :: (w ++ extra)) := by
  by_cases hheader : isStatusByte header = true
  swap
  · rw [deliveries_headless hheader]
    exact List.nil_prefix
  rcases preScan_cases w with ⟨events, pairs⟩ | ⟨code, failed⟩ | ⟨isSysexCont, settled⟩
  · rw [deliveries_pairs_alone hheader pairs]
    cases scan : preScan extra with
    | ok isSysexCont => exact deliveries_pairs hheader pairs scan
    | error code =>
      obtain ⟨pairs', events', rest, rfl, realtime, rejected⟩ := rejected_of_preScan scan
      have none : events = [] := by
        by_contra some
        apply h
        rw [← List.append_assoc]
        exact .intro hheader (pairs_append pairs realtime) (by simp [some]) rejected
      rw [none]
      exact List.nil_prefix
  · rw [deliveries_rejected failed]
    exact List.nil_prefix
  · have scan : preScan w = .ok isSysexCont := by
      simpa using settled []
    rw [deliveries_scanned hheader scan, deliveries_scanned hheader (settled extra)]
    exact (scanner_incremental.run_prefix _ w extra).map untimed

private theorem prefixes_iff (packet : List UInt8) :
    (∀ n, deliveries (packet.take n) <+: deliveries packet) ↔ ¬ RejectedLate packet := by
  constructor
  · rintro prefixes ⟨hheader, pairs, some, rejected⟩
    rename_i header pairBytes rest events
    obtain ⟨code, failed⟩ := rejected.preScan
    have cut := prefixes (pairBytes.length + 1)
    rw [List.take_succ_cons, List.take_left, deliveries_pairs_alone hheader pairs,
      deliveries_rejected ((pairs.preScan rest).trans failed)] at cut
    exact some (List.prefix_nil.mp cut)
  · intro h n
    cases packet with
    | nil =>
      rw [List.take_nil]
    | cons header body =>
      cases n with
      | zero => exact List.nil_prefix
      | succ n =>
        have whole := List.take_append_drop n body
        rw [← whole] at h
        have cut := deliveries_prefix h
        rw [whole] at cut
        exact cut

private theorem orphanPacket_of_take {packet : List UInt8} {n : Nat}
    (h : OrphanPacket (packet.take n)) : OrphanPacket packet := by
  obtain ⟨unread, orphan⟩ := h
  have whole := List.take_append_drop n packet
  generalize packet.take n = front at orphan whole
  cases orphan with
  | @intro header pre items orphan _ _ rest hheader hpre hitems hplain horphan =>
    rw [← whole]
    have longer := OrphanAt.intro (rest ++ packet.drop n) hheader hpre hitems hplain horphan
    refine ⟨(rest ++ packet.drop n).length, ?_⟩
    simpa only [List.cons_append, List.append_assoc] using longer

end BleMidi.Packet.Truncation
