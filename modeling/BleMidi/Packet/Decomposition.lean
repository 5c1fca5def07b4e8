/- Module: BleMidi/Packet/Decomposition
   source: ble_midi/src/ble_midi_packet.c (ble_midi_parse_packet)
   digest: Any packet is scanned as items of the grammar until the scan leaves it. -/

import BleMidi.Packet.Grammar

set_option autoImplicit false
set_option relaxedAutoImplicit false

namespace BleMidi.Packet.Decomposition

open BleMidi.Core.Transducer
open BleMidi.Packet.Bytes
open BleMidi.Packet.PacketParser
open BleMidi.Packet.PacketScan
open BleMidi.Packet.Segments
open BleMidi.Packet.Grammar

/-- A message in one of its three forms, from the running status `r` to `r'`: its bytes in the
packet, the data behind the byte that decides the form, and the bytes of the callback. -/
inductive MessageForm :
    Option UInt8 → List UInt8 → List UInt8 → List UInt8 → Option UInt8 → Prop
  | full {r : Option UInt8} {ts status : UInt8} {data : List UInt8} :
      isStatusByte ts = true → messageSize status ≠ 0 →
      data.length + 1 = (messageSize status).toNat →
      MessageForm r (ts :: status :: data) data (status :: data)
        (if isChannelMessage status then some status else r)
  | running {status d : UInt8} {data : List UInt8} :
      isDataByte d = true → data.length + 2 = (messageSize status).toNat →
      MessageForm (some status) (d :: data) data (status :: d :: data) (some status)
  | runningTimed {status ts d : UInt8} {data : List UInt8} :
      isStatusByte ts = true → isDataByte d = true →
      data.length + 2 = (messageSize status).toNat →
      MessageForm (some status) (ts :: d :: data) data (status :: d :: data) (some status)

/-- Where a scan leaves the grammar, with what it does from there on: at the end of the packet, at
an orphan, with an error, at a message whose data are not all in `D`, or in a sysex message that is
not closed. -/
inductive Stops (D : UInt8 → Prop) : Option UInt8 → List UInt8 → List Event × ScanEnd → Prop
  | finished (r : Option UInt8) : Stops D r [] ([], .success)
  | orphan {d : UInt8} {rest : List UInt8} :
      isDataByte d = true → Stops D none (d :: rest) ([], .orphan rest.length)
  | orphanTimed {ts d : UInt8} {rest : List UInt8} :
      isStatusByte ts = true → isDataByte d = true →
      Stops D none (ts :: d :: rest) ([], .orphan rest.length)
  | failed {r : Option UInt8} {w : List UInt8} (code : PacketError) :
      Stops D r w ([], .failed code)
  | unchecked {r r' : Option UInt8} {v data bytes rest : List UInt8} {t : UInt16}
      {out : List Event} {reason : ScanEnd} :
      MessageForm r v data bytes r' → ¬ (∀ b ∈ data, D b) →
      Stops D r (v ++ rest) (.midiMessage bytes t :: out, reason)
  | openSysex {r : Option UInt8} {ts : UInt8} {mix rest : List UInt8} {t : UInt16}
      {out : List Event} {reason : ScanEnd} :
      isStatusByte ts = true → SysexMix mix (out.map untimed) → ¬ reason.IsOrphan →
      Stops D r (ts :: 0xf0 :: (mix ++ rest)) (.sysexStart t :: out, reason)

/-- Complete items, read as their events, and then the place where the scan leaves the grammar. -/
def Decomposes (D : UInt8 → Prop) (r : Option UInt8) (w : List UInt8)
    (result : List Event × ScanEnd) : Prop :=
  ∃ items out r' rest stop, w = items ++ rest ∧ Items D r items (out.map untimed) r' ∧
    result = (out ++ stop.1, stop.2) ∧ Stops D r' rest stop

/-- Inside a sysex message: its end comes, with a decomposition behind it, or the scan stops in
it. -/
def DecomposesInside (D : UInt8 → Prop) (w : List UInt8) (result : List Event × ScanEnd) : Prop :=
  (∃ mix out te t rest behind, w = mix ++ te :: 0xf7 :: rest ∧ SysexMix mix (out.map untimed) ∧
    isStatusByte te = true ∧ result = (out ++ .sysexEnd t :: behind.1, behind.2) ∧
    Decomposes D none rest behind) ∨
  ∃ mix rest, w = mix ++ rest ∧ SysexMix mix (result.1.map untimed) ∧ ¬ result.2.IsOrphan

variable {D : UInt8 → Prop} {r r' : Option UInt8} {s : ScanState}

private theorem between_eq_none (h : Between r s) (hs : s.running = 0) : r = none := by
  cases r with
  | none => rfl
  | some status =>
    have zero : status = 0 := h.running.symm.trans hs
    have channel := h.channel status rfl
    rw [zero] at channel
    cases channel

private theorem between_eq_some (h : Between r s) (hs : isChannelMessage s.running = true) :
    r = some s.running := by
  cases r with
  | none =>
    rw [h.running] at hs
    cases hs
  | some status => exact congrArg some h.running.symm

/-- What an iteration of the scan does between items. -/
inductive StepOutside (D : UInt8 → Prop) (r : Option UInt8) :
    List UInt8 → ScanMove → Prop
  | message {r' : Option UInt8} {v data bytes rest : List UInt8} {t : UInt16} {s' : ScanState} :
      MessageForm r v data bytes r' → Between r' s' →
      StepOutside D r (v ++ rest) (.more [.midiMessage bytes t] s' rest)
  | sysexStart {ts : UInt8} {rest : List UInt8} {t : UInt16} {s' : ScanState} :
      isStatusByte ts = true → s'.inSysex = true → s'.running = 0 →
      StepOutside D r (ts :: 0xf0 :: rest) (.more [.sysexStart t] s' rest)
  | stop {w : List UInt8} {reason : ScanEnd} :
      Stops D r w ([], reason) → StepOutside D r w (.stop [] reason)

theorem stepOutside (D : UInt8 → Prop) (hs : Between r s) (b : UInt8)
    (unread : List UInt8) : StepOutside D r (b :: unread) (scanStep s b unread) := by
  have step := scanStep_case hs.runningOk b unread
  generalize scanStep s b unread = move at step
  have impossible (h : s.inSysex = true) : False := by
    rw [hs.outside] at h
    cases h
  cases step with
  | sysexData h _ => exact (impossible h).elim
  | sysexRealtime h _ _ => exact (impossible h).elim
  | sysexEnd h _ => exact (impossible h).elim
  | sysexStart _ hts => exact .sysexStart hts rfl rfl
  | message _ hts hstatus hlen =>
    exact .message (.full hts hstatus hlen) ((hs.seeTimestamp b).seeStatus hstatus)
  | running _ hd channel hlen =>
    obtain rfl := between_eq_some hs channel
    exact .message (.running hd hlen) hs
  | runningTimed _ hts hd channel hlen =>
    obtain rfl := between_eq_some hs channel
    exact .message (.runningTimed hts hd hlen) (hs.seeTimestamp b)
  | orphan _ hd unset =>
    obtain rfl := between_eq_none hs unset
    exact .stop (.orphan hd)
  | orphanTimed _ hts hd unset =>
    obtain rfl := between_eq_none hs unset
    exact .stop (.orphanTimed hts hd)
  | failed code => exact .stop (.failed code)

private theorem StepOutside.stops {w : List UInt8} {out : List Event} {reason : ScanEnd}
    (h : StepOutside D r w (.stop out reason)) : Stops D r w (out, reason) := by
  cases h with
  | stop stops => exact stops

/-- What an iteration of the scan does inside a sysex message. -/
inductive StepInside (s : ScanState) : List UInt8 → ScanMove → Prop
  | piece {v rest : List UInt8} {event : Event} :
      (∀ {mix : List UInt8} {events : List MidiEvent}, SysexMix mix events →
        SysexMix (v ++ mix) (untimed event :: events)) →
      StepInside s (v ++ rest) (.more [event] s rest)
  | sysexEnd {te : UInt8} {rest : List UInt8} {t : UInt16} :
      isStatusByte te = true →
      StepInside s (te :: 0xf7 :: rest) (.more [.sysexEnd t] { s with inSysex := false } rest)
  | failed {w : List UInt8} (code : PacketError) : StepInside s w (.stop [] (.failed code))

theorem stepInside (hsysex : s.inSysex = true) (hrunning : s.running = 0) (b : UInt8)
    (unread : List UInt8) : StepInside s (b :: unread) (scanStep s b unread) := by
  have step := scanStep_case (s := s) (.inl hrunning) b unread
  generalize scanStep s b unread = move at step
  have impossible (h : s.inSysex = false) : False := by
    rw [hsysex] at h
    cases h
  cases step with
  | sysexData _ hd => exact .piece (v := [b]) (.data hd)
  | @sysexRealtime rt rest _ hts hrt => exact .piece (v := [b, rt]) (.pair hts hrt)
  | sysexEnd _ hts => exact .sysexEnd hts
  | sysexStart h _ => exact (impossible h).elim
  | message h _ _ _ => exact (impossible h).elim
  | running h _ _ _ => exact (impossible h).elim
  | runningTimed h _ _ _ _ => exact (impossible h).elim
  | orphan h _ _ => exact (impossible h).elim
  | orphanTimed h _ _ _ => exact (impossible h).elim
  | failed code => exact .failed code

private theorem StepInside.stops {w : List UInt8} {out : List Event} {reason : ScanEnd}
    (h : StepInside s w (.stop out reason)) : out = [] ∧ ¬ reason.IsOrphan := by
  cases h with
  | failed code => exact ⟨rfl, id⟩

theorem MessageForm.items {r'' : Option UInt8} {v data bytes w : List UInt8}
    {events : List MidiEvent} (h : MessageForm r v data bytes r') (hD : ∀ b ∈ data, D b)
    (hw : Items D r' w events r'') : Items D r (v ++ w) (.message bytes :: events) r'' := by
  cases h with
  | full hts hstatus hlen => exact .message hts hstatus hlen hD hw
  | running hd hlen => exact .running hd hlen hD hw
  | runningTimed hts hd hlen => exact .runningTimed hts hd hlen hD hw

theorem Stops.decomposes {w : List UInt8} {result : List Event × ScanEnd}
    (h : Stops D r w result) : Decomposes D r w result :=
  ⟨[], [], r, w, result, rfl, .nil r, rfl, h⟩

private theorem Decomposes.cons {v w : List UInt8} (front : List Event)
    {result : List Event × ScanEnd} (h : Decomposes D r' w result)
    (hv : ∀ {items : List UInt8} {events : List MidiEvent} {r'' : Option UInt8},
      Items D r' items events r'' → Items D r (v ++ items) (front.map untimed ++ events) r'') :
    Decomposes D r (v ++ w) (front ++ result.1, result.2) := by
  obtain ⟨items, out, r'', rest, stop, rfl, hitems, rfl, stops⟩ := h
  refine ⟨v ++ items, front ++ out, r'', rest, stop, ?_, ?_, ?_, stops⟩
  · rw [List.append_assoc]
  · rw [List.map_append]
    exact hv hitems
  · rw [List.append_assoc]

private theorem decomposes_step {w : List UInt8} {move : ScanMove}
    (h : StepOutside D r w move) {out : List Event} {s' : ScanState} {rest : List UInt8}
    (hmove : move = .more out s' rest)
    (outside : ∀ r', Between r' s' → Decomposes D r' rest (run scanner s' rest))
    (inside : s'.inSysex = true → s'.running = 0 →
      DecomposesInside D rest (run scanner s' rest)) :
    Decomposes D r w (out ++ (run scanner s' rest).1, (run scanner s' rest).2) := by
  cases h with
  | @message r' v data bytes rest t s' form between =>
    cases hmove
    by_cases checked : ∀ b ∈ data, D b
    · exact (outside r' between).cons [.midiMessage bytes t] (form.items checked)
    · exact (Stops.unchecked form checked).decomposes
  | @sysexStart ts rest t s' hts opened unset =>
    cases hmove
    rcases inside opened unset with
        ⟨mix, inner, te, t', tail, behind, rfl, hmix, hte, hrun, closed⟩ |
        ⟨mix, tail, rfl, hmix, ends⟩
    · rw [hrun]
      have block : Decomposes D r ((ts :: 0xf0 :: (mix ++ [te, 0xf7])) ++ tail)
          ((.sysexStart t :: (inner ++ [.sysexEnd t'])) ++ behind.1, behind.2) := by
        refine closed.cons _ fun hitems => ?_
        have item := Items.sysex (r := r) hts hmix hte hitems
        simpa [untimed] using item
      simpa using block
    · exact (Stops.openSysex (r := r) hts hmix ends).decomposes
  | stop _ => cases hmove

private theorem decomposesInside_step {w : List UInt8} {move : ScanMove}
    (h : StepInside s w move) (hsysex : s.inSysex = true) (hrunning : s.running = 0)
    {out : List Event} {s' : ScanState} {rest : List UInt8} (hmove : move = .more out s' rest)
    (outside : ∀ r', Between r' s' → Decomposes D r' rest (run scanner s' rest))
    (inside : s'.inSysex = true → s'.running = 0 →
      DecomposesInside D rest (run scanner s' rest)) :
    DecomposesInside D w (out ++ (run scanner s' rest).1, (run scanner s' rest).2) := by
  cases h with
  | @piece v rest event mixes =>
    cases hmove
    rcases inside hsysex hrunning with
        ⟨mix, inner, te, t, tail, behind, rfl, hmix, hte, hrun, closed⟩ |
        ⟨mix, tail, rfl, hmix, ends⟩
    · left
      refine ⟨v ++ mix, event :: inner, te, t, tail, behind, ?_, mixes hmix, hte, ?_, closed⟩
      · rw [List.append_assoc]
      · rw [hrun]
        rfl
    · right
      exact ⟨v ++ mix, tail, (List.append_assoc _ _ _).symm, mixes hmix, ends⟩
  | @sysexEnd te rest t hte =>
    cases hmove
    left
    have behind : Between none { s with inSysex := false } := ⟨rfl, hrunning, by simp⟩
    exact ⟨[], [], te, t, rest, _, rfl, .nil, hte, rfl, outside none behind⟩
  | failed code => cases hmove

/-- Every run of the scan decomposes, between items and inside a sysex message. -/
theorem run_decomposes (D : UInt8 → Prop) (s : ScanState) (w : List UInt8) :
    (∀ r, Between r s → Decomposes D r w (run scanner s w)) ∧
      (s.inSysex = true → s.running = 0 → DecomposesInside D w (run scanner s w)) := by
  apply run_induction (R := scanner) (P := fun s w result =>
    (∀ r, Between r s → Decomposes D r w result) ∧
      (s.inSysex = true → s.running = 0 → DecomposesInside D w result))
  · intro s
    constructor
    · intro r _
      exact (Stops.finished r).decomposes
    · intro _ _
      exact .inr ⟨[], [], rfl, .nil, id⟩
  · intro s b unread out reason hmove
    change scanStep s b unread = _ at hmove
    constructor
    · intro r hs
      have step := stepOutside D hs b unread
      rw [hmove] at step
      exact step.stops.decomposes
    · intro hsysex hrunning
      have step := stepInside hsysex hrunning b unread
      rw [hmove] at step
      obtain ⟨rfl, ends⟩ := step.stops
      exact .inr ⟨[], _, rfl, .nil, ends⟩
  · intro s s' b unread rest out hmove ih
    constructor
    · intro r hs
      exact decomposes_step (stepOutside D hs b unread) hmove ih.1 ih.2
    · intro hsysex hrunning
      exact decomposesInside_step (stepInside hsysex hrunning b unread) hsysex hrunning hmove ih.1
        ih.2

/-- How a packet is scanned: it is rejected in front of the first item, it decomposes behind the
continuation that opens it if there is one, or it does not get out of that continuation. -/
inductive PacketCase (D : UInt8 → Prop) (header : UInt8) (body : List UInt8) :
    List Event × ScanEnd → Prop
  | rejected (code : PacketError) : PacketCase D header body ([], .failed code)
  | items {pre w : List UInt8} {out : List Event} {behind : List Event × ScanEnd} :
      isStatusByte header = true → body = pre ++ w → Opening pre (out.map untimed) →
      (pre = [] → preScan body = .ok false) → Decomposes D none w behind →
      PacketCase D header body (out ++ behind.1, behind.2)
  | continued {mix rest : List UInt8} {out : List Event} {reason : ScanEnd} :
      body = mix ++ rest → SysexMix mix (out.map untimed) → ¬ reason.IsOrphan →
      PacketCase D header body (out, reason)

/-- The mix of an open sysex message is a continuation if the pre-scan took it for one. -/
theorem continuation_of_preScan {mix : List UInt8} {events : List MidiEvent}
    (h : SysexMix mix events) {te : UInt8} (hte : isStatusByte te = true) {rest : List UInt8}
    (hscan : preScan (mix ++ te :: 0xf7 :: rest) = .ok true) : Continuation mix events := by
  induction h with
  | nil =>
    rw [List.nil_append, preScan_status hte rfl rfl] at hscan
    cases hscan
  | data hb hmix _ => exact .intro .nil hb hmix
  | pair hts hrt _ ih =>
    rw [List.cons_append, List.cons_append, preScan_realtime hts hrt] at hscan
    obtain ⟨pairs, hd, mix⟩ := ih hscan
    exact .intro (.pair hts hrt pairs) hd mix

/-- Every packet that is not empty is scanned in one of these ways. -/
theorem scanPacket_case (D : UInt8 → Prop) (header : UInt8) (body : List UInt8) :
    PacketCase D header body (scanPacket header body) := by
  unfold scanPacket
  cases hscan : preScan body with
  | error code => exact .rejected code
  | ok isSysexCont =>
    by_cases hheader : isStatusByte header = true
    swap
    · simp only [if_neg hheader]
      exact .rejected _
    simp only [if_pos hheader]
    have start := run_decomposes D (startState isSysexCont header) body
    revert start
    generalize run scanner (startState isSysexCont header) body = result
    intro start
    cases isSysexCont with
    | false =>
      have outside : Decomposes D none body result := start.1 none ⟨rfl, rfl, by simp⟩
      have opening : Opening [] (([] : List Event).map untimed) := .nil
      exact .items hheader rfl opening (fun _ => hscan) outside
    | true =>
      rcases start.2 rfl rfl with
          ⟨mix, out, te, t, rest, behind, rfl, hmix, hte, rfl, closed⟩ |
          ⟨mix, rest, rfl, hmix, ends⟩
      · have opening : Opening (mix ++ [te, 0xf7]) ((out ++ [Event.sysexEnd t]).map untimed) := by
          rw [List.map_append]
          exact .closed (continuation_of_preScan hmix hte hscan) hte
        have packet : PacketCase D header (mix ++ te :: 0xf7 :: rest)
            ((out ++ [.sysexEnd t]) ++ behind.1, behind.2) := by
          refine .items hheader ?_ opening ?_ closed
          · rw [List.append_assoc]
            rfl
          · intro empty
            exact absurd empty (by simp)
        rw [List.append_assoc] at packet
        exact packet
      · exact .continued rfl hmix ends

end BleMidi.Packet.Decomposition
