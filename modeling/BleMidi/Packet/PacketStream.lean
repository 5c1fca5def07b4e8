/- Module: BleMidi/Packet/PacketStream
   digest: What packets in a row say to a receiver that carries an open sysex message over. -/

import BleMidi.Packet.WriterCalls

set_option autoImplicit false
set_option relaxedAutoImplicit false

namespace BleMidi.Packet.PacketStream

open BleMidi.Core.Transducer
open BleMidi.Packet.Bytes
open BleMidi.Packet.PacketParser
open BleMidi.Packet.PacketScan
open BleMidi.Packet.Grammar
open BleMidi.Packet.Timestamps
open BleMidi.Packet.PacketWriter
open BleMidi.Packet.WriterSpec
open BleMidi.Packet.WriterPieces
open BleMidi.Packet.WriterSimulation

variable {maxSize : Nat}

/-- Whether a sysex message is open behind an event. -/
def midiOpenBehind (inSysex : Bool) : MidiEvent → Bool
  | .sysexStart => true
  | .sysexEnd => false
  | _ => inSysex

def streamOpen (inSysex : Bool) (events : List MidiEvent) : Bool :=
  events.foldl midiOpenBehind inSysex

theorem streamOpen_append (inSysex : Bool) (es fs : List MidiEvent) :
    streamOpen inSysex (es ++ fs) = streamOpen (streamOpen inSysex es) fs :=
  List.foldl_append

theorem streamOpen_untimed (inSysex : Bool) (events : List Event) :
    streamOpen inSysex (events.map untimed) = openAfter inSysex events := by
  induction events generalizing inSysex with
  | nil => rfl
  | cons e es ih =>
    have behind : midiOpenBehind inSysex (untimed e) = openBehind inSysex e := by
      cases e <;> rfl
    change streamOpen (midiOpenBehind inSysex (untimed e)) (es.map untimed) = _
    rw [behind, ih]
    rfl

@[simp] theorem streamOpen_sysexData (inSysex : Bool) (bytes : List UInt8) :
    streamOpen inSysex (bytes.map .sysexData) = inSysex := by
  induction bytes with
  | nil => rfl
  | cons b bytes ih => exact ih

/-- The events of a packet for a receiver that knows whether a sysex message is open. -/
def receive (inSysex : Bool) : List UInt8 → Option (List MidiEvent)
  | [] => some []
  | header :: body =>
      if isStatusByte header then
        match run scanner (startState inSysex header) body with
        | (events, .success) => some (events.map untimed)
        | _ => none
      else none

/-- The events of packets in a row for a receiver that carries the open sysex message over. -/
def receiveAll (inSysex : Bool) : List (List UInt8) → Option (List MidiEvent)
  | [] => some []
  | packet :: packets =>
      (receive inSysex packet).bind fun events =>
        (receiveAll (streamOpen inSysex events) packets).map (events ++ ·)

theorem receiveAll_append {inSysex : Bool} {packets more : List (List UInt8)}
    {es fs : List MidiEvent} (h : receiveAll inSysex packets = some es)
    (hmore : receiveAll (streamOpen inSysex es) more = some fs) :
    receiveAll inSysex (packets ++ more) = some (es ++ fs) := by
  induction packets generalizing inSysex es with
  | nil =>
    cases h
    exact hmore
  | cons packet packets ih =>
    obtain ⟨events, received, rest⟩ := Option.bind_eq_some_iff.mp h
    obtain ⟨es', tail, rfl⟩ := Option.map_eq_some_iff.mp rest
    rw [streamOpen_append] at hmore
    rw [List.cons_append, receiveAll, received, Option.bind_some, ih tail hmore, List.append_assoc]
    rfl

theorem receiveAll_prefix {inSysex : Bool} {packets more : List (List UInt8)}
    {es : List MidiEvent} (h : receiveAll inSysex (packets ++ more) = some es) :
    ∃ first rest, receiveAll inSysex packets = some first ∧ es = first ++ rest := by
  induction packets generalizing inSysex es with
  | nil => exact ⟨[], es, rfl, rfl⟩
  | cons packet packets ih =>
    obtain ⟨events, received, later⟩ := Option.bind_eq_some_iff.mp h
    obtain ⟨es', tail, rfl⟩ := Option.map_eq_some_iff.mp later
    obtain ⟨first, rest, received', rfl⟩ := ih tail
    refine ⟨events ++ first, rest, ?_, (List.append_assoc _ _ _).symm⟩
    rw [receiveAll, received, Option.bind_some, received']
    rfl

theorem receive_of_carries {inSysex : Bool} {w : Writer maxSize} {events : List Event}
    (h : Carries inSysex w events) : receive inSysex w.payload = some (events.map untimed) := by
  rcases h.shown with ⟨empty, -, rfl⟩ | ⟨t, body, s, view⟩
  · rw [empty]
    rfl
  · have start : startState inSysex (headerByte t) = enter inSysex t := by
      rw [startState, high_headerByte]
      rfl
    rw [view.payload, receive, if_pos (isStatusByte_headerByte t), start, view.emits.run_eq]
    change some (((Receiver.start inSysex t).reports events).map untimed) = _
    rw [Receiver.untimed_reports]

/-- Finished packets in a row, and what they say. -/
inductive Delivered (maxSize : Nat) : List (List UInt8) → List MidiEvent → Prop
  | nil : Delivered maxSize [] []
  | snoc {packets : List (List UInt8)} {done : List MidiEvent} {w : Writer maxSize}
      {events : List Event} :
      Delivered maxSize packets done → Carries (streamOpen false done) w events →
      Delivered maxSize (packets ++ [w.payload]) (done ++ events.map untimed)

theorem Delivered.receiveAll {packets : List (List UInt8)} {done : List MidiEvent}
    (h : Delivered maxSize packets done) : receiveAll false packets = some done := by
  induction h with
  | nil => rfl
  | snoc _ carries ih =>
    refine receiveAll_append ih ?_
    rw [PacketStream.receiveAll, receive_of_carries carries]
    simp [PacketStream.receiveAll]

/-- The finished packets and the current one say `es`. -/
structure Says (finished : List (List UInt8)) (w : Writer maxSize) (es : List MidiEvent) :
    Prop where
  split : ∃ done events, Delivered maxSize finished done ∧
    Carries (streamOpen false done) w events ∧ es = done ++ events.map untimed

namespace Says

variable {finished : List (List UInt8)} {w : Writer maxSize} {es : List MidiEvent} {t : UInt16}

theorem empty {w : Writer maxSize} (hfits : Fits w) (hsize : w.txBufSize = 0)
    (hrunning : w.prevRunningStatusByte = 0) : Says [] w [] := by
  have payload : w.payload = [] :=
    (payload_eq_nil (hfits.size_le.trans hfits.max_le)).mpr hsize
  exact ⟨[], [], .nil, ⟨hfits, .inl ⟨payload, hrunning, rfl⟩⟩, rfl⟩

/-- The current packet is finished, and an empty one takes its place. -/
theorem next (h : Says finished w es) {w' : Writer maxSize}
    (hmax : w'.txBufMaxSize.toNat ≤ maxSize) :
    Says (finished ++ [w.payload]) (writerReset w') es := by
  obtain ⟨done, events, delivered, carries, rfl⟩ := h.split
  exact ⟨_, [], delivered.snoc carries, carries_reset _ hmax, by simp⟩

theorem delivered (h : Says finished w es) : Delivered maxSize (finished ++ [w.payload]) es := by
  obtain ⟨done, events, delivered, carries, rfl⟩ := h.split
  exact delivered.snoc carries

private theorem append {w' : Writer maxSize} (h : Says finished w es) {added : List Event}
    (hadd : ∀ {openBefore events}, Carries openBefore w events →
      openAfter openBefore events = streamOpen false es → Carries openBefore w' (events ++ added)) :
    Says finished w' (es ++ added.map untimed) := by
  obtain ⟨done, events, delivered, carries, rfl⟩ := h.split
  refine ⟨done, events ++ added, delivered, hadd carries ?_, by simp⟩
  rw [streamOpen_append, streamOpen_untimed]

theorem addMsg (h : Says finished w es) (hout : streamOpen false es = false) {m : MessageBytes}
    (hm : ValidMessage m) (hroom : HasRoom w (messageBytesToAppend w m t)) :
    Says finished (remember w m t (w.putAll (messageBytesToAppend w m t)))
      (es ++ [.message (WriterPieces.delivered w.runningStatusEnabled w.noteOffAsNoteOn m)]) :=
  h.append fun carries eq => carries.addMsg (eq.trans hout) hm hroom

theorem startSysexMsg (h : Says finished w es) (hout : streamOpen false es = false)
    (hroom : HasRoom w (statusBytes w t 0xf0)) :
    Says finished
      { w.putAll (statusBytes w t 0xf0) with inSysexMsg := true, prevRunningStatusByte := 0 }
      (es ++ [.sysexStart]) :=
  h.append fun carries eq => carries.startSysexMsg (eq.trans hout) hroom

theorem endSysexMsg (h : Says finished w es) (hin : streamOpen false es = true)
    (hroom : HasRoom w (statusBytes w t 0xf7)) :
    Says finished { w.putAll (statusBytes w t 0xf7) with inSysexMsg := false }
      (es ++ [.sysexEnd]) :=
  h.append fun carries eq => carries.endSysexMsg (eq.trans hin) hroom

theorem addSysexData (h : Says finished w es) (hin : streamOpen false es = true)
    {bytes : List UInt8} (hdata : ∀ b ∈ bytes, isDataByte b = true)
    (hroom : HasRoom w (w.header t ++ bytes)) :
    Says finished (w.putAll (w.header t ++ bytes)) (es ++ bytes.map .sysexData) := by
  have added : (bytes.map Event.sysexData).map untimed = bytes.map .sysexData := by
    simp [Function.comp_def, untimed]
  rw [← added]
  exact h.append fun carries eq => carries.addSysexData (eq.trans hin) hdata hroom

end Says

/-- An event of a message that is no sysex message. -/
def IsMessage : MidiEvent → Prop
  | .message _ => True
  | _ => False

theorem streamOpen_messages {es : List MidiEvent} (h : ∀ e ∈ es, IsMessage e) (inSysex : Bool) :
    streamOpen inSysex es = inSysex := by
  induction es with
  | nil => rfl
  | cons e es ih =>
    have behind : midiOpenBehind inSysex e = inSysex := by
      cases e with
      | message bytes => rfl
      | _ => exact (h _ List.mem_cons_self).elim
    change streamOpen (midiOpenBehind inSysex e) es = _
    rw [behind]
    exact ih fun e' he' => h e' (List.mem_cons_of_mem _ he')

/-- Without sysex messages each packet is read by the parser on its own. -/
theorem Delivered.parse {packets : List (List UInt8)} {done : List MidiEvent}
    (h : Delivered maxSize packets done) (hdone : ∀ e ∈ done, IsMessage e) :
    (∀ packet ∈ packets, packet ≠ [] → (parsePacket packet).halt = .returned .success) ∧
      (packets.filter (· ≠ [])).flatMap (fun packet =>
        (parsePacket packet).callbacks.map untimed) = done := by
  induction h with
  | nil => exact ⟨fun packet hpacket => absurd hpacket List.not_mem_nil, rfl⟩
  | @snoc packets done w events _ carries ih =>
    have before : ∀ e ∈ done, IsMessage e := fun e he => hdone e (List.mem_append_left _ he)
    obtain ⟨halts, callbacks⟩ := ih before
    rw [streamOpen_messages before] at carries
    by_cases empty : w.payload = []
    · have silent : events.map untimed = [] := by
        have received := receive_of_carries carries
        rw [empty] at received
        exact (Option.some.inj received).symm
      rw [empty, silent, List.append_nil]
      constructor
      · intro packet hpacket written
        rcases List.mem_append.mp hpacket with hpacket | hpacket
        · exact halts packet hpacket written
        · exact absurd (List.mem_singleton.mp hpacket) written
      · rw [List.filter_append, List.flatMap_append, callbacks]
        simp
    · obtain ⟨t, -, halt, reported⟩ := carries.parse empty
      constructor
      · intro packet hpacket written
        rcases List.mem_append.mp hpacket with hpacket | hpacket
        · exact halts packet hpacket written
        · rw [List.mem_singleton.mp hpacket]
          exact halt
      · rw [List.filter_append, List.flatMap_append, callbacks]
        have kept : [w.payload].filter (· ≠ []) = [w.payload] := by simp [empty]
        rw [kept, List.flatMap_singleton, reported, Receiver.untimed_reports]

end BleMidi.Packet.PacketStream
