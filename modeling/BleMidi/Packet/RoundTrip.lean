/- Module: BleMidi/Packet/RoundTrip
   source: ble_midi/src/ble_midi_packet.c, test/ble_midi_packet_test.c (roundtrip_test)
   digest: The parser gives back the events of the calls that a fresh writer has accepted. -/

import BleMidi.Packet.WriterCalls

set_option autoImplicit false
set_option relaxedAutoImplicit false

namespace BleMidi.Packet.RoundTrip

open BleMidi.Packet.Bytes
open BleMidi.Packet.PacketParser
open BleMidi.Packet.Grammar
open BleMidi.Packet.Timestamps
open BleMidi.Packet.PacketWriter
open BleMidi.Packet.WriterSpec
open BleMidi.Packet.WriterPieces
open BleMidi.Packet.WriterSimulation

variable {maxSize : Nat}

/-- A call of the writer. -/
inductive Call
  | addMsg (messageBytes : MessageBytes) (timestamp : UInt16)
  | startSysexMsg (timestamp : UInt16)
  | addSysexData (dataBytes : List UInt8) (timestamp : UInt16)
  | endSysexMsg (timestamp : UInt16)
  | addSysexMsg (bytes : List UInt8) (timestamp : UInt16)
  deriving DecidableEq

/-- An error code as an error, success as 0. -/
def returned (r : PacketError × Writer maxSize) : Except PacketError Nat × Writer maxSize :=
  match r with
  | (.success, w) => (.ok 0, w)
  | (code, w) => (.error code, w)

@[simp] theorem returned_snd (r : PacketError × Writer maxSize) : (returned r).2 = r.2 := by
  obtain ⟨code, w⟩ := r
  cases code <;> rfl

/-- The return value of a call, 0 or the number of data bytes written on success. -/
def Call.exec (w : Writer maxSize) : Call → Except PacketError Nat × Writer maxSize
  | .addMsg messageBytes timestamp => returned (writerAddMsg w messageBytes timestamp)
  | .startSysexMsg timestamp => returned (writerStartSysexMsg w timestamp)
  | .addSysexData dataBytes timestamp => writerAddSysexData w dataBytes timestamp
  | .endSysexMsg timestamp => returned (writerEndSysexMsg w timestamp)
  | .addSysexMsg bytes timestamp => returned (writerAddSysexMsg w bytes timestamp)

/-- When a caller may make the call: data only inside a sysex message, a whole sysex message only
outside, both shorter than an `int` can count. -/
def Call.Allowed (w : Writer maxSize) : Call → Prop
  | .addSysexData dataBytes _ => w.inSysexMsg = true ∧ dataBytes.length < 2 ^ 31 - 3
  | .addSysexMsg bytes _ => w.inSysexMsg = false ∧ bytes.length < 2 ^ 31 - 3
  | _ => True

instance (w : Writer maxSize) : DecidablePred (Call.Allowed w)
  | .addMsg _ _ => inferInstanceAs (Decidable True)
  | .startSysexMsg _ => inferInstanceAs (Decidable True)
  | .addSysexData _ _ => inferInstanceAs (Decidable (_ ∧ _))
  | .endSysexMsg _ => inferInstanceAs (Decidable True)
  | .addSysexMsg _ _ => inferInstanceAs (Decidable (_ ∧ _))

/-- The events of a call that returned `count`. -/
def Call.eventsOf (w : Writer maxSize) (count : Nat) : Call → List Event
  | .addMsg messageBytes timestamp =>
      [.midiMessage (delivered w.runningStatusEnabled w.noteOffAsNoteOn messageBytes) timestamp]
  | .startSysexMsg timestamp => [.sysexStart timestamp]
  | .addSysexData dataBytes _ => (dataBytes.take count).map .sysexData
  | .endSysexMsg timestamp => [.sysexEnd timestamp]
  | .addSysexMsg bytes timestamp =>
      .sysexStart timestamp ::
        ((bytes.drop 1).dropLast.map .sysexData ++ [.sysexEnd timestamp])

/-- The events of a call, if it succeeds. -/
def Call.events (w : Writer maxSize) (c : Call) : List Event :=
  match (c.exec w).1 with
  | .ok count => c.eventsOf w count
  | .error _ => []

/-- The writer behind a sequence of calls. -/
def writerAfter (w : Writer maxSize) : List Call → Writer maxSize
  | [] => w
  | c :: cs => writerAfter (c.exec w).2 cs

/-- The events of the calls that succeed. -/
def acceptedEvents (w : Writer maxSize) : List Call → List Event
  | [] => []
  | c :: cs => c.events w ++ acceptedEvents (c.exec w).2 cs

def AllAllowed (w : Writer maxSize) : List Call → Prop
  | [] => True
  | c :: cs => c.Allowed w ∧ AllAllowed (c.exec w).2 cs

def SomeSucceeds (w : Writer maxSize) : List Call → Prop
  | [] => False
  | c :: cs => (c.exec w).1.isOk = true ∨ SomeSucceeds (c.exec w).2 cs

instance decidableAllAllowed (w : Writer maxSize) : ∀ cs, Decidable (AllAllowed w cs)
  | [] => inferInstanceAs (Decidable True)
  | c :: cs =>
      have := decidableAllAllowed (c.exec w).2 cs
      inferInstanceAs (Decidable (c.Allowed w ∧ _))

instance decidableSomeSucceeds (w : Writer maxSize) : ∀ cs, Decidable (SomeSucceeds w cs)
  | [] => inferInstanceAs (Decidable False)
  | c :: cs =>
      have := decidableSomeSucceeds (c.exec w).2 cs
      inferInstanceAs (Decidable ((c.exec w).1.isOk = true ∨ _))

/-- A writer fresh from `ble_midi_writer_init`, with its maximum packet size set. -/
def freshWriter (w : Writer maxSize) (runningStatusEnabled noteOffAsNoteOn : Bool)
    (txBufMaxSize : UInt16) : Writer maxSize :=
  { writerInit w runningStatusEnabled noteOffAsNoteOn with txBufMaxSize := txBufMaxSize }

/-- The packet says the events, and the writer knows whether they leave a sysex message open. -/
structure Writing (w : Writer maxSize) (events : List Event) : Prop where
  carries : Carries false w events
  flag : w.inSysexMsg = openAfter false events

theorem writing_fresh (w : Writer maxSize) (runningStatusEnabled noteOffAsNoteOn : Bool)
    {txBufMaxSize : UInt16} (h : txBufMaxSize.toNat ≤ maxSize) :
    Writing (freshWriter w runningStatusEnabled noteOffAsNoteOn txBufMaxSize) [] := by
  refine ⟨⟨⟨Nat.zero_le _, h⟩, .inl ⟨?_, rfl, rfl⟩⟩, rfl⟩
  simp [Writer.payload, freshWriter, writerInit]

/-- What one call does: nothing, or its events are added to the packet. -/
def Steps (w : Writer maxSize) (events : List Event) (c : Call) : Prop :=
  (∃ code, c.exec w = (.error code, w)) ∨
    ∃ count w', c.exec w = (.ok count, w') ∧ Writing w' (events ++ c.eventsOf w count) ∧
      w'.payload ≠ []

section Step

variable {w : Writer maxSize} {events : List Event}

private theorem steps_added {c : Call} {v : List UInt8} {f : Writer maxSize → Writer maxSize}
    (hexec : c.exec w = returned (added w v f)) (hbytes : v ≠ [])
    (hbuf : SameBuffer (f (w.putAll v)) (w.putAll v)) (hfits : Fits w)
    (hwriting : HasRoom w v → Writing (f (w.putAll v)) (events ++ c.eventsOf w 0)) :
    Steps w events c := by
  by_cases room : HasRoom w v
  · refine .inr ⟨0, f (w.putAll v), ?_, hwriting room, ?_⟩
    · rw [hexec, added, if_pos room]
      rfl
    · have payload : (f (w.putAll v)).payload = w.payload ++ v := by
        rw [← room.payload hfits.max_le, Writer.payload, hbuf.txBuf, hbuf.txBufSize]
        rfl
      rw [payload]
      exact List.append_ne_nil_of_right_ne_nil _ hbytes
  · refine .inl ⟨.packetFull, ?_⟩
    rw [hexec, added, if_neg room]
    rfl

private theorem statusBytes_ne_nil (w : Writer maxSize) (t : UInt16) (status : UInt8) :
    statusBytes w t status ≠ [] :=
  List.append_ne_nil_of_right_ne_nil _ (by simp)

private theorem messageBytesToAppend_ne_nil (w : Writer maxSize) {m : MessageBytes}
    (hm : ValidMessage m) (t : UInt16) : messageBytesToAppend w m t ≠ [] := by
  intro empty
  exact messageTail_ne_nil w hm t (List.append_eq_nil_iff.mp empty).2

private theorem delivered_realtime {m : MessageBytes} (h : isRealtimeMessage m.byte0 = true)
    (runningStatusEnabled noteOffAsNoteOn : Bool) :
    delivered runningStatusEnabled noteOffAsNoteOn m = [m.byte0] := by
  have other : ¬ m.byte0 >>> 4 = 0x8 := by
    intro noteOff
    have channel := (noteOff_noteOn noteOff).2.1
    rw [not_channel_of_realtime h] at channel
    cases channel
  rw [delivered, if_neg (fun noteOff => other noteOff.1), messageSize_realtime h]
  rfl

private theorem steps_addMsg_inside (h : Writing w events) (hopen : w.inSysexMsg = true)
    (m : MessageBytes) (t : UInt16) : Steps w events (.addMsg m t) := by
  obtain ⟨carries, flag⟩ := h
  have hin : openAfter false events = true := flag.symm.trans hopen
  by_cases realtime : isRealtimeMessage m.byte0 = true
  · refine steps_added (v := [timestampByte t, m.byte0]) (f := id) ?_ (by simp) ⟨rfl, rfl, rfl⟩
      carries.fits ?_
    · rw [Call.exec, writerAddMsg_inside hopen, if_pos realtime]
    · intro room
      constructor
      · rw [Call.eventsOf, delivered_realtime realtime]
        exact carries.addRealtime hin (carries.payload_ne_nil hin) realtime room
      · rw [openAfter_append, ← flag]
        exact putAll_inSysexMsg _ _
  · refine .inl ⟨.invalidStatusByte, ?_⟩
    rw [Call.exec, writerAddMsg_inside hopen, if_neg realtime]
    rfl

/-- An error code other than success is returned as an error. -/
private theorem returned_error {code : PacketError} (h : code ≠ .success) (w : Writer maxSize) :
    returned (code, w) = (.error code, w) := by
  cases code with
  | success => exact absurd rfl h
  | _ => rfl

private theorem steps_addMsg_outside (h : Writing w events) (hclosed : w.inSysexMsg = false)
    (m : MessageBytes) (t : UInt16) : Steps w events (.addMsg m t) := by
  obtain ⟨carries, flag⟩ := h
  have hout : openAfter false events = false := flag.symm.trans hclosed
  by_cases valid : ValidMessage m
  · refine steps_added (f := remember w m t) ?_ (messageBytesToAppend_ne_nil w valid t)
      ⟨rfl, rfl, rfl⟩ carries.fits ?_
    · rw [Call.exec, writerAddMsg_outside hclosed valid]
    · intro room
      refine ⟨carries.addMsg hout valid room, ?_⟩
      rw [openAfter_append, ← flag]
      exact putAll_inSysexMsg _ _
  · obtain ⟨code, failed, -, eq⟩ := writerAddMsg_invalid hclosed valid t
    refine .inl ⟨code, ?_⟩
    rw [Call.exec, eq, returned_error failed]

private theorem steps_startSysexMsg (h : Writing w events) (t : UInt16) :
    Steps w events (.startSysexMsg t) := by
  obtain ⟨carries, flag⟩ := h
  cases closed : w.inSysexMsg with
  | true =>
    refine .inl ⟨.alreadyInSysexSequence, ?_⟩
    rw [Call.exec, writerStartSysexMsg_eq, if_pos closed]
    rfl
  | false =>
    have hout : openAfter false events = false := flag.symm.trans closed
    refine steps_added (f := fun w' =>
      { w' with inSysexMsg := true, prevRunningStatusByte := 0 }) ?_
      (statusBytes_ne_nil w t 0xf0) ⟨rfl, rfl, rfl⟩ carries.fits ?_
    · rw [Call.exec, writerStartSysexMsg_eq, if_neg (by simp [closed])]
    · intro room
      refine ⟨carries.startSysexMsg hout room, ?_⟩
      rw [openAfter_append]
      rfl

private theorem steps_endSysexMsg (h : Writing w events) (t : UInt16) :
    Steps w events (.endSysexMsg t) := by
  obtain ⟨carries, flag⟩ := h
  cases opened : w.inSysexMsg with
  | false =>
    refine .inl ⟨.notInSysexSequence, ?_⟩
    rw [Call.exec, writerEndSysexMsg_eq, if_neg (by simp [opened])]
    rfl
  | true =>
    have hin : openAfter false events = true := flag.symm.trans opened
    refine steps_added (f := fun w' => { w' with inSysexMsg := false }) ?_
      (statusBytes_ne_nil w t 0xf7) ⟨rfl, rfl, rfl⟩ carries.fits ?_
    · rw [Call.exec, writerEndSysexMsg_eq, if_pos opened]
    · intro room
      refine ⟨carries.endSysexMsg hin room, ?_⟩
      rw [openAfter_append]
      rfl

theorem openAfter_sysexData (inSysex : Bool) (dataBytes : List UInt8) :
    openAfter inSysex (dataBytes.map .sysexData) = inSysex := by
  induction dataBytes with
  | nil => rfl
  | cons b dataBytes ih => exact ih

private theorem steps_addSysexData (h : Writing w events) (hopen : w.inSysexMsg = true)
    (bytes : List UInt8) (t : UInt16) : Steps w events (.addSysexData bytes t) := by
  obtain ⟨carries, flag⟩ := h
  have hin : openAfter false events = true := flag.symm.trans hopen
  have fits := carries.fits
  have written := carries.payload_ne_nil hin
  have size : w.txBufSize ≠ 0 := by
    rwa [ne_eq, payload_eq_nil (fits.size_le.trans fits.max_le)] at written
  have positive : 0 < w.txBufMaxSize.toNat := by
    have : w.txBufSize.toNat ≠ 0 := fun zero => size (UInt16.toNat_inj.mp zero)
    have := fits.size_le
    omega
  by_cases data : ∀ b ∈ bytes, isDataByte b = true
  · obtain ⟨eq, room⟩ := writerAddSysexData_eq fits.size_le (.inl hopen) data positive t
    have chunk : ∀ b ∈ bytes.take (dataRoom w), isDataByte b = true :=
      fun b hb => data b (List.mem_of_mem_take hb)
    have counted : bytes.take (min bytes.length (dataRoom w)) = bytes.take (dataRoom w) := by
      rw [List.take_eq_take_iff]
      omega
    refine .inr ⟨_, _, eq, ⟨?_, ?_⟩, ?_⟩
    · rw [Call.eventsOf, counted]
      exact carries.addSysexData hin chunk room
    · rw [putAll_inSysexMsg, openAfter_append, hin, Call.eventsOf, openAfter_sysexData, hopen]
    · rw [room.payload fits.max_le]
      exact List.append_ne_nil_of_left_ne_nil written _
  · obtain ⟨code, eq⟩ := writerAddSysexData_invalid w data t
    exact .inl ⟨code, eq⟩

private theorem steps_addSysexMsg (h : Writing w events) (hclosed : w.inSysexMsg = false)
    {bytes : List UInt8} (hlen : bytes.length < 2 ^ 31 - 3) (t : UInt16) :
    Steps w events (.addSysexMsg bytes t) := by
  obtain ⟨carries, flag⟩ := h
  have hout : openAfter false events = false := flag.symm.trans hclosed
  rcases writerAddSysexMsg_cases w t hlen with ⟨data, rfl, valid, eq⟩ | ⟨code, failed, eq⟩
  · have dataBytes : ((sysexMessage data).drop 1).dropLast = data := by simp [sysexMessage]
    refine steps_added (f := fun w' => { w' with prevRunningStatusByte := 0 })
      (congrArg returned eq) (List.append_ne_nil_of_right_ne_nil _ (by simp))
      ⟨rfl, rfl, rfl⟩ carries.fits ?_
    intro room
    rw [Call.eventsOf, dataBytes]
    refine ⟨carries.addSysexMsg hout valid room, ?_⟩
    have closed : openAfter false
        (.sysexStart t :: (data.map .sysexData ++ [.sysexEnd t])) = false := by
      change openAfter true (data.map .sysexData ++ [.sysexEnd t]) = false
      rw [openAfter_append]
      rfl
    rw [openAfter_append, hout, closed]
    exact (putAll_inSysexMsg _ _).trans hclosed
  · refine .inl ⟨code, ?_⟩
    rw [Call.exec, eq, returned_error failed]

/-- Every call that a caller may make leaves the writer alone or adds its events. -/
theorem writing_step (h : Writing w events) {c : Call} (hallowed : c.Allowed w) :
    Steps w events c := by
  cases c with
  | addMsg m t =>
    cases flag : w.inSysexMsg with
    | true => exact steps_addMsg_inside h flag m t
    | false => exact steps_addMsg_outside h flag m t
  | startSysexMsg t => exact steps_startSysexMsg h t
  | addSysexData bytes t => exact steps_addSysexData h hallowed.1 bytes t
  | endSysexMsg t => exact steps_endSysexMsg h t
  | addSysexMsg bytes t => exact steps_addSysexMsg h hallowed.1 hallowed.2 t

end Step

/-- A run of the writer: the packet says the accepted events, and it is not empty behind a call
that succeeds. -/
theorem writing_run {w : Writer maxSize} {events : List Event} (h : Writing w events)
    (calls : List Call) (hallowed : AllAllowed w calls) :
    Writing (writerAfter w calls) (events ++ acceptedEvents w calls) ∧
      (w.payload ≠ [] ∨ SomeSucceeds w calls → (writerAfter w calls).payload ≠ []) := by
  induction calls generalizing w events with
  | nil =>
    refine ⟨by simpa [acceptedEvents, writerAfter] using h, ?_⟩
    rintro (written | none)
    · exact written
    · exact none.elim
  | cons c calls ih =>
    obtain ⟨allowed, rest⟩ := hallowed
    simp only [acceptedEvents, writerAfter, SomeSucceeds, Call.events]
    rcases writing_step h allowed with ⟨code, eq⟩ | ⟨count, w', eq, step, written⟩
    · rw [eq] at rest ⊢
      refine ⟨(ih h rest).1, fun success => (ih h rest).2 ?_⟩
      simpa [Except.isOk, Except.toBool] using success
    · rw [eq] at rest ⊢
      obtain ⟨writing, nonempty⟩ := ih step rest
      rw [List.append_assoc] at writing
      exact ⟨writing, fun _ => nonempty (.inl written)⟩

/-- Parsing the packet of a fresh writer: the callbacks are the accepted events, with the
timestamps that a receiver rebuilds. -/
theorem parse_run (w : Writer maxSize) (runningStatusEnabled noteOffAsNoteOn : Bool)
    {txBufMaxSize : UInt16} (hmax : txBufMaxSize.toNat ≤ maxSize) {calls : List Call}
    (hallowed : AllAllowed (freshWriter w runningStatusEnabled noteOffAsNoteOn txBufMaxSize) calls)
    (hsome : SomeSucceeds (freshWriter w runningStatusEnabled noteOffAsNoteOn txBufMaxSize)
      calls) :
    let fresh := freshWriter w runningStatusEnabled noteOffAsNoteOn txBufMaxSize
    let packet := (writerAfter fresh calls).payload
    ∃ t, (∃ e, (acceptedEvents fresh calls).head? = some e ∧ time? e = some t) ∧
      (parsePacket packet).halt = .returned .success ∧
      (parsePacket packet).callbacks =
        (Receiver.start false t).reports (acceptedEvents fresh calls) := by
  intro fresh packet
  have start := writing_fresh w runningStatusEnabled noteOffAsNoteOn hmax
  obtain ⟨writing, written⟩ := writing_run start calls hallowed
  exact writing.carries.parse (written (.inr hsome))

/-- The round trip over a packet: the parser succeeds and calls back exactly the events of the
calls that succeeded. If the timestamps outside sysex messages advance by at most 127 ms each,
they are reported as they were, modulo the wrap of thirteen bits. -/
theorem roundTrip (w : Writer maxSize) (runningStatusEnabled noteOffAsNoteOn : Bool)
    {txBufMaxSize : UInt16} (hmax : txBufMaxSize.toNat ≤ maxSize) {calls : List Call}
    (hallowed : AllAllowed (freshWriter w runningStatusEnabled noteOffAsNoteOn txBufMaxSize) calls)
    (hsome : SomeSucceeds (freshWriter w runningStatusEnabled noteOffAsNoteOn txBufMaxSize)
      calls) :
    let fresh := freshWriter w runningStatusEnabled noteOffAsNoteOn txBufMaxSize
    let events := acceptedEvents fresh calls
    let parse := parsePacket (writerAfter fresh calls).payload
    parse.halt = .returned .success ∧
      parse.callbacks.map untimed = events.map untimed ∧
      ((outsideTimes false events).IsChain Advances →
        outsideTimes false parse.callbacks = (outsideTimes false events).map wrapped) := by
  intro fresh events parse
  obtain ⟨t, ⟨e, head, time⟩, halt, callbacks⟩ :=
    parse_run w runningStatusEnabled noteOffAsNoteOn hmax hallowed hsome
  refine ⟨halt, ?_, ?_⟩
  · rw [callbacks, Receiver.untimed_reports]
  · intro chain
    obtain ⟨es, hes⟩ := List.head?_eq_some_iff.mp head
    have first : outsideTimes false events = t :: outsideTimes (openBehind false e) es := by
      rw [show events = e :: es from hes, outsideTimes, time]
      rfl
    have chained : (t :: outsideTimes false events).IsChain Advances := by
      rw [first] at chain ⊢
      exact List.isChain_cons_cons.mpr ⟨Advances.refl t, chain⟩
    have started : (Receiver.start false t).reports events =
        (Receiver.at false t).reports events := by
      rw [show events = e :: es from hes]
      exact reports_start time es
    rw [callbacks]
    exact (congrArg (outsideTimes false) started).trans (outsideTimes_reports chained)

/-- A writer before its initialisation. -/
def blankWriter : Writer 64 := ⟨Vector.replicate 64 0, 0, 0, 0, 0, 0, false, false, false⟩

/-- Running status across a timestamp wrap, a note off sent as a note on, and a sysex message with
a clock inside. -/
theorem roundTrip_mixed :
    let fresh := freshWriter blankWriter true true 64
    let calls := [Call.addMsg ⟨0x91, 0x40, 0x7f⟩ 8191, Call.addMsg ⟨0x81, 0x40, 0x20⟩ 8191,
      Call.startSysexMsg 8200, Call.addSysexData [0x01, 0x02] 8200,
      Call.addMsg ⟨0xf8, 0, 0⟩ 8201, Call.endSysexMsg 8202, Call.addMsg ⟨0x91, 0x41, 0x7f⟩ 8300]
    let parse := parsePacket (writerAfter fresh calls).payload
    parse.halt = .returned .success ∧
      parse.callbacks.map untimed =
        [.message [0x91, 0x40, 0x7f], .message [0x91, 0x40, 0x00], .sysexStart, .sysexData 0x01,
          .sysexData 0x02, .message [0xf8], .sysexEnd, .message [0x91, 0x41, 0x7f]] ∧
      outsideTimes false parse.callbacks = [8191, 8191, 8, 108] := by
  intro fresh calls parse
  obtain ⟨halt, events, times⟩ := @roundTrip 64 blankWriter true true 64 (by decide) calls
    (by decide +kernel) (by decide +kernel)
  exact ⟨halt, events.trans (by decide +kernel), (times (by decide +kernel)).trans
    (by decide +kernel)⟩

/-- Inside and directly behind sysex messages the parser reports the timestamps exactly when no
wrap falls into a sysex message. Messages in a row are taken to advance by at most 127 ms. -/
theorem sysexTimes_reported_iff (w : Writer maxSize)
    (runningStatusEnabled noteOffAsNoteOn : Bool) {txBufMaxSize : UInt16}
    (hmax : txBufMaxSize.toNat ≤ maxSize) {calls : List Call}
    (hallowed : AllAllowed (freshWriter w runningStatusEnabled noteOffAsNoteOn txBufMaxSize) calls)
    (hsome : SomeSucceeds (freshWriter w runningStatusEnabled noteOffAsNoteOn txBufMaxSize) calls)
    (hpaced : Throughout Place.Paced
      (acceptedEvents (freshWriter w runningStatusEnabled noteOffAsNoteOn txBufMaxSize) calls)) :
    let fresh := freshWriter w runningStatusEnabled noteOffAsNoteOn txBufMaxSize
    let events := acceptedEvents fresh calls
    SysexTimesReported events (parsePacket (writerAfter fresh calls).payload).callbacks ↔
      Throughout Place.Kept events := by
  intro fresh events
  obtain ⟨t, ⟨e, head, time⟩, _, callbacks⟩ :=
    parse_run w runningStatusEnabled noteOffAsNoteOn hmax hallowed hsome
  rw [callbacks]
  refine sysexTimesReported_iff ?_ hpaced
  intro e' he'
  obtain rfl : e = e' := Option.some.inj (head.symm.trans he')
  exact time

/-- A sysex message without a wrap, and a message behind it that wraps once. -/
theorem sysexTimes_reported_short :
    let calls := [Call.startSysexMsg 100, Call.addSysexData [0x01] 110,
      Call.addMsg ⟨0xf8, 0, 0⟩ 120, Call.endSysexMsg 127, Call.addMsg ⟨0xc0, 0x05, 0⟩ 200]
    let fresh := freshWriter blankWriter true true 64
    SysexTimesReported (acceptedEvents fresh calls)
      (parsePacket (writerAfter fresh calls).payload).callbacks := by
  intro calls fresh
  have allowed : AllAllowed fresh calls := by decide +kernel
  have some : SomeSucceeds fresh calls := by decide +kernel
  have paced : Throughout Place.Paced (acceptedEvents fresh calls) := by decide +kernel
  have kept : Throughout Place.Kept (acceptedEvents fresh calls) := by decide +kernel
  exact (@sysexTimes_reported_iff 64 blankWriter true true 64 (by decide) calls allowed some
    paced).mpr kept

/-- A wrap inside a sysex message: its end at 200 ms is reported at 72 ms. -/
theorem sysexTimes_lost :
    let calls := [Call.startSysexMsg 100, Call.addSysexData [0x01] 150, Call.endSysexMsg 200]
    let fresh := freshWriter blankWriter true true 64
    [100, 150, 200].IsChain Advances ∧
      acceptedEvents fresh calls = [.sysexStart 100, .sysexData 0x01, .sysexEnd 200] ∧
      (parsePacket (writerAfter fresh calls).payload).callbacks =
        [.sysexStart 100, .sysexData 0x01, .sysexEnd 72] ∧
      ¬ SysexTimesReported (acceptedEvents fresh calls)
        (parsePacket (writerAfter fresh calls).payload).callbacks := by
  intro calls fresh
  unfold SysexTimesReported
  decide +kernel

end BleMidi.Packet.RoundTrip
