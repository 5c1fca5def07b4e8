/- Module: BleMidi/Packet/WriterSimulation
   digest: What a packet says to a receiver while the writer appends to it. -/

import BleMidi.Packet.Timestamps
import BleMidi.Packet.WriterSpec

set_option autoImplicit false
set_option relaxedAutoImplicit false

namespace BleMidi.Packet.WriterSimulation

open BleMidi.Core.Transducer
open BleMidi.Packet.Bytes
open BleMidi.Packet.PacketParser
open BleMidi.Packet.PacketScan
open BleMidi.Packet.Segments
open BleMidi.Packet.Grammar
open BleMidi.Packet.Timestamps
open BleMidi.Packet.PacketWriter
open BleMidi.Packet.WriterSpec

variable {maxSize : Nat}

/-- A running status that the writer may use is the one that the receiver holds, and both have
seen the same timestamp byte. -/
def InStep (w : Writer maxSize) (s : ScanState) : Prop :=
  w.prevRunningStatusByte = 0 ∨
    isChannelMessage w.prevRunningStatusByte = true ∧ s.running = w.prevRunningStatusByte ∧
      s.prevTimestamp = timestampByte w.prevTimestamp

/-- Bytes that decide that a packet continues no sysex message. -/
def Settles (bytes : List UInt8) : Prop := ∀ rest, preScan (bytes ++ rest) = .ok false

/-- Bytes that leave the decision to what follows. -/
def Passes (bytes : List UInt8) : Prop := ∀ rest, preScan (bytes ++ rest) = preScan rest

theorem Settles.append {v : List UInt8} (h : Settles v) (bytes : List UInt8) :
    Settles (v ++ bytes) := by
  intro rest
  rw [List.append_assoc]
  exact h _

theorem Passes.append_settles {v bytes : List UInt8} (h : Passes v) (hbytes : Settles bytes) :
    Settles (v ++ bytes) := by
  intro rest
  rw [List.append_assoc, h]
  exact hbytes rest

theorem Passes.append {v bytes : List UInt8} (h : Passes v) (hbytes : Passes bytes) :
    Passes (v ++ bytes) := by
  intro rest
  rw [List.append_assoc, h]
  exact hbytes rest

/-- The bytes so far settle the pre-scan, or a status byte is due. -/
def ScanOk (w : Writer maxSize) (s : ScanState) (bytes : List UInt8) : Prop :=
  Settles bytes ∨ Passes bytes ∧ w.prevRunningStatusByte = 0 ∧ s.inSysex = false

/-- Bytes that say `es` to a receiver in state `s`, while the writer moves from `w` to `w'`. -/
structure Piece (w w' : Writer maxSize) (s : ScanState) (bytes : List UInt8) (es : List Event)
    (s' : ScanState) : Prop where
  emits : Emits scanner s bytes ((receiver s).reports es) s'
  clock : receiver s' = (receiver s).after es
  inStep : InStep w' s'
  scanOk : w.prevRunningStatusByte = 0 → s.inSysex = false → ScanOk w' s' bytes

theorem InStep.keep {w w' : Writer maxSize} {s s' : ScanState} (h : InStep w s)
    (hrunning : w'.prevRunningStatusByte = w.prevRunningStatusByte)
    (htime : w'.prevTimestamp = w.prevTimestamp) (hs : s'.running = s.running)
    (hseen : s'.prevTimestamp = s.prevTimestamp) : InStep w' s' := by
  unfold InStep
  rw [hrunning, htime, hs, hseen]
  exact h

theorem Piece.trans {w w' w'' : Writer maxSize} {s s' s'' : ScanState}
    {bytes bytes' : List UInt8} {es es' : List Event} (h : Piece w w' s bytes es s')
    (h' : Piece w' w'' s' bytes' es' s'') :
    Piece w w'' s (bytes ++ bytes') (es ++ es') s'' := by
  refine ⟨?_, ?_, h'.inStep, ?_⟩
  · rw [Receiver.reports_append, ← h.clock]
    exact h.emits.trans h'.emits
  · rw [Receiver.after_append, ← h.clock]
    exact h'.clock
  · intro unset outside
    rcases h.scanOk unset outside with settles | ⟨passes, unset', outside'⟩
    · exact .inl (settles.append bytes')
    · rcases h'.scanOk unset' outside' with settles | ⟨passes', rest⟩
      · exact .inl (passes.append_settles settles)
      · exact .inr ⟨passes.append passes', rest⟩

/-- A receiver behind the header of a packet. -/
def enter (openBefore : Bool) (t : UInt16) : ScanState := ⟨openBefore, 0, 0, timestampHigh t⟩

/-- The packet starts with a header for `t`, and its body says `events`. -/
structure View (openBefore : Bool) (w : Writer maxSize) (t : UInt16) (body : List UInt8)
    (s : ScanState) (events : List Event) : Prop where
  payload : w.payload = headerByte t :: body
  emits : Emits scanner (enter openBefore t) body
    ((Receiver.start openBefore t).reports events) s
  clock : receiver s = (Receiver.start openBefore t).after events
  inStep : InStep w s
  first : openBefore = false → ∃ e, events.head? = some e ∧ time? e = some t
  scanOk : openBefore = false → ScanOk w s body

/-- The packet says `events` to a receiver that enters it with or without an open sysex message. -/
structure Carries (openBefore : Bool) (w : Writer maxSize) (events : List Event) : Prop where
  fits : Fits w
  shown : (w.payload = [] ∧ w.prevRunningStatusByte = 0 ∧ events = []) ∨
    ∃ t body s, View openBefore w t body s events

/-- Whether a sysex message is open behind the events. -/
def openAfter (openBefore : Bool) (events : List Event) : Bool := events.foldl openBehind openBefore

theorem openAfter_append (openBefore : Bool) (es fs : List Event) :
    openAfter openBefore (es ++ fs) = openAfter (openAfter openBefore es) fs :=
  List.foldl_append

theorem after_inSysex (r : Receiver) (events : List Event) :
    (r.after events).inSysex = openAfter r.inSysex events := by
  induction events generalizing r with
  | nil => rfl
  | cons e es ih => exact ih (r.next e)

theorem View.inSysex {openBefore : Bool} {w : Writer maxSize} {t : UInt16} {body : List UInt8}
    {s : ScanState} {events : List Event} (h : View openBefore w t body s events) :
    s.inSysex = openAfter openBefore events :=
  (congrArg Receiver.inSysex h.clock).trans (after_inSysex _ _)

/-- A finished packet says nothing more: the next one starts empty. -/
theorem carries_reset (openBefore : Bool) {w : Writer maxSize}
    (h : w.txBufMaxSize.toNat ≤ maxSize) : Carries openBefore (writerReset w) [] :=
  ⟨writerReset_fits h, .inl ⟨writerReset_payload w, rfl, rfl⟩⟩

private theorem header_eq {w : Writer maxSize} (h : Fits w) (t : UInt16) :
    (w.payload = [] → w.header t = [headerByte t]) ∧ (w.payload ≠ [] → w.header t = []) := by
  rw [ne_eq, payload_eq_nil (h.size_le.trans h.max_le)]
  exact ⟨fun empty => if_pos empty, fun written => if_neg written⟩

/-- A writer that appends a piece to its packet. The receiver state at the end of the packet is
known only as far as the events determine it. -/
theorem Carries.append {openBefore : Bool} {w w' : Writer maxSize} {events es : List Event}
    {t : UInt16} {bytes : List UInt8} (h : Carries openBefore w events) (hfits : Fits w')
    (hpayload : w'.payload = w.payload ++ (w.header t ++ bytes))
    (hfirst : openBefore = false → w.payload = [] → ∃ e, es.head? = some e ∧ time? e = some t)
    (hpiece : ∀ s, s.inSysex = openAfter openBefore events → InStep w s →
      ∃ s', Piece w w' s bytes es s') : Carries openBefore w' (events ++ es) := by
  obtain ⟨due, notDue⟩ := header_eq h.fits t
  refine ⟨hfits, .inr ?_⟩
  rcases h.shown with ⟨empty, unset, rfl⟩ | ⟨t0, body, s, view⟩
  · obtain ⟨s', piece⟩ := hpiece (enter openBefore t) rfl (.inl unset)
    refine ⟨t, bytes, s', ?_, piece.emits, piece.clock, piece.inStep, ?_, ?_⟩
    · rw [hpayload, empty, due empty]
      rfl
    · exact fun outside => hfirst outside empty
    · exact fun outside => piece.scanOk unset outside
  · obtain ⟨s', piece⟩ := hpiece s view.inSysex view.inStep
    have written : w.payload ≠ [] := by
      rw [view.payload]
      exact List.cons_ne_nil _ _
    refine ⟨t0, body ++ bytes, s', ?_, ?_, ?_, piece.inStep, ?_, ?_⟩
    · rw [hpayload, notDue written, view.payload]
      rfl
    · rw [Receiver.reports_append, ← view.clock]
      exact view.emits.trans piece.emits
    · rw [Receiver.after_append, ← view.clock]
      exact piece.clock
    · intro outside
      obtain ⟨e, head, time⟩ := view.first outside
      exact ⟨e, by rw [List.head?_append, head]; rfl, time⟩
    · intro outside
      rcases view.scanOk outside with settles | ⟨passes, unset, between⟩
      · exact .inl (settles.append bytes)
      · rcases piece.scanOk unset between with settles | ⟨passes', rest⟩
        · exact .inl (passes.append_settles settles)
        · exact .inr ⟨passes.append passes', rest⟩

/-- The parser reads a packet as its events if the pre-scan starts it in the right mode. -/
theorem View.parse {openBefore : Bool} {w : Writer maxSize} {t : UInt16} {body : List UInt8}
    {s : ScanState} {events : List Event} (h : View openBefore w t body s events)
    (hscan : preScan body = .ok openBefore) :
    (parsePacket w.payload).halt = .returned .success ∧
      (parsePacket w.payload).callbacks = (Receiver.start openBefore t).reports events := by
  have start : startState openBefore (headerByte t) = enter openBefore t := by
    rw [startState, high_headerByte]
    rfl
  have scanned : scanPacket (headerByte t) body =
      ((Receiver.start openBefore t).reports events, .success) := by
    rw [scanPacket, hscan]
    refine (if_pos (isStatusByte_headerByte t)).trans ?_
    rw [start]
    exact h.emits.run_eq
  obtain ⟨callbacks, ends⟩ := ParserRefinement.parsePacket_scan (headerByte t) body
  rw [scanned] at callbacks ends
  rw [h.payload]
  exact ⟨ends.1, callbacks⟩

/-- The pre-scan takes no packet for a continuation that starts outside sysex messages. -/
theorem View.preScan_outside {w : Writer maxSize} {t : UInt16} {body : List UInt8} {s : ScanState}
    {events : List Event} (h : View false w t body s events) : preScan body = .ok false := by
  rcases h.scanOk rfl with settles | ⟨passes, _⟩
  · simpa using settles []
  · simpa using passes []

theorem Carries.parse {w : Writer maxSize} {events : List Event} (h : Carries false w events)
    (hwritten : w.payload ≠ []) :
    ∃ t, (∃ e, events.head? = some e ∧ time? e = some t) ∧
      (parsePacket w.payload).halt = .returned .success ∧
      (parsePacket w.payload).callbacks = (Receiver.start false t).reports events := by
  rcases h.shown with ⟨empty, _, _⟩ | ⟨t, body, s, view⟩
  · exact absurd empty hwritten
  · exact ⟨t, view.first rfl, view.parse view.preScan_outside⟩

end BleMidi.Packet.WriterSimulation
