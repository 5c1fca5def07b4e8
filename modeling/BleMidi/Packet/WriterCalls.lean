/- Module: BleMidi/Packet/WriterCalls
   source: ble_midi/src/ble_midi_packet.c (ble_midi_writer_*)
   digest: A successful call adds its events to what the packet says. -/

import BleMidi.Packet.WriterPieces

set_option autoImplicit false
set_option relaxedAutoImplicit false

namespace BleMidi.Packet.WriterSimulation

open BleMidi.Packet.Bytes
open BleMidi.Packet.PacketParser
open BleMidi.Packet.PacketScan
open BleMidi.Packet.Timestamps
open BleMidi.Packet.PacketWriter
open BleMidi.Packet.WriterSpec
open BleMidi.Packet.WriterPieces

variable {maxSize : Nat}

/-- The writers differ in what they remember only. -/
structure SameBuffer (w w' : Writer maxSize) : Prop where
  txBuf : w.txBuf = w'.txBuf
  txBufSize : w.txBufSize = w'.txBufSize
  txBufMaxSize : w.txBufMaxSize = w'.txBufMaxSize

namespace Carries

variable {openBefore : Bool} {w w' : Writer maxSize} {events es : List Event} {t : UInt16}

/-- Bytes that fit are a piece of the packet, behind a header that is due. -/
theorem putAll {bytes : List UInt8} (h : Carries openBefore w events)
    (hroom : HasRoom w (w.header t ++ bytes))
    (hsame : SameBuffer w' (w.putAll (w.header t ++ bytes)))
    (hfirst : openBefore = false → w.payload = [] → ∃ e, es.head? = some e ∧ time? e = some t)
    (hpiece : ∀ s, s.inSysex = openAfter openBefore events → InStep w s →
      ∃ s', Piece w w' s bytes es s') : Carries openBefore w' (events ++ es) := by
  have fits := hroom.fits h.fits.max_le
  have payload := hroom.payload h.fits.max_le
  refine h.append (t := t) ⟨?_, ?_⟩ ?_ hfirst hpiece
  · rw [hsame.txBufSize, hsame.txBufMaxSize]
    exact fits.size_le
  · rw [hsame.txBufMaxSize]
    exact fits.max_le
  · rw [← payload]
    unfold Writer.payload
    rw [hsame.txBufSize, hsame.txBuf]

theorem payload_ne_nil (h : Carries false w events) (hopen : openAfter false events = true) :
    w.payload ≠ [] := by
  intro empty
  rcases h.shown with ⟨-, -, rfl⟩ | ⟨t, body, s, view⟩
  · cases hopen
  · rw [view.payload] at empty
    cases empty

theorem header_nil (h : Carries openBefore w events) (hwritten : w.payload ≠ []) (t : UInt16) :
    w.header t = [] := by
  rw [ne_eq, payload_eq_nil (h.fits.size_le.trans h.fits.max_le)] at hwritten
  exact if_neg hwritten

theorem addMsg (h : Carries openBefore w events) (hout : openAfter openBefore events = false)
    {m : MessageBytes} (hm : ValidMessage m) (hroom : HasRoom w (messageBytesToAppend w m t)) :
    Carries openBefore (remember w m t (w.putAll (messageBytesToAppend w m t)))
      (events ++ [.midiMessage (delivered w.runningStatusEnabled w.noteOffAsNoteOn m) t]) := by
  have room : HasRoom w (w.header t ++ messageTail w m t) := hroom
  refine h.putAll room ⟨rfl, rfl, rfl⟩ ?_ ?_
  · intro _ _
    exact ⟨_, rfl, rfl⟩
  · intro s hs hstep
    exact piece_message (hs.trans hout) hstep hm rfl

theorem startSysexMsg (h : Carries openBefore w events)
    (hout : openAfter openBefore events = false) (hroom : HasRoom w (statusBytes w t 0xf0)) :
    Carries openBefore
      { w.putAll (statusBytes w t 0xf0) with inSysexMsg := true, prevRunningStatusByte := 0 }
      (events ++ [.sysexStart t]) := by
  refine h.putAll hroom ⟨rfl, rfl, rfl⟩ ?_ ?_
  · intro _ _
    exact ⟨_, rfl, rfl⟩
  · intro s hs _
    exact ⟨_, piece_sysexStart (hs.trans hout) t rfl⟩

theorem endSysexMsg (h : Carries openBefore w events)
    (hin : openAfter openBefore events = true) (hroom : HasRoom w (statusBytes w t 0xf7)) :
    Carries openBefore { w.putAll (statusBytes w t 0xf7) with inSysexMsg := false }
      (events ++ [.sysexEnd t]) := by
  refine h.putAll hroom ⟨rfl, rfl, rfl⟩ ?_ ?_
  · intro _ _
    exact ⟨_, rfl, rfl⟩
  · intro s hs hstep
    exact ⟨_, piece_sysexEnd (hs.trans hin) hstep t (putAll_prevRunningStatusByte _ _)
      (putAll_prevTimestamp _ _)⟩

theorem addSysexData (h : Carries openBefore w events)
    (hin : openAfter openBefore events = true) {bytes : List UInt8}
    (hdata : ∀ b ∈ bytes, isDataByte b = true) (hroom : HasRoom w (w.header t ++ bytes)) :
    Carries openBefore (w.putAll (w.header t ++ bytes)) (events ++ bytes.map .sysexData) := by
  refine h.putAll hroom ⟨rfl, rfl, rfl⟩ ?_ ?_
  · rintro rfl empty
    exact absurd empty (h.payload_ne_nil hin)
  · intro s hs hstep
    exact ⟨_, piece_sysexData (hs.trans hin) hstep hdata (putAll_prevRunningStatusByte _ _)
      (putAll_prevTimestamp _ _)⟩

/-- A real-time message inside a sysex message needs a header in the packet already. -/
theorem addRealtime (h : Carries openBefore w events)
    (hin : openAfter openBefore events = true) (hwritten : w.payload ≠ []) {rt : UInt8}
    (hrt : isRealtimeMessage rt = true) (hroom : HasRoom w [timestampByte t, rt]) :
    Carries openBefore (w.putAll [timestampByte t, rt]) (events ++ [.midiMessage [rt] t]) := by
  have headed : w.header t ++ [timestampByte t, rt] = [timestampByte t, rt] := by
    rw [h.header_nil hwritten]
    rfl
  rw [← headed] at hroom ⊢
  refine h.putAll hroom ⟨rfl, rfl, rfl⟩ ?_ ?_
  · intro _ _
    exact ⟨_, rfl, rfl⟩
  · intro s hs hstep
    exact ⟨_, piece_realtime (hs.trans hin) hstep t hrt (putAll_prevRunningStatusByte _ _)
      (putAll_prevTimestamp _ _)⟩

theorem addSysexMsg (h : Carries openBefore w events)
    (hout : openAfter openBefore events = false) {data : List UInt8}
    (hdata : ∀ b ∈ data, isDataByte b = true)
    (hroom : HasRoom w (w.header t ++ (timestampByte t :: 0xf0 ::
      (data ++ [timestampByte t, 0xf7])))) :
    Carries openBefore
      { w.putAll (w.header t ++ (timestampByte t :: 0xf0 :: (data ++ [timestampByte t, 0xf7])))
        with prevRunningStatusByte := 0 }
      (events ++ (.sysexStart t :: (data.map .sysexData ++ [.sysexEnd t]))) := by
  refine h.putAll hroom ⟨rfl, rfl, rfl⟩ ?_ ?_
  · intro _ _
    exact ⟨_, rfl, rfl⟩
  · intro s hs _
    exact piece_sysexMsg (hs.trans hout) t hdata rfl

end Carries

end BleMidi.Packet.WriterSimulation
