/- Module: BleMidi/Queue/ChunkStream
   source: ble_midi/src/tx_queue.c (add_3_byte_chunk_to_tx_packet)
   digest: The events of the chunks, and the packets that take them. -/

import BleMidi.Packet.PacketStream
import BleMidi.Queue.Steady

set_option autoImplicit false
set_option relaxedAutoImplicit false

namespace BleMidi.Queue

open BleMidi.Packet.Bytes
open BleMidi.Packet.Grammar
open BleMidi.Packet.PacketWriter
open BleMidi.Packet.WriterSpec
open BleMidi.Packet.WriterPieces
open BleMidi.Packet.PacketStream
open TxQueue

variable {maxSize packetCount : Nat} {settings : Settings maxSize}

namespace Chunk

/-- The events of a chunk, as a receiver gets them. -/
def events (settings : Settings maxSize) : Chunk → List MidiEvent
  | threeBytes bytes =>
      if bytes.byte0 = sysexStart then [.sysexStart]
      else if bytes.byte0 = sysexEnd then [.sysexEnd]
      else [.message (delivered settings.runningStatusEnabled settings.noteOffAsNoteOn bytes)]
  | data bytes => bytes.map .sysexData
  | packetSize _ => []

/-- Whether a sysex message is open behind a chunk. -/
def openBehind (inSysex : Bool) : Chunk → Bool
  | threeBytes bytes =>
      if bytes.byte0 = sysexStart then true
      else if bytes.byte0 = sysexEnd then false
      else inSysex
  | _ => inSysex

/-- A chunk that belongs where a sysex message is open or not: sysex messages are bracketed and
have no message inside. -/
def Allowed (inSysex : Bool) : Chunk → Prop
  | threeBytes bytes =>
      if bytes.byte0 = sysexStart then inSysex = false
      else if bytes.byte0 = sysexEnd then inSysex = true
      else inSysex = false ∧ ValidMessage bytes
  | data bytes =>
      inSysex = true ∧ (1 ≤ bytes.length ∧ bytes.length ≤ sysexDataChunkMaxByteCount) ∧
        ∀ b ∈ bytes, isDataByte b = true
  | packetSize _ => False

theorem Allowed.wellFormed {inSysex : Bool} {chunk : Chunk} (h : chunk.Allowed inSysex) :
    chunk.WellFormed := by
  cases chunk with
  | threeBytes bytes =>
    change 128 ≤ bytes.byte0
    by_cases start : bytes.byte0 = sysexStart
    · rw [start]
      decide
    by_cases finish : bytes.byte0 = sysexEnd
    · rw [finish]
      decide
    simp only [Allowed, if_neg start, if_neg finish] at h
    have status := isStatusByte_of_messageSize h.2.1
    simpa [isStatusByte] using status
  | data bytes => exact h.2.1
  | packetSize size => exact h.elim

theorem streamOpen_events (settings : Settings maxSize) (inSysex : Bool) (chunk : Chunk) :
    streamOpen inSysex (chunk.events settings) = chunk.openBehind inSysex := by
  cases chunk with
  | threeBytes bytes =>
    by_cases start : bytes.byte0 = sysexStart
    · simp only [events, openBehind, if_pos start]
      rfl
    by_cases finish : bytes.byte0 = sysexEnd
    · simp only [events, openBehind, if_neg start, if_pos finish]
      rfl
    · simp only [events, openBehind, if_neg start, if_neg finish]
      rfl
  | data bytes => exact streamOpen_sysexData inSysex bytes
  | packetSize size => rfl

end Chunk

def chunksOpen (inSysex : Bool) (chunks : List Chunk) : Bool :=
  chunks.foldl Chunk.openBehind inSysex

theorem chunksOpen_append (inSysex : Bool) (chunks more : List Chunk) :
    chunksOpen inSysex (chunks ++ more) = chunksOpen (chunksOpen inSysex chunks) more :=
  List.foldl_append

theorem streamOpen_flatMap (settings : Settings maxSize) (inSysex : Bool) (chunks : List Chunk) :
    streamOpen inSysex (chunks.flatMap (Chunk.events settings)) = chunksOpen inSysex chunks := by
  induction chunks generalizing inSysex with
  | nil => rfl
  | cons chunk chunks ih =>
    rw [List.flatMap_cons, streamOpen_append, Chunk.streamOpen_events, ih]
    rfl

/-- Every chunk belongs where it stands. -/
def Bracketed (inSysex : Bool) : List Chunk → Prop
  | [] => True
  | chunk :: chunks => chunk.Allowed inSysex ∧ Bracketed (chunk.openBehind inSysex) chunks

theorem bracketed_append {inSysex : Bool} {chunks more : List Chunk} :
    Bracketed inSysex (chunks ++ more) ↔
      Bracketed inSysex chunks ∧ Bracketed (chunksOpen inSysex chunks) more := by
  induction chunks generalizing inSysex with
  | nil => exact ⟨fun h => ⟨trivial, h⟩, fun h => h.2⟩
  | cons chunk chunks ih =>
    constructor
    · intro ⟨allowed, rest⟩
      obtain ⟨first, second⟩ := ih.mp rest
      exact ⟨⟨allowed, first⟩, second⟩
    · intro ⟨⟨allowed, first⟩, second⟩
      exact ⟨allowed, ih.mpr ⟨first, second⟩⟩

/-- The flag of the packet is as a three byte chunk needs it: set for a sysex end, clear for a
sysex start or a message. -/
def FlagFits (w : Writer maxSize) (bytes : MessageBytes) : Prop :=
  w.inSysexMsg = decide (bytes.byte0 = sysexEnd)

instance (w : Writer maxSize) (bytes : MessageBytes) : Decidable (FlagFits w bytes) :=
  inferInstanceAs (Decidable (_ = _))

section AddChunk

variable {w : Writer maxSize} {t : UInt16}

theorem addChunk_start {bytes : MessageBytes} (hflag : FlagFits w bytes)
    (hstart : bytes.byte0 = sysexStart) (t : UInt16) :
    addChunk bytes t w = added w (statusBytes w t 0xf0) fun w' =>
      { w' with inSysexMsg := true, prevRunningStatusByte := 0 } := by
  have clear : ¬ w.inSysexMsg = true := by
    rw [hflag, hstart]
    decide
  rw [addChunk, if_pos hstart, writerStartSysexMsg_eq, if_neg clear]

theorem addChunk_end {bytes : MessageBytes} (hflag : FlagFits w bytes)
    (hend : bytes.byte0 = sysexEnd) (t : UInt16) :
    addChunk bytes t w = added w (statusBytes w t 0xf7) fun w' =>
      { w' with inSysexMsg := false } := by
  have other : ¬ bytes.byte0 = sysexStart := by
    rw [hend]
    decide
  have set : w.inSysexMsg = true := by
    rw [hflag, hend]
    rfl
  rw [addChunk, if_neg other, if_pos hend, writerEndSysexMsg_eq, if_pos set]

/-- At most four bytes behind the header always fit into an empty packet. -/
theorem added_cases (h : SteadyPacket settings w) {tail : List UInt8}
    (htail : tail.length ≤ 4) (hnonempty : tail ≠ []) (f : Writer maxSize → Writer maxSize) :
    (added w (w.header t ++ tail) f = (.packetFull, w) ∧ w.txBufSize ≠ 0) ∨
      HasRoom w (w.header t ++ tail) ∧
        added w (w.header t ++ tail) f = (.success, f (w.putAll (w.header t ++ tail))) ∧
        (w.putAll (w.header t ++ tail)).txBufSize ≠ 0 := by
  have max := h.five_le
  by_cases room : HasRoom w (w.header t ++ tail)
  · refine .inr ⟨room, if_pos room, ?_⟩
    intro zero
    have size := room.size
    rw [zero, List.length_append] at size
    have positive := List.length_pos_iff.mpr hnonempty
    change 0 = _ at size
    omega
  · refine .inl ⟨if_neg room, ?_⟩
    intro empty
    apply room
    unfold HasRoom
    rw [List.length_append, header_length, if_pos empty, empty]
    change 0 + _ ≤ _
    omega

theorem TxQueue.Addition.length {bytes : MessageBytes} {v : List UInt8}
    {f : Writer maxSize → Writer maxSize} (h : Addition w bytes t v f) :
    1 ≤ v.length ∧ v.length ≤ 5 := by
  have header : (w.header t).length ≤ 1 := by
    rw [header_length]
    split <;> omega
  have tail {tail : List UInt8} (some : tail ≠ []) (short : tail.length ≤ 4) :
      1 ≤ (w.header t ++ tail).length ∧ (w.header t ++ tail).length ≤ 5 := by
    have positive := List.length_pos_iff.mpr some
    rw [List.length_append]
    omega
  cases h with
  | start _ _ => exact tail (List.cons_ne_nil (timestampByte t) [0xf0]) (by simp)
  | finish _ _ => exact tail (List.cons_ne_nil (timestampByte t) [0xf7]) (by simp)
  | realtime _ _ _ _ => exact ⟨by simp, by simp⟩
  | message _ _ _ valid =>
    exact tail (messageTail_ne_nil w valid t) (messageTail_length_le w bytes t)

/-- Whatever the three bytes are, a packet that took them is not empty, and neither is one that is
full. -/
theorem addChunk_written (h : SteadyPacket settings w) (bytes : MessageBytes) (t : UInt16) :
    (∀ w', addChunk bytes t w = (.success, w') → w'.txBufSize ≠ 0) ∧
      (∀ w', addChunk bytes t w = (.packetFull, w') → w.txBufSize ≠ 0) := by
  rcases addChunk_addition bytes t w with ⟨v, f, addition, eq⟩ | ⟨-, code, failed, notFull, eq⟩
  · obtain ⟨some, few⟩ := addition.length
    rw [eq, added]
    by_cases room : HasRoom w v
    · rw [if_pos room]
      refine ⟨fun w' success => ?_, fun w' full => ?_⟩
      · cases success
        have kept : (f (w.putAll v)).txBufSize = (w.putAll v).txBufSize := by
          cases addition <;> rfl
        intro zero
        have size := room.size
        rw [← kept, zero] at size
        change 0 = _ + v.length at size
        omega
      · cases full
    · rw [if_neg room]
      refine ⟨fun w' success => ?_, fun w' _ empty => room ?_⟩
      · cases success
      · have max := h.five_le
        unfold HasRoom
        rw [empty]
        change 0 + v.length ≤ _
        omega
  · rw [eq]
    exact ⟨fun w' success => absurd (congrArg Prod.fst success) failed,
      fun w' full => absurd (congrArg Prod.fst full) notFull⟩

/-- A packet that took a three byte chunk. -/
structure Taken (settings : Settings maxSize) (bytes : MessageBytes) (inSysex : Bool)
    (w w' : Writer maxSize) : Prop where
  written : w'.txBufSize ≠ 0
  flag : w'.inSysexMsg = (Chunk.threeBytes bytes).openBehind w.inSysexMsg
  said : ∀ {finished : List (List UInt8)} {es : List MidiEvent}, Says finished w es →
    streamOpen false es = inSysex →
    Says finished w' (es ++ (Chunk.threeBytes bytes).events settings)

/-- A packet whose flag fits takes the chunk or is full, and only a packet with bytes is full. -/
theorem addChunk_cases {inSysex : Bool} {bytes : MessageBytes}
    (hallowed : (Chunk.threeBytes bytes).Allowed inSysex) (h : SteadyPacket settings w)
    (hflag : FlagFits w bytes) (t : UInt16) :
    (addChunk bytes t w = (.packetFull, w) ∧ w.txBufSize ≠ 0) ∨
      ∃ w', addChunk bytes t w = (.success, w') ∧ Taken settings bytes inSysex w w' := by
  have behind : (Chunk.threeBytes bytes).openBehind w.inSysexMsg =
      if bytes.byte0 = sysexStart then true
      else if bytes.byte0 = sysexEnd then false else w.inSysexMsg := rfl
  have events : (Chunk.threeBytes bytes).events settings =
      if bytes.byte0 = sysexStart then [.sysexStart]
      else if bytes.byte0 = sysexEnd then [.sysexEnd]
      else [.message (delivered settings.runningStatusEnabled settings.noteOffAsNoteOn bytes)] :=
    rfl
  by_cases start : bytes.byte0 = sysexStart
  · rw [addChunk_start hflag start]
    simp only [Chunk.Allowed, if_pos start] at hallowed behind events
    rcases added_cases h (by simp) (List.cons_ne_nil (timestampByte t) [0xf0])
      (fun w' => { w' with inSysexMsg := true, prevRunningStatusByte := 0 }) with
      full | ⟨room, eq, written⟩
    · exact .inl full
    · refine .inr ⟨_, eq, written, behind.symm, ?_⟩
      intro finished es said hopen
      rw [events]
      exact said.startSysexMsg (hopen.trans hallowed) room
  by_cases finish : bytes.byte0 = sysexEnd
  · rw [addChunk_end hflag finish]
    simp only [Chunk.Allowed, if_neg start, if_pos finish] at hallowed behind events
    rcases added_cases h (by simp) (List.cons_ne_nil (timestampByte t) [0xf7])
      (fun w' => { w' with inSysexMsg := false }) with full | ⟨room, eq, written⟩
    · exact .inl full
    · refine .inr ⟨_, eq, written, behind.symm, ?_⟩
      intro finished es said hopen
      rw [events]
      exact said.endSysexMsg (hopen.trans hallowed) room
  have clear : w.inSysexMsg = false := by
    rw [hflag]
    exact decide_eq_false finish
  simp only [Chunk.Allowed, addChunk, if_neg start, if_neg finish] at hallowed behind events ⊢
  obtain ⟨outside, valid⟩ := hallowed
  rw [writerAddMsg_outside clear valid]
  rcases added_cases h (messageTail_length_le w bytes t) (messageTail_ne_nil w valid t)
    (remember w bytes t) with full | ⟨room, eq, written⟩
  · exact .inl full
  · refine .inr ⟨_, eq, written, (putAll_inSysexMsg _ _).trans behind.symm, ?_⟩
    intro finished es said hopen
    rw [events, ← h.runningStatusEnabled, ← h.noteOffAsNoteOn]
    exact said.addMsg (hopen.trans outside) valid room

theorem addChunk_code {inSysex : Bool} {bytes : MessageBytes}
    (hallowed : (Chunk.threeBytes bytes).Allowed inSysex) (h : SteadyPacket settings w)
    (hflag : FlagFits w bytes) {w' : Writer maxSize} {code : PacketError}
    (heq : addChunk bytes t w = (code, w')) : code = .packetFull ∨ code = .success := by
  rcases addChunk_cases hallowed h hflag t with ⟨full, -⟩ | ⟨_, success, -⟩
  · exact .inl (congrArg Prod.fst (heq.symm.trans full))
  · exact .inr (congrArg Prod.fst (heq.symm.trans success))

end AddChunk

end BleMidi.Queue
