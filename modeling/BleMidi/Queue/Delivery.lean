/- Module: BleMidi/Queue/Delivery
   source: ble_midi/src/tx_queue.c, test/tx_queue_test.c
   digest: Which streams come out of the queue as they went in. -/

import BleMidi.Packet.MultiPacket
import BleMidi.Queue.Conservation

set_option autoImplicit false
set_option relaxedAutoImplicit false

namespace BleMidi.Queue

open BleMidi.Core.Runs
open BleMidi.Packet.Bytes
open BleMidi.Packet.Grammar
open BleMidi.Packet.PacketWriter
open BleMidi.Packet.WriterSpec
open BleMidi.Packet.PacketStream
open BleMidi.Packet.MultiPacket (ParsesTo)
open TxQueue

variable {maxSize packetCount : Nat} {settings : Settings maxSize} [NeZero packetCount]
  {times : Nat → UInt16} {s : System maxSize packetCount}

private theorem flagFits_of_allowed {inSysex : Bool} {bytes : MessageBytes} {w : Writer maxSize}
    (h : (Chunk.threeBytes bytes).Allowed inSysex) (hw : w.inSysexMsg = inSysex) :
    FlagFits w bytes := by
  unfold FlagFits
  rw [hw]
  by_cases start : bytes.byte0 = sysexStart
  · simp only [Chunk.Allowed, if_pos start] at h
    rw [h, start]
    rfl
  by_cases finish : bytes.byte0 = sysexEnd
  · simp only [Chunk.Allowed, if_neg start, if_pos finish] at h
    rw [h, finish]
    rfl
  · simp only [Chunk.Allowed, if_neg start, if_neg finish] at h
    rw [h.1, decide_eq_false finish]

/-- While all flags of the ring follow the stream, the packets are ready for every chunk. -/
theorem ready_of_uniform {consumed chunks : List Chunk} {chunk : Chunk}
    {es : List MidiEvent} (huniform : packetCount = 1 ∨ ∀ chunk ∈ s.accepted, chunk.IsMessage)
    (h : Conserves settings s consumed (chunk :: chunks) [] es) : Ready times s.queue chunk := by
  have flags := h.flags huniform
  have allowed := h.allowed
  cases chunk with
  | threeBytes bytes =>
    exact ⟨flagFits_of_allowed allowed flags.last, fun _ _ => flagFits_of_allowed allowed (flags _)⟩
  | data bytes => exact .inl (flags.last.trans allowed.1)
  | packetSize size => exact allowed.elim

/-- A call with a valid message. -/
def Request.IsMessage : Request → Prop
  | addMsg bytes => ValidMessage bytes
  | _ => False

instance : DecidablePred Request.IsMessage
  | .addMsg bytes => inferInstanceAs (Decidable (ValidMessage bytes))
  | .addSysexStart => inferInstanceAs (Decidable False)
  | .addSysexData _ => inferInstanceAs (Decidable False)
  | .addSysexEnd => inferInstanceAs (Decidable False)
  | .addTxPacketSize _ => inferInstanceAs (Decidable False)

theorem chunksOpen_messages {chunks : List Chunk}
    (h : ∀ chunk ∈ chunks, chunk.IsMessage) : chunksOpen false chunks = false := by
  induction chunks with
  | nil => rfl
  | cons chunk chunks ih =>
    change chunksOpen (chunk.openBehind false) chunks = false
    rw [(h chunk List.mem_cons_self).openBehind]
    exact ih fun c hc => h c (List.mem_cons_of_mem _ hc)

private theorem events_messages {chunks : List Chunk} (h : ∀ chunk ∈ chunks, chunk.IsMessage) :
    ∀ e ∈ chunks.flatMap (Chunk.events settings), IsMessage e := by
  intro e he
  obtain ⟨chunk, hchunk, hevent⟩ := List.mem_flatMap.mp he
  have message := h chunk hchunk
  cases chunk with
  | threeBytes bytes =>
    simp only [Chunk.events, if_neg message.1, if_neg message.2] at hevent
    rw [List.mem_singleton.mp hevent]
    trivial
  | _ => exact message.elim

/-- The parser reads the accepted messages from the packets sent and the packets of the window,
each once and in order, up to those that are still in the FIFO. An empty current packet has
nothing to be parsed. -/
theorem messages_delivered
    (h : System.Reachable times settings (System.permit (fun _ r => r.IsMessage) fun _ => True) s) :
    ∃ consumed queued, s.accepted = consumed ++ queued ∧ s.queue.fifo.Holds queued ∧
      (∀ packet ∈ s.sent, packet ≠ []) ∧
      ParsesTo (s.sent ++ (s.queue.packets.map Writer.payload).filter (· ≠ []))
        (consumed.flatMap (Chunk.events settings)) := by
  obtain ⟨all, consumed, queued, data, es, conserves⟩ := conserves_run (P := Chunk.IsMessage)
    (by
      intro s r all permitted
      change r.IsMessage at permitted
      cases r with
      | addMsg bytes =>
        exact ⟨⟨chunksOpen_messages all, permitted⟩, fun _ => isMessage_of_valid permitted⟩
      | _ => exact permitted.elim)
    (by
      intro s consumed chunks chunk es all _ conserves
      exact ready_of_uniform (.inr all) conserves) h
  rw [conserves.accepted] at all
  have messages : ∀ chunk ∈ consumed, chunk.IsMessage :=
    fun chunk hchunk => all chunk (List.mem_append_left _ hchunk)
  have none : data = [] := by
    by_contra some
    have opened := conserves.inside some
    rw [chunksOpen_messages messages] at opened
    cases opened
  have heard : consumed.flatMap (Chunk.events settings) = es := by
    rw [conserves.heard, none]
    exact List.append_nil es
  have delivered := conserves.holding.said.delivered
  rw [List.append_assoc, ← List.map_singleton (f := Writer.payload), ← List.map_append,
    ← conserves.steady.window.packets_eq] at delivered
  obtain ⟨halts, callbacks⟩ := delivered.parse (by
    rw [← heard]
    exact events_messages messages)
  have nonempty : s.sent.filter (· ≠ []) = s.sent := by
    rw [List.filter_eq_self]
    intro packet hpacket
    simpa using conserves.sent packet hpacket
  rw [List.filter_append, nonempty] at callbacks
  refine ⟨consumed, queued, conserves.accepted, conserves.fifo, conserves.sent, ?_, ?_⟩
  · intro packet hpacket
    rcases List.mem_append.mp hpacket with hpacket | hpacket
    · exact halts packet (List.mem_append_left _ hpacket) (conserves.sent packet hpacket)
    · obtain ⟨member, written⟩ := List.mem_filter.mp hpacket
      exact halts packet (List.mem_append_right _ member) (by simpa using written)
  · rw [callbacks, heard]

/-- Two packets, one of them sent and used again, and a message left in the FIFO. -/
theorem messages_delivered_ring : ∃ s : System 8 2,
    (s.sent = [[0xbf, 0xfe, 0x90, 0x40, 0x7f]] ∧
      s.queue.packets.map Writer.payload =
        [[0xbf, 0xff, 0x90, 0x40, 0x00], [0x80, 0x81, 0xc0, 5]]) ∧
    ∃ consumed queued, s.accepted = consumed ++ queued ∧ s.queue.fifo.Holds queued ∧
      (∀ packet ∈ s.sent, packet ≠ []) ∧
      ParsesTo (s.sent ++ (s.queue.packets.map Writer.payload).filter (· ≠ []))
        (consumed.flatMap (Chunk.events fiveBytes)) := by
  obtain ⟨s, reached, packets⟩ := System.exists_reachable millisecondClock fiveBytes
    (System.permit (fun _ r => r.IsMessage) fun _ => True)
    (fun s => s.sent = [[0xbf, 0xfe, 0x90, 0x40, 0x7f]] ∧
      s.queue.packets.map Writer.payload = [[0xbf, 0xff, 0x90, 0x40, 0x00], [0x80, 0x81, 0xc0, 5]])
    (blankQueue 8 2 32)
    [.request (.addMsg ⟨0x90, 0x40, 0x7f⟩), .request (.addMsg ⟨0x80, 0x40, 0x20⟩),
      .request (.addMsg ⟨0xc0, 5, 0⟩), .request (.addMsg ⟨0xf8, 0, 0⟩), .beginRead, .iterateRead,
      .iterateRead, .iterateRead, .packetSent, .beginRead, .iterateRead]
    (by decide +kernel)
  exact ⟨s, packets, messages_delivered reached⟩

/-- The accepted events are those that a receiver gets from the packets sent and the packets of
the window, then the pending data, then the chunks of the FIFO. -/
structure Accounted (settings : Settings maxSize) (s : System maxSize packetCount)
    (consumed queued : List Chunk) : Prop where
  accepted : s.accepted = consumed ++ queued
  fifo : s.queue.fifo.Holds queued
  received : ∃ es, receiveAll false (s.sent ++ s.queue.packets.map Writer.payload) = some es ∧
    consumed.flatMap (Chunk.events settings) = es ++ s.queue.remainingData.map .sysexData

theorem accounted {consumed queued : List Chunk} {data : List UInt8}
    {es : List MidiEvent} (h : Conserves settings s consumed queued data es) :
    Accounted settings s consumed queued := by
  have received := h.holding.said.delivered.receiveAll
  rw [List.append_assoc, ← List.map_singleton (f := Writer.payload), ← List.map_append,
    ← h.steady.window.packets_eq] at received
  refine ⟨h.accepted, h.fifo, es, received, ?_⟩
  rw [h.pending.bytes]
  exact h.heard

/-- The packets answer the chunk at the head of the FIFO with `TX_QUEUE_INVALID_DATA`, for which
the reader discards it. -/
def Discards (times : Nat → UInt16) (queue : TxQueue maxSize packetCount) : Chunk → Prop
  | .threeBytes bytes => (add3ByteChunkToTxPacket times queue bytes).1 = .invalidData
  | .data bytes => (addDataBytesToTxPacket times queue bytes).1 = .error .invalidData
  | .packetSize _ => False

private theorem not_discards {consumed chunks : List Chunk} {chunk : Chunk}
    {es : List MidiEvent} (h : Conserves settings s consumed (chunk :: chunks) [] es)
    (hready : Ready times s.queue chunk) : ¬ Discards times s.queue chunk := by
  have allowed := h.allowed
  cases chunk with
  | threeBytes bytes =>
    change (add3ByteChunkToTxPacket times s.queue bytes).1 ≠ _
    rw [← h.streamOpen_eq] at allowed
    rcases h.holding.add3 h.steady allowed hready with eq | ⟨queue', eq, -⟩
    · rw [eq]
      intro failed
      cases failed
    · rw [eq]
      intro failed
      cases failed
  | data bytes =>
    change (addDataBytesToTxPacket times s.queue bytes).1 ≠ _
    obtain ⟨inside, length, valid⟩ := allowed
    obtain ⟨count, queue', eq, -⟩ := h.holding.addData times h.steady
      (h.streamOpen_eq.trans inside) (List.length_pos_iff.mp length.1) valid hready
    rw [eq]
    intro failed
    cases failed
  | packetSize size => exact id

/-- With one packet the queue loses nothing and discards nothing. -/
theorem single_accounted {s : System maxSize 1} (h : System.Reachable times settings
      (System.permit (fun s r => r.Allowed (chunksOpen false s.accepted)) fun _ => True) s) :
    ∃ consumed queued, Accounted settings s consumed queued ∧
      ∀ chunk chunks, queued = chunk :: chunks → s.queue.numRemainingDataBytes = 0 →
        ¬ Discards times s.queue chunk := by
  obtain ⟨-, consumed, queued, data, es, conserves⟩ := conserves_run (P := fun _ => True)
    (fun _ permitted => ⟨permitted, fun _ => trivial⟩)
    (fun _ _ conserves => ready_of_uniform (.inl rfl) conserves) h
  refine ⟨consumed, queued, accounted conserves, ?_⟩
  rintro chunk chunks rfl idle
  have none : data = [] :=
    List.eq_nil_of_length_eq_zero (conserves.pending.remaining.symm.trans idle)
  rw [none] at conserves
  exact not_discards conserves (ready_of_uniform (.inl rfl) conserves)

/-- A message and a sysex message in packets of five bytes, seen while three data bytes are
pending and the sysex end is in the FIFO. -/
theorem single_accounted_sysex : ∃ s : System 8 1,
    (s.sent = [[0xbf, 0xfe, 0xf8, 0xff, 0xf0]] ∧
      s.queue.packets.map Writer.payload = [[0x80, 1, 2, 3, 4]] ∧
      s.queue.remainingData = [5, 6, 7] ∧ s.queue.fifo.bytes = [0xf7, 0, 0]) ∧
    ∃ consumed queued, Accounted fiveBytes s consumed queued ∧
      ∀ chunk chunks, queued = chunk :: chunks → s.queue.numRemainingDataBytes = 0 →
        ¬ Discards millisecondClock s.queue chunk := by
  obtain ⟨s, reached, state⟩ := System.exists_reachable millisecondClock fiveBytes
    (System.permit (fun s r => r.Allowed (chunksOpen false s.accepted)) fun _ => True)
    (fun s => s.sent = [[0xbf, 0xfe, 0xf8, 0xff, 0xf0]] ∧
      s.queue.packets.map Writer.payload = [[0x80, 1, 2, 3, 4]] ∧
      s.queue.remainingData = [5, 6, 7] ∧ s.queue.fifo.bytes = [0xf7, 0, 0])
    (blankQueue 8 1 32)
    [.request (.addMsg ⟨0xf8, 0, 0⟩), .request .addSysexStart,
      .request (.addSysexData [1, 2, 3, 4, 5, 6, 7]), .request .addSysexEnd, .beginRead,
      .iterateRead, .iterateRead, .iterateRead, .packetSent, .beginRead, .iterateRead, .iterateRead]
    (by decide +kernel)
  exact ⟨s, state, single_accounted reached⟩

/-- The packets take the chunk at the head of the FIFO. Data needs an empty packet or one with the
flag of an open sysex message; a sysex start or end needs its flag in the current packet, and also
in the next one where the current one has no room. -/
def Admits (queue : TxQueue maxSize packetCount) : Prop :=
  queue.fifo.isEmpty = true ∨ 0 < queue.numRemainingDataBytes ∨
    if queue.headBytes.byte0 = sysexDataChunkId then TakesData queue.lastTxPacket
    else
      FlagFits queue.lastTxPacket queue.headBytes ∧
        (queue.lastTxPacket.room < 2 → queue.txPacketCount < packetCount →
          FlagFits queue.nextTxPacket queue.headBytes)

instance : DecidablePred (@Admits maxSize packetCount _) :=
  fun _ => inferInstanceAs (Decidable (_ ∨ _ ∨ ite _ _ _))

private theorem added_full_iff {w : Writer maxSize} (h : SteadyPacket settings w) (t : UInt16)
    (status : UInt8) (f : Writer maxSize → Writer maxSize) :
    added w (statusBytes w t status) f = (.packetFull, w) ↔ w.room < 2 := by
  have max := h.five_le
  have room : HasRoom w (statusBytes w t status) ↔ ¬ w.room < 2 := by
    unfold HasRoom statusBytes Writer.room
    rw [List.length_append, header_length]
    by_cases empty : w.txBufSize = 0
    · rw [if_pos empty, empty]
      change 0 + (1 + 2) ≤ _ ↔ ¬ ((w.txBufMaxSize.toNat : Int) - (0 : Nat) < 2)
      omega
    · rw [if_neg empty]
      change _ + (0 + 2) ≤ _ ↔ _
      omega
  unfold added
  by_cases fits : HasRoom w (statusBytes w t status)
  · rw [if_pos fits]
    constructor
    · intro full
      cases full
    · intro less
      exact absurd less (room.mp fits)
  · rw [if_neg fits]
    exact ⟨fun _ => not_not.mp (room.not.mp fits), fun _ => rfl⟩

private theorem addChunk_full_iff {w : Writer maxSize} {bytes : MessageBytes}
    (h : SteadyPacket settings w) (hbytes : ¬ (Chunk.threeBytes bytes).IsMessage)
    (hflag : FlagFits w bytes) (t : UInt16) :
    addChunk bytes t w = (.packetFull, w) ↔ w.room < 2 := by
  by_cases start : bytes.byte0 = sysexStart
  · rw [addChunk_start hflag start]
    exact added_full_iff h t _ _
  by_cases finish : bytes.byte0 = sysexEnd
  · rw [addChunk_end hflag finish]
    exact added_full_iff h t _ _
  · exact absurd ⟨start, finish⟩ hbytes

private theorem addChunk_unfit {w : Writer maxSize} {bytes : MessageBytes}
    (hbytes : ¬ (Chunk.threeBytes bytes).IsMessage) (hflag : ¬ FlagFits w bytes) (t : UInt16) :
    ∃ code, code ≠ .success ∧ code ≠ .packetFull ∧ addChunk bytes t w = (code, w) := by
  rcases addChunk_addition bytes t w with ⟨v, f, addition, -⟩ | ⟨-, refused⟩
  · refine absurd ?_ hflag
    unfold FlagFits
    cases addition with
    | start start clear =>
      rw [start, clear]
      rfl
    | finish finish set =>
      rw [finish, set]
      rfl
    | realtime start finish _ _ => exact absurd ⟨start, finish⟩ hbytes
    | message start finish _ _ => exact absurd ⟨start, finish⟩ hbytes
  · exact refused

section Admits

variable {consumed chunks : List Chunk} {chunk : Chunk} {es : List MidiEvent}

private theorem ready_of_admits (h : Conserves settings s consumed (chunk :: chunks) [] es)
    (hchunk : ¬ chunk.IsMessage) (hadmits : Admits s.queue) : Ready times s.queue chunk := by
  have held := h.fifo
  have idle : s.queue.numRemainingDataBytes = 0 := h.pending.remaining
  have head := (hadmits.resolve_left (by simp [held.isEmpty_cons])).resolve_left (by omega)
  have allowed := h.allowed
  cases chunk with
  | threeBytes bytes =>
    rw [headBytes_threeBytes held, if_neg (ne_sysexDataChunkId allowed.wellFormed)] at head
    obtain ⟨fits, nextFits⟩ := head
    refine ⟨fits, fun full free => nextFits ?_ free⟩
    exact (addChunk_full_iff h.steady.last hchunk fits _).mp full
  | data bytes =>
    rw [if_pos (headBytes_data held)] at head
    exact head
  | packetSize size => exact allowed.elim

/-- The condition is exact: a sysex chunk at the head of the FIFO is discarded if and only if the
packets do not take it. -/
theorem discards_iff (h : Conserves settings s consumed (chunk :: chunks) [] es)
    (hchunk : ¬ chunk.IsMessage) : Discards times s.queue chunk ↔ ¬ Admits s.queue := by
  constructor
  · intro discards admits
    exact not_discards h (ready_of_admits h hchunk admits) discards
  · intro refused
    have held := h.fifo
    have allowed := h.allowed
    have head := not_or.mp (not_or.mp refused).2
    cases chunk with
    | threeBytes bytes =>
      have failed := head.2
      rw [headBytes_threeBytes held, if_neg (ne_sysexDataChunkId allowed.wellFormed)] at failed
      change (add3ByteChunkToTxPacket times s.queue bytes).1 = _
      have case := add3_case times s.queue bytes
      generalize add3ByteChunkToTxPacket times s.queue bytes = r at case ⊢
      by_cases fits : FlagFits s.queue.lastTxPacket bytes
      · simp only [fits, true_and, Classical.not_imp] at failed
        obtain ⟨room, free, unfit⟩ := failed
        have full := (addChunk_full_iff h.steady.last hchunk fits (times s.queue.clock)).mpr room
        have reset : ¬ FlagFits (writerReset s.queue.nextTxPacket) bytes := unfit
        obtain ⟨code, code_ne, code_ne', eq⟩ := addChunk_unfit hchunk reset (times s.queue.clock)
        cases case with
        | added eq' => cases full.symm.trans eq'
        | full _ le => exact absurd free (Nat.not_lt.mpr le)
        | refused _ _ _ => rfl
        | addedNext _ _ eq' => exact absurd (congrArg Prod.fst (eq.symm.trans eq')) code_ne
        | fullNext _ _ eq' => exact absurd (congrArg Prod.fst (eq.symm.trans eq')) code_ne'
        | refusedNext _ _ _ _ _ => rfl
      · obtain ⟨code, code_ne, code_ne', eq⟩ := addChunk_unfit hchunk fits (times s.queue.clock)
        cases case with
        | added eq' => exact absurd (congrArg Prod.fst (eq.symm.trans eq')) code_ne
        | full eq' _ => exact absurd (congrArg Prod.fst (eq.symm.trans eq')) code_ne'
        | refused _ _ _ => rfl
        | addedNext eq' _ _ => exact absurd (congrArg Prod.fst (eq.symm.trans eq')) code_ne'
        | fullNext eq' _ _ => exact absurd (congrArg Prod.fst (eq.symm.trans eq')) code_ne'
        | refusedNext _ _ _ _ _ => rfl
    | data bytes =>
      have takes := head.2
      rw [if_pos (headBytes_data held)] at takes
      obtain ⟨-, length, -⟩ := allowed
      change (addDataBytesToTxPacket times s.queue bytes).1 = _
      rw [addData_refused (List.length_pos_iff.mp length.1) takes]
    | packetSize size => exact allowed.elim

end Admits

/-- Runs with sysex messages, in which the reader iterates where the packets take the next chunk:
whatever was accepted is in the packets, pending or in the FIFO. -/
theorem sysex_accounted
    (h : System.Reachable times settings (System.permit
      (fun s r => r.Allowed (chunksOpen false s.accepted) ∧ ¬ r.IsMessage) Admits) s) :
    ∃ consumed queued, Accounted settings s consumed queued := by
  obtain ⟨-, consumed, queued, data, es, conserves⟩ :=
    conserves_run (P := fun chunk => ¬ chunk.IsMessage)
    (by
      intro s r _ ⟨allowed, other⟩
      refine ⟨allowed, fun count => ?_⟩
      cases r with
      | addMsg bytes => exact absurd allowed.2 other
      | addSysexStart => exact fun message => message.1 rfl
      | addSysexData bytes => exact id
      | addSysexEnd => exact fun message => message.2 rfl
      | addTxPacketSize size => exact id)
    (by
      intro s consumed chunks chunk es sysex admits conserves
      refine ready_of_admits conserves (sysex chunk ?_) admits
      rw [conserves.accepted]
      exact List.mem_append_right _ List.mem_cons_self) h
  exact ⟨consumed, queued, accounted conserves⟩

/-- A sysex message that goes through both packets and back into the first one. -/
theorem sysex_accounted_ring : ∃ s : System 8 2,
    (s.sent = [[0xbf, 0xfe, 0xf0, 1, 2], [0x80, 3, 4, 5, 6], [0x80, 7]] ∧
      s.queue.packets.map Writer.payload = [[0x80, 8, 9, 10, 11], [0x80, 12, 0x84, 0xf7]]) ∧
    ∃ consumed queued, Accounted fiveBytes s consumed queued := by
  obtain ⟨s, reached, packets⟩ := System.exists_reachable millisecondClock fiveBytes
    (System.permit (fun s r => r.Allowed (chunksOpen false s.accepted) ∧ ¬ r.IsMessage) Admits)
    (fun s => s.sent = [[0xbf, 0xfe, 0xf0, 1, 2], [0x80, 3, 4, 5, 6], [0x80, 7]] ∧
      s.queue.packets.map Writer.payload = [[0x80, 8, 9, 10, 11], [0x80, 12, 0x84, 0xf7]])
    (blankQueue 8 2 32)
    [.request .addSysexStart, .request (.addSysexData [1, 2]), .beginRead, .iterateRead,
      .iterateRead, .iterateRead, .packetSent, .request (.addSysexData [3, 4, 5, 6, 7]),
      .beginRead, .iterateRead, .iterateRead, .packetSent, .packetSent,
      .request (.addSysexData [8, 9, 10, 11, 12]), .request .addSysexEnd, .beginRead,
      .iterateRead, .iterateRead, .iterateRead]
    (by decide +kernel)
  exact ⟨s, packets, sysex_accounted reached⟩

/-- The third data byte starts the second packet, whose flag is clear: the sysex end is read from
the FIFO and thrown away. -/
theorem sysex_end_discarded : ∃ s : System 8 2,
    System.Reachable millisecondClock fiveBytes (System.permit
      (fun s r => r.Allowed (chunksOpen false s.accepted) ∧ ¬ r.IsMessage) fun _ => True) s ∧
      (s.accepted = [.threeBytes ⟨0xf0, 0, 0⟩, .data [1, 2, 3], .threeBytes ⟨0xf7, 0, 0⟩] ∧
        s.queue.fifo.bytes = [] ∧ s.queue.remainingData = [] ∧
        s.sent ++ s.queue.packets.map Writer.payload = [[0xbf, 0xfe, 0xf0, 1, 2], [0x80, 3]]) ∧
      ¬ ∃ consumed queued, Accounted fiveBytes s consumed queued := by
  obtain ⟨s, reached, state⟩ := System.exists_reachable millisecondClock fiveBytes
    (System.permit (fun s r => r.Allowed (chunksOpen false s.accepted) ∧ ¬ r.IsMessage)
      fun _ => True)
    (fun s =>
      s.accepted = [.threeBytes ⟨0xf0, 0, 0⟩, .data [1, 2, 3], .threeBytes ⟨0xf7, 0, 0⟩] ∧
        s.queue.fifo.bytes = [] ∧ s.queue.remainingData = [] ∧
        s.sent ++ s.queue.packets.map Writer.payload = [[0xbf, 0xfe, 0xf0, 1, 2], [0x80, 3]])
    (blankQueue 8 2 32)
    [.request .addSysexStart, .request (.addSysexData [1, 2, 3]), .request .addSysexEnd,
      .beginRead, .iterateRead, .iterateRead, .iterateRead, .iterateRead]
    (by decide +kernel)
  refine ⟨s, reached, state, ?_⟩
  obtain ⟨accepted, empty, idle, packets⟩ := state
  rintro ⟨consumed, queued, split, held, es, received, heard⟩
  have none : queued = [] := held.eq_nil (by rw [Fifo.isEmpty, empty]; rfl)
  rw [accepted, none, List.append_nil] at split
  have seen : receiveAll false [[0xbf, 0xfe, 0xf0, 1, 2], [0x80, 3]] =
      some [.sysexStart, .sysexData 1, .sysexData 2, .sysexData 3] := by decide +kernel
  rw [packets, seen] at received
  rw [← split, idle, ← Option.some.inj received] at heard
  revert heard
  decide

end BleMidi.Queue
