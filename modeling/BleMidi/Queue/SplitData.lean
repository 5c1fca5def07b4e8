/- Module: BleMidi/Queue/SplitData
   source: ble_midi/src/tx_queue.c (tx_queue_fifo_add_sysex_data, tx_queue_read_from_fifo)
   digest: The reader at work between the free-space check, the header and the data of a chunk. -/

import BleMidi.Queue.Recognition
import BleMidi.Queue.Twins

set_option autoImplicit false
set_option relaxedAutoImplicit false

namespace BleMidi.Queue

open BleMidi.Core.Lockstep
open BleMidi.Core.Runs
open BleMidi.Packet.PacketWriter
open BleMidi.Packet.WriterTwins
open TxQueue

variable {maxSize packetCount : Nat}

/-- An action of the reader, or a packet that was sent. -/
def Action.Consumes : Action → Prop
  | request _ => False
  | _ => True

instance : DecidablePred Action.Consumes
  | .request _ => inferInstanceAs (Decidable False)
  | .beginRead => inferInstanceAs (Decidable True)
  | .iterateRead => inferInstanceAs (Decidable True)
  | .packetSent => inferInstanceAs (Decidable True)

/-- The header of a chunk as three bytes. -/
def headerBytes (count : Nat) : MessageBytes :=
  ⟨sysexDataChunkId, UInt8.ofNat (count &&& 0xff), UInt8.ofNat ((count >>> 8) &&& 0xff)⟩

theorem headerBytes_encode (count : Nat) :
    (Chunk.threeBytes (headerBytes count)).encode = chunkHeader count := rfl

/-- What a sysex data header at the end of the FIFO means to an iteration of the reader. If nothing
is left to do before it, the iteration returns and only the scratch buffer has changed. Otherwise
any other three bytes in its place lead to the same. -/
inductive Spares [NeZero packetCount] (times : Nat → UInt16) (queue : TxQueue maxSize packetCount)
    (ahead : List Chunk) (msgBytes : MessageBytes) : Prop
  | returns {buf : List UInt8} : ahead = [] →
      readStep times queue msgBytes =
        .ret (.noTxPackets, { queue with sysexChunkScratchBuf := buf }) →
      Spares times queue ahead msgBytes
  | ignores : (∀ (other : MessageBytes) (fifo : Fifo),
        fifo.Holds (ahead ++ [.threeBytes other]) →
        ReadsAlike times times queue { queue with fifo := fifo } (readStep times queue msgBytes)
          (readStep times { queue with fifo := fifo } msgBytes)) →
      Spares times queue ahead msgBytes

section Reader

variable [NeZero packetCount] {times : Nat → UInt16} {queue : TxQueue maxSize packetCount}

/-- A header without data at the head of the FIFO is looked at and left there. -/
theorem readStep_header (times : Nat → UInt16) {count : Nat}
    (hheld : queue.fifo.Holds [.threeBytes (headerBytes count)])
    (hidle : queue.numRemainingDataBytes = 0) (msgBytes : MessageBytes) :
    ∃ buf, readStep times queue msgBytes =
      .ret (.noTxPackets, { queue with sysexChunkScratchBuf := buf }) := by
  have bytes : queue.fifo.bytes = chunkHeader count := hheld
  have head : peekMsgBytes msgBytes (queue.fifo.peek 3) = headerBytes count := by
    rw [Fifo.peek, bytes]
    rfl
  have peeked (n : Nat) : queue.fifo.peek (sysexDataChunkHeaderSize + n) = chunkHeader count := by
    rw [Fifo.peek, bytes]
    refine List.take_of_length_le ?_
    change 3 ≤ 3 + n
    omega
  refine ⟨overwrite queue.sysexChunkScratchBuf (chunkHeader count), ?_⟩
  rw [readStep, if_neg (by simp [hheld.isEmpty_cons]), if_neg (by omega), head]
  simp only [headerBytes, dispatch, if_true, readDataChunk, sysexDataChunkSize, peeked]
  have none (buf : List UInt8) :
      (buf.drop sysexDataChunkHeaderSize).take
        ((chunkHeader count).length - sysexDataChunkHeaderSize) = [] := List.take_zero
  rw [none, addDataBytes_nil]
  rfl

omit [NeZero packetCount] in
theorem Framed.twin {queued tail : List Chunk} (h : Framed queue queued tail) (fifo : Fifo) :
    Twins times times queue { queue with fifo := fifo } := by
  obtain ⟨data, pending, -⟩ := h.pending
  exact ⟨fun i => Alike.refl _, rfl, rfl, rfl, ⟨data, pending, pending.withFifo fifo⟩,
    fun _ => rfl⟩

theorem Framed.spares (times : Nat → UInt16) {ahead : List Chunk} {count : Nat}
    (h : Framed queue ahead [.threeBytes (headerBytes count)]) (msgBytes : MessageBytes) :
    Spares times queue ahead msgBytes := by
  by_cases idle : queue.numRemainingDataBytes = 0
  · cases ahead with
    | nil =>
      obtain ⟨buf, eq⟩ := readStep_header times h.held idle msgBytes
      exact .returns rfl eq
    | cons chunk ahead =>
      have wellFormed := h.wellFormed chunk List.mem_cons_self
      exact .ignores fun other fifo held =>
        (h.twin fifo).readStep h.window h.held held (.inl ⟨rfl, wellFormed⟩) msgBytes msgBytes
  · have remaining : 0 < queue.numRemainingDataBytes := Nat.pos_of_ne_zero idle
    refine .ignores fun other fifo held => ?_
    cases ahead with
    | nil => exact (h.twin fifo).readStep h.window h.held held (.inr remaining) msgBytes msgBytes
    | cons chunk ahead =>
      exact (h.twin fifo).readStep h.window h.held held (.inr remaining) msgBytes msgBytes

/-- What the consumer keeps while a call is under way: the chunks in front of a tail, and the room
that the call has found. -/
private structure Waits (tail : List Chunk) (space : Nat) (queue : TxQueue maxSize packetCount) :
    Prop where
  framed : ∃ ahead, Framed queue ahead tail
  space_le : space ≤ queue.fifo.getFreeSpace

omit [NeZero packetCount] in
private theorem getFreeSpace_read (fifo : Fifo) (n : Nat) :
    fifo.getFreeSpace ≤ (fifo.read n).getFreeSpace := by
  change fifo.capacity - _ ≤ fifo.capacity - (fifo.bytes.drop n).length
  rw [List.length_drop]
  omega

private theorem Waits.step (times : Nat → UInt16) {tail : List Chunk} {space : Nat}
    (h : Waits tail space queue)
    (htail : tail = [] ∨ ∃ count, tail = [.threeBytes (headerBytes count)])
    (msgBytes : MessageBytes) : Waits tail space (readStep times queue msgBytes).queue := by
  obtain ⟨⟨ahead, framed⟩, le⟩ := h
  by_cases head : tail = [] ∨ ahead ≠ [] ∨ 0 < queue.numRemainingDataBytes
  · obtain ⟨rest, n, framed', read⟩ := framed.step times head msgBytes
    refine ⟨⟨rest, framed'⟩, ?_⟩
    rw [read]
    exact le.trans (getFreeSpace_read _ n)
  · simp only [not_or, not_not, Nat.not_lt, Nat.le_zero_eq] at head
    obtain ⟨some, rfl, idle⟩ := head
    obtain ⟨count, rfl⟩ := htail.resolve_left some
    obtain ⟨buf, eq⟩ := readStep_header times framed.held idle msgBytes
    rw [eq]
    obtain ⟨window, ⟨size, uniform, -⟩, held, wellFormed, -⟩ := framed
    refine ⟨⟨[], window.of_eq rfl rfl, ⟨size, uniform, ?_⟩, held, wellFormed, [],
      Pending.nil idle, Nat.zero_le _⟩, le⟩
    intro positive
    exact absurd idle (Nat.ne_of_gt positive)

private theorem Waits.run {s s' : System maxSize packetCount} {tail : List Chunk} {space : Nat}
    (h : Waits tail space s.queue)
    (htail : tail = [] ∨ ∃ count, tail = [.threeBytes (headerBytes count)])
    (hrun : Reach (System.act times) (fun _ a => a.Consumes) s s') :
    Waits tail space s'.queue := by
  refine hrun.invariant (I := fun s => Waits tail space s.queue) h ?_
  intro s s' a waits consumes next
  cases a with
  | request r => exact consumes.elim
  | beginRead =>
    obtain rfl := System.act_beginRead next
    exact waits
  | iterateRead =>
    obtain ⟨msgBytes, reading, -, rfl⟩ := System.act_iterateRead next
    exact waits.step times htail msgBytes
  | packetSent =>
    obtain rfl := System.act_packetSent next
    obtain ⟨⟨ahead, framed⟩, le⟩ := waits
    refine ⟨⟨ahead, framed.sent⟩, ?_⟩
    change space ≤ s.queue.onTxPacketSent.2.fifo.getFreeSpace
    rw [(onTxPacketSent_frame s.queue).fifo]
    exact le

end Reader

/-- `num_bytes_to_send` of a call whose free-space check finds `s`. -/
def System.bytesToSend (s : System maxSize packetCount) (bytes : List UInt8) : Nat :=
  numBytesToSend s.queue.fifo.getFreeSpace bytes.length

/-- A FIFO operation of a producer. -/
def System.withFifo (s : System maxSize packetCount) (fifo : Fifo) : System maxSize packetCount :=
  { s with queue := { s.queue with fifo := fifo } }

/-- A call of `tx_queue_fifo_add_sysex_data` whose free-space check finds `s₀`, whose header write
finds `s₁` and whose data write finds `s₂`. In between there is only the consumer at work. -/
structure SplitCall [NeZero packetCount] (times : Nat → UInt16) (bytes : List UInt8)
    (s₀ s₁ s₂ : System maxSize packetCount) : Prop where
  space : sysexDataChunkHeaderSize < s₀.queue.fifo.getFreeSpace
  untilHeader : Reach (System.act times) (fun _ a => a.Consumes) s₀ s₁
  untilData : Reach (System.act times) (fun _ a => a.Consumes)
    (s₁.withFifo (s₁.queue.fifo.write (chunkHeader (s₀.bytesToSend bytes))).2) s₂

/-- A call of a single producer writes its chunk whole, whatever the consumer does between its FIFO
operations, and the consumer leaves the header alone while it waits for its data. -/
theorem fifoAddSysexData_split [NeZero packetCount] {times : Nat → UInt16}
    {blank : TxQueue maxSize packetCount} {runningStatusEnabled noteOffAsNoteOn : Bool}
    {s₀ s₁ s₂ : System maxSize packetCount}
    (h : Reach (System.act times) (System.permit (fun _ r => r.WellFormed) fun _ => True)
      (System.initial (init blank runningStatusEnabled noteOffAsNoteOn)) s₀)
    {bytes : List UInt8} (hbytes : bytes ≠ []) (hcall : SplitCall times bytes s₀ s₁ s₂)
    (msgBytes : MessageBytes) :
    let count := min (min bytes.length 255) (s₀.queue.fifo.getFreeSpace - 3)
    let fifo := (s₂.queue.fifo.write (bytes.take count)).2
    s₀.bytesToSend bytes = count ∧
      (s₁.queue.fifo.write (chunkHeader count)).1 = sysexDataChunkHeaderSize ∧
      (s₂.queue.fifo.write (bytes.take count)).1 = count ∧
      ∃ ahead, s₂.queue.fifo.bytes = ahead.flatMap Chunk.encode ++ chunkHeader count ∧
        Spares times s₂.queue ahead msgBytes ∧
        fifo.bytes = ahead.flatMap Chunk.encode ++ (Chunk.data (bytes.take count)).encode ∧
        fifo.recognised = ahead ++ [.data (bytes.take count)] := by
  intro count fifo
  obtain ⟨queued, framed⟩ := framed_run h
  obtain ⟨space, untilHeader, untilData⟩ := hcall
  unfold sysexDataChunkHeaderSize at space ⊢
  have sent : s₀.bytesToSend bytes = count := rfl
  have nonempty := List.length_pos_iff.mpr hbytes
  have least : 1 ≤ count := by omega
  have small : count ≤ 255 := by omega
  have length : (bytes.take count).length = count := by
    rw [List.length_take]
    omega
  rw [sent] at untilData
  -- The reader can only make room between the check and the header.
  have before : Waits [] s₀.queue.fifo.getFreeSpace s₁.queue :=
    Waits.run ⟨⟨queued, framed⟩, le_rfl⟩ (.inl rfl) untilHeader
  obtain ⟨⟨queued₁, framed₁⟩, room⟩ := before
  have three : (chunkHeader count).length = 3 := rfl
  obtain ⟨result, written, capacity⟩ :=
    Fifo.write_of_le (f := s₁.queue.fifo) (v := chunkHeader count) (by omega)
  have headed : Framed (s₁.withFifo (s₁.queue.fifo.write (chunkHeader count)).2).queue queued₁
      [.threeBytes (headerBytes count)] := by
    have held := framed₁.holds.append
      (written.trans (congrArg (_ ++ ·) (headerBytes_encode count).symm))
    obtain ⟨window, uniform, -, wellFormed, data, pending, few⟩ := framed₁
    exact ⟨window.of_eq rfl rfl, uniform, held, wellFormed, data,
      pending.withFifo _, few⟩
  have left : count ≤ (s₁.queue.fifo.write (chunkHeader count)).2.getFreeSpace := by
    have fits : count + 3 ≤ s₁.queue.fifo.getFreeSpace := by omega
    unfold Fifo.getFreeSpace at fits ⊢
    rw [written, capacity, List.length_append, three]
    omega
  obtain ⟨⟨ahead, framed₂⟩, room₂⟩ : Waits [.threeBytes (headerBytes count)] count s₂.queue :=
    Waits.run ⟨⟨queued₁, headed⟩, left⟩ (.inr ⟨count, rfl⟩) untilData
  obtain ⟨result₂, written₂, -⟩ :=
    Fifo.write_of_le (f := s₂.queue.fifo) (v := bytes.take count) (by omega)
  have bytes₂ : s₂.queue.fifo.bytes = ahead.flatMap Chunk.encode ++ chunkHeader count := by
    rw [show s₂.queue.fifo.bytes = _ from framed₂.held, List.flatMap_append,
      List.flatMap_singleton, headerBytes_encode]
  have whole : fifo.bytes =
      ahead.flatMap Chunk.encode ++ (Chunk.data (bytes.take count)).encode := by
    rw [Chunk.encode_data (by omega), ← List.append_assoc, ← bytes₂]
    exact written₂
  refine ⟨rfl, result.trans three, result₂.trans length, ahead, bytes₂, framed₂.spares times _,
    whole, ?_⟩
  have chunks : fifo.Holds (ahead ++ [.data (bytes.take count)]) := by
    rw [Fifo.Holds, whole, List.flatMap_append, List.flatMap_singleton]
  have wellFormed : ∀ chunk ∈ ahead ++ [.data (bytes.take count)], chunk.WellFormed := by
    refine List.forall_mem_append.mpr ⟨framed₂.wellFormed, List.forall_mem_singleton.mpr ?_⟩
    exact ⟨by omega, by rw [length]; exact small⟩
  exact Fifo.recognised_eq chunks wellFormed

/-- The reader takes the size request before the header is written, and then it waits for the data
with nothing else to do. -/
theorem fifoAddSysexData_split_reads : ∃ s₀ s₁ s₂ : System 8 2,
    SplitCall millisecondClock [1, 2, 3] s₀ s₁ s₂ ∧ s₀.queue.fifo.bytes.length = 6 ∧
      s₁.queue.fifo.bytes = [0xf0, 0, 0] ∧ s₂.reading = none ∧
      ∃ ahead, s₂.queue.fifo.bytes = ahead.flatMap Chunk.encode ++ chunkHeader 3 ∧
        Spares millisecondClock s₂.queue ahead ⟨0, 0, 0⟩ ∧
        (s₂.queue.fifo.write [1, 2, 3]).2.recognised = ahead ++ [.data [1, 2, 3]] := by
  obtain ⟨s₀, reached, ⟨length, space, free⟩, rest⟩ := exists_of_replay
    (System.act millisecondClock) (System.permit (fun _ r => r.WellFormed) fun _ => True)
    (System.initial (init (blankQueue 8 2 12) true true))
    (fun s₀ => (s₀.queue.fifo.bytes.length = 6 ∧
        sysexDataChunkHeaderSize < s₀.queue.fifo.getFreeSpace ∧
        s₀.queue.fifo.getFreeSpace - 3 = 3) ∧
      ((replay (System.act millisecondClock) (fun _ a => a.Consumes) s₀
        [.beginRead, .iterateRead]).any fun s₁ =>
          decide (s₁.queue.fifo.bytes = [0xf0, 0, 0]) &&
          (replay (System.act millisecondClock) (fun _ a => a.Consumes)
            (s₁.withFifo (s₁.queue.fifo.write (chunkHeader (s₀.bytesToSend [1, 2, 3]))).2)
            [.iterateRead, .iterateRead]).any fun s₂ => decide (s₂.reading = none)) = true)
    [.request (.addTxPacketSize 5), .request .addSysexStart]
    (by decide +kernel)
  obtain ⟨s₁, replayed₁, rest⟩ := (Option.any_eq_true _ _).mp rest
  obtain ⟨bytes₁, rest⟩ := Bool.and_eq_true_iff.mp rest
  obtain ⟨s₂, replayed₂, waiting⟩ := (Option.any_eq_true _ _).mp rest
  have call : SplitCall millisecondClock [1, 2, 3] s₀ s₁ s₂ :=
    ⟨space, reach_of_replay .start replayed₁, reach_of_replay .start replayed₂⟩
  obtain ⟨-, -, -, ahead, bytes₂, spares, -, recognised⟩ :=
    fifoAddSysexData_split reached (by decide) call ⟨0, 0, 0⟩
  rw [free] at bytes₂ recognised
  exact ⟨s₀, s₁, s₂, call, length, of_decide_eq_true bytes₁, of_decide_eq_true waiting, ahead,
    bytes₂, spares, recognised⟩

end BleMidi.Queue
