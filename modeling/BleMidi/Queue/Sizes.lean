/- Module: BleMidi/Queue/Sizes
   source: ble_midi/src/tx_queue.c (tx_queue_fifo_add_tx_packet_size, tx_queue_read_from_fifo)
   digest: The packet size on its way through the FIFO. -/

import BleMidi.Queue.Recognition

set_option autoImplicit false
set_option relaxedAutoImplicit false

namespace BleMidi.Queue

open BleMidi.Packet.PacketWriter
open BleMidi.Packet.WriterSpec
open TxQueue

variable {maxSize packetCount : Nat}

/-- The packet size behind a chunk that is read. A size request is granted up to the maximum. -/
def Chunk.sizeBehind (maxSize : Nat) (size : UInt16) : Chunk → UInt16
  | packetSize requested =>
      UInt16.ofNat (if maxSize < requested.toNat then maxSize else requested.toNat)
  | _ => size

/-- The packet size behind the chunks that the FIFO holds, one after another. -/
def sizeBehind (maxSize : Nat) (size : UInt16) (chunks : List Chunk) : UInt16 :=
  chunks.foldl (Chunk.sizeBehind maxSize) size

/-- A size request. -/
def Chunk.Resizes : Chunk → Prop
  | packetSize _ => True
  | _ => False

instance : DecidablePred Chunk.Resizes
  | .packetSize _ => inferInstanceAs (Decidable True)
  | .threeBytes _ => inferInstanceAs (Decidable False)
  | .data _ => inferInstanceAs (Decidable False)

theorem sizeBehind_append (size : UInt16) (chunks : List Chunk) (chunk : Chunk) :
    sizeBehind maxSize size (chunks ++ [chunk]) =
      chunk.sizeBehind maxSize (sizeBehind maxSize size chunks) := by
  rw [sizeBehind, List.foldl_append]
  rfl

theorem sizeBehind_none {chunks : List Chunk} (h : ∀ chunk ∈ chunks, ¬ chunk.Resizes)
    (size : UInt16) : sizeBehind maxSize size chunks = size := by
  induction chunks with
  | nil => rfl
  | cons chunk chunks ih =>
    obtain ⟨head, rest⟩ := List.forall_mem_cons.mp h
    have same : chunk.sizeBehind maxSize size = size := by
      cases chunk with
      | packetSize requested => exact absurd trivial head
      | _ => rfl
    rw [sizeBehind, List.foldl_cons, same]
    exact ih rest

/-- All packets have the same size, and well formed chunks wait in the FIFO. -/
structure Sized (queue : TxQueue maxSize packetCount) (queued : List Chunk) (size : UInt16) :
    Prop where
  uniform : Uniform size queue
  held : queue.fifo.Holds queued
  wellFormed : ∀ chunk ∈ queued, chunk.WellFormed

namespace Sized

variable {queue queue' : TxQueue maxSize packetCount} {chunk : Chunk} {queued : List Chunk}
  {size : UInt16}

theorem recognised (h : Sized queue queued size) : queue.fifo.recognised = queued :=
  Fifo.recognised_eq h.held h.wellFormed

theorem append (h : Sized queue queued size) {fifo : Fifo} (hchunk : chunk.WellFormed)
    (hfifo : fifo.bytes = queue.fifo.bytes ++ chunk.encode) :
    Sized { queue with fifo := fifo } (queued ++ [chunk]) size :=
  ⟨h.uniform, h.held.append hfifo,
    List.forall_mem_append.mpr ⟨h.wellFormed, List.forall_mem_singleton.mpr hchunk⟩⟩

private theorem frame (h : Sized queue queued size) (hframe : Frame queue queue')
    (huniform : Uniform size queue') : Sized queue' queued size :=
  ⟨huniform, hframe.holds h.held, h.wellFormed⟩

private theorem withScratch (h : Sized queue queued size) (remaining chunkSize : Nat)
    (buf : List UInt8) :
    Sized { queue with
      numRemainingDataBytes := remaining
      currSysexDataChunkSize := chunkSize
      sysexChunkScratchBuf := buf } queued size :=
  ⟨h.uniform, h.held, h.wellFormed⟩

private theorem read (h : Sized queue (chunk :: queued) size) :
    Sized { queue with fifo := queue.fifo.read chunk.encode.length } queued size :=
  ⟨h.uniform, h.held.read, fun c hc => h.wellFormed c (List.mem_cons_of_mem _ hc)⟩

private theorem stays_or_reads (chunk : Chunk) (hsame : chunk.sizeBehind maxSize size = size)
    (h : Sized queue (chunk :: queued) size ∨ Sized queue queued size) :
    ∃ rest size', Sized queue rest size' ∧
      sizeBehind maxSize size' rest = sizeBehind maxSize size (chunk :: queued) := by
  rcases h with stays | reads
  · exact ⟨_, size, stays, rfl⟩
  · refine ⟨queued, size, reads, ?_⟩
    rw [sizeBehind, sizeBehind, List.foldl_cons, hsame]

theorem init (blank : TxQueue maxSize packetCount) (runningStatusEnabled noteOffAsNoteOn : Bool) :
    Sized (TxQueue.init blank runningStatusEnabled noteOffAsNoteOn) [] 0 :=
  ⟨fun _ => rfl, rfl, fun _ mem => absurd mem List.not_mem_nil⟩

variable [NeZero packetCount]

theorem sent (h : Sized queue queued size) : Sized queue.onTxPacketSent.2 queued size :=
  h.frame (onTxPacketSent_frame queue)
    (EveryPacket.onTxPacketSent (fun _ same => same) h.uniform)

private theorem add3 (times : Nat → UInt16) (h : Sized queue queued size) (bytes : MessageBytes) :
    Sized (add3ByteChunkToTxPacket times queue bytes).2 queued size := by
  apply h.frame (add3_frame times queue bytes)
  apply EveryPacket.add3 times (fun _ same => same) _ h.uniform
  intro w timestamp same
  exact (addChunk_extends bytes timestamp w).txBufMaxSize.trans same

private theorem addData (times : Nat → UInt16) (h : Sized queue queued size)
    (bytes : List UInt8) : Sized (addDataBytesToTxPacket times queue bytes).2 queued size := by
  apply h.frame (addDataBytes_frame times queue bytes)
  apply EveryPacket.addData times (fun _ same => same) _ h.uniform
  intro w bytes timestamp same
  exact (writerAddSysexData_txBufMaxSize w bytes timestamp).trans same

/-- An iteration of the reader does not change the size behind what is in the FIFO. -/
theorem step (times : Nat → UInt16) (h : Sized queue queued size) (msgBytes : MessageBytes) :
    ∃ rest size', Sized (readStep times queue msgBytes).queue rest size' ∧
      sizeBehind maxSize size' rest = sizeBehind maxSize size queued := by
  have case := readStep_case times h.held h.wellFormed msgBytes
  generalize readStep times queue msgBytes = r at case ⊢
  cases case with
  | empty => exact ⟨[], size, h, rfl⟩
  | remaining msgBytes _ =>
    refine ⟨_, size, ?_, rfl⟩
    have added := h.addData times queue.remainingData
    rw [readRemaining]
    revert added
    rcases addDataBytesToTxPacket times queue queue.remainingData with
      ⟨code | _ | count, queue'⟩
    · exact id
    · exact id
    · exact fun added => added.withScratch _ _ _
  | threeBytes bytes _ =>
    apply stays_or_reads (.threeBytes bytes) rfl
    have added := h.add3 times bytes
    rcases read3ByteChunk_cases times queue bytes with stays | reads
    · rw [stays]
      exact .inl added
    · rw [reads]
      exact .inr added.read
  | @data rest bytes msgBytes _ =>
    apply stays_or_reads (.data bytes) rfl
    have loaded : Sized (queue.load bytes) (.data bytes :: rest) size := h.withScratch _ _ _
    have added := loaded.addData times bytes
    revert added
    rcases addDataBytesToTxPacket times (queue.load bytes) bytes with
      ⟨code | _ | count, queue'⟩
    · exact fun added => .inr added.read
    · exact fun added => .inl added
    · exact fun added => .inr (added.read.withScratch _ _ _)
  | packetSize requested msgBytes _ =>
    exact ⟨_, _, ⟨fun _ => rfl, h.read.held, h.read.wellFormed⟩, rfl⟩

end Sized

end BleMidi.Queue
