/- Module: BleMidi/Queue/ReadCases
   source: ble_midi/src/tx_queue.c (tx_queue_read_from_fifo)
   digest: An iteration of the FIFO reader by the chunk at the head of the FIFO. -/

import BleMidi.Queue.Chunks
import BleMidi.Queue.TxQueueSpec

set_option autoImplicit false
set_option relaxedAutoImplicit false

namespace BleMidi.Queue

open BleMidi.Core.Runs
open BleMidi.Packet.PacketWriter

theorem Fifo.Holds.read {fifo : Fifo} {chunk : Chunk} {chunks : List Chunk}
    (h : fifo.Holds (chunk :: chunks)) : (fifo.read chunk.encode.length).Holds chunks := by
  change fifo.bytes.drop _ = _
  rw [show fifo.bytes = chunk.encode ++ chunks.flatMap Chunk.encode from h, List.drop_left]

theorem Fifo.Holds.read_length_lt {fifo : Fifo} {chunk : Chunk} {chunks : List Chunk}
    (h : fifo.Holds (chunk :: chunks)) :
    (fifo.read chunk.encode.length).bytes.length < fifo.bytes.length := by
  have positive := List.length_pos_iff.mpr chunk.encode_ne_nil
  have bytes : fifo.bytes.length =
      chunk.encode.length + (chunks.flatMap Chunk.encode).length := by
    rw [show fifo.bytes = chunk.encode ++ chunks.flatMap Chunk.encode from h, List.length_append]
  change (fifo.bytes.drop _).length < _
  rw [List.length_drop]
  omega

theorem Fifo.Holds.isEmpty_nil {fifo : Fifo} (h : fifo.Holds []) : fifo.isEmpty = true := by
  rw [Fifo.isEmpty, show fifo.bytes = [] from h]
  rfl

theorem Fifo.Holds.isEmpty_cons {fifo : Fifo} {chunk : Chunk} {chunks : List Chunk}
    (h : fifo.Holds (chunk :: chunks)) : fifo.isEmpty = false := by
  rw [Fifo.isEmpty, show fifo.bytes = chunk.encode ++ chunks.flatMap Chunk.encode from h,
    List.isEmpty_eq_false_iff]
  exact List.append_ne_nil_of_left_ne_nil chunk.encode_ne_nil _

theorem Fifo.Holds.append {fifo fifo' : Fifo} {chunk : Chunk} {chunks : List Chunk}
    (h : fifo.Holds chunks) (hwritten : fifo'.bytes = fifo.bytes ++ chunk.encode) :
    fifo'.Holds (chunks ++ [chunk]) := by
  rw [Fifo.Holds, hwritten, show fifo.bytes = chunks.flatMap Chunk.encode from h,
    List.flatMap_append, List.flatMap_singleton]

theorem Fifo.Holds.eq_nil {fifo : Fifo} {chunks : List Chunk} (h : fifo.Holds chunks)
    (hempty : fifo.isEmpty = true) : chunks = [] := by
  cases chunks with
  | nil => rfl
  | cons chunk chunks => cases hempty.symm.trans h.isEmpty_cons

namespace TxQueue

variable {maxSize packetCount : Nat} {queue queue' : TxQueue maxSize packetCount}

theorem Frame.holds {chunks : List Chunk} (h : Frame queue queue')
    (hheld : queue.fifo.Holds chunks) : queue'.fifo.Holds chunks := by
  rw [h.fifo]
  exact hheld

/-- The head chunk is read behind a function that leaves the FIFO alone. -/
theorem Frame.holds_read {chunk : Chunk} {chunks : List Chunk} (h : Frame queue queue')
    (hheld : queue.fifo.Holds (chunk :: chunks)) :
    (queue'.fifo.read chunk.encode.length).Holds chunks :=
  (h.holds hheld).read

private theorem peek_head {chunk : Chunk} {chunks : List Chunk}
    (h : queue.fifo.Holds (chunk :: chunks)) {a b c : UInt8} {rest : List UInt8}
    (hchunk : chunk.encode = a :: b :: c :: rest) (msgBytes : MessageBytes) :
    peekMsgBytes msgBytes (queue.fifo.peek 3) = ⟨a, b, c⟩ := by
  have bytes : queue.fifo.bytes = a :: b :: c :: (rest ++ chunks.flatMap Chunk.encode) := by
    rw [show queue.fifo.bytes = chunk.encode ++ chunks.flatMap Chunk.encode from h, hchunk]
    rfl
  rw [Fifo.peek, bytes]
  rfl

theorem ne_sysexDataChunkId {byte : UInt8} (h : 128 ≤ byte) : byte ≠ sysexDataChunkId := by
  rintro rfl
  exact absurd h (by decide)

/-- The first bytes of the chunk at the head of the FIFO. -/
def headBytes (queue : TxQueue maxSize packetCount) : MessageBytes :=
  peekMsgBytes ⟨0, 0, 0⟩ (queue.fifo.peek 3)

theorem headBytes_threeBytes {bytes : MessageBytes} {chunks : List Chunk}
    (h : queue.fifo.Holds (.threeBytes bytes :: chunks)) : queue.headBytes = bytes :=
  peek_head h rfl _

/-- The data bytes of the chunk at the head of the FIFO, if it is a data chunk. -/
def headData (queue : TxQueue maxSize packetCount) : List UInt8 :=
  if queue.headBytes.byte0 = sysexDataChunkId then
    (queue.fifo.peek (sysexDataChunkHeaderSize +
      word queue.headBytes.byte1 queue.headBytes.byte2)).drop sysexDataChunkHeaderSize
  else []

theorem headData_threeBytes {bytes : MessageBytes} {chunks : List Chunk}
    (h : queue.fifo.Holds (.threeBytes bytes :: chunks)) (hbytes : 128 ≤ bytes.byte0) :
    queue.headData = [] := by
  rw [headData, headBytes_threeBytes h, if_neg (ne_sysexDataChunkId hbytes)]

private theorem peek_data {bytes : List UInt8} {chunks : List Chunk}
    (h : queue.fifo.Holds (.data bytes :: chunks)) :
    queue.fifo.peek (sysexDataChunkHeaderSize + bytes.length) = (Chunk.data bytes).encode := by
  have size : (Chunk.data bytes).encode.length = sysexDataChunkHeaderSize + bytes.length := by
    simp only [Chunk.encode, List.length_cons, sysexDataChunkHeaderSize]
    omega
  rw [← size, Fifo.peek, show queue.fifo.bytes =
    (Chunk.data bytes).encode ++ chunks.flatMap Chunk.encode from h, List.take_left]

theorem headData_data {bytes : List UInt8} {chunks : List Chunk}
    (h : queue.fifo.Holds (.data bytes :: chunks))
    (hbytes : bytes.length ≤ sysexDataChunkMaxByteCount) : queue.headData = bytes := by
  unfold sysexDataChunkMaxByteCount at hbytes
  rw [headData, headBytes, peek_head h rfl, if_pos rfl]
  simp only [word_count (n := bytes.length) (by omega), peek_data h]
  rfl

theorem headData_packetSize {size : UInt16} {chunks : List Chunk}
    (h : queue.fifo.Holds (.packetSize size :: chunks)) : queue.headData = [] := by
  have other : txMaxPacketSizeChunkId ≠ sysexDataChunkId := by decide
  rw [headData, headBytes, peek_head h rfl]
  exact if_neg other

theorem headBytes_data_eq {bytes : List UInt8} {chunks : List Chunk}
    (h : queue.fifo.Holds (.data bytes :: chunks)) :
    queue.headBytes = ⟨sysexDataChunkId, UInt8.ofNat (bytes.length &&& 0xff),
      UInt8.ofNat ((bytes.length >>> 8) &&& 0xff)⟩ :=
  peek_head h rfl _

theorem headBytes_data {bytes : List UInt8} {chunks : List Chunk}
    (h : queue.fifo.Holds (.data bytes :: chunks)) : queue.headBytes.byte0 = sysexDataChunkId := by
  rw [headBytes_data_eq h]

theorem headBytes_packetSize_eq {size : UInt16} {chunks : List Chunk}
    (h : queue.fifo.Holds (.packetSize size :: chunks)) :
    queue.headBytes =
      ⟨txMaxPacketSizeChunkId, (size &&& 0xff).toUInt8, ((size >>> 8) &&& 0xff).toUInt8⟩ :=
  peek_head h rfl _

variable [NeZero packetCount] (times : Nat → UInt16)

theorem readStep_empty (h : queue.fifo.Holds []) (msgBytes : MessageBytes) :
    readStep times queue msgBytes = .ret (.success, queue) := by
  rw [readStep, if_pos h.isEmpty_nil]

theorem readStep_remaining {chunk : Chunk} {chunks : List Chunk}
    (h : queue.fifo.Holds (chunk :: chunks)) (hdata : 0 < queue.numRemainingDataBytes)
    (msgBytes : MessageBytes) :
    readStep times queue msgBytes = readRemaining times queue msgBytes := by
  rw [readStep, if_neg (by simp [h.isEmpty_cons]), if_pos hdata]

private theorem readStep_head {chunk : Chunk} {chunks : List Chunk}
    (h : queue.fifo.Holds (chunk :: chunks)) (hdata : queue.numRemainingDataBytes = 0)
    (msgBytes : MessageBytes) :
    readStep times queue msgBytes =
      let msgBytes := peekMsgBytes msgBytes (queue.fifo.peek 3)
      if msgBytes.byte0 = sysexDataChunkId then readDataChunk times queue msgBytes
      else if 128 ≤ msgBytes.byte0 then read3ByteChunk times queue msgBytes
      else if msgBytes.byte0 = txMaxPacketSizeChunkId then readPacketSize queue msgBytes
      else .next (queue, msgBytes) := by
  rw [readStep, if_neg (by simp [h.isEmpty_cons]), if_neg (by omega)]
  rfl

theorem readStep_threeBytes {bytes : MessageBytes} {chunks : List Chunk}
    (h : queue.fifo.Holds (.threeBytes bytes :: chunks)) (hbytes : 128 ≤ bytes.byte0)
    (hdata : queue.numRemainingDataBytes = 0) (msgBytes : MessageBytes) :
    readStep times queue msgBytes = read3ByteChunk times queue bytes := by
  rw [readStep_head times h hdata, peek_head h rfl]
  simp only [if_neg (ne_sysexDataChunkId hbytes), if_pos hbytes]

theorem readStep_packetSize {size : UInt16} {chunks : List Chunk}
    (h : queue.fifo.Holds (.packetSize size :: chunks))
    (hdata : queue.numRemainingDataBytes = 0) (msgBytes : MessageBytes) :
    ∃ msgBytes', readStep times queue msgBytes =
      .next ({ queue with
        txPackets := fun i => { queue.txPackets i with
          txBufMaxSize := UInt16.ofNat (if maxSize < size.toNat then maxSize else size.toNat) }
        fifo := queue.fifo.read 3 }, msgBytes') := by
  refine ⟨⟨txMaxPacketSizeChunkId, (size &&& 0xff).toUInt8, ((size >>> 8) &&& 0xff).toUInt8⟩, ?_⟩
  rw [readStep_head times h hdata, peek_head h rfl]
  simp only [readPacketSize, word_size]
  rfl

/-- A three byte chunk stays in the FIFO when no packet has room for it. Otherwise it is read, also
when the packets refuse it. -/
theorem read3ByteChunk_cases (queue : TxQueue maxSize packetCount) (bytes : MessageBytes) :
    read3ByteChunk times queue bytes =
        .ret (.noTxPackets, (add3ByteChunkToTxPacket times queue bytes).2) ∨
      read3ByteChunk times queue bytes =
        .next ({ (add3ByteChunkToTxPacket times queue bytes).2 with
          fifo := (add3ByteChunkToTxPacket times queue bytes).2.fifo.read 3 }, bytes) := by
  rw [read3ByteChunk]
  rcases add3ByteChunkToTxPacket times queue bytes with ⟨code, queue'⟩
  cases code with
  | success => exact .inr rfl
  | invalidData => exact .inr rfl
  | _ => exact .inl rfl

/-- The queue with a data chunk in the scratch buffer. -/
def load (queue : TxQueue maxSize packetCount) (bytes : List UInt8) :
    TxQueue maxSize packetCount :=
  { queue with
    sysexChunkScratchBuf := overwrite queue.sysexChunkScratchBuf (Chunk.data bytes).encode }

/-- What follows from the result of adding the bytes of a data chunk. -/
def afterData (bytes : List UInt8) (msgBytes : MessageBytes) :
    Except TxQueueError Nat × TxQueue maxSize packetCount → ReadStep maxSize packetCount
  | (.ok 0, queue) => .ret (.noTxPackets, queue)
  | (.ok count, queue) =>
      .next ({ queue with
        fifo := queue.fifo.read (Chunk.data bytes).encode.length
        numRemainingDataBytes := bytes.length - count
        currSysexDataChunkSize := (Chunk.data bytes).encode.length }, msgBytes)
  | (.error _, queue) =>
      .next ({ queue with fifo := queue.fifo.read (Chunk.data bytes).encode.length }, msgBytes)

theorem readStep_data {bytes : List UInt8} {chunks : List Chunk}
    (h : queue.fifo.Holds (.data bytes :: chunks))
    (hbytes : bytes.length ≤ sysexDataChunkMaxByteCount)
    (hdata : queue.numRemainingDataBytes = 0) (msgBytes : MessageBytes) :
    ∃ msgBytes', readStep times queue msgBytes =
      afterData bytes msgBytes' (addDataBytesToTxPacket times (queue.load bytes) bytes) := by
  unfold sysexDataChunkMaxByteCount at hbytes
  have size : (Chunk.data bytes).encode.length = sysexDataChunkHeaderSize + bytes.length := by
    simp only [Chunk.encode, List.length_cons, sysexDataChunkHeaderSize]
    omega
  have peeked := peek_data h
  have chunk : ((queue.load bytes).sysexChunkScratchBuf.drop sysexDataChunkHeaderSize).take
      ((Chunk.data bytes).encode.length - sysexDataChunkHeaderSize) = bytes := by
    rw [size, Nat.add_sub_cancel_left]
    exact List.take_left
  refine ⟨⟨sysexDataChunkId, UInt8.ofNat (bytes.length &&& 0xff),
    UInt8.ofNat ((bytes.length >>> 8) &&& 0xff)⟩, ?_⟩
  rw [readStep_head times h hdata, peek_head h rfl]
  simp only [if_true, readDataChunk, sysexDataChunkSize, word_count (n := bytes.length) (by omega),
    peeked]
  change (match addDataBytesToTxPacket times (queue.load bytes)
    (((queue.load bytes).sysexChunkScratchBuf.drop sysexDataChunkHeaderSize).take
      ((Chunk.data bytes).encode.length - sysexDataChunkHeaderSize)) with
    | (.ok 0, queue) => _
    | (.ok addResult, queue) => _
    | (.error _, queue) => _) = _
  rw [chunk]
  rcases addDataBytesToTxPacket times (queue.load bytes) bytes with ⟨code | count, queue'⟩
  · rw [afterData, size]
  · cases count with
    | zero => rfl
    | succ count =>
      rw [afterData, size]
      · rfl
      · exact Nat.succ_ne_zero count

/-- What an iteration does when the FIFO holds chunks: pending data comes before the chunk at the
head. -/
inductive ReadCase (queue : TxQueue maxSize packetCount) :
    List Chunk → ReadStep maxSize packetCount → Prop
  | empty : ReadCase queue [] (.ret (.success, queue))
  | remaining {chunk : Chunk} {chunks : List Chunk} (msgBytes : MessageBytes) :
      0 < queue.numRemainingDataBytes →
      ReadCase queue (chunk :: chunks) (readRemaining times queue msgBytes)
  | threeBytes {chunks : List Chunk} (bytes : MessageBytes) :
      queue.numRemainingDataBytes = 0 →
      ReadCase queue (.threeBytes bytes :: chunks) (read3ByteChunk times queue bytes)
  | data {chunks : List Chunk} (bytes : List UInt8) (msgBytes : MessageBytes) :
      queue.numRemainingDataBytes = 0 →
      ReadCase queue (.data bytes :: chunks)
        (afterData bytes msgBytes (addDataBytesToTxPacket times (queue.load bytes) bytes))
  | packetSize {chunks : List Chunk} (size : UInt16) (msgBytes : MessageBytes) :
      queue.numRemainingDataBytes = 0 →
      ReadCase queue (.packetSize size :: chunks)
        (.next ({ queue with
          txPackets := fun i => { queue.txPackets i with
            txBufMaxSize := UInt16.ofNat (if maxSize < size.toNat then maxSize else size.toNat) }
          fifo := queue.fifo.read 3 }, msgBytes))

theorem readStep_case {chunks : List Chunk} (h : queue.fifo.Holds chunks)
    (hchunks : ∀ chunk ∈ chunks, chunk.WellFormed) (msgBytes : MessageBytes) :
    ReadCase times queue chunks (readStep times queue msgBytes) := by
  cases chunks with
  | nil =>
    rw [readStep_empty times h]
    exact .empty
  | cons chunk chunks =>
    have wellFormed := hchunks chunk List.mem_cons_self
    by_cases idle : queue.numRemainingDataBytes = 0
    · cases chunk with
      | threeBytes bytes =>
        rw [readStep_threeBytes times h wellFormed idle]
        exact .threeBytes bytes idle
      | data bytes =>
        obtain ⟨msgBytes', eq⟩ := readStep_data times h wellFormed.2 idle msgBytes
        rw [eq]
        exact .data bytes msgBytes' idle
      | packetSize size =>
        obtain ⟨msgBytes', eq⟩ := readStep_packetSize times h idle msgBytes
        rw [eq]
        exact .packetSize size msgBytes' idle
    · have remaining : 0 < queue.numRemainingDataBytes := Nat.pos_of_ne_zero idle
      rw [readStep_remaining times h remaining]
      exact .remaining msgBytes remaining

/-- What an iteration may add to the packets. -/
inductive Adds (queue : TxQueue maxSize packetCount) : TxQueue maxSize packetCount → Prop
  | threeBytes (bytes : MessageBytes) : Adds queue (add3ByteChunkToTxPacket times queue bytes).2
  | data (buf bytes : List UInt8) : Adds queue
      (addDataBytesToTxPacket times { queue with sysexChunkScratchBuf := buf } bytes).2

/-- What an iteration does, whatever the FIFO holds. -/
inductive ReadEffect (queue : TxQueue maxSize packetCount) : ReadStep maxSize packetCount → Prop
  | empty : queue.fifo.bytes = [] → ReadEffect queue (.ret (.success, queue))
  | full {queue' : TxQueue maxSize packetCount} : Adds times queue queue' →
      ReadEffect queue (.ret (.noTxPackets, queue'))
  | added {queue' : TxQueue maxSize packetCount} (n remaining size : Nat)
      (msgBytes : MessageBytes) : Adds times queue queue' →
      ReadEffect queue (.next ({ queue' with
        fifo := queue'.fifo.read n
        numRemainingDataBytes := remaining
        currSysexDataChunkSize := size }, msgBytes))
  | packetSize (size : UInt16) (msgBytes : MessageBytes) :
      ReadEffect queue (.next ({ queue with
        txPackets := fun i => { queue.txPackets i with txBufMaxSize := size }
        fifo := queue.fifo.read 3 }, msgBytes))
  | unknown (msgBytes : MessageBytes) : ReadEffect queue (.next (queue, msgBytes))

theorem readStep_effect (queue : TxQueue maxSize packetCount) (msgBytes : MessageBytes) :
    ReadEffect times queue (readStep times queue msgBytes) := by
  rw [readStep]
  by_cases empty : queue.fifo.isEmpty = true
  · rw [if_pos empty]
    exact .empty (List.isEmpty_iff.mp empty)
  rw [if_neg empty]
  by_cases remaining : 0 < queue.numRemainingDataBytes
  · rw [if_pos remaining, readRemaining]
    have adds : Adds times queue _ := .data queue.sysexChunkScratchBuf queue.remainingData
    revert adds
    rcases addDataBytesToTxPacket times queue queue.remainingData with ⟨code | _ | count, queue'⟩
    · exact fun adds => .added 0 _ _ msgBytes adds
    · exact fun adds => .full adds
    · exact fun adds => .added 0 _ _ msgBytes adds
  rw [if_neg remaining]
  generalize peekMsgBytes msgBytes (queue.fifo.peek 3) = head
  dsimp only [dispatch]
  split
  · rw [readDataChunk]
    dsimp only
    generalize overwrite queue.sysexChunkScratchBuf _ = buf
    generalize (buf.drop sysexDataChunkHeaderSize).take _ = bytes
    have adds : Adds times queue _ := .data buf bytes
    revert adds
    rcases addDataBytesToTxPacket times { queue with sysexChunkScratchBuf := buf } bytes with
      ⟨code | _ | count, queue'⟩
    · exact fun adds => .added _ _ _ head adds
    · exact fun adds => .full adds
    · exact fun adds => .added _ _ _ head adds
  split
  · have adds : Adds times queue _ := .threeBytes head
    rcases read3ByteChunk_cases times queue head with stays | reads
    · rw [stays]
      exact .full adds
    · rw [reads]
      exact .added 3 _ _ head adds
  split
  · exact .packetSize _ head
  · exact .unknown head

variable {times} in
theorem Adds.fifo {queue' : TxQueue maxSize packetCount} (h : Adds times queue queue') :
    queue'.fifo = queue.fifo := by
  cases h with
  | threeBytes bytes => exact (add3_frame times queue bytes).fifo
  | data buf bytes =>
    exact (addDataBytes_frame times { queue with sysexChunkScratchBuf := buf } bytes).fifo

/-- What an iteration does to the FIFO, whatever it holds: a call returns in front of an empty FIFO
or without room, and otherwise bytes may have been taken from the head. -/
def Takes (queue : TxQueue maxSize packetCount) : ReadStep maxSize packetCount → Prop
  | .ret (code, queue') =>
      queue'.fifo = queue.fifo ∧ (code = .noTxPackets ∨ queue.fifo.bytes = [])
  | .next (queue', _) => ∃ n, queue'.fifo = queue.fifo.read n

theorem readStep_takes (queue : TxQueue maxSize packetCount) (msgBytes : MessageBytes) :
    Takes queue (readStep times queue msgBytes) := by
  have effect := readStep_effect times queue msgBytes
  generalize readStep times queue msgBytes = r at effect ⊢
  cases effect with
  | empty empty => exact ⟨rfl, .inr empty⟩
  | full adds => exact ⟨adds.fifo, .inl rfl⟩
  | added n _ _ _ adds => exact ⟨n, congrArg (fun fifo => Fifo.read fifo n) adds.fifo⟩
  | packetSize _ _ => exact ⟨3, rfl⟩
  | unknown _ => exact ⟨0, rfl⟩

end TxQueue

end BleMidi.Queue
