/- Module: BleMidi/Queue/Capacity
   source: ble_midi/src/tx_queue.c, ble_midi/src/ble_midi_packet.c (ble_midi_writer_add_sysex_data)
   digest: Packet sizes while the maximum packet size grows and shrinks. -/

import BleMidi.Queue.System

set_option autoImplicit false
set_option relaxedAutoImplicit false

namespace BleMidi.Queue

open BleMidi.Core.Runs
open BleMidi.Packet.Bytes
open BleMidi.Packet.PacketWriter
open BleMidi.Packet.WriterSpec
open TxQueue

variable {maxSize packetCount : Nat}

/-- The packet stays inside its buffer. -/
structure Inside (w : Writer maxSize) : Prop where
  max_le : w.txBufMaxSize.toNat ≤ maxSize
  size_le : w.txBufSize.toNat ≤ maxSize

theorem Inside.reset (w : Writer maxSize) (h : Inside w) : Inside (writerReset w) :=
  ⟨h.max_le, Nat.zero_le _⟩

theorem Inside.addChunk (bytes : MessageBytes) (w : Writer maxSize) (timestamp : UInt16)
    (h : Inside w) : Inside (TxQueue.addChunk bytes timestamp w).2 := by
  have grown := addChunk_extends bytes timestamp w
  constructor
  · rw [grown.txBufMaxSize]
    exact h.max_le
  · rcases grown.size with same | small
    · rw [same]
      exact h.size_le
    · exact small.trans h.max_le

/-- The packet holds more bytes than its maximum size after a shrink, and its open sysex message
takes data that does not fit into the buffer. -/
def Overflows (w : Writer maxSize) (bytes : List UInt8) : Prop :=
  w.txBufMaxSize.toNat < w.txBufSize.toNat ∧ w.inSysexMsg = true ∧
    (∀ b ∈ bytes, isDataByte b = true) ∧ maxSize < w.txBufSize.toNat + bytes.length

instance (w : Writer maxSize) (bytes : List UInt8) : Decidable (Overflows w bytes) :=
  inferInstanceAs (Decidable (_ ∧ _ ∧ _ ∧ _))

theorem putAll_size_le (w : Writer maxSize) (bytes : List UInt8) :
    (w.putAll bytes).txBufSize.toNat ≤ w.txBufSize.toNat + bytes.length := by
  induction bytes generalizing w with
  | nil => exact le_rfl
  | cons b bytes ih =>
    have one : (w.put b).txBufSize.toNat ≤ w.txBufSize.toNat + 1 := by
      simp only [Writer.put, UInt16.toNat_add, UInt16.reduceToNat]
      omega
    have rest := ih (w.put b)
    rw [List.length_cons]
    change ((w.put b).putAll bytes).txBufSize.toNat ≤ _
    omega

private theorem header_size_le (w : Writer maxSize) (timestamp : UInt16)
    (hmax : ¬ (w.txBufSize = 0 ∧ w.txBufMaxSize < 1)) :
    (w.putAll (w.header timestamp)).txBufSize.toNat ≤
      max w.txBufSize.toNat w.txBufMaxSize.toNat := by
  by_cases empty : w.txBufSize = 0
  · have some : 1 ≤ w.txBufMaxSize.toNat := by
      by_contra none
      apply hmax
      refine ⟨empty, ?_⟩
      rw [UInt16.lt_iff_toNat_lt]
      simp only [UInt16.reduceToNat]
      omega
    have size := putAll_size_le w (w.header timestamp)
    rw [header_length, if_pos empty, empty] at size
    have zero : (0 : UInt16).toNat = 0 := rfl
    omega
  · have none : w.header timestamp = [] := if_neg empty
    rw [none]
    exact le_max_left _ _

private theorem addData_le {w : Writer maxSize} (h : w.txBufSize.toNat ≤ w.txBufMaxSize.toNat)
    (bytes : List UInt8) :
    (w.putAll (bytes.take (w.numDataBytesToAdd bytes.length))).txBufSize.toNat ≤
      w.txBufMaxSize.toNat := by
  have bound := UInt16.toNat_lt w.txBufMaxSize
  have left : uint32 w.room = w.txBufMaxSize.toNat - w.txBufSize.toNat := by
    unfold uint32 Writer.room
    omega
  have some : w.numDataBytesToAdd bytes.length ≤ w.txBufMaxSize.toNat - w.txBufSize.toNat := by
    unfold Writer.numDataBytesToAdd
    rw [left]
    split
    · unfold Writer.room
      omega
    · omega
  have size := putAll_size_le w (bytes.take (w.numDataBytesToAdd bytes.length))
  rw [List.length_take] at size
  omega

theorem Inside.addSysexData {w : Writer maxSize} (h : Inside w) {bytes : List UInt8}
    (hsafe : ¬ Overflows w bytes) (timestamp : UInt16) :
    Inside (writerAddSysexData w bytes timestamp).2 := by
  unfold writerAddSysexData
  by_cases refused : (!w.inSysexMsg && decide (0 < w.txBufSize)) = true
  · rw [if_pos refused]
    exact h
  by_cases invalid : (!bytes.all isDataByte) = true
  · rw [if_neg refused, if_pos invalid]
    exact h
  by_cases tiny : w.txBufSize = 0 ∧ w.txBufMaxSize < 1
  · rw [if_neg refused, if_neg invalid, if_pos tiny]
    exact h
  rw [if_neg refused, if_neg invalid, if_neg tiny]
  have header := header_size_le w timestamp tiny
  have same := putAll_txBufMaxSize w (w.header timestamp)
  constructor
  · rw [putAll_txBufMaxSize, same]
    exact h.max_le
  · by_cases fits : (w.putAll (w.header timestamp)).txBufSize.toNat ≤ w.txBufMaxSize.toNat
    · rw [← same] at fits
      have small := addData_le fits bytes
      rw [same] at small
      exact small.trans h.max_le
    · -- Only a packet that was shrunk below its size gets here, and it has its header.
      have shrunk : w.txBufMaxSize.toNat < w.txBufSize.toNat := by omega
      have written : w.txBufSize ≠ 0 := by
        rintro empty
        rw [empty] at shrunk
        exact absurd shrunk (Nat.not_lt_zero _)
      have headed : w.header timestamp = [] := if_neg written
      have flag : w.inSysexMsg = true := by
        by_contra clear
        apply refused
        simp [Bool.eq_false_iff.mpr clear, UInt16.pos_iff_ne_zero.mpr written]
      have valid : ∀ b ∈ bytes, isDataByte b = true := by simpa using invalid
      have most : w.txBufSize.toNat + bytes.length ≤ maxSize := by
        by_contra more
        exact hsafe ⟨shrunk, flag, valid, by omega⟩
      have size := putAll_size_le w (bytes.take (w.numDataBytesToAdd bytes.length))
      rw [List.length_take] at size
      rw [headed]
      change (w.putAll (bytes.take (w.numDataBytesToAdd bytes.length))).txBufSize.toNat ≤ _
      omega

theorem addSysexData_overflows {w : Writer maxSize} {bytes : List UInt8} (h : Overflows w bytes)
    (hsmall : bytes.length < 2 ^ 16) (timestamp : UInt16) :
    writerAddSysexData w bytes timestamp = (.ok bytes.length, w.putAll bytes) := by
  obtain ⟨shrunk, flag, valid, -⟩ := h
  have written : w.txBufSize ≠ 0 := by
    rintro empty
    rw [empty] at shrunk
    exact absurd shrunk (Nat.not_lt_zero _)
  have headed : w.header timestamp = [] := if_neg written
  have all : bytes.all isDataByte = true := by simpa using valid
  -- The room left is negative, so it is converted to a number that no data is as long as.
  have count : w.numDataBytesToAdd bytes.length = bytes.length := by
    have bound := UInt16.toNat_lt w.txBufSize
    unfold Writer.numDataBytesToAdd uint32 Writer.room
    rw [if_neg]
    omega
  unfold writerAddSysexData
  rw [flag, all, headed, if_neg (by simp), if_neg (by simp), if_neg (fun tiny => written tiny.1)]
  change (Except.ok (w.numDataBytesToAdd bytes.length),
    w.putAll (bytes.take (w.numDataBytesToAdd bytes.length))) = _
  rw [count, List.take_length]

/-- What a run with arbitrary packet sizes keeps. -/
structure Bounded (queue : TxQueue maxSize packetCount) : Prop where
  window : Window queue
  inside : EveryPacket Inside queue
  chunks : ∃ chunks, queue.fifo.Holds chunks ∧ ∀ chunk ∈ chunks, chunk.WellFormed

namespace Bounded

variable {queue queue' : TxQueue maxSize packetCount}

theorem frame (h : Bounded queue) (hframe : Frame queue queue')
    (hinside : EveryPacket Inside queue') : Bounded queue' := by
  obtain ⟨window, -, chunks, held, wellFormed⟩ := h
  exact ⟨hframe.window window, hinside, chunks, hframe.holds held, wellFormed⟩

theorem withScratch (h : Bounded queue) {fifo : Fifo} {chunks : List Chunk}
    (hfifo : fifo.Holds chunks) (hchunks : ∀ chunk ∈ chunks, chunk.WellFormed)
    (remaining size : Nat) (buf : List UInt8) :
    Bounded { queue with
      fifo := fifo
      numRemainingDataBytes := remaining
      currSysexDataChunkSize := size
      sysexChunkScratchBuf := buf } :=
  ⟨h.window.of_eq rfl rfl, h.inside, chunks, hfifo, hchunks⟩

end Bounded

section Queue

variable [NeZero packetCount] {queue queue' : TxQueue maxSize packetCount}

/-- The data that the next iteration of the reader adds. -/
def dataToAdd (queue : TxQueue maxSize packetCount) : List UInt8 :=
  if 0 < queue.numRemainingDataBytes then queue.remainingData else queue.headData

omit [NeZero packetCount] in
theorem dataToAdd_remaining (h : 0 < queue.numRemainingDataBytes) :
    dataToAdd queue = queue.remainingData :=
  if_pos h

omit [NeZero packetCount] in
private theorem dataToAdd_head (h : queue.numRemainingDataBytes = 0) :
    dataToAdd queue = queue.headData :=
  if_neg (by omega)

omit [NeZero packetCount] in
theorem dataToAdd_threeBytes {bytes : MessageBytes} {chunks : List Chunk}
    (h : queue.fifo.Holds (.threeBytes bytes :: chunks)) (hbytes : 128 ≤ bytes.byte0)
    (hidle : queue.numRemainingDataBytes = 0) : dataToAdd queue = [] := by
  rw [dataToAdd_head hidle, headData_threeBytes h hbytes]

omit [NeZero packetCount] in
theorem dataToAdd_data {bytes : List UInt8} {chunks : List Chunk}
    (h : queue.fifo.Holds (.data bytes :: chunks))
    (hbytes : bytes.length ≤ sysexDataChunkMaxByteCount)
    (hidle : queue.numRemainingDataBytes = 0) : dataToAdd queue = bytes := by
  rw [dataToAdd_head hidle, headData_data h hbytes]

omit [NeZero packetCount] in
theorem dataToAdd_packetSize {size : UInt16} {chunks : List Chunk}
    (h : queue.fifo.Holds (.packetSize size :: chunks))
    (hidle : queue.numRemainingDataBytes = 0) : dataToAdd queue = [] := by
  rw [dataToAdd_head hidle, headData_packetSize h]

/-- The next iteration of the reader adds data that overflows the buffer of the current packet. -/
def Overruns (queue : TxQueue maxSize packetCount) : Prop :=
  queue.fifo.isEmpty = false ∧ Overflows queue.lastTxPacket (dataToAdd queue)

instance : DecidablePred (@Overruns maxSize packetCount _) :=
  fun _ => inferInstanceAs (Decidable (_ ∧ _))

omit [NeZero packetCount] in
/-- What the next iteration peeks into the scratch buffer is not larger than that one. -/
def ScratchSuffices (queue : TxQueue maxSize packetCount) (msgBytes : MessageBytes) : Prop :=
  queue.fifo.isEmpty = false → queue.numRemainingDataBytes = 0 →
    (peekMsgBytes msgBytes (queue.fifo.peek 3)).byte0 = sysexDataChunkId →
    sysexDataChunkSize (peekMsgBytes msgBytes (queue.fifo.peek 3)) ≤ sysexDataChunkMaxSize

omit [NeZero packetCount] in
instance (queue : TxQueue maxSize packetCount) (msgBytes : MessageBytes) :
    Decidable (ScratchSuffices queue msgBytes) :=
  inferInstanceAs (Decidable (_ → _ → _ → _))

/-- Any calls, and iterations of the reader that write neither behind a packet nor behind the
scratch buffer. -/
def WritesInside (s : System maxSize packetCount) : Action → Prop
  | .iterateRead => ¬ Overruns s.queue ∧ ∀ msgBytes ∈ s.reading, ScratchSuffices s.queue msgBytes
  | _ => True

instance : ∀ (s : System maxSize packetCount) (a : Action), Decidable (WritesInside s a)
  | _, .iterateRead => inferInstanceAs (Decidable (_ ∧ _))
  | _, .request _ => inferInstanceAs (Decidable True)
  | _, .beginRead => inferInstanceAs (Decidable True)
  | _, .packetSent => inferInstanceAs (Decidable True)

/-- Adding data keeps all packets inside their buffers. Only the first round can overflow one: the
packets of the later rounds start empty. -/
theorem Bounded.addData (times : Nat → UInt16) (h : Bounded queue) {bytes : List UInt8}
    (hsafe : ¬ Overflows queue.lastTxPacket bytes) :
    Bounded (addDataBytesToTxPacket times queue bytes).2 ∧
      Frame queue (addDataBytesToTxPacket times queue bytes).2 := by
  by_cases nonempty : bytes = []
  · rw [nonempty, addDataBytes_nil]
    exact ⟨h, Frame.refl queue⟩
  have frame := addDataBytes_frame times queue bytes
  refine ⟨h.frame frame ?_, frame⟩
  have rule := addDataBytes_rule times
    (R := fun q left => EveryPacket Inside q ∧ ¬ Overflows q.lastTxPacket left)
    (D := fun q _ => EveryPacket Inside q) (F := EveryPacket Inside) ?_ ?_ ?_ ⟨h.inside, hsafe⟩
    nonempty h.window
  · rcases result : addDataBytesToTxPacket times queue bytes with ⟨code | count, queue'⟩
    · rw [result] at rule
      exact rule
    · rw [result] at rule
      exact rule.2
  · intro q left ⟨inside, safe⟩ _
    have last := inside.last.addSysexData safe (times q.clock)
    have ticked : EveryPacket Inside q.tick := inside
    rcases result : writerAddSysexData q.lastTxPacket left (times q.clock) with ⟨code | count, w⟩
    · rw [result] at last
      exact ticked.setLastTxPacket last
    · rw [result] at last
      exact ⟨writerAddSysexData_count_le result, ticked.setLastTxPacket last⟩
  · intro q left inside _ free
    refine ⟨inside.push Inside.reset free, ?_⟩
    rintro ⟨shrunk, -⟩
    rw [lastTxPacket_push free] at shrunk
    exact absurd shrunk (Nat.not_lt_zero _)
  · intro q left inside
    exact inside

private theorem Bounded.add3 (times : Nat → UInt16) (h : Bounded queue) (bytes : MessageBytes) :
    Bounded (add3ByteChunkToTxPacket times queue bytes).2 :=
  h.frame (add3_frame times queue bytes)
    (h.inside.add3 times Inside.reset (Inside.addChunk bytes))

private theorem Bounded.read3Byte (times : Nat → UInt16) (h : Bounded queue)
    {bytes : MessageBytes} {chunks : List Chunk}
    (hheld : queue.fifo.Holds (.threeBytes bytes :: chunks))
    (hchunks : ∀ chunk ∈ chunks, chunk.WellFormed) :
    Bounded (read3ByteChunk times queue bytes).queue := by
  have bounded := h.add3 times bytes
  have frame := add3_frame times queue bytes
  rcases read3ByteChunk_cases times queue bytes with stays | reads
  · rw [stays]
    exact bounded
  · rw [reads]
    exact bounded.withScratch (frame.holds_read hheld) hchunks _ _ _

private theorem Bounded.readData (times : Nat → UInt16) (h : Bounded queue) {bytes : List UInt8}
    {chunks : List Chunk} (hheld : queue.fifo.Holds (.data bytes :: chunks))
    (hchunks : ∀ chunk ∈ Chunk.data bytes :: chunks, chunk.WellFormed)
    (hsafe : ¬ Overflows queue.lastTxPacket bytes) (msgBytes : MessageBytes) :
    Bounded (afterData bytes msgBytes
      (addDataBytesToTxPacket times (queue.load bytes) bytes)).queue := by
  have rest := (List.forall_mem_cons.mp hchunks).2
  have loaded : Bounded (queue.load bytes) := h.withScratch hheld hchunks _ _ _
  obtain ⟨bounded, frame⟩ := loaded.addData times hsafe
  rcases result : addDataBytesToTxPacket times (queue.load bytes) bytes with
    ⟨code | count, queue'⟩
  · rw [result] at bounded frame
    exact bounded.withScratch (frame.holds_read hheld) rest _ _ _
  · rw [result] at bounded frame
    cases count with
    | zero => exact bounded
    | succ count => exact bounded.withScratch (frame.holds_read hheld) rest _ _ _

private theorem Bounded.readRemaining (times : Nat → UInt16) (h : Bounded queue)
    (hsafe : ¬ Overflows queue.lastTxPacket queue.remainingData) (msgBytes : MessageBytes) :
    Bounded (TxQueue.readRemaining times queue msgBytes).queue := by
  obtain ⟨chunks, held, wellFormed⟩ := h.chunks
  obtain ⟨bounded, frame⟩ := h.addData times hsafe
  rw [TxQueue.readRemaining]
  rcases result : addDataBytesToTxPacket times queue queue.remainingData with
    ⟨code | count, queue'⟩
  · rw [result] at bounded
    exact bounded
  · rw [result] at bounded frame
    cases count with
    | zero => exact bounded
    | succ count => exact bounded.withScratch (frame.holds held) wellFormed _ _ _

omit [NeZero packetCount] in
private theorem granted_le (size : Nat) :
    (UInt16.ofNat (if maxSize < size then maxSize else size)).toNat ≤ maxSize := by
  rw [UInt16.toNat_ofNat']
  refine (Nat.mod_le _ _).trans ?_
  split <;> omega

/-- An iteration of the reader that does not overrun keeps all packets inside their buffers. -/
theorem Bounded.step (times : Nat → UInt16) (h : Bounded queue) (hsafe : ¬ Overruns queue)
    (msgBytes : MessageBytes) : Bounded (readStep times queue msgBytes).queue := by
  obtain ⟨chunks, held, wellFormed⟩ := h.chunks
  have case := readStep_case times held wellFormed msgBytes
  generalize readStep times queue msgBytes = r at case ⊢
  cases case with
  | empty => exact h
  | remaining msgBytes remaining =>
    have safe : ¬ Overflows queue.lastTxPacket queue.remainingData := by
      intro overflows
      rw [← dataToAdd_remaining remaining] at overflows
      exact hsafe ⟨held.isEmpty_cons, overflows⟩
    exact h.readRemaining times safe msgBytes
  | threeBytes bytes _ => exact h.read3Byte times held (List.forall_mem_cons.mp wellFormed).2
  | data bytes msgBytes idle =>
    have safe : ¬ Overflows queue.lastTxPacket bytes := by
      intro overflows
      rw [← dataToAdd_data held (wellFormed _ List.mem_cons_self).2 idle] at overflows
      exact hsafe ⟨held.isEmpty_cons, overflows⟩
    exact h.readData times held wellFormed safe msgBytes
  | packetSize size msgBytes _ =>
    refine ⟨h.window.of_eq rfl rfl, ?_, _, held.read, (List.forall_mem_cons.mp wellFormed).2⟩
    intro i
    exact ⟨granted_le size.toNat, (h.inside i).size_le⟩

private theorem addData_overflows (times : Nat → UInt16) (h : EveryPacket Inside queue)
    {bytes : List UInt8} (hbeyond : Overflows queue.lastTxPacket bytes)
    (hsmall : maxSize + bytes.length < 2 ^ 16) :
    ∃ count queue', addDataBytesToTxPacket times queue bytes = (.ok (count + 1), queue') ∧
      ¬ EveryPacket Inside queue' := by
  have before := h.last.size_le
  obtain ⟨-, -, -, beyond⟩ := id hbeyond
  obtain ⟨count, length⟩ : ∃ count, bytes.length = count + 1 := ⟨bytes.length - 1, by omega⟩
  have nonempty : bytes ≠ [] := List.length_pos_iff.mp (by omega)
  obtain ⟨fuel, rounds⟩ : ∃ fuel, packetCount = fuel + 1 :=
    ⟨packetCount - 1, by have := NeZero.pos packetCount; omega⟩
  have loop : addDataBytesLoop times (fuel + 1) queue bytes 0 =
      (.ok (count + 1), queue.tick.setLastTxPacket (queue.lastTxPacket.putAll bytes)) := by
    rw [addDataBytesLoop, if_neg nonempty, addSysexData_overflows hbeyond (by omega)]
    simp only [Nat.lt_irrefl, if_false, Nat.zero_add, length]
  refine ⟨count, (queue.tick.setLastTxPacket (queue.lastTxPacket.putAll bytes)).setHasTxData true,
    ?_, ?_⟩
  · unfold addDataBytesToTxPacket
    rw [show addDataBytesLoop times packetCount queue bytes 0 =
      addDataBytesLoop times (fuel + 1) queue bytes 0 from congrArg
        (fun fuel => addDataBytesLoop times fuel queue bytes 0) rounds, loop]
    simp only [Nat.succ_pos, if_true]
  · intro inside
    have after := inside.last.size_le
    change ((queue.tick.setLastTxPacket _).lastTxPacket).txBufSize.toNat ≤ maxSize at after
    rw [lastTxPacket_setLastTxPacket, putAll_size (by omega)] at after
    omega

/-- The condition is exact: an iteration leaves a packet outside its buffer if and only if it
overruns. -/
theorem Bounded.step_iff (times : Nat → UInt16) (h : Bounded queue)
    (hsmall : maxSize + (dataToAdd queue).length < 2 ^ 16) (msgBytes : MessageBytes) :
    EveryPacket Inside (readStep times queue msgBytes).queue ↔ ¬ Overruns queue := by
  refine ⟨?_, fun safe => (h.step times safe msgBytes).inside⟩
  rintro inside ⟨nonempty, overflows⟩
  have shrunk := h.inside.last.size_le
  have beyond := overflows.2.2.2
  obtain ⟨chunks, held, wellFormed⟩ := h.chunks
  have case := readStep_case times held wellFormed msgBytes
  generalize readStep times queue msgBytes = r at case inside
  cases case with
  | empty => cases nonempty.symm.trans held.isEmpty_nil
  | remaining msgBytes remaining =>
    rw [dataToAdd_remaining remaining] at overflows hsmall
    obtain ⟨count, queue', added, outside⟩ := addData_overflows times h.inside overflows hsmall
    rw [TxQueue.readRemaining, added] at inside
    exact outside inside
  | threeBytes bytes idle =>
    rw [dataToAdd_threeBytes held (wellFormed _ List.mem_cons_self) idle] at beyond
    exact absurd beyond (Nat.not_lt.mpr shrunk)
  | data bytes msgBytes idle =>
    rw [dataToAdd_data held (wellFormed _ List.mem_cons_self).2 idle] at overflows hsmall
    have loaded : EveryPacket Inside (queue.load bytes) := h.inside
    obtain ⟨count, queue', added, outside⟩ := addData_overflows times loaded overflows hsmall
    rw [added] at inside
    exact outside inside
  | packetSize size msgBytes idle =>
    rw [dataToAdd_packetSize held idle] at beyond
    exact absurd beyond (Nat.not_lt.mpr shrunk)

omit [NeZero packetCount] in
private theorem Bounded.request (h : Bounded queue) {chunk : Chunk} (hchunk : chunk.WellFormed)
    {fifo : Fifo} (hfifo : fifo.bytes = queue.fifo.bytes ++ chunk.encode) :
    Bounded { queue with fifo := fifo } := by
  obtain ⟨chunks, held, wellFormed⟩ := h.chunks
  exact h.withScratch (held.append hfifo)
    (List.forall_mem_append.mpr ⟨wellFormed, List.forall_mem_singleton.mpr hchunk⟩) _ _ _

private theorem Bounded.init (blank : TxQueue maxSize packetCount)
    (runningStatusEnabled noteOffAsNoteOn : Bool) :
    Bounded (init blank runningStatusEnabled noteOffAsNoteOn) := by
  refine ⟨⟨NeZero.pos packetCount, le_rfl, NeZero.pos packetCount⟩, ?_, [], rfl, ?_⟩
  · intro i
    exact ⟨Nat.zero_le _, Nat.zero_le _⟩
  · intro chunk hchunk
    cases hchunk

/-- Runs from `tx_queue_init` with packet size requests in any order: every packet stays inside
its buffer, as long as no iteration of the reader overruns. -/
theorem txBufSize_le {blank : TxQueue maxSize packetCount}
    {runningStatusEnabled noteOffAsNoteOn : Bool} {times : Nat → UInt16}
    {s : System maxSize packetCount}
    (h : Reach (System.act times)
      (System.permit (fun _ r => r.WellFormed) fun queue => ¬ Overruns queue)
      (System.initial (init blank runningStatusEnabled noteOffAsNoteOn)) s) (i : Fin packetCount) :
    (s.queue.txPackets i).txBufSize.toNat ≤ maxSize := by
  have bounded : Bounded s.queue := by
    refine h.invariant (I := fun s => Bounded s.queue) (Bounded.init blank _ _) ?_
    intro s s' a bounded permitted next
    refine System.act_keeps ?_ ?_ ?_ bounded permitted next
    · intro queue r count fifo bounded wellFormed exec written
      exact bounded.request (Request.chunk_wellFormed wellFormed exec) written
    · intro queue msgBytes bounded safe
      exact bounded.step times safe msgBytes
    · intro queue bounded
      exact bounded.frame (onTxPacketSent_frame _) (bounded.inside.onTxPacketSent Inside.reset)
  exact (bounded.inside i).size_le

/-- A packet that is shrunk to five bytes when it has seven, and takes one more. -/
theorem txBufSize_le_shrunk : ∃ s : System 8 1,
    (s.queue.packets.map Writer.payload = [[0xbf, 0xfe, 0xf0, 1, 2, 3, 4, 5]] ∧
      s.queue.lastTxPacket.txBufMaxSize = 5) ∧
    ∀ i, (s.queue.txPackets i).txBufSize.toNat ≤ 8 := by
  obtain ⟨s, reached, state⟩ := exists_of_replay (System.act millisecondClock)
    (System.permit (fun _ r => r.WellFormed) fun queue => ¬ Overruns queue)
    (System.initial (init (blankQueue 8 1 32) true true))
    (fun s => s.queue.packets.map Writer.payload = [[0xbf, 0xfe, 0xf0, 1, 2, 3, 4, 5]] ∧
      s.queue.lastTxPacket.txBufMaxSize = 5)
    [.request (.addTxPacketSize 8), .request .addSysexStart,
      .request (.addSysexData [1, 2, 3, 4]), .request (.addTxPacketSize 5),
      .request (.addSysexData [5]), .beginRead, .iterateRead, .iterateRead, .iterateRead,
      .iterateRead, .iterateRead]
    (by decide +kernel)
  exact ⟨s, state, txBufSize_le reached⟩

/-- A full packet is shrunk to five bytes and takes a ninth byte, which is written behind its
buffer of eight. -/
theorem txBufSize_exceeds : ∃ s : System 8 1,
    Reach (System.act millisecondClock)
      (System.permit (fun _ r => r.WellFormed) fun _ => True)
      (System.initial (init (blankQueue 8 1 32) true true)) s ∧
    8 < (s.queue.txPackets 0).txBufSize.toNat :=
  exists_of_replay (System.act millisecondClock)
    (System.permit (fun _ r => r.WellFormed) fun _ => True)
    (System.initial (init (blankQueue 8 1 32) true true))
    (fun s => 8 < (s.queue.txPackets 0).txBufSize.toNat)
    [.request (.addTxPacketSize 8), .request .addSysexStart,
      .request (.addSysexData [1, 2, 3, 4, 5]), .request (.addTxPacketSize 5),
      .request (.addSysexData [6]), .beginRead, .iterateRead, .iterateRead, .iterateRead,
      .iterateRead, .iterateRead]
    (by decide +kernel)

end Queue

end BleMidi.Queue
