/- Module: BleMidi/Queue/Recognition
   source: ble_midi/src/tx_queue.c (tx_queue_read_from_fifo, chunk formats)
   digest: The chunks that the FIFO reader recognises are the chunks that were written. -/

import BleMidi.Core.Framing
import BleMidi.Queue.Termination

set_option autoImplicit false
set_option relaxedAutoImplicit false

namespace BleMidi.Queue

open BleMidi.Core.Framing
open BleMidi.Core.Runs
open BleMidi.Packet.Bytes
open BleMidi.Packet.PacketWriter
open BleMidi.Packet.WriterSpec
open TxQueue

variable {maxSize packetCount : Nat}

/-- The chunk that the reader takes the bytes at the head of the FIFO for. -/
def recognise (bytes : List UInt8) : Option Chunk :=
  let msgBytes := peekMsgBytes ⟨0, 0, 0⟩ (bytes.take 3)
  dispatch msgBytes.byte0
    (some (.data ((bytes.take (sysexDataChunkSize msgBytes)).drop sysexDataChunkHeaderSize)))
    (some (.threeBytes msgBytes))
    (some (.packetSize (UInt16.ofNat (word msgBytes.byte1 msgBytes.byte2)))) none

private theorem recognise_threeBytes {bytes : MessageBytes} (h : 128 ≤ bytes.byte0)
    (rest : List UInt8) :
    recognise ((Chunk.threeBytes bytes).encode ++ rest) = some (.threeBytes bytes) := by
  change (if bytes.byte0 = sysexDataChunkId then _ else if 128 ≤ bytes.byte0 then _ else _) = _
  rw [if_neg (ne_sysexDataChunkId h), if_pos h]
  rfl

private theorem recognise_data {bytes : List UInt8}
    (h : bytes.length ≤ sysexDataChunkMaxByteCount) (rest : List UInt8) :
    recognise ((Chunk.data bytes).encode ++ rest) = some (.data bytes) := by
  unfold sysexDataChunkMaxByteCount at h
  change some (Chunk.data ((((Chunk.data bytes).encode ++ rest).take (sysexDataChunkHeaderSize +
    word (UInt8.ofNat (bytes.length &&& 0xff))
      (UInt8.ofNat ((bytes.length >>> 8) &&& 0xff)))).drop sysexDataChunkHeaderSize)) = _
  rw [word_count (n := bytes.length) (by omega), Nat.add_comm]
  change some (Chunk.data ((bytes ++ rest).take bytes.length)) = _
  rw [List.take_left]

private theorem recognise_packetSize (size : UInt16) (rest : List UInt8) :
    recognise ((Chunk.packetSize size).encode ++ rest) = some (.packetSize size) := by
  change some (Chunk.packetSize (UInt16.ofNat (word (size &&& 0xff).toUInt8
    ((size >>> 8) &&& 0xff).toUInt8))) = _
  rw [word_size, UInt16.ofNat_toNat]

/-- The chunks of the FIFO, told apart by their first three bytes. -/
def chunkCode : Code UInt8 Chunk where
  encode := Chunk.encode
  Valid := Chunk.WellFormed
  recognise := recognise
  recognise_nil := rfl
  encode_ne_nil := Chunk.encode_ne_nil
  recognise_append := by
    intro chunk h rest
    cases chunk with
    | threeBytes bytes => exact recognise_threeBytes h rest
    | data bytes => exact recognise_data h.2 rest
    | packetSize size => exact recognise_packetSize size rest

/-- Three bytes that do not start with a status byte are not recognised as a message. -/
theorem recognise_threeBytes_iff (bytes : MessageBytes) (rest : List UInt8) :
    recognise ((Chunk.threeBytes bytes).encode ++ rest) = some (.threeBytes bytes) ↔
      128 ≤ bytes.byte0 := by
  refine ⟨fun h => ?_, fun h => recognise_threeBytes h rest⟩
  change (if bytes.byte0 = sysexDataChunkId then _ else if 128 ≤ bytes.byte0 then _ else _) = _ at h
  by_contra low
  by_cases data : bytes.byte0 = sysexDataChunkId
  · rw [if_pos data] at h
    cases h
  · rw [if_neg data, if_neg low] at h
    split at h <;> cases h

section Reader

variable [NeZero packetCount] {queue queue' : TxQueue maxSize packetCount}

/-- The branches of the reader are those of `recognise`. -/
theorem readStep_recognise (times : Nat → UInt16) (hlen : 3 ≤ queue.fifo.bytes.length)
    (hidle : queue.numRemainingDataBytes = 0) (msgBytes : MessageBytes) :
    readStep times queue msgBytes =
      match recognise queue.fifo.bytes with
      | some (.data _) => readDataChunk times queue queue.headBytes
      | some (.threeBytes bytes) => read3ByteChunk times queue bytes
      | some (.packetSize _) => readPacketSize queue queue.headBytes
      | none => .next (queue, queue.headBytes) := by
  obtain ⟨a, b, c, rest, bytes⟩ : ∃ a b c rest, queue.fifo.bytes = a :: b :: c :: rest := by
    match h : queue.fifo.bytes with
    | a :: b :: c :: rest => exact ⟨a, b, c, rest, rfl⟩
    | [] | [_] | [_, _] => simp [h] at hlen
  have head : ∀ msgBytes, peekMsgBytes msgBytes (queue.fifo.peek 3) = ⟨a, b, c⟩ := by
    intro msgBytes
    rw [Fifo.peek, bytes]
    rfl
  have some : queue.fifo.isEmpty = false := by
    rw [Fifo.isEmpty, bytes]
    rfl
  rw [readStep, if_neg (by simp [some]), if_neg (by omega), head, headBytes, head]
  unfold recognise dispatch
  rw [show peekMsgBytes ⟨0, 0, 0⟩ (queue.fifo.bytes.take 3) = ⟨a, b, c⟩ from head ⟨0, 0, 0⟩]
  by_cases data : a = sysexDataChunkId
  · simp only [if_pos data]
  · by_cases status : 128 ≤ a
    · simp only [if_neg data, if_pos status]
    · by_cases size : a = txMaxPacketSizeChunkId
      · simp only [if_neg data, if_neg status, if_pos size]
      · simp only [if_neg data, if_neg status, if_neg size]

/-- Bytes that are not recognised stay at the head of the FIFO, and the reader looks at them
forever. -/
theorem readFromFifo_unrecognised (times : Nat → UInt16) (hlen : 3 ≤ queue.fifo.bytes.length)
    (hidle : queue.numRemainingDataBytes = 0) (h : recognise queue.fifo.bytes = none)
    (fuel : Nat) : readFromFifo times fuel queue = none := by
  refine loop_stuck (S := fun state => state.1 = queue) ?_ fuel rfl
  rintro ⟨queue', msgBytes⟩ same
  refine ⟨(queue, queue.headBytes), ?_, rfl⟩
  change readStep times queue' msgBytes = _
  rw [show queue' = queue from same, readStep_recognise times hlen hidle, h]

omit [NeZero packetCount] in
/-- What a packet that takes data does with it. Only a packet without any room fails, and only
packets with some room take a part of the data. -/
private theorem takesData_case {w : Writer maxSize} (htakes : TakesData w) {bytes : List UInt8}
    (hsmall : bytes.length ≤ sysexDataChunkMaxByteCount) (hdata : ∀ b ∈ bytes, isDataByte b = true)
    (timestamp : UInt16) :
    match writerAddSysexData w bytes timestamp with
    | (.error _, w') => w' = w ∧ w.txBufMaxSize = 0
    | (.ok count, w') =>
        w'.txBufMaxSize = w.txBufMaxSize ∧ (count < bytes.length → w.txBufMaxSize ≠ 0) := by
  have taken : ¬ (!w.inSysexMsg && decide (0 < w.txBufSize)) = true := by
    rcases htakes with flag | empty
    · simp [flag]
    · simp [empty]
  have valid : ¬ (!bytes.all isDataByte) = true := by simpa using hdata
  unfold sysexDataChunkMaxByteCount at hsmall
  unfold writerAddSysexData
  rw [if_neg taken, if_neg valid]
  by_cases tiny : w.txBufSize = 0 ∧ w.txBufMaxSize < 1
  · rw [if_pos tiny]
    have none := tiny.2
    rw [UInt16.lt_iff_toNat_lt] at none
    refine ⟨rfl, UInt16.toNat_inj.mp ?_⟩
    change _ = 0
    exact Nat.lt_one_iff.mp none
  · rw [if_neg tiny]
    refine ⟨by simp, ?_⟩
    rintro part zero
    -- Without room the packet is not empty, and its negative room counts as a huge one.
    have written : w.txBufSize ≠ 0 := fun empty => tiny ⟨empty, by rw [zero]; decide⟩
    have positive : 0 < w.txBufSize.toNat := UInt16.pos_iff_ne_zero.mpr written
    have bound := UInt16.toNat_lt w.txBufSize
    have header : w.header timestamp = [] := if_neg written
    rw [header] at part
    change w.numDataBytesToAdd bytes.length < bytes.length at part
    unfold Writer.numDataBytesToAdd uint32 Writer.room at part
    rw [zero] at part
    change (if ((0 - (w.txBufSize.toNat : Int)) % 2 ^ 32).toNat < _ then _ else _) < _ at part
    rw [if_neg (by omega)] at part
    exact Nat.lt_irrefl _ part

/-- A queue whose packets have the same maximum size. -/
def Uniform (size : UInt16) (queue : TxQueue maxSize packetCount) : Prop :=
  EveryPacket (fun w => w.txBufMaxSize = size) queue

private theorem Uniform.addData (times : Nat → UInt16) {size : UInt16} (h : Uniform size queue)
    (hwindow : Window queue) {bytes : List UInt8} (hbytes : bytes ≠ [])
    (hsmall : bytes.length ≤ sysexDataChunkMaxByteCount) (hdata : ∀ b ∈ bytes, isDataByte b = true)
    (htakes : TakesData queue.lastTxPacket) :
    match addDataBytesToTxPacket times queue bytes with
    | (.error _, queue') => size = 0 ∧ Uniform size queue' ∧ Frame queue queue'
    | (.ok count, queue') =>
        count ≤ bytes.length ∧ (count < bytes.length → size ≠ 0) ∧ Uniform size queue' ∧
          Frame queue queue' := by
  have reset (w : Writer maxSize) (hw : w.txBufMaxSize = size) :
      (writerReset w).txBufMaxSize = size := hw
  have frame := addDataBytes_frame times queue bytes
  have rule := addDataBytes_rule times
    (R := fun q left => Uniform size q ∧ left.length ≤ sysexDataChunkMaxByteCount ∧
      (∀ b ∈ left, isDataByte b = true) ∧ TakesData q.lastTxPacket)
    (D := fun q left => Uniform size q ∧ left.length ≤ sysexDataChunkMaxByteCount ∧
      (∀ b ∈ left, isDataByte b = true) ∧ (left ≠ [] → size ≠ 0))
    (F := fun q => size = 0 ∧ Uniform size q) ?_ ?_ ?_ ⟨h, hsmall, hdata, htakes⟩ hbytes hwindow
  · rcases result : addDataBytesToTxPacket times queue bytes with ⟨code | count, queue'⟩
    · rw [result] at rule frame
      exact ⟨rule.1, rule.2, frame⟩
    · rw [result] at rule frame
      obtain ⟨most, uniform, -, -, part⟩ := rule
      refine ⟨most, fun less => part ?_, uniform, frame⟩
      rw [ne_eq, List.drop_eq_nil_iff]
      omega
  · intro q left ⟨uniform, small, data, takes⟩ _
    have case := takesData_case takes small data (times q.clock)
    have last : q.lastTxPacket.txBufMaxSize = size := uniform.last
    have ticked : EveryPacket (fun w => w.txBufMaxSize = size) q.tick := uniform
    have written (w : Writer maxSize) (hw : w.txBufMaxSize = size) :
        Uniform size (q.tick.setLastTxPacket w) := ticked.setLastTxPacket hw
    rcases result : writerAddSysexData q.lastTxPacket left (times q.clock) with ⟨code | count, w⟩
    · rw [result] at case
      obtain ⟨rfl, zero⟩ := case
      exact ⟨last.symm.trans zero, written _ last⟩
    · rw [result] at case
      refine ⟨writerAddSysexData_count_le result, written w (case.1.trans last), ?_, ?_, ?_⟩
      · rw [List.length_drop]
        exact (Nat.sub_le _ _).trans small
      · exact fun b hb => data b (List.mem_of_mem_drop hb)
      · intro rest
        rw [ne_eq, List.drop_eq_nil_iff] at rest
        rw [← last]
        exact case.2 (by omega)
  · intro q left ⟨uniform, small, data, _⟩ _ free
    refine ⟨EveryPacket.push reset uniform free, small, data, ?_⟩
    rw [lastTxPacket_push free]
    exact .inr rfl
  · intro q left done
    exact done

/-- The well formed chunks at the head of the FIFO, in front of a tail, and the data in the scratch
buffer. -/
structure Framed (queue : TxQueue maxSize packetCount) (queued tail : List Chunk) : Prop where
  window : Window queue
  uniform : ∃ size, Uniform size queue ∧ (0 < queue.numRemainingDataBytes → size ≠ 0)
  held : queue.fifo.Holds (queued ++ tail)
  wellFormed : ∀ chunk ∈ queued, chunk.WellFormed
  pending : ∃ data, Pending queue data ∧ data.length ≤ sysexDataChunkMaxByteCount

/-- What an iteration of the reader comes to. -/
inductive Iterates (queue : TxQueue maxSize packetCount) (queued tail : List Chunk) :
    ReadStep maxSize packetCount → Prop
  | returns {code : TxQueueError} {queue' : TxQueue maxSize packetCount} :
      queue'.fifo = queue.fifo → Framed queue' queued tail →
      Iterates queue queued tail (.ret (code, queue'))
  | reads {chunk : Chunk} {rest : List Chunk} {queue' : TxQueue maxSize packetCount}
      {msgBytes : MessageBytes} :
      queued = chunk :: rest → queue'.fifo = queue.fifo.read chunk.encode.length →
      Framed queue' rest tail → Iterates queue queued tail (.next (queue', msgBytes))
  | adds {queue' : TxQueue maxSize packetCount} {msgBytes : MessageBytes} :
      queue'.fifo = queue.fifo → queue'.numRemainingDataBytes < queue.numRemainingDataBytes →
      Framed queue' queued tail → Iterates queue queued tail (.next (queue', msgBytes))

omit [NeZero packetCount] in
theorem Framed.frame {queued tail : List Chunk} (h : Framed queue queued tail)
    (hframe : Frame queue queue') (hmax : ∀ size, Uniform size queue → Uniform size queue') :
    Framed queue' queued tail := by
  obtain ⟨window, ⟨size, uniform, some⟩, held, wellFormed, data, pending, small⟩ := h
  refine ⟨hframe.window window, ⟨size, hmax size uniform, ?_⟩, hframe.holds held, wellFormed, data,
    pending.frame hframe, small⟩
  rw [hframe.numRemainingDataBytes]
  exact some

theorem Framed.remaining (times : Nat → UInt16) {queued tail : List Chunk}
    (h : Framed queue queued tail) (hremaining : 0 < queue.numRemainingDataBytes)
    (htakes : TakesData queue.lastTxPacket) (msgBytes : MessageBytes) :
    Iterates queue queued tail (readRemaining times queue msgBytes) := by
  obtain ⟨window, ⟨size, uniform, some⟩, held, wellFormed, data, pending, small⟩ := h
  have positive := hremaining
  rw [pending.remaining] at positive
  have case := uniform.addData times window (List.length_pos_iff.mp positive) small pending.valid
    htakes
  rw [readRemaining, pending.bytes]
  rcases result : addDataBytesToTxPacket times queue data with ⟨code | count, queue'⟩
  · rw [result] at case
    exact absurd case.1 (some hremaining)
  · rw [result] at case
    obtain ⟨most, -, uniform', frame⟩ := case
    have some' : size ≠ 0 := some hremaining
    cases count with
    | zero =>
      exact .returns frame.fifo ⟨frame.window window, ⟨size, uniform', fun _ => some'⟩,
        frame.holds held, wellFormed, data, pending.frame frame, small⟩
    | succ count =>
      have window' := frame.window window
      refine .adds frame.fifo ?_ ⟨window'.of_eq rfl rfl,
        ⟨size, uniform', fun _ => some'⟩, frame.holds held, wellFormed, data.drop (count + 1),
        (pending.frame frame).drop most, ?_⟩
      · change queue'.numRemainingDataBytes - (count + 1) < _
        rw [frame.numRemainingDataBytes]
        omega
      · rw [List.length_drop]
        exact (Nat.sub_le _ _).trans small

private theorem Framed.threeBytes (times : Nat → UInt16) {bytes : MessageBytes}
    {queued tail : List Chunk} (h : Framed queue (.threeBytes bytes :: queued) tail)
    (msgBytes : MessageBytes) :
    Iterates queue (.threeBytes bytes :: queued) tail (read3ByteChunk times queue msgBytes) := by
  have frame := add3_frame times queue msgBytes
  have uniform (size : UInt16) (huniform : Uniform size queue) :
      Uniform size (add3ByteChunkToTxPacket times queue msgBytes).2 :=
    huniform.add3 times (fun _ hw => hw)
      fun w timestamp hw => (addChunk_extends msgBytes timestamp w).txBufMaxSize.trans hw
  have framed := h.frame frame uniform
  rcases read3ByteChunk_cases times queue msgBytes with stays | reads
  · rw [stays]
    exact .returns frame.fifo framed
  · rw [reads]
    obtain ⟨window, uniform', held, wellFormed, data, pending, small⟩ := framed
    refine .reads rfl (congrArg (fun fifo => Fifo.read fifo 3) frame.fifo) ?_
    exact ⟨window.of_eq rfl rfl, uniform', held.read,
      fun c hc => wellFormed c (List.mem_cons_of_mem _ hc), data, pending.withFifo _, small⟩

private theorem Framed.data (times : Nat → UInt16) {bytes : List UInt8}
    {queued tail : List Chunk} (h : Framed queue (.data bytes :: queued) tail)
    (hidle : queue.numRemainingDataBytes = 0) (msgBytes : MessageBytes) :
    Iterates queue (.data bytes :: queued) tail (afterData bytes msgBytes
      (addDataBytesToTxPacket times (queue.load bytes) bytes)) := by
  obtain ⟨window, ⟨size, uniform, -⟩, held, wellFormed, -⟩ := h
  have rest : ∀ c ∈ queued, c.WellFormed := fun c hc => wellFormed c (List.mem_cons_of_mem _ hc)
  obtain ⟨least, small⟩ : Chunk.WellFormed (.data bytes) := wellFormed _ List.mem_cons_self
  have nonempty : bytes ≠ [] := List.length_pos_iff.mp least
  have loaded : Window (queue.load bytes) := window.of_eq rfl rfl
  have skipped {queue' : TxQueue maxSize packetCount} (frame : Frame (queue.load bytes) queue')
      (uniform' : Uniform size queue') (code : TxQueueError) : Iterates queue
        (.data bytes :: queued) tail (afterData bytes msgBytes (.error code, queue')) := by
    have idle : queue'.numRemainingDataBytes = 0 := frame.numRemainingDataBytes.trans hidle
    have window' := frame.window loaded
    refine .reads rfl (congrArg (fun fifo => Fifo.read fifo _) frame.fifo) ?_
    refine ⟨window'.of_eq rfl rfl, ⟨size, uniform', ?_⟩,
      frame.holds_read held, rest, [], Pending.nil idle, Nat.zero_le _⟩
    intro positive
    exact absurd idle (Nat.ne_of_gt positive)
  have ticked : Frame (queue.load bytes) (queue.load bytes).tick := Frame.tick _
  by_cases accepted :
    (∀ b ∈ bytes, isDataByte b = true) ∧ TakesData (queue.load bytes).lastTxPacket
  swap
  · rw [addData_unaccepted nonempty accepted]
    exact skipped ticked uniform _
  obtain ⟨valid, takes⟩ := accepted
  have full : Uniform size (queue.load bytes) := uniform
  have case := full.addData times loaded nonempty small valid takes
  rcases result : addDataBytesToTxPacket times (queue.load bytes) bytes with
    ⟨code | count, queue'⟩
  · rw [result] at case
    exact skipped case.2.2 case.2.1 code
  · rw [result] at case
    obtain ⟨most, part, uniform', frame⟩ := case
    have window' := frame.window loaded
    have idle : queue'.numRemainingDataBytes = 0 := frame.numRemainingDataBytes.trans hidle
    cases count with
    | zero =>
      refine .returns frame.fifo ⟨window', ⟨size, uniform', ?_⟩, frame.holds held, wellFormed, [],
        Pending.nil idle, Nat.zero_le _⟩
      intro positive
      exact absurd idle (Nat.ne_of_gt positive)
    | succ count =>
      refine .reads rfl (congrArg (fun fifo => Fifo.read fifo _) frame.fifo) ?_
      refine ⟨window'.of_eq rfl rfl, ⟨size, uniform', ?_⟩,
        frame.holds_read held, rest, bytes.drop (count + 1), Pending.ofChunk frame valid most _, ?_⟩
      · intro positive
        change 0 < bytes.length - (count + 1) at positive
        exact part (by omega)
      · rw [List.length_drop]
        exact (Nat.sub_le _ _).trans small

omit [NeZero packetCount] in
theorem Framed.packetSize {size : UInt16} {queued tail : List Chunk}
    (h : Framed queue (.packetSize size :: queued) tail) (hidle : queue.numRemainingDataBytes = 0)
    (granted : UInt16) :
    Framed { queue with
      txPackets := fun i => { queue.txPackets i with txBufMaxSize := granted }
      fifo := queue.fifo.read 3 } queued tail := by
  obtain ⟨window, -, held, wellFormed, -⟩ := h
  refine ⟨window.of_eq rfl rfl, ⟨granted, fun _ => rfl, ?_⟩, held.read,
    fun c hc => wellFormed c (List.mem_cons_of_mem _ hc), [], Pending.nil hidle, Nat.zero_le _⟩
  intro positive
  exact absurd hidle (Nat.ne_of_gt positive)

/-- An iteration that is not stalled returns, reads the chunk at the head of the FIFO or adds
pending data. The tail does not matter as long as it is not at the head. -/
theorem Framed.iterates (times : Nat → UInt16) {queued tail : List Chunk}
    (h : Framed queue queued tail)
    (hhead : tail = [] ∨ queued ≠ [] ∨ 0 < queue.numRemainingDataBytes)
    (hmoves : ¬ Stalled queue) (msgBytes : MessageBytes) :
    Iterates queue queued tail (readStep times queue msgBytes) := by
  by_cases idle : queue.numRemainingDataBytes = 0
  · cases queued with
    | nil =>
      have none : tail = [] := by
        rcases hhead with none | some | remaining
        · exact none
        · exact absurd rfl some
        · exact absurd idle (Nat.ne_of_gt remaining)
      subst none
      rw [readStep_empty times h.held]
      exact .returns rfl h
    | cons chunk queued =>
      have wellFormed := h.wellFormed chunk List.mem_cons_self
      cases chunk with
      | threeBytes bytes =>
        rw [readStep_threeBytes times h.held wellFormed idle]
        exact h.threeBytes times bytes
      | data bytes =>
        obtain ⟨msgBytes', eq⟩ := readStep_data times h.held wellFormed.2 idle msgBytes
        rw [eq]
        exact h.data times idle msgBytes'
      | packetSize size =>
        obtain ⟨msgBytes', eq⟩ := readStep_packetSize times h.held idle msgBytes
        rw [eq]
        exact .reads rfl rfl (h.packetSize idle _)
  · have remaining : 0 < queue.numRemainingDataBytes := Nat.pos_of_ne_zero idle
    cases eq : queued ++ tail with
    | nil =>
      have held := h.held
      rw [eq] at held
      rw [readStep_empty times held]
      exact .returns rfl h
    | cons chunk chunks =>
      have held := h.held
      rw [eq] at held
      have takes : TakesData queue.lastTxPacket := by
        by_contra refuses
        exact hmoves ⟨held.isEmpty_cons, remaining, refuses⟩
      rw [readStep_remaining times held remaining]
      exact h.remaining times remaining takes msgBytes

private theorem Framed.stalled (times : Nat → UInt16) {queued tail : List Chunk}
    (h : Framed queue queued tail) (hstalled : Stalled queue) (msgBytes : MessageBytes) :
    readStep times queue msgBytes = .next (queue.tick, msgBytes) := by
  obtain ⟨data, pending, -⟩ := h.pending
  exact hstalled.readStep_eq times h.held pending msgBytes

/-- What an iteration leaves is framed. -/
theorem Framed.step (times : Nat → UInt16) {queued tail : List Chunk} (h : Framed queue queued tail)
    (hhead : tail = [] ∨ queued ≠ [] ∨ 0 < queue.numRemainingDataBytes) (msgBytes : MessageBytes) :
    ∃ rest n, Framed (readStep times queue msgBytes).queue rest tail ∧
      (readStep times queue msgBytes).queue.fifo = queue.fifo.read n := by
  by_cases stalled : Stalled queue
  · rw [h.stalled times stalled]
    exact ⟨queued, 0, h.frame (Frame.tick queue) fun _ => id, rfl⟩
  · have iterates := h.iterates times hhead stalled msgBytes
    generalize readStep times queue msgBytes = r at iterates ⊢
    cases iterates with
    | returns same framed => exact ⟨queued, 0, framed, same⟩
    | reads _ read framed => exact ⟨_, _, framed, read⟩
    | adds same _ framed => exact ⟨queued, 0, framed, same⟩

/-- A call of the reader returns if and only if no iteration of it is stalled. -/
theorem Framed.returns_iff (times : Nat → UInt16) {queued : List Chunk}
    (h : Framed queue queued []) (msgBytes : MessageBytes) :
    (∃ fuel result, loop (readBody times) fuel (queue, msgBytes) = some result) ↔
      ∀ k state, before (readBody times) k (queue, msgBytes) = some state → ¬ Stalled state.1 := by
  refine loop_returns_iff wellFounded_lt readMeasure (s := (queue, msgBytes))
    (I := fun state => ∃ queued, Framed state.1 queued []) (S := fun state => Stalled state.1) ?_ ?_
    ?_ ⟨queued, h⟩
  · intro state state' ⟨queued, framed⟩ next
    obtain ⟨rest, -, framed', -⟩ := framed.step times (.inl rfl) state.2
    rw [show readStep times state.1 state.2 = .next state' from next] at framed'
    exact ⟨rest, framed'⟩
  · intro state state' ⟨queued, framed⟩ free next
    have iterates := framed.iterates times (.inl rfl) free state.2
    rw [show readStep times state.1 state.2 = .next state' from next] at iterates
    rw [readMeasure, readMeasure, Prod.Lex.toLex_lt_toLex]
    cases iterates with
    | reads cons read _ =>
      refine .inl ?_
      change _ < state.1.fifo.bytes.length
      subst cons
      rw [read]
      exact framed.held.read_length_lt
    | adds same less _ => exact .inr ⟨congrArg (fun fifo => fifo.bytes.length) same, less⟩
  · intro state ⟨queued, framed⟩ stalled
    exact ⟨_, framed.stalled times stalled state.2, stalled⟩

end Reader

/-- The chunks that the reader recognises in the FIFO. -/
def Fifo.recognised (fifo : Fifo) : List Chunk := chunkCode.decode fifo.bytes.length fifo.bytes

section Runs

variable {queue : TxQueue maxSize packetCount} {queued : List Chunk}

theorem Framed.holds (h : Framed queue queued []) : queue.fifo.Holds queued := by
  have held := h.held
  rw [List.append_nil] at held
  exact held

theorem Fifo.recognised_eq {fifo : Fifo} {chunks : List Chunk} (h : fifo.Holds chunks)
    (hchunks : ∀ chunk ∈ chunks, chunk.WellFormed) : fifo.recognised = chunks := by
  unfold Fifo.recognised
  rw [show fifo.bytes = chunks.flatMap Chunk.encode from h]
  exact Code.decode_text (C := chunkCode) hchunks

theorem Framed.recognised (h : Framed queue queued []) : queue.fifo.recognised = queued :=
  Fifo.recognised_eq h.holds h.wellFormed

theorem Framed.head (h : Framed queue queued []) :
    recognise queue.fifo.bytes = queued.head? := by
  rw [show queue.fifo.bytes = queued.flatMap Chunk.encode from h.holds]
  exact Code.recognise_flatMap (C := chunkCode) h.wellFormed

theorem Framed.append (h : Framed queue queued []) {chunk : Chunk} (hchunk : chunk.WellFormed)
    {fifo : Fifo} (hfifo : fifo.bytes = queue.fifo.bytes ++ chunk.encode) :
    Framed { queue with fifo := fifo } (queued ++ [chunk]) [] := by
  have held := h.holds.append hfifo
  obtain ⟨window, uniform, -, wellFormed, data, pending, small⟩ := h
  refine ⟨window.of_eq rfl rfl, uniform, ?_,
    List.forall_mem_append.mpr ⟨wellFormed, List.forall_mem_singleton.mpr hchunk⟩, data,
    pending.withFifo fifo, small⟩
  rw [List.append_nil]
  exact held

variable [NeZero packetCount]

theorem Framed.sent {tail : List Chunk} (h : Framed queue queued tail) :
    Framed queue.onTxPacketSent.2 queued tail :=
  h.frame (onTxPacketSent_frame queue) fun _ uniform =>
    EveryPacket.onTxPacketSent (fun _ hw => hw) uniform

theorem Framed.init (blank : TxQueue maxSize packetCount)
    (runningStatusEnabled noteOffAsNoteOn : Bool) :
    Framed (init blank runningStatusEnabled noteOffAsNoteOn) [] [] := by
  refine ⟨⟨NeZero.pos packetCount, le_rfl, NeZero.pos packetCount⟩, ⟨0, fun _ => rfl, ?_⟩, rfl, ?_,
    [], Pending.nil rfl, Nat.zero_le _⟩
  · intro positive
    exact absurd positive (Nat.lt_irrefl 0)
  · intro chunk hchunk
    cases hchunk

/-- Runs with well formed calls keep the chunks of the FIFO, whether the reader stalls or not. -/
theorem framed_run {times : Nat → UInt16} {blank : TxQueue maxSize packetCount}
    {runningStatusEnabled noteOffAsNoteOn : Bool} {s : System maxSize packetCount}
    (h : Reach (System.act times) (System.permit (fun _ r => r.WellFormed) fun _ => True)
      (System.initial (init blank runningStatusEnabled noteOffAsNoteOn)) s) :
    ∃ queued, Framed s.queue queued [] := by
  refine h.invariant (I := fun s => ∃ queued, Framed s.queue queued []) ⟨[], Framed.init _ _ _⟩ ?_
  intro s s' a framed permitted next
  refine System.act_keeps (I := fun queue => ∃ queued, Framed queue queued []) ?_ ?_ ?_ framed
    permitted next
  · intro queue r count fifo ⟨queued, framed⟩ wellFormed exec written
    exact ⟨_, framed.append (Request.chunk_wellFormed wellFormed exec) written⟩
  · intro queue msgBytes ⟨queued, framed⟩ _
    obtain ⟨rest, -, framed', -⟩ := framed.step times (.inl rfl) msgBytes
    exact ⟨rest, framed'⟩
  · intro queue ⟨queued, framed⟩
    exact ⟨queued, framed.sent⟩

end Runs

end BleMidi.Queue
