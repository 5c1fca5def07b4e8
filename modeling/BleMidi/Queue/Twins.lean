/- Module: BleMidi/Queue/Twins
   source: ble_midi/src/tx_queue.c
   digest: Two queues whose readers do the same with the chunk at the head of their FIFOs. -/

import BleMidi.Core.Lockstep
import BleMidi.Packet.WriterTwins
import BleMidi.Queue.Steady

set_option autoImplicit false
set_option relaxedAutoImplicit false

namespace BleMidi.Queue

open BleMidi.Core.Lockstep
open BleMidi.Core.Runs
open BleMidi.Packet.Bytes
open BleMidi.Packet.PacketWriter
open BleMidi.Packet.WriterSpec
open BleMidi.Packet.WriterTwins
open TxQueue

variable {maxSize packetCount : Nat}

/-- Two queues with the same packets, the same pending data and clocks that show the same times.
Nothing is said of their FIFOs, nor of the bytes of their buffers that are not read any more. -/
structure Twins (times times' : Nat → UInt16) (queue queue' : TxQueue maxSize packetCount) :
    Prop where
  packets : ∀ i, Alike (queue.txPackets i) (queue'.txPackets i)
  firstTxPacketIdx : queue'.firstTxPacketIdx = queue.firstTxPacketIdx
  txPacketCount : queue'.txPacketCount = queue.txPacketCount
  hasTxData : queue'.hasTxData = queue.hasTxData
  pending : ∃ data, Pending queue data ∧ Pending queue' data
  clock : ∀ k, times' (queue'.clock + k) = times (queue.clock + k)

namespace Twins

variable {times times' : Nat → UInt16} {queue queue' : TxQueue maxSize packetCount}

theorem time (h : Twins times times' queue queue') : times' queue'.clock = times queue.clock :=
  h.clock 0

theorem tick (h : Twins times times' queue queue') : Twins times times' queue.tick queue'.tick := by
  obtain ⟨packets, first, count, flag, ⟨data, pending, pending'⟩, clock⟩ := h
  refine ⟨packets, first, count, flag, ⟨data, pending.frame (Frame.tick _),
    pending'.frame (Frame.tick _)⟩, fun k => ?_⟩
  have later := clock (1 + k)
  rw [← Nat.add_assoc, ← Nat.add_assoc] at later
  exact later

theorem setHasTxData (h : Twins times times' queue queue') (hasData : Bool) :
    Twins times times' (queue.setHasTxData hasData) (queue'.setHasTxData hasData) := by
  obtain ⟨packets, first, count, -, ⟨data, pending, pending'⟩, clock⟩ := h
  exact ⟨packets, first, count, rfl, ⟨data, pending.frame (Frame.setHasTxData _ _),
    pending'.frame (Frame.setHasTxData _ _)⟩, clock⟩

theorem withFifo (h : Twins times times' queue queue') (fifo fifo' : Fifo) :
    Twins times times' { queue with fifo := fifo } { queue' with fifo := fifo' } := by
  obtain ⟨packets, first, count, flag, ⟨data, pending, pending'⟩, clock⟩ := h
  exact ⟨packets, first, count, flag, ⟨data, pending.withFifo _, pending'.withFifo _⟩, clock⟩

variable [NeZero packetCount]

theorem lastSlot (h : Twins times times' queue queue') : queue'.lastSlot = queue.lastSlot := by
  rw [TxQueue.lastSlot, h.firstTxPacketIdx, h.txPacketCount]
  rfl

theorem last (h : Twins times times' queue queue') :
    Alike queue.lastTxPacket queue'.lastTxPacket := by
  unfold lastTxPacket
  rw [h.lastSlot]
  exact h.packets _

theorem setLastTxPacket (h : Twins times times' queue queue') {w w' : Writer maxSize}
    (hw : Alike w w') :
    Twins times times' (queue.setLastTxPacket w) (queue'.setLastTxPacket w') := by
  have slots := h.lastSlot
  obtain ⟨packets, first, count, flag, ⟨data, pending, pending'⟩, clock⟩ := h
  refine ⟨fun i => ?_, first, count, flag, ⟨data, pending.frame (Frame.setLastTxPacket _ _),
    pending'.frame (Frame.setLastTxPacket _ _)⟩, clock⟩
  change Alike (Function.update queue.txPackets queue.lastSlot w i)
    (Function.update queue'.txPackets queue'.lastSlot w' i)
  rw [slots]
  by_cases same : i = queue.lastSlot
  · rw [same, Function.update_self, Function.update_self]
    exact hw
  · rw [Function.update_of_ne same, Function.update_of_ne same]
    exact packets i

theorem push (h : Twins times times' queue queue') (hlt : queue.txPacketCount < packetCount) :
    Twins times times' queue.push queue'.push := by
  have hlt' : queue'.txPacketCount < packetCount := by
    rw [h.txPacketCount]
    exact hlt
  have next : Alike queue.nextTxPacket queue'.nextTxPacket := by
    unfold nextTxPacket
    rw [h.firstTxPacketIdx, h.txPacketCount]
    exact h.packets _
  rw [push_eq hlt, push_eq hlt']
  obtain ⟨packets, first, count, flag, ⟨data, pending, pending'⟩, clock⟩ := h
  have grown : Twins times times' { queue with txPacketCount := queue.txPacketCount + 1 }
      { queue' with txPacketCount := queue'.txPacketCount + 1 } :=
    ⟨packets, first, congrArg (· + 1) count, flag,
      ⟨data, ⟨pending.1, pending.2, pending.3, pending.4⟩,
        ⟨pending'.1, pending'.2, pending'.3, pending'.4⟩⟩, clock⟩
  exact grown.setLastTxPacket next.reset

theorem sent (h : Twins times times' queue queue') :
    queue.onTxPacketSent.1 = queue'.onTxPacketSent.1 ∧
      Twins times times' queue.onTxPacketSent.2 queue'.onTxPacketSent.2 := by
  refine ⟨by rw [onTxPacketSent_code, onTxPacketSent_code, h.hasTxData], ?_⟩
  have flags := h.hasTxData
  have slots : queue'.firstSlot = queue.firstSlot := by
    rw [firstSlot, h.firstTxPacketIdx]
    rfl
  cases flag : queue.hasTxData with
  | false =>
    rw [(onTxPacketSent_clear flag).2, (onTxPacketSent_clear (flags.trans flag)).2]
    exact h
  | true =>
    rw [onTxPacketSent_eq flag, onTxPacketSent_eq (flags.trans flag), slots, h.txPacketCount,
      h.firstTxPacketIdx]
    obtain ⟨packets, first, count, -, ⟨data, pending, pending'⟩, clock⟩ := h
    have emptied (i : Fin packetCount) :
        Alike (Function.update queue.txPackets queue.firstSlot
            (writerReset (queue.txPackets queue.firstSlot)) i)
          (Function.update queue'.txPackets queue.firstSlot
            (writerReset (queue'.txPackets queue.firstSlot)) i) := by
      by_cases same : i = queue.firstSlot
      · rw [same, Function.update_self, Function.update_self]
        exact (packets _).reset
      · rw [Function.update_of_ne same, Function.update_of_ne same]
        exact packets i
    by_cases one : queue.txPacketCount ≤ 1
    · rw [if_pos one, if_pos one]
      exact ⟨emptied, rfl, rfl, rfl, ⟨data, ⟨pending.1, pending.2, pending.3, pending.4⟩,
        ⟨pending'.1, pending'.2, pending'.3, pending'.4⟩⟩, clock⟩
    · rw [if_neg one, if_neg one]
      exact ⟨emptied, rfl, rfl, flags, ⟨data, ⟨pending.1, pending.2, pending.3, pending.4⟩,
        ⟨pending'.1, pending'.2, pending'.3, pending'.4⟩⟩, clock⟩

theorem addChunk (h : Twins times times' queue queue') (bytes : MessageBytes) (timestamp : UInt16) :
    (TxQueue.addChunk bytes timestamp queue.lastTxPacket).1 =
        (TxQueue.addChunk bytes timestamp queue'.lastTxPacket).1 ∧
      Alike (TxQueue.addChunk bytes timestamp queue.lastTxPacket).2
        (TxQueue.addChunk bytes timestamp queue'.lastTxPacket).2 := by
  unfold TxQueue.addChunk
  by_cases start : bytes.byte0 = sysexStart
  · rw [if_pos start, if_pos start]
    exact h.last.startSysexMsg timestamp
  rw [if_neg start, if_neg start]
  by_cases finish : bytes.byte0 = sysexEnd
  · rw [if_pos finish, if_pos finish]
    exact h.last.endSysexMsg timestamp
  · rw [if_neg finish, if_neg finish]
    exact h.last.addMsg bytes timestamp

private theorem attempts (bytes : MessageBytes) (timestamp : UInt16) (left : Nat) :
    ∀ {queue queue' : TxQueue maxSize packetCount}, Twins times times' queue queue' →
      (add3ByteChunkAttempts bytes timestamp left queue).1 =
          (add3ByteChunkAttempts bytes timestamp left queue').1 ∧
        Twins times times' (add3ByteChunkAttempts bytes timestamp left queue).2
          (add3ByteChunkAttempts bytes timestamp left queue').2 := by
  induction left with
  | zero =>
    intro queue queue' h
    exact ⟨rfl, h⟩
  | succ left ih =>
    intro queue queue' h
    obtain ⟨same, alike⟩ := h.addChunk bytes timestamp
    rw [add3ByteChunkAttempts, add3ByteChunkAttempts]
    rcases result : TxQueue.addChunk bytes timestamp queue.lastTxPacket with ⟨code, w⟩
    rcases result' : TxQueue.addChunk bytes timestamp queue'.lastTxPacket with ⟨code', w'⟩
    rw [result, result'] at same alike
    obtain rfl : code = code' := same
    have written := h.setLastTxPacket (show Alike w w' from alike)
    by_cases full : code = .packetFull
    · subst full
      by_cases final : left = 0
      · simp only [if_pos final]
        exact ⟨trivial, written⟩
      · simp only [if_neg final]
        by_cases free : (queue.setLastTxPacket w).txPacketCount < packetCount
        · have free' : (queue'.setLastTxPacket w').txPacketCount < packetCount := by
            rw [written.txPacketCount]
            exact free
          rw [txPacketAdd_of_lt free, txPacketAdd_of_lt free']
          exact ih (written.push free)
        · have full := Nat.le_of_not_lt free
          have full' : packetCount ≤ (queue'.setLastTxPacket w').txPacketCount := by
            rw [written.txPacketCount]
            exact full
          rw [txPacketAdd_of_le full, txPacketAdd_of_le full']
          exact ⟨rfl, written⟩
    · cases code <;> first | exact ⟨rfl, written⟩ | exact absurd rfl full

theorem add3 (h : Twins times times' queue queue') (bytes : MessageBytes) :
    (add3ByteChunkToTxPacket times queue bytes).1 =
        (add3ByteChunkToTxPacket times' queue' bytes).1 ∧
      Twins times times' (add3ByteChunkToTxPacket times queue bytes).2
        (add3ByteChunkToTxPacket times' queue' bytes).2 := by
  obtain ⟨same, twins⟩ := attempts bytes (times queue.clock) 2 h.tick
  unfold add3ByteChunkToTxPacket
  rw [h.time]
  revert same twins
  rcases add3ByteChunkAttempts bytes (times queue.clock) 2 queue.tick with ⟨code, q⟩
  rcases add3ByteChunkAttempts bytes (times queue.clock) 2 queue'.tick with ⟨code', q'⟩
  rintro same twins
  obtain rfl : code = code' := same
  cases code <;> first | exact ⟨rfl, twins⟩ | exact ⟨rfl, twins.setHasTxData true⟩

private theorem addDataLoop (fuel : Nat) :
    ∀ {queue queue' : TxQueue maxSize packetCount} (bytes : List UInt8) (numBytesAdded : Nat),
      Twins times times' queue queue' →
      (addDataBytesLoop times fuel queue bytes numBytesAdded).1 =
          (addDataBytesLoop times' fuel queue' bytes numBytesAdded).1 ∧
        Twins times times' (addDataBytesLoop times fuel queue bytes numBytesAdded).2
          (addDataBytesLoop times' fuel queue' bytes numBytesAdded).2 := by
  induction fuel with
  | zero =>
    intro queue queue' bytes numBytesAdded h
    exact ⟨rfl, h⟩
  | succ fuel ih =>
    intro queue queue' bytes numBytesAdded h
    obtain ⟨same, alike⟩ := h.last.addSysexData bytes (times queue.clock)
    rw [addDataBytesLoop, addDataBytesLoop, h.time]
    by_cases empty : bytes = []
    · rw [if_pos empty, if_pos empty]
      exact ⟨rfl, h⟩
    rw [if_neg empty, if_neg empty]
    revert same alike
    rcases writerAddSysexData queue.lastTxPacket bytes (times queue.clock) with ⟨code, w⟩
    rcases writerAddSysexData queue'.lastTxPacket bytes (times queue.clock) with ⟨code', w'⟩
    rintro same alike
    obtain rfl : code = code' := same
    have written := h.tick.setLastTxPacket (show Alike w w' from alike)
    cases code with
    | error code => exact ⟨rfl, written⟩
    | ok count =>
      simp only
      by_cases left : count < bytes.length
      · rw [if_pos left, if_pos left]
        by_cases free : (queue.tick.setLastTxPacket w).txPacketCount < packetCount
        · have free' : (queue'.tick.setLastTxPacket w').txPacketCount < packetCount := by
            rw [written.txPacketCount]
            exact free
          rw [txPacketAdd_of_lt free, txPacketAdd_of_lt free']
          exact ih _ _ (written.push free)
        · have full := Nat.le_of_not_lt free
          have full' : packetCount ≤ (queue'.tick.setLastTxPacket w').txPacketCount := by
            rw [written.txPacketCount]
            exact full
          rw [txPacketAdd_of_le full, txPacketAdd_of_le full']
          exact ⟨rfl, written⟩
      · rw [if_neg left, if_neg left]
        exact ⟨rfl, written⟩

theorem addData (h : Twins times times' queue queue') (bytes : List UInt8) :
    (addDataBytesToTxPacket times queue bytes).1 =
        (addDataBytesToTxPacket times' queue' bytes).1 ∧
      Twins times times' (addDataBytesToTxPacket times queue bytes).2
        (addDataBytesToTxPacket times' queue' bytes).2 := by
  obtain ⟨same, twins⟩ := addDataLoop packetCount bytes 0 h
  unfold addDataBytesToTxPacket
  revert same twins
  rcases addDataBytesLoop times packetCount queue bytes 0 with ⟨code, q⟩
  rcases addDataBytesLoop times' packetCount queue' bytes 0 with ⟨code', q'⟩
  rintro same twins
  obtain rfl : code = code' := same
  cases code with
  | error code => exact ⟨rfl, twins⟩
  | ok count =>
    refine ⟨rfl, ?_⟩
    change Twins times times' (if 0 < count then q.setHasTxData true else q)
      (if 0 < count then q'.setHasTxData true else q')
    split
    · exact twins.setHasTxData true
    · exact twins

theorem packets_payload (h : Twins times times' queue queue') :
    queue'.packets.map Writer.payload = queue.packets.map Writer.payload := by
  unfold TxQueue.packets Core.RingWindow.window
  rw [h.firstTxPacketIdx, h.txPacketCount, List.map_map, List.map_map]
  exact List.map_congr_left fun i _ => (h.packets _).payload

theorem firstTxPacket_payload (h : Twins times times' queue queue') :
    queue'.firstTxPacket.map Writer.payload = queue.firstTxPacket.map Writer.payload := by
  have slots : queue'.firstSlot = queue.firstSlot := by
    rw [firstSlot, h.firstTxPacketIdx]
    rfl
  unfold firstTxPacket
  rw [h.hasTxData, slots]
  cases queue.hasTxData with
  | false => rfl
  | true => exact congrArg some (h.packets queue.firstSlot).payload

omit [NeZero packetCount] in
theorem remainingData (h : Twins times times' queue queue') :
    queue'.remainingData = queue.remainingData := by
  obtain ⟨data, pending, pending'⟩ := h.pending
  rw [pending.bytes, pending'.bytes]

omit [NeZero packetCount] in
theorem remaining (h : Twins times times' queue queue') :
    queue'.numRemainingDataBytes = queue.numRemainingDataBytes := by
  obtain ⟨data, pending, pending'⟩ := h.pending
  rw [pending.remaining, pending'.remaining]

end Twins

section Read

variable {times times' : Nat → UInt16} [NeZero packetCount]
  {queue queue' : TxQueue maxSize packetCount}

theorem addData_count_le (times : Nat → UInt16) (hwindow : Window queue) {bytes : List UInt8}
    {count : Nat} (h : (addDataBytesToTxPacket times queue bytes).1 = .ok count) :
    count ≤ bytes.length := by
  by_cases empty : bytes = []
  · rw [empty, addDataBytes_nil] at h
    cases h
    exact Nat.zero_le _
  have rule := addDataBytes_rule times (R := fun _ _ => True) (D := fun _ _ => True)
    (F := fun _ => True) ?_ (fun _ _ _ => trivial) (fun _ => trivial) trivial empty hwindow
  · rcases result : addDataBytesToTxPacket times queue bytes with ⟨code | total, queue'⟩
    · rw [result] at h
      cases h
    · rw [result] at h rule
      cases h
      exact rule.1
  · intro q left _ _
    rcases result : writerAddSysexData q.lastTxPacket left (times q.clock) with ⟨code | total, w⟩
    · trivial
    · exact ⟨writerAddSysexData_count_le result, trivial⟩

theorem addData_valid (times : Nat → UInt16) {bytes : List UInt8} {count : Nat}
    (h : (addDataBytesToTxPacket times queue bytes).1 = .ok count) :
    ∀ b ∈ bytes, isDataByte b = true := by
  by_contra invalid
  have nonempty : bytes ≠ [] := by
    rintro rfl
    exact invalid fun b hb => absurd hb List.not_mem_nil
  rw [addData_invalid nonempty invalid] at h
  cases h

/-- Twins whose FIFOs have lost the same number of bytes since they were `queue` and `queue'`. -/
structure Beside (times times' : Nat → UInt16) (queue queue' r r' : TxQueue maxSize packetCount) :
    Prop where
  twins : Twins times times' r r'
  read : ∃ n, r.fifo = queue.fifo.read n ∧ r'.fifo = queue'.fifo.read n

omit [NeZero packetCount] in
theorem Beside.of_eq {r r' : TxQueue maxSize packetCount} (h : Twins times times' r r')
    (hfifo : r.fifo = queue.fifo) (hfifo' : r'.fifo = queue'.fifo) :
    Beside times times' queue queue' r r' :=
  ⟨h, 0, hfifo, hfifo'⟩

/-- What two iterations of readers have in common. -/
abbrev ReadsAlike (times times' : Nat → UInt16) (queue queue' : TxQueue maxSize packetCount) :
    ReadStep maxSize packetCount → ReadStep maxSize packetCount → Prop :=
  Together (fun s s' => Beside times times' queue queue' s.1 s'.1)
    fun r r' => r.1 = r'.1 ∧ Beside times times' queue queue' r.2 r'.2

private theorem Twins.threeBytes (h : Twins times times' queue queue') (bytes : MessageBytes) :
    ReadsAlike times times' queue queue' (read3ByteChunk times queue bytes)
      (read3ByteChunk times' queue' bytes) := by
  obtain ⟨same, twins⟩ := h.add3 bytes
  have frame := add3_frame times queue bytes
  have frame' := add3_frame times' queue' bytes
  rw [read3ByteChunk, read3ByteChunk]
  revert same twins frame frame'
  rcases add3ByteChunkToTxPacket times queue bytes with ⟨code, r⟩
  rcases add3ByteChunkToTxPacket times' queue' bytes with ⟨code', r'⟩
  rintro same twins frame frame'
  obtain rfl : code = code' := same
  have read : Beside times times' queue queue' { r with fifo := r.fifo.read 3 }
      { r' with fifo := r'.fifo.read 3 } :=
    ⟨twins.withFifo _ _, 3, congrArg (fun fifo => Fifo.read fifo 3) frame.fifo,
      congrArg (fun fifo => Fifo.read fifo 3) frame'.fifo⟩
  cases code with
  | success => exact .next read
  | invalidData => exact .next read
  | _ => exact .ret ⟨rfl, .of_eq twins frame.fifo frame'.fifo⟩

private theorem Twins.data (h : Twins times times' queue queue') (hwindow : Window queue)
    (hidle : queue.numRemainingDataBytes = 0) (bytes : List UInt8)
    (msgBytes msgBytes' : MessageBytes) :
    ReadsAlike times times' queue queue'
      (afterData bytes msgBytes (addDataBytesToTxPacket times (queue.load bytes) bytes))
      (afterData bytes msgBytes' (addDataBytesToTxPacket times' (queue'.load bytes) bytes)) := by
  have idle' : queue'.numRemainingDataBytes = 0 := h.remaining.trans hidle
  have loaded : Twins times times' (queue.load bytes) (queue'.load bytes) :=
    ⟨h.packets, h.firstTxPacketIdx, h.txPacketCount, h.hasTxData,
      ⟨[], Pending.nil hidle, Pending.nil idle'⟩, h.clock⟩
  have window : Window (queue.load bytes) := hwindow.of_eq rfl rfl
  obtain ⟨same, twins⟩ := loaded.addData bytes
  have frame := addDataBytes_frame times (queue.load bytes) bytes
  have frame' := addDataBytes_frame times' (queue'.load bytes) bytes
  have most (count : Nat)
      (h : (addDataBytesToTxPacket times (queue.load bytes) bytes).1 = .ok count) :
      count ≤ bytes.length := addData_count_le times window h
  have valid (count : Nat)
      (h : (addDataBytesToTxPacket times (queue.load bytes) bytes).1 = .ok count) :
      ∀ b ∈ bytes, isDataByte b = true := addData_valid times h
  revert same twins frame frame' most valid
  rcases addDataBytesToTxPacket times (queue.load bytes) bytes with ⟨code, r⟩
  rcases addDataBytesToTxPacket times' (queue'.load bytes) bytes with ⟨code', r'⟩
  rintro same twins frame frame' most valid
  obtain rfl : code = code' := same
  have read := congrArg (fun fifo => Fifo.read fifo (Chunk.data bytes).encode.length) frame.fifo
  have read' := congrArg (fun fifo => Fifo.read fifo (Chunk.data bytes).encode.length) frame'.fifo
  cases code with
  | error code => exact .next ⟨twins.withFifo _ _, _, read, read'⟩
  | ok count =>
    cases count with
    | zero => exact .ret ⟨rfl, .of_eq twins frame.fifo frame'.fifo⟩
    | succ count =>
      have data := valid (count + 1) rfl
      have le := most (count + 1) rfl
      exact .next ⟨⟨twins.packets, twins.firstTxPacketIdx, twins.txPacketCount, twins.hasTxData,
        ⟨bytes.drop (count + 1), Pending.ofChunk frame data le _, Pending.ofChunk frame' data le _⟩,
        twins.clock⟩, _, read, read'⟩

omit [NeZero packetCount] in
theorem Twins.packetSize (h : Twins times times' queue queue') (size : UInt16) :
    Beside times times' queue queue'
      { queue with
        txPackets := fun i => { queue.txPackets i with txBufMaxSize := size }
        fifo := queue.fifo.read 3 }
      { queue' with
        txPackets := fun i => { queue'.txPackets i with txBufMaxSize := size }
        fifo := queue'.fifo.read 3 } := by
  obtain ⟨packets, first, count, flag, ⟨data, pending, pending'⟩, clock⟩ := h
  exact ⟨⟨fun i => (packets i).setMaxSize size, first, count, flag,
    ⟨data, ⟨pending.1, pending.2, pending.3, pending.4⟩,
      ⟨pending'.1, pending'.2, pending'.3, pending'.4⟩⟩, clock⟩, 3, rfl, rfl⟩

theorem Twins.readRemaining (h : Twins times times' queue queue') (hwindow : Window queue)
    (msgBytes msgBytes' : MessageBytes) :
    ReadsAlike times times' queue queue' (readRemaining times queue msgBytes)
      (readRemaining times' queue' msgBytes') := by
  obtain ⟨data, pending, pending'⟩ := h.pending
  obtain ⟨same, twins⟩ := h.addData data
  have frame := addDataBytes_frame times queue data
  have frame' := addDataBytes_frame times' queue' data
  have most (count : Nat) (h : (addDataBytesToTxPacket times queue data).1 = .ok count) :
      count ≤ data.length := addData_count_le times hwindow h
  rw [TxQueue.readRemaining, TxQueue.readRemaining, pending.bytes, pending'.bytes]
  revert same twins frame frame' most
  rcases addDataBytesToTxPacket times queue data with ⟨code, r⟩
  rcases addDataBytesToTxPacket times' queue' data with ⟨code', r'⟩
  rintro same twins frame frame' most
  obtain rfl : code = code' := same
  cases code with
  | error code => exact .next (.of_eq twins frame.fifo frame'.fifo)
  | ok count =>
    cases count with
    | zero => exact .ret ⟨rfl, .of_eq twins frame.fifo frame'.fifo⟩
    | succ count =>
      have le := most (count + 1) rfl
      exact .next (.of_eq ⟨twins.packets, twins.firstTxPacketIdx, twins.txPacketCount,
        twins.hasTxData, ⟨data.drop (count + 1), (pending.frame frame).drop le,
          (pending'.frame frame').drop le⟩, twins.clock⟩ frame.fifo frame'.fifo)

/-- Readers of twins do the same with pending data, and with a well formed chunk that is at the
head of both FIFOs, whatever follows it. -/
theorem Twins.readStep (h : Twins times times' queue queue') (hwindow : Window queue)
    {chunk chunk' : Chunk} {rest rest' : List Chunk} (hheld : queue.fifo.Holds (chunk :: rest))
    (hheld' : queue'.fifo.Holds (chunk' :: rest'))
    (hhead : chunk = chunk' ∧ chunk.WellFormed ∨ 0 < queue.numRemainingDataBytes)
    (msgBytes msgBytes' : MessageBytes) :
    ReadsAlike times times' queue queue' (TxQueue.readStep times queue msgBytes)
      (TxQueue.readStep times' queue' msgBytes') := by
  by_cases idle : queue.numRemainingDataBytes = 0
  · obtain ⟨rfl, wellFormed⟩ := hhead.resolve_right (by omega)
    have idle' : queue'.numRemainingDataBytes = 0 := h.remaining.trans idle
    cases chunk with
    | threeBytes bytes =>
      rw [readStep_threeBytes times hheld wellFormed idle,
        readStep_threeBytes times' hheld' wellFormed idle']
      exact h.threeBytes bytes
    | data bytes =>
      obtain ⟨msgBytes₁, eq⟩ := readStep_data times hheld wellFormed.2 idle msgBytes
      obtain ⟨msgBytes₂, eq'⟩ := readStep_data times' hheld' wellFormed.2 idle' msgBytes'
      rw [eq, eq']
      exact h.data hwindow idle bytes msgBytes₁ msgBytes₂
    | packetSize size =>
      obtain ⟨msgBytes₁, eq⟩ := readStep_packetSize times hheld idle msgBytes
      obtain ⟨msgBytes₂, eq'⟩ := readStep_packetSize times' hheld' idle' msgBytes'
      rw [eq, eq']
      exact .next (h.packetSize _)
  · have remaining : 0 < queue.numRemainingDataBytes := Nat.pos_of_ne_zero idle
    have remaining' : 0 < queue'.numRemainingDataBytes := by
      rw [h.remaining]
      exact remaining
    rw [readStep_remaining times hheld remaining, readStep_remaining times' hheld' remaining']
    exact h.readRemaining hwindow msgBytes msgBytes'

end Read

end BleMidi.Queue
