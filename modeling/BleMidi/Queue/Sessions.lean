/- Module: BleMidi/Queue/Sessions
   source: ble_midi/src/ble_midi_context.c (ble_midi_context_reset), ble_midi/src/tx_queue.c
   digest: What the queue does after a reset does not depend on what it did before. -/

import BleMidi.Packet.Memory
import BleMidi.Queue.Capacity
import BleMidi.Queue.Recognition
import BleMidi.Queue.Twins

set_option autoImplicit false
set_option relaxedAutoImplicit false

namespace BleMidi.Queue

open BleMidi.Core.Lockstep
open BleMidi.Core.Runs
open BleMidi.Packet
open BleMidi.Packet.PacketWriter
open BleMidi.Packet.WriterSpec
open BleMidi.Packet.WriterTwins
open TxQueue

variable {maxSize packetCount : Nat}

/-- What `struct ble_midi_context` keeps for the buffered mode. -/
structure Context (maxSize packetCount : Nat) where
  txQueue : TxQueue maxSize packetCount
  pendingTxQueueFifoWorkCount : Int

/-- `ble_midi_context_reset` -/
def contextReset (context : Context maxSize packetCount)
    (txRunningStatus txNoteOffAsNoteOn : Bool) : Context maxSize packetCount where
  txQueue := init context.txQueue txRunningStatus txNoteOffAsNoteOn
  pendingTxQueueFifoWorkCount := 0

/-- The operations of the queue, from its producers to the sent packets. -/
inductive QueueOp
  | request (r : Request)
  | readFromFifo
  | firstTxPacket
  | onTxPacketSent
  deriving DecidableEq

/-- What an operation returns. A packet is `tx_buf_size` and that many bytes of `tx_buf`. -/
inductive Returned
  | count (result : Except TxQueueError Nat)
  | code (code : TxQueueError)
  | packet (packet : Option (UInt16 × List UInt8))
  deriving DecidableEq

/-- Producer calls have a status byte or data. -/
def QueueOp.WellFormed : QueueOp → Prop
  | request r => r.WellFormed
  | _ => True

instance : DecidablePred QueueOp.WellFormed
  | .request r => inferInstanceAs (Decidable r.WellFormed)
  | .readFromFifo => inferInstanceAs (Decidable True)
  | .firstTxPacket => inferInstanceAs (Decidable True)
  | .onTxPacketSent => inferInstanceAs (Decidable True)

/-- A packet as it is handed out. -/
def handedOut (w : Writer maxSize) : UInt16 × List UInt8 := (w.txBufSize, w.payload)

section Operations

variable [NeZero packetCount]

/-- An operation, whose reader has `fuel` iterations. -/
def TxQueue.execOp (times : Nat → UInt16) (fuel : Nat) (queue : TxQueue maxSize packetCount) :
    QueueOp → Option (Returned × TxQueue maxSize packetCount)
  | .request r => some (.count (r.exec queue).1, (r.exec queue).2)
  | .readFromFifo =>
      (TxQueue.readFromFifo times fuel queue).map fun (code, queue) => (.code code, queue)
  | .firstTxPacket => some (.packet (queue.firstTxPacket.map handedOut), queue)
  | .onTxPacketSent => some (.code queue.onTxPacketSent.1, queue.onTxPacketSent.2)

/-- An operation that returns. -/
def TxQueue.perform (times : Nat → UInt16) (queue : TxQueue maxSize packetCount) (op : QueueOp)
    (returned : Returned) (queue' : TxQueue maxSize packetCount) : Prop :=
  ∃ fuel, queue.execOp times fuel op = some (returned, queue')

/-- No iteration of a call of the reader writes behind a packet. -/
def ReadsInside (times : Nat → UInt16) (queue : TxQueue maxSize packetCount) : Prop :=
  ∀ k state, before (readBody times) k (queue, ⟨0, 0, 0⟩) = some state → ¬ Overruns state.1

/-- An operation that returns and writes inside the packets. -/
def TxQueue.performInside (times : Nat → UInt16) (queue : TxQueue maxSize packetCount)
    (op : QueueOp) (returned : Returned) (queue' : TxQueue maxSize packetCount) : Prop :=
  queue.perform times op returned queue' ∧ (op = .readFromFifo → ReadsInside times queue)

end Operations

/-- Twins with the same FIFO, which holds well formed chunks. -/
structure Paired (times times' : Nat → UInt16) (queue queue' : TxQueue maxSize packetCount) :
    Prop where
  twins : Twins times times' queue queue'
  fifo : queue'.fifo = queue.fifo
  framed : ∃ queued, Framed queue queued []

theorem Request.exec_congr {queue queue' : TxQueue maxSize packetCount}
    (hfifo : queue'.fifo = queue.fifo) (r : Request) :
    (r.exec queue').1 = (r.exec queue).1 ∧
      (r.exec queue').2 = { queue' with fifo := (r.exec queue).2.fifo } := by
  have three (bytes : List UInt8) :
      (returned (queue'.write3ByteChunkToFifo bytes)).1 =
          (returned (queue.write3ByteChunkToFifo bytes)).1 ∧
        (returned (queue'.write3ByteChunkToFifo bytes)).2 =
          { queue' with fifo := (returned (queue.write3ByteChunkToFifo bytes)).2.fifo } := by
    unfold write3ByteChunkToFifo
    rw [hfifo]
    by_cases full : queue.fifo.getFreeSpace < 3
    · rw [if_pos full, if_pos full]
      refine ⟨rfl, ?_⟩
      change queue' = { queue' with fifo := queue.fifo }
      rw [← hfifo]
    · rw [if_neg full, if_neg full]
      by_cases whole : (queue.fifo.write bytes).1 = 3
      · simp [whole, returned]
      · simp [whole, returned]
  cases r with
  | addMsg bytes => exact three _
  | addSysexStart => exact three _
  | addSysexEnd => exact three _
  | addTxPacketSize size => exact three _
  | addSysexData bytes =>
    change (queue'.fifoAddSysexData bytes).1 = (queue.fifoAddSysexData bytes).1 ∧
      (queue'.fifoAddSysexData bytes).2 =
        { queue' with fifo := (queue.fifoAddSysexData bytes).2.fifo }
    unfold fifoAddSysexData
    rw [hfifo]
    by_cases full : queue.fifo.getFreeSpace ≤ sysexDataChunkHeaderSize
    · rw [if_pos full, if_pos full]
      refine ⟨rfl, ?_⟩
      change queue' = { queue' with fifo := queue.fifo }
      rw [← hfifo]
    · rw [if_neg full, if_neg full]
      simp only
      split <;> exact ⟨rfl, rfl⟩

namespace Paired

variable {times times' : Nat → UInt16} {queue queue' : TxQueue maxSize packetCount}

theorem request (h : Paired times times' queue queue') {r : Request} (hr : r.WellFormed) :
    (r.exec queue').1 = (r.exec queue).1 ∧
      Paired times times' (r.exec queue).2 (r.exec queue').2 := by
  obtain ⟨same, eq⟩ := Request.exec_congr h.fifo r
  refine ⟨same, ?_⟩
  obtain ⟨twins, -, queued, framed⟩ := h
  rw [eq]
  rcases r.exec_appends queue with ⟨code, failed⟩ | ⟨count, fifo, exec, written⟩
  · rw [failed]
    exact ⟨twins.withFifo queue.fifo queue.fifo, rfl, queued, framed⟩
  · rw [exec]
    exact ⟨twins.withFifo fifo fifo, rfl, _,
      framed.append (Request.chunk_wellFormed hr exec) written⟩

variable [NeZero packetCount]

theorem init {blank blank' : TxQueue maxSize packetCount}
    (hcapacity : blank'.fifo.capacity = blank.fifo.capacity)
    (hclock : ∀ k, times' (blank'.clock + k) = times (blank.clock + k))
    (runningStatusEnabled noteOffAsNoteOn : Bool) :
    Paired times times' (init blank runningStatusEnabled noteOffAsNoteOn)
      (init blank' runningStatusEnabled noteOffAsNoteOn) := by
  refine ⟨⟨fun i => ⟨⟨(blank'.txPackets i).txBuf, rfl⟩, rfl⟩, rfl, rfl, rfl,
    ⟨[], Pending.nil rfl, Pending.nil rfl⟩, hclock⟩, ?_, [], Framed.init _ _ _⟩
  change blank'.fifo.clear = blank.fifo.clear
  unfold Fifo.clear
  simp only [hcapacity]

theorem packetSent (h : Paired times times' queue queue') :
    queue'.onTxPacketSent.1 = queue.onTxPacketSent.1 ∧
      Paired times times' queue.onTxPacketSent.2 queue'.onTxPacketSent.2 := by
  obtain ⟨twins, fifo, queued, framed⟩ := h
  obtain ⟨same, twins'⟩ := twins.sent
  refine ⟨same.symm, twins', ?_, queued, framed.sent⟩
  rw [(onTxPacketSent_frame queue').fifo, (onTxPacketSent_frame queue).fifo, fifo]

theorem firstTxPacket (h : Paired times times' queue queue') :
    queue'.firstTxPacket.map handedOut = queue.firstTxPacket.map handedOut := by
  have slots : queue'.firstSlot = queue.firstSlot := by
    rw [firstSlot, h.twins.firstTxPacketIdx]
    rfl
  have first := h.twins.packets queue.firstSlot
  unfold TxQueue.firstTxPacket
  rw [h.twins.hasTxData, slots]
  cases queue.hasTxData with
  | false => rfl
  | true => exact congrArg some (Prod.ext first.txBufSize first.payload)

/-- Paired queues in the loop of the reader, whatever `msg_bytes` holds. -/
private def PairedStates (times times' : Nat → UInt16)
    (s s' : TxQueue maxSize packetCount × MessageBytes) : Prop :=
  Paired times times' s.1 s'.1

/-- Iterations of the reader keep twins with the same FIFO together. -/
theorem readStep (h : Paired times times' queue queue') (msgBytes msgBytes' : MessageBytes) :
    Together (fun s s' => Paired times times' s.1 s'.1)
      (fun r r' => r.1 = r'.1 ∧ Paired times times' r.2 r'.2)
      (TxQueue.readStep times queue msgBytes) (TxQueue.readStep times' queue' msgBytes') := by
  obtain ⟨twins, fifo, queued, framed⟩ := h
  have held := framed.holds
  have held' : queue'.fifo.Holds queued := by
    rw [fifo]
    exact held
  cases queued with
  | nil =>
    rw [readStep_empty times held, readStep_empty times' held']
    exact .ret ⟨rfl, twins, fifo, [], framed⟩
  | cons chunk queued =>
    have together := twins.readStep framed.window held held'
      (.inl ⟨rfl, framed.wellFormed chunk List.mem_cons_self⟩) msgBytes msgBytes'
    obtain ⟨rest, -, framed', -⟩ := framed.step times (.inl rfl) msgBytes
    -- Both readers have taken the same number of bytes.
    have paired {r r' : TxQueue maxSize packetCount}
        (beside : Beside times times' queue queue' r r') (left : Framed r rest []) :
        Paired times times' r r' := by
      obtain ⟨twins', n, read, read'⟩ := beside
      refine ⟨twins', ?_, rest, left⟩
      rw [read, read', fifo]
    revert together framed'
    generalize TxQueue.readStep times queue msgBytes = o
    generalize TxQueue.readStep times' queue' msgBytes' = o'
    intro together framed'
    cases together with
    | ret same => exact .ret ⟨same.1, paired same.2 framed'⟩
    | next beside => exact .next (paired beside framed')

private theorem body_together {s s' : TxQueue maxSize packetCount × MessageBytes}
    (h : PairedStates times times' s s') :
    Together (PairedStates times times') (fun r r' => r.1 = r'.1 ∧ Paired times times' r.2 r'.2)
      (readBody times s) (readBody times' s') :=
  h.readStep s.2 s'.2

/-- The next iterations of both readers overrun, or neither does. -/
theorem overruns (h : Paired times times' queue queue') : Overruns queue' ↔ Overruns queue := by
  have last := h.twins.last
  have data : dataToAdd queue' = dataToAdd queue := by
    unfold dataToAdd headData headBytes
    rw [h.twins.remaining, h.twins.remainingData, h.fifo]
  unfold Overruns Overflows
  rw [h.fifo, data, last.txBufMaxSize, last.txBufSize, last.inSysexMsg]

private theorem readsInside (h : Paired times times' queue queue')
    (hinside : ReadsInside times queue) : ReadsInside times' queue' := by
  intro k state reached overruns
  have start : PairedStates times times' (queue, ⟨0, 0, 0⟩) (queue', ⟨0, 0, 0⟩) := h
  obtain ⟨state', reached', related⟩ := before_together body_together k start reached
  exact hinside k state' reached' (related.overruns.mp overruns)

theorem readFromFifo (h : Paired times times' queue queue') {fuel : Nat}
    {r : TxQueueError × TxQueue maxSize packetCount}
    (hr : TxQueue.readFromFifo times fuel queue = some r) :
    ∃ r', TxQueue.readFromFifo times' fuel queue' = some r' ∧ r.1 = r'.1 ∧
      Paired times times' r.2 r'.2 := by
  have start : PairedStates times times' (queue, ⟨0, 0, 0⟩) (queue', ⟨0, 0, 0⟩) := h
  have returned : loop (readBody times) fuel (queue, ⟨0, 0, 0⟩) = some r := hr
  exact loop_together body_together fuel start returned

/-- An operation on one queue has a counterpart on the other that returns the same. -/
theorem perform (h : Paired times times' queue queue') {op : QueueOp} (hop : op.WellFormed)
    {returned : Returned} {r : TxQueue maxSize packetCount}
    (hr : queue.perform times op returned r) :
    ∃ r', queue'.perform times' op returned r' ∧ Paired times times' r r' := by
  obtain ⟨fuel, exec⟩ := hr
  cases op with
  | request call =>
    obtain ⟨same, paired⟩ := h.request hop
    cases exec
    refine ⟨_, ⟨fuel, ?_⟩, paired⟩
    rw [execOp, same]
  | readFromFifo =>
    obtain ⟨⟨code, s⟩, read, eq⟩ := Option.map_eq_some_iff.mp exec
    cases eq
    obtain ⟨⟨code', s'⟩, read', same, paired⟩ := h.readFromFifo read
    obtain rfl : code = code' := same
    refine ⟨s', ⟨fuel, ?_⟩, paired⟩
    rw [execOp, read']
    rfl
  | firstTxPacket =>
    cases exec
    refine ⟨queue', ⟨fuel, ?_⟩, h⟩
    rw [execOp, h.firstTxPacket]
  | onTxPacketSent =>
    obtain ⟨same, paired⟩ := h.packetSent
    cases exec
    refine ⟨_, ⟨fuel, ?_⟩, paired⟩
    rw [execOp, same]

theorem performInside (h : Paired times times' queue queue') {op : QueueOp} (hop : op.WellFormed)
    {returned : Returned} {r : TxQueue maxSize packetCount}
    (hr : queue.performInside times op returned r) :
    ∃ r', queue'.performInside times' op returned r' ∧ Paired times times' r r' := by
  obtain ⟨r', performed, paired⟩ := h.perform hop hr.1
  exact ⟨r', ⟨performed, fun read => h.readsInside (hr.2 read)⟩, paired⟩

end Paired

variable [NeZero packetCount]

private theorem execOp_mono {times : Nat → UInt16} {queue : TxQueue maxSize packetCount}
    {fuel fuel' : Nat} (hle : fuel ≤ fuel') {op : QueueOp}
    {r : Returned × TxQueue maxSize packetCount} (h : queue.execOp times fuel op = some r) :
    queue.execOp times fuel' op = some r := by
  cases op with
  | readFromFifo =>
    obtain ⟨s, read, eq⟩ := Option.map_eq_some_iff.mp h
    refine Option.map_eq_some_iff.mpr ⟨s, ?_, eq⟩
    exact loop_mono hle read
  | _ => exact h

theorem perform_deterministic {times : Nat → UInt16} {queue r r' : TxQueue maxSize packetCount}
    {op : QueueOp} {returned returned' : Returned} (h : queue.perform times op returned r)
    (h' : queue.perform times op returned' r') : returned = returned' ∧ r = r' := by
  obtain ⟨fuel, exec⟩ := h
  obtain ⟨fuel', exec'⟩ := h'
  have same := (execOp_mono (Nat.le_max_left fuel fuel') exec).symm.trans
    (execOp_mono (Nat.le_max_right fuel fuel') exec')
  cases same
  exact ⟨rfl, rfl⟩

/-- After a reset the operations return the same whatever was done to the queue before, as long as
no iteration of the reader writes behind a packet. Calls of the reader that return and write inside
the packets in one session do so in the other. -/
theorem contextReset_isolates {context context' : Context maxSize packetCount}
    (hcapacity : context'.txQueue.fifo.capacity = context.txQueue.fifo.capacity)
    {times times' : Nat → UInt16}
    (hclock : ∀ k, times' (context'.txQueue.clock + k) = times (context.txQueue.clock + k))
    (txRunningStatus txNoteOffAsNoteOn : Bool) {ops : List QueueOp}
    (hops : ∀ op ∈ ops, op.WellFormed) {outs : List Returned}
    {queue : TxQueue maxSize packetCount}
    (h : Performs (TxQueue.performInside times)
      (contextReset context txRunningStatus txNoteOffAsNoteOn).txQueue ops outs queue) :
    (∃ queue', Performs (TxQueue.performInside times')
      (contextReset context' txRunningStatus txNoteOffAsNoteOn).txQueue ops outs queue') ∧
    ∀ outs' queue', Performs (TxQueue.perform times')
      (contextReset context' txRunningStatus txNoteOffAsNoteOn).txQueue ops outs' queue' →
      outs' = outs := by
  have paired := Paired.init hcapacity hclock txRunningStatus txNoteOffAsNoteOn
  obtain ⟨queue', run, -⟩ := h.lockstep
    (fun related allowed step => related.performInside allowed step) hops paired
  refine ⟨⟨queue', run⟩, fun outs' r run' => ?_⟩
  have performed : Performs (TxQueue.perform times')
      (contextReset context' txRunningStatus txNoteOffAsNoteOn).txQueue ops outs queue' :=
    run.mono fun step => step.1
  exact Performs.deterministic (f := TxQueue.perform times') perform_deterministic performed run'

/-- A queue with a message that was not sent, in the middle of a sysex message, with data that is
left over and a size request in the FIFO. -/
def usedQueue : TxQueue 8 2 where
  fifo := ⟨16, [0x0c, 7, 0], by decide⟩
  txPackets _ :=
    ⟨#v[0x80, 0x80, 0x90, 1, 2, 3, 4, 5], 5, 5, 0x90, 0x90, 0, true, true, true⟩
  firstTxPacketIdx := 1
  txPacketCount := 2
  hasTxData := true
  numRemainingDataBytes := 2
  currSysexDataChunkSize := 5
  sysexChunkScratchBuf := [0x0d, 2, 0, 1, 2]
  clock := 3

/-- A message, and data without a sysex message that the packet refuses. -/
def session : List QueueOp :=
  [.request (.addTxPacketSize 5), .readFromFifo, .firstTxPacket, .request (.addMsg ⟨0x90, 1, 2⟩),
    .request (.addSysexData [1]), .readFromFifo, .firstTxPacket]

/-- An operation, if its reader returns within `fuel` iterations and none of them overruns. -/
def execInside (times : Nat → UInt16) (fuel : Nat) (queue : TxQueue maxSize packetCount)
    (op : QueueOp) : Option (Returned × TxQueue maxSize packetCount) :=
  if op = .readFromFifo ∧
      checkBefore (readBody times) (fun state => ¬ Overruns state.1) fuel (queue, ⟨0, 0, 0⟩) = false
  then none
  else queue.execOp times fuel op

private theorem performInside_of_exec {times : Nat → UInt16} {fuel : Nat}
    {queue queue' : TxQueue maxSize packetCount} {op : QueueOp} {returned : Returned}
    (h : execInside times fuel queue op = some (returned, queue')) :
    queue.performInside times op returned queue' := by
  by_cases overruns : op = .readFromFifo ∧
    checkBefore (readBody times) (fun state => ¬ Overruns state.1) fuel (queue, ⟨0, 0, 0⟩) = false
  · rw [execInside, if_pos overruns] at h
    cases h
  · rw [execInside, if_neg overruns] at h
    refine ⟨⟨fuel, h⟩, fun read => forall_before_of_check fuel ?_⟩
    exact Bool.eq_true_of_not_eq_false fun failed => overruns ⟨read, failed⟩

/-- A session of a used queue and one of a queue that was never used. -/
theorem contextReset_isolates_used : ∃ outs,
    outs.getLast? = some (.packet (some (5, [0x80, 0x81, 0x90, 1, 2]))) ∧
    (∃ queue', Performs (TxQueue.performInside fun n => millisecondClock (3 + n))
      (contextReset ⟨blankQueue 8 2 16, 2⟩ true false).txQueue session outs queue') ∧
    ∀ outs' queue', Performs (TxQueue.perform fun n => millisecondClock (3 + n))
      (contextReset ⟨blankQueue 8 2 16, 2⟩ true false).txQueue session outs' queue' →
      outs' = outs := by
  obtain ⟨⟨outs, queue⟩, executed, last⟩ := (Option.any_eq_true _ _).mp
    (show (execute (execInside millisecondClock 9)
      (contextReset ⟨usedQueue, 0⟩ true false).txQueue session).any (fun r =>
        decide (r.1.getLast? = some (.packet (some (5, [0x80, 0x81, 0x90, 1, 2]))))) = true by
      decide +kernel)
  have run : Performs (TxQueue.performInside millisecondClock)
      (contextReset ⟨usedQueue, 0⟩ true false).txQueue session outs queue :=
    performs_of_execute performInside_of_exec _ executed
  have capacity : (⟨blankQueue 8 2 16, 2⟩ : Context 8 2).txQueue.fifo.capacity =
      (⟨usedQueue, 0⟩ : Context 8 2).txQueue.fifo.capacity := rfl
  have clock (k : Nat) : millisecondClock (3 + (0 + k)) = millisecondClock (3 + k) := by
    rw [Nat.zero_add]
  exact ⟨outs, of_decide_eq_true last,
    contextReset_isolates capacity clock true false (by decide) run⟩

section Overrun

/-- The packets in memory when the data of the next iteration has gone into the current packet, as
all of it does when the iteration overruns. -/
def packetsBehind (queue : TxQueue maxSize packetCount) : List UInt8 :=
  Memory.appendAll maxSize (Memory.packetAddress maxSize queue.lastSlot)
    (Memory.ring queue.txPackets) (dataToAdd queue)

/-- What is handed out then. -/
def handedOutBehind (queue : TxQueue maxSize packetCount) : UInt16 × List UInt8 :=
  Memory.handedOut maxSize (Memory.packetAddress maxSize queue.firstSlot) (packetsBehind queue)

theorem packetsBehind_inside {queue : TxQueue maxSize packetCount}
    (hfits : queue.lastTxPacket.txBufSize.toNat + (dataToAdd queue).length ≤ maxSize) :
    packetsBehind queue =
      Memory.ring (queue.setLastTxPacket (queue.lastTxPacket.putAll (dataToAdd queue))).txPackets :=
  Memory.appendAll_ring queue.txPackets queue.lastSlot hfits

/-- A packet is handed out from memory as the writer has it, if all packets stay inside. -/
theorem handedOutBehind_inside {queue : TxQueue maxSize packetCount} (h : EveryPacket Inside queue)
    (hfits : queue.lastTxPacket.txBufSize.toNat + (dataToAdd queue).length ≤ maxSize) :
    handedOutBehind queue = handedOut
      ((queue.setLastTxPacket (queue.lastTxPacket.putAll (dataToAdd queue))).txPackets
        queue.firstSlot) := by
  have last : Inside (queue.lastTxPacket.putAll (dataToAdd queue)) := by
    refine ⟨?_, ?_⟩
    · rw [putAll_txBufMaxSize]
      exact h.last.max_le
    · exact (putAll_size_le _ _).trans hfits
  rw [handedOutBehind, packetsBehind_inside hfits]
  exact Memory.handedOut_ring _ _ ((h.setLastTxPacket last) queue.firstSlot).size_le

/-- Two messages that are not sent. -/
def earlier : List QueueOp :=
  [.request (.addTxPacketSize 5), .request (.addMsg ⟨0x90, 60, 127⟩),
    .request (.addMsg ⟨0x80, 60, 0⟩), .readFromFifo]

/-- A full packet of 64 bytes, a smaller size, and three more data bytes. -/
def shrinking : List QueueOp :=
  [.request (.addTxPacketSize 64), .request .addSysexStart,
    .request (.addSysexData (List.replicate 61 1)), .readFromFifo, .request (.addTxPacketSize 5),
    .readFromFifo, .request (.addSysexData [0x40, 0, 0x7f])]

/-- The next iteration of the reader overruns and makes the size 127, so that the packet goes on
into the one behind it, where the second message of the session before still is. -/
theorem contextReset_isolates_fails : ∃ (used queue queue' : TxQueue 64 2)
    (outs outs' : List Returned),
    Performs (TxQueue.perform millisecondClock)
      (contextReset ⟨blankQueue 64 2 128, 0⟩ true true).txQueue earlier outs used ∧
    Performs (TxQueue.perform millisecondClock)
      (contextReset ⟨used, 0⟩ true true).txQueue shrinking outs' queue ∧
    Performs (TxQueue.perform fun n => millisecondClock (used.clock + n))
      (contextReset ⟨blankQueue 64 2 128, 0⟩ true true).txQueue shrinking outs' queue' ∧
    (Overruns queue ∧ queue.fifo.recognised = [.data [0x40, 0, 0x7f]]) ∧
    (Overruns queue' ∧ queue'.fifo.recognised = [.data [0x40, 0, 0x7f]]) ∧
    ((handedOutBehind queue).1 = 127 ∧
      ((handedOutBehind queue).2.drop 84).take 5 = [0xbf, 0xff, 0x90, 60, 0]) ∧
    ((handedOutBehind queue').1 = 127 ∧
      (handedOutBehind queue').2.drop 84 = List.replicate 43 0) := by
  obtain ⟨⟨outs, used⟩, executed, later⟩ := (Option.any_eq_true _ _).mp
    (show (execute (execOp millisecondClock 9)
      (contextReset ⟨blankQueue 64 2 128, 0⟩ true true).txQueue earlier).any (fun r =>
        (execute (execOp millisecondClock 9)
          (contextReset ⟨r.2, 0⟩ true true).txQueue shrinking).any fun s =>
        (execute (execOp (fun n => millisecondClock (r.2.clock + n)) 9)
          (contextReset ⟨blankQueue 64 2 128, 0⟩ true true).txQueue shrinking).any fun s' =>
        decide (s'.1 = s.1 ∧
          (Overruns s.2 ∧ s.2.fifo.recognised = [.data [0x40, 0, 0x7f]]) ∧
          (Overruns s'.2 ∧ s'.2.fifo.recognised = [.data [0x40, 0, 0x7f]]) ∧
          ((handedOutBehind s.2).1 = 127 ∧
            ((handedOutBehind s.2).2.drop 84).take 5 = [0xbf, 0xff, 0x90, 60, 0]) ∧
          ((handedOutBehind s'.2).1 = 127 ∧
            (handedOutBehind s'.2).2.drop 84 = List.replicate 43 0))) = true by
      decide +kernel)
  obtain ⟨⟨outs', queue⟩, executed', final⟩ := (Option.any_eq_true _ _).mp later
  obtain ⟨⟨outs'', queue'⟩, executed'', decided⟩ := (Option.any_eq_true _ _).mp final
  obtain ⟨same, state⟩ := of_decide_eq_true decided
  obtain rfl : outs'' = outs' := same
  exact ⟨used, queue, queue', outs, outs'', performs_of_execute (fun h => ⟨9, h⟩) _ executed,
    performs_of_execute (fun h => ⟨9, h⟩) _ executed',
    performs_of_execute (fun h => ⟨9, h⟩) _ executed'', state⟩

end Overrun

end BleMidi.Queue
