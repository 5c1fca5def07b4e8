/- Module: BleMidi/Queue/Messages
   source: ble_midi/src/tx_queue.c
   digest: Runs in which messages only come in, and what of the packets is kept in them. -/

import BleMidi.Queue.Delivery

set_option autoImplicit false
set_option relaxedAutoImplicit false

namespace BleMidi.Queue

open BleMidi.Core.Runs
open BleMidi.Packet.Bytes
open BleMidi.Packet.Grammar
open BleMidi.Packet.PacketWriter
open BleMidi.Packet.WriterSpec
open BleMidi.Packet.WriterPieces
open BleMidi.Packet.PacketStream
open TxQueue

variable {maxSize packetCount : Nat} {settings : Settings maxSize} [NeZero packetCount]
  {times : Nat → UInt16} {s s' : System maxSize packetCount}

abbrev MessagesOnly : System maxSize packetCount → Action → Prop :=
  System.permit (fun _ r => r.IsMessage) fun _ => True

theorem conserves_messages (h : System.Reachable times settings MessagesOnly s) :
    (∀ chunk ∈ s.accepted, chunk.IsMessage) ∧
      ∃ consumed queued es, Conserves settings s consumed queued [] es := by
  obtain ⟨all, consumed, queued, data, es, conserves⟩ := conserves_run (P := Chunk.IsMessage)
    (by
      intro s r all permitted
      change r.IsMessage at permitted
      cases r with
      | addMsg bytes =>
        exact ⟨⟨chunksOpen_messages all, permitted⟩, fun _ => isMessage_of_valid permitted⟩
      | _ => exact permitted.elim)
    (by
      intro s consumed chunks chunk es all _ conserves
      exact ready_of_uniform (.inr all) conserves) h
  refine ⟨all, consumed, queued, es, ?_⟩
  cases data with
  | nil => exact conserves
  | cons b data =>
    have opened := conserves.inside (List.cons_ne_nil b data)
    rw [chunksOpen_messages] at opened
    · cases opened
    · intro chunk hchunk
      apply all
      rw [conserves.accepted]
      exact List.mem_append_left _ hchunk

theorem messages_head (h : System.Reachable times settings MessagesOnly s)
    {consumed chunks : List Chunk} {chunk : Chunk}
    (haccepted : s.accepted = consumed ++ chunk :: chunks) :
    ∃ bytes, chunk = .threeBytes bytes ∧ ValidMessage bytes := by
  obtain ⟨all, _, _, _, conserves⟩ := conserves_messages h
  have message := all chunk (by rw [haccepted]; simp)
  have bracketed := conserves.bracketed
  rw [haccepted] at bracketed
  have allowed := (bracketed_append.mp bracketed).2.1
  cases chunk with
  | threeBytes bytes =>
    simp only [Chunk.Allowed, if_neg message.1, if_neg message.2] at allowed
    exact ⟨bytes, rfl, allowed.2⟩
  | _ => exact message.elim

theorem messages_clear (h : System.Reachable times settings MessagesOnly s) :
    Flags false s.queue := by
  obtain ⟨all, consumed, queued, es, conserves⟩ := conserves_messages h
  have flags := conserves.flags (.inr all)
  rwa [chunksOpen_messages] at flags
  intro chunk hchunk
  apply all
  rw [conserves.accepted]
  exact List.mem_append_left _ hchunk

/-- How a message gets into a packet, or that there is no packet for it. -/
inductive MessageCase (times : Nat → UInt16) (queue : TxQueue maxSize packetCount)
    (bytes : MessageBytes) : TxQueueError × TxQueue maxSize packetCount → Prop
  | added {w : Writer maxSize} :
      writerAddMsg queue.lastTxPacket bytes (times queue.clock) = (.success, w) →
      MessageCase times queue bytes (.success, (queue.tick.setLastTxPacket w).setHasTxData true)
  | full :
      writerAddMsg queue.lastTxPacket bytes (times queue.clock) =
        (.packetFull, queue.lastTxPacket) →
      packetCount ≤ queue.txPacketCount → MessageCase times queue bytes (.noTxPackets, queue.tick)
  | addedNext {w : Writer maxSize} :
      writerAddMsg queue.lastTxPacket bytes (times queue.clock) =
        (.packetFull, queue.lastTxPacket) →
      queue.lastTxPacket.txBufSize ≠ 0 → queue.txPacketCount < packetCount →
      writerAddMsg (writerReset queue.nextTxPacket) bytes (times queue.clock) = (.success, w) →
      MessageCase times queue bytes
        (.success, (queue.tick.push.setLastTxPacket w).setHasTxData true)

omit [NeZero packetCount] in
theorem addChunk_addMsg {bytes : MessageBytes} (hvalid : ValidMessage bytes) (t : UInt16)
    (w : Writer maxSize) : addChunk bytes t w = writerAddMsg w bytes t := by
  have message := isMessage_of_valid hvalid
  rw [addChunk, if_neg message.1, if_neg message.2]

omit [NeZero packetCount] in
theorem allowed_of_valid {bytes : MessageBytes} (h : ValidMessage bytes) :
    (Chunk.threeBytes bytes).Allowed false := by
  have message := isMessage_of_valid h
  simp only [Chunk.Allowed, if_neg message.1, if_neg message.2]
  exact ⟨trivial, h⟩

/-- A valid message is not refused while all flags are clear, and it fits into an empty packet. -/
theorem add3_message (times : Nat → UInt16) {queue : TxQueue maxSize packetCount}
    (hsteady : Steady settings queue) (hclear : Flags false queue) {bytes : MessageBytes}
    (hvalid : ValidMessage bytes) :
    MessageCase times queue bytes (add3ByteChunkToTxPacket times queue bytes) := by
  have message := isMessage_of_valid hvalid
  have allowed := allowed_of_valid hvalid
  have fits {w : Writer maxSize} (hw : w.inSysexMsg = false) : FlagFits w bytes := by
    rw [FlagFits, hw, decide_eq_false message.2]
  have next : SteadyPacket settings (writerReset queue.nextTxPacket) :=
    SteadyPacket.reset _ (hsteady.packets _)
  have clear : (writerReset queue.nextTxPacket).inSysexMsg = false := hclear _
  have case := add3_case times queue bytes
  generalize add3ByteChunkToTxPacket times queue bytes = r at case ⊢
  cases case with
  | added eq =>
    rw [addChunk_addMsg hvalid] at eq
    exact .added eq
  | full eq le =>
    rw [addChunk_addMsg hvalid] at eq
    exact .full eq le
  | refused failed other eq =>
    rcases addChunk_code allowed hsteady.last (fits hclear.last) eq with code | code
    · exact absurd code other
    · exact absurd code failed
  | addedNext eq free eq' =>
    have written := (addChunk_written hsteady.last bytes (times queue.clock)).2 _ eq
    rw [addChunk_addMsg hvalid] at eq eq'
    exact .addedNext eq written free eq'
  | fullNext eq free eq' =>
    exact absurd rfl ((addChunk_written next bytes (times queue.clock)).2 _ eq')
  | refusedNext eq free failed other eq' =>
    rcases addChunk_code allowed next (fits clear) eq' with code | code
    · exact absurd code other
    · exact absurd code failed

/-- A property of the packets sent, the queue and the messages consumed that each step keeps: the
FIFO does not matter, a message is written or only the time is asked for, a packet is sent. -/
structure Kept (times : Nat → UInt16) (settings : Settings maxSize)
    (I : List (List UInt8) → TxQueue maxSize packetCount → List Chunk → Prop) : Prop where
  start : ∀ {blank queue}, System.start times settings blank = some queue → I [] queue []
  withFifo : ∀ {sent queue consumed} (fifo : Fifo), I sent queue consumed →
    I sent { queue with fifo := fifo } consumed
  tick : ∀ {sent queue consumed}, I sent queue consumed → I sent queue.tick consumed
  add3 : ∀ {sent queue consumed bytes}, I sent queue consumed → Steady settings queue →
    Flags false queue → ValidMessage bytes →
    add3ByteChunkToTxPacket times queue bytes = (.noTxPackets, queue.tick) ∨
      ∃ queue', add3ByteChunkToTxPacket times queue bytes = (.success, queue') ∧
        I sent queue' (consumed ++ [.threeBytes bytes])
  packetSent : ∀ {sent queue consumed}, I sent queue consumed → Steady settings queue →
    Flags false queue → (queue.hasTxData = true → queue.lastTxPacket.txBufSize ≠ 0) →
    I (sent ++ (queue.firstTxPacket.map Writer.payload).toList) queue.onTxPacketSent.2 consumed

namespace Kept

variable {I : List (List UInt8) → TxQueue maxSize packetCount → List Chunk → Prop}

/-- The consumed messages are in the packets, and the others in the FIFO. -/
structure Holds (I : List (List UInt8) → TxQueue maxSize packetCount → List Chunk → Prop)
    (s : System maxSize packetCount) (consumed queued : List Chunk) : Prop where
  accepted : s.accepted = consumed ++ queued
  fifo : s.queue.fifo.Holds queued
  kept : I s.sent s.queue consumed

private theorem iterate (h : Kept times settings I) {consumed queued : List Chunk}
    (holds : Holds I s consumed queued) (hreached : System.Reachable times settings MessagesOnly s)
    (msgBytes : MessageBytes) (reading : Option MessageBytes) :
    ∃ consumed' queued', Holds I
      { s with queue := (readStep times s.queue msgBytes).queue, reading := reading }
      consumed' queued' := by
  obtain ⟨accepted, held, kept⟩ := holds
  obtain ⟨-, _, _, _, conserves⟩ := conserves_messages hreached
  have idle : s.queue.numRemainingDataBytes = 0 := conserves.pending.remaining
  cases queued with
  | nil =>
    rw [readStep_empty times held]
    exact ⟨consumed, [], accepted, held, kept⟩
  | cons chunk chunks =>
    obtain ⟨bytes, rfl, valid⟩ := messages_head hreached accepted
    rw [readStep_threeBytes times held (allowed_of_valid valid).wellFormed idle]
    have frame := add3_frame times s.queue bytes
    rcases h.add3 kept conserves.steady (messages_clear hreached) valid with
      eq | ⟨queue', eq, kept'⟩
    · have result : (read3ByteChunk times s.queue bytes).queue = s.queue.tick := by
        rw [read3ByteChunk, eq]
        rfl
      rw [result]
      exact ⟨consumed, _, accepted, held, h.tick kept⟩
    · have result : (read3ByteChunk times s.queue bytes).queue =
          { queue' with fifo := queue'.fifo.read 3 } := by
        rw [read3ByteChunk, eq]
        rfl
      rw [eq] at frame
      rw [result]
      refine ⟨consumed ++ [.threeBytes bytes], chunks, ?_, frame.holds_read held,
        h.withFifo _ kept'⟩
      rw [List.append_assoc]
      exact accepted

private theorem step (h : Kept times settings I) {consumed queued : List Chunk}
    (holds : Holds I s consumed queued) (hreached : System.Reachable times settings MessagesOnly s)
    {a : Action} (hact : s.act times a = some s') :
    ∃ consumed' queued', Holds I s' consumed' queued' := by
  cases a with
  | request r =>
    rcases System.act_request hact with rfl | ⟨count, fifo, -, written, rfl⟩
    · exact ⟨consumed, queued, holds⟩
    · refine ⟨consumed, queued ++ [r.chunk count], ?_, holds.fifo.append written,
        h.withFifo fifo holds.kept⟩
      rw [← List.append_assoc, ← holds.accepted]
  | beginRead =>
    rw [System.act_beginRead hact]
    exact ⟨consumed, queued, holds.accepted, holds.fifo, holds.kept⟩
  | iterateRead =>
    obtain ⟨msgBytes, reading, -, rfl⟩ := System.act_iterateRead hact
    exact h.iterate holds hreached msgBytes reading
  | packetSent =>
    obtain ⟨-, _, _, _, conserves⟩ := conserves_messages hreached
    rw [System.act_packetSent hact]
    exact ⟨consumed, queued, holds.accepted, (onTxPacketSent_frame s.queue).holds holds.fifo,
      h.packetSent holds.kept conserves.steady (messages_clear hreached) conserves.current⟩

/-- What each step keeps holds in every state reached. -/
theorem run (h : Kept times settings I)
    (hreached : System.Reachable times settings MessagesOnly s) :
    ∃ consumed queued, Holds I s consumed queued := by
  obtain ⟨blank, queue, started, run⟩ := hreached
  induction run with
  | start =>
    exact ⟨[], [], rfl, (System.start_fresh started).fifo, h.start started⟩
  | step reached permitted next ih =>
    obtain ⟨consumed, queued, holds⟩ := ih
    exact h.step holds ⟨blank, queue, started, reached⟩ next

end Kept

/-- Times that the clock has shown before now, one after another. -/
def Shown (times : Nat → UInt16) (clock : Nat) (stamps : List UInt16) : Prop :=
  ∃ readings : List Nat, stamps = readings.map times ∧ readings.Pairwise (· < ·) ∧
    ∀ n ∈ readings, n < clock

namespace Shown

variable {clock : Nat} {stamps front : List UInt16}

theorem nil (times : Nat → UInt16) (clock : Nat) : Shown times clock [] :=
  ⟨[], rfl, .nil, fun _ hn => absurd hn List.not_mem_nil⟩

theorem tick (h : Shown times clock stamps) : Shown times (clock + 1) stamps := by
  obtain ⟨readings, eq, increasing, past⟩ := h
  exact ⟨readings, eq, increasing, fun n hn => Nat.lt_succ_of_lt (past n hn)⟩

theorem now (h : Shown times clock stamps) : Shown times (clock + 1) (stamps ++ [times clock]) := by
  obtain ⟨readings, rfl, increasing, past⟩ := h
  refine ⟨readings ++ [clock], ?_, ?_, ?_⟩
  · rw [List.map_append]
    rfl
  · rw [List.pairwise_append]
    refine ⟨increasing, List.pairwise_singleton _ _, ?_⟩
    intro n hn m hm
    rw [List.mem_singleton.mp hm]
    exact past n hn
  · intro n hn
    rcases List.mem_append.mp hn with earlier | last
    · exact Nat.lt_succ_of_lt (past n earlier)
    · rw [List.mem_singleton.mp last]
      exact Nat.lt_succ_self _

theorem right_of_append (h : Shown times clock (front ++ stamps)) : Shown times clock stamps := by
  obtain ⟨readings, eq, increasing, past⟩ := h
  obtain ⟨earlier, later, rfl, -, rfl⟩ := List.append_eq_map_iff.mp eq
  refine ⟨later, rfl, (List.pairwise_append.mp increasing).2.1, fun n hn => ?_⟩
  exact past n (List.mem_append_right _ hn)

end Shown

theorem onTxPacketSent_clock (queue : TxQueue maxSize packetCount) :
    queue.onTxPacketSent.2.clock = queue.clock := by
  cases flag : queue.hasTxData with
  | false => rw [(onTxPacketSent_clear flag).2]
  | true =>
    rw [onTxPacketSent_eq flag]
    split <;> rfl

theorem push_clock {queue : TxQueue maxSize packetCount}
    (h : queue.txPacketCount < packetCount) : queue.push.clock = queue.clock := by
  rw [push_eq h]
  rfl

end BleMidi.Queue
