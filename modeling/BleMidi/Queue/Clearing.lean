/- Module: BleMidi/Queue/Clearing
   source: ble_midi/src/tx_queue.c (tx_queue_reset, tx_queue_init), ble_midi/src/ble_midi_context.c
   digest: When a reset of the queue is as good as its initialisation. -/

import BleMidi.Queue.Capacity
import BleMidi.Queue.Sessions
import BleMidi.Queue.Unsized

set_option autoImplicit false
set_option relaxedAutoImplicit false

namespace BleMidi.Queue

open BleMidi.Core.Lockstep
open BleMidi.Core.RingWindow
open BleMidi.Core.Runs
open BleMidi.Packet.Bytes
open BleMidi.Packet.PacketWriter
open BleMidi.Packet.WriterSpec
open TxQueue

variable {maxSize packetCount : Nat}

private theorem addSysexData_putAll (w : Writer maxSize) (bytes : List UInt8)
    (timestamp : UInt16) : ∃ v, (writerAddSysexData w bytes timestamp).2 = w.putAll v := by
  unfold writerAddSysexData
  by_cases refused : (!w.inSysexMsg && decide (0 < w.txBufSize)) = true
  · rw [if_pos refused]
    exact ⟨[], rfl⟩
  rw [if_neg refused]
  by_cases invalid : (!bytes.all isDataByte) = true
  · rw [if_pos invalid]
    exact ⟨[], rfl⟩
  rw [if_neg invalid]
  by_cases tiny : w.txBufSize = 0 ∧ w.txBufMaxSize < 1
  · rw [if_pos tiny]
    exact ⟨[], rfl⟩
  rw [if_neg tiny]
  exact ⟨_, (putAll_append _ _ _).symm⟩

private theorem three_le_encode (chunk : Chunk) : 3 ≤ chunk.encode.length := by
  cases chunk with
  | threeBytes bytes => exact Nat.le_refl 3
  | data bytes => exact Nat.le_add_left 3 bytes.length
  | packetSize size => exact Nat.le_refl 3

variable [NeZero packetCount]

/-- What every change of a packet keeps is kept by the reader, whatever the FIFO holds. -/
theorem EveryPacket.readStep {P : Writer maxSize → Prop} (times : Nat → UInt16)
    (hreset : ∀ w, P w → P (writerReset w))
    (hchunk : ∀ bytes w timestamp, P w → P (addChunk bytes timestamp w).2)
    (hdata : ∀ w bytes timestamp, P w → P (writerAddSysexData w bytes timestamp).2)
    (hsize : ∀ w size, P w → P { w with txBufMaxSize := size })
    {queue : TxQueue maxSize packetCount} (h : EveryPacket P queue) (msgBytes : MessageBytes) :
    EveryPacket P (TxQueue.readStep times queue msgBytes).queue := by
  have kept {queue' : TxQueue maxSize packetCount} (adds : Adds times queue queue') :
      EveryPacket P queue' := by
    cases adds with
    | threeBytes bytes => exact EveryPacket.add3 times hreset (hchunk bytes) h
    | data buf bytes =>
      have loaded : EveryPacket P { queue with sysexChunkScratchBuf := buf } := h
      exact EveryPacket.addData times hreset hdata loaded bytes
  have effect := readStep_effect times queue msgBytes
  generalize TxQueue.readStep times queue msgBytes = r at effect ⊢
  cases effect with
  | empty _ => exact h
  | full adds => exact kept adds
  | added _ _ _ _ adds => exact fun i => kept adds i
  | packetSize size _ => exact fun i => hsize _ size (h i)
  | unknown _ => exact h

/-- The flags of a packet that `tx_queue_init` sets. -/
structure HasFlags (runningStatusEnabled noteOffAsNoteOn : Bool) (w : Writer maxSize) : Prop where
  runningStatus : w.runningStatusEnabled = runningStatusEnabled
  noteOff : w.noteOffAsNoteOn = noteOffAsNoteOn

/-- What a run from `tx_queue_init` keeps: the flags of the packets, and that a FIFO too small for
a chunk stays empty, so that no sysex message is ever started. -/
structure Initialised (runningStatusEnabled noteOffAsNoteOn : Bool)
    (queue : TxQueue maxSize packetCount) : Prop where
  flags : EveryPacket (HasFlags runningStatusEnabled noteOffAsNoteOn) queue
  small : queue.fifo.capacity < 3 →
    queue.fifo.bytes = [] ∧ EveryPacket (fun w => w.inSysexMsg = false) queue

namespace Initialised

variable {runningStatusEnabled noteOffAsNoteOn : Bool} {queue : TxQueue maxSize packetCount}

omit [NeZero packetCount] in
theorem init (blank : TxQueue maxSize packetCount) (runningStatusEnabled noteOffAsNoteOn : Bool) :
    Initialised runningStatusEnabled noteOffAsNoteOn
      (TxQueue.init blank runningStatusEnabled noteOffAsNoteOn) :=
  ⟨fun _ => ⟨rfl, rfl⟩, fun _ => ⟨rfl, fun _ => rfl⟩⟩

omit [NeZero packetCount] in
theorem request (h : Initialised runningStatusEnabled noteOffAsNoteOn queue) {fifo : Fifo}
    {chunk : Chunk} (hfifo : fifo.bytes = queue.fifo.bytes ++ chunk.encode) :
    Initialised runningStatusEnabled noteOffAsNoteOn { queue with fifo := fifo } := by
  refine ⟨h.flags, fun small => ?_⟩
  have fits := fifo.fits
  have long := three_le_encode chunk
  rw [hfifo, List.length_append] at fits
  change fifo.capacity < 3 at small
  omega

theorem sent (h : Initialised runningStatusEnabled noteOffAsNoteOn queue) :
    Initialised runningStatusEnabled noteOffAsNoteOn queue.onTxPacketSent.2 := by
  refine ⟨h.flags.onTxPacketSent fun _ hw => ⟨hw.runningStatus, hw.noteOff⟩, fun small => ?_⟩
  rw [(onTxPacketSent_frame queue).fifo] at small ⊢
  obtain ⟨empty, closed⟩ := h.small small
  exact ⟨empty, closed.onTxPacketSent fun _ hw => hw⟩

theorem step (times : Nat → UInt16) (h : Initialised runningStatusEnabled noteOffAsNoteOn queue)
    (msgBytes : MessageBytes) :
    Initialised runningStatusEnabled noteOffAsNoteOn (readStep times queue msgBytes).queue := by
  have flags : EveryPacket (HasFlags runningStatusEnabled noteOffAsNoteOn)
      (readStep times queue msgBytes).queue := by
    refine EveryPacket.readStep times ?_ ?_ ?_ ?_ h.flags msgBytes
    · intro w hw
      exact ⟨hw.runningStatus, hw.noteOff⟩
    · intro bytes w timestamp hw
      have extends' := addChunk_extends bytes timestamp w
      exact ⟨extends'.runningStatusEnabled.trans hw.runningStatus,
        extends'.noteOffAsNoteOn.trans hw.noteOff⟩
    · intro w bytes timestamp hw
      obtain ⟨v, eq⟩ := addSysexData_putAll w bytes timestamp
      rw [eq]
      exact ⟨(putAll_runningStatusEnabled w v).trans hw.runningStatus,
        (putAll_noteOffAsNoteOn w v).trans hw.noteOff⟩
    · intro w size hw
      exact ⟨hw.runningStatus, hw.noteOff⟩
  refine ⟨flags, fun small => ?_⟩
  have capacity : (readStep times queue msgBytes).queue.fifo.capacity = queue.fifo.capacity := by
    have takes := readStep_takes times queue msgBytes
    revert takes
    rcases readStep times queue msgBytes with ⟨code, queue'⟩ | ⟨queue', msgBytes'⟩
    · exact fun takes => congrArg Fifo.capacity takes.1
    · rintro ⟨n, eq⟩
      exact (congrArg Fifo.capacity eq).trans rfl
  rw [capacity] at small
  have still : readStep times queue msgBytes = .ret (.success, queue) :=
    readStep_empty times (h.small small).1 msgBytes
  rw [still]
  exact h.small small

/-- Whatever the producers write, also what is not well formed. -/
theorem of_reach {blank : TxQueue maxSize packetCount} {times : Nat → UInt16}
    {s : System maxSize packetCount}
    (h : Reach (System.act times) (fun _ _ => True)
      (System.initial (TxQueue.init blank runningStatusEnabled noteOffAsNoteOn)) s) :
    Initialised runningStatusEnabled noteOffAsNoteOn s.queue := by
  refine h.invariant
    (I := fun s => Initialised runningStatusEnabled noteOffAsNoteOn s.queue) (init blank _ _) ?_
  intro s s' a initialised _ next
  have permitted : System.permit (fun _ _ => True) (fun _ => True) s a := by
    cases a <;> exact trivial
  refine System.act_keeps ?_ ?_ ?_ initialised permitted next
  · intro queue r count fifo initialised _ exec written
    exact initialised.request written
  · intro queue msgBytes initialised _
    exact initialised.step times msgBytes
  · intro queue initialised
    exact initialised.sent

end Initialised

/-- The chunk of a sysex start. -/
def startChunk : Chunk := .threeBytes ⟨sysexStart, 0, 0⟩

/-- A cleared queue with the start of a sysex message in its FIFO. -/
structure Cleared (queue : TxQueue maxSize packetCount) : Prop where
  first : queue.firstTxPacketIdx = 0
  window : Window queue
  packets : EveryPacket (fun w => w.txBufMaxSize = 0) queue
  held : queue.fifo.Holds [startChunk]
  idle : queue.numRemainingDataBytes = 0

theorem addChunk_start_noRoom {w : Writer maxSize} (h : w.txBufMaxSize = 0)
    (timestamp : UInt16) :
    w.inSysexMsg = true ∧
        addChunk ⟨sysexStart, 0, 0⟩ timestamp w = (.alreadyInSysexSequence, w) ∨
      w.inSysexMsg = false ∧ addChunk ⟨sysexStart, 0, 0⟩ timestamp w = (.packetFull, w) := by
  have none : ¬ HasRoom w (statusBytes w timestamp 0xf0) := by
    unfold HasRoom statusBytes
    rw [h, List.length_append]
    change ¬ _ + (_ + 2) ≤ 0
    omega
  unfold addChunk
  rw [if_pos rfl, writerStartSysexMsg_eq]
  unfold added
  rw [if_neg none]
  cases w.inSysexMsg with
  | true => exact .inl ⟨rfl, rfl⟩
  | false => exact .inr ⟨rfl, rfl⟩

namespace Cleared

variable {queue : TxQueue maxSize packetCount}

private theorem le_of_closed (h : Cleared queue) {k : Fin packetCount}
    (hopen : (queue.txPackets k).inSysexMsg = true) (hk : queue.txPacketCount ≤ k.val + 1)
    (hlast : queue.lastTxPacket.inSysexMsg = false) : queue.txPacketCount ≤ k.val := by
  have pos := h.window.pos
  by_contra current
  have last : queue.lastSlot = k := by
    apply Fin.ext
    change (queue.firstTxPacketIdx + (queue.txPacketCount - 1)) % packetCount = k.val
    rw [h.first, Nat.zero_add, Nat.mod_eq_of_lt (by have := h.window.le; omega)]
    omega
  unfold lastTxPacket at hlast
  rw [last, hopen] at hlast
  cases hlast

/-- While a packet with an open sysex message is the current one or a later one, the start is
refused, or the queue takes one more packet in front of it. -/
private theorem add3 (times : Nat → UInt16) (h : Cleared queue) {k : Fin packetCount}
    (hopen : (queue.txPackets k).inSysexMsg = true) (hk : queue.txPacketCount ≤ k.val + 1) :
    (∃ queue', add3ByteChunkToTxPacket times queue ⟨sysexStart, 0, 0⟩ = (.invalidData, queue')) ∨
      add3ByteChunkToTxPacket times queue ⟨sysexStart, 0, 0⟩ = (.noTxPackets, queue.tick.push) ∧
        queue.txPacketCount < packetCount ∧ queue.txPacketCount ≤ k.val ∧
        (queue.tick.push.txPackets k).inSysexMsg = true := by
  have last := addChunk_start_noRoom h.packets.last (times queue.clock)
  have roomless : (writerReset queue.nextTxPacket).txBufMaxSize = 0 := h.packets _
  have next := addChunk_start_noRoom roomless (times queue.clock)
  have case := add3_case times queue ⟨sysexStart, 0, 0⟩
  generalize add3ByteChunkToTxPacket times queue ⟨sysexStart, 0, 0⟩ = r at case ⊢
  cases case with
  | added eq =>
    rcases last with ⟨-, last⟩ | ⟨-, last⟩
    · cases last.symm.trans eq
    · cases last.symm.trans eq
  | full eq le =>
    rcases last with ⟨-, last⟩ | ⟨clear, -⟩
    · cases last.symm.trans eq
    · have before := h.le_of_closed hopen hk clear
      exact absurd (Nat.lt_of_le_of_lt before k.isLt) (Nat.not_lt.mpr le)
  | refused _ _ _ => exact .inl ⟨_, rfl⟩
  | addedNext _ _ eq =>
    rcases next with ⟨-, next⟩ | ⟨-, next⟩
    · cases next.symm.trans eq
    · cases next.symm.trans eq
  | fullNext eq free eq' =>
    rcases last with ⟨-, last⟩ | ⟨clear, -⟩
    · cases last.symm.trans eq
    rcases next with ⟨-, next⟩ | ⟨clear', -⟩
    · cases next.symm.trans eq'
    refine .inr ⟨rfl, free, h.le_of_closed hopen hk clear, ?_⟩
    have other : k ≠ slot packetCount queue.firstTxPacketIdx queue.txPacketCount := by
      rintro rfl
      cases hopen.symm.trans clear'
    have free' : queue.tick.txPacketCount < packetCount := free
    rw [push_eq free']
    change (Function.update queue.txPackets _ _ k).inSysexMsg = true
    rw [Function.update_of_ne (by exact other)]
    exact hopen
  | refusedNext _ _ _ _ _ => exact .inl ⟨_, rfl⟩

/-- While a packet with an open sysex message is the current one or a later one, the reader skips
the chunk, or it takes one more packet and gives up. -/
theorem read (times : Nat → UInt16) (h : Cleared queue) {k : Fin packetCount}
    (hopen : (queue.txPackets k).inSysexMsg = true) (hk : queue.txPacketCount ≤ k.val + 1) :
    (∃ queue', queue.perform times .readFromFifo (.code .success) queue') ∨
      ∃ code queue', queue.perform times .readFromFifo code queue' ∧ Cleared queue' ∧
        (queue'.txPackets k).inSysexMsg = true ∧
        queue'.txPacketCount = queue.txPacketCount + 1 ∧ queue.txPacketCount ≤ k.val := by
  have valid : (128 : UInt8) ≤ sysexStart := by decide
  have step := readStep_threeBytes times h.held valid h.idle ⟨0, 0, 0⟩
  have frame := add3_frame times queue ⟨sysexStart, 0, 0⟩
  rcases h.add3 times hopen hk with ⟨queue', eq⟩ | ⟨eq, free, before, still⟩
  · rw [eq] at frame
    have rest : (queue'.fifo.read 3).Holds [] := frame.holds_read h.held
    refine .inl ⟨{ queue' with fifo := queue'.fifo.read 3 }, 2, ?_⟩
    rw [read3ByteChunk, eq] at step
    have read : readFromFifo times 2 queue =
        some (.success, { queue' with fifo := queue'.fifo.read 3 }) := by
      simp only [readFromFifo, loop, step]
      rw [readStep_empty times (by exact rest)]
    rw [execOp, read]
    rfl
  · rw [eq] at frame
    have free' : queue.tick.txPacketCount < packetCount := free
    refine .inr ⟨.code .noTxPackets, queue.tick.push, ⟨1, ?_⟩,
      ⟨?_, frame.window h.window, ?_, frame.holds h.held, ?_⟩, still, ?_, before⟩
    · rw [read3ByteChunk, eq] at step
      have read : readFromFifo times 1 queue = some (.noTxPackets, queue.tick.push) := by
        simp only [readFromFifo, loop, step]
      rw [execOp, read]
      rfl
    · rw [push_eq free']
      exact h.first
    · exact EveryPacket.push (fun _ hw => hw) h.packets free'
    · exact frame.numRemainingDataBytes.trans h.idle
    · rw [push_eq free']
      rfl

theorem skips (times : Nat → UInt16) {k : Fin packetCount} (n : Nat) :
    ∀ {queue : TxQueue maxSize packetCount}, Cleared queue →
      (queue.txPackets k).inSysexMsg = true → queue.txPacketCount ≤ k.val + 1 →
      k.val + 1 < n + queue.txPacketCount →
      ∃ reads outs queue', Performs (TxQueue.perform times) queue
        (List.replicate reads .readFromFifo) outs queue' ∧ .code .success ∈ outs := by
  induction n with
  | zero =>
    intro queue _ _ hk hn
    omega
  | succ n ih =>
    intro queue h hopen hk hn
    rcases h.read times hopen hk with ⟨queue', step⟩ | ⟨code, queue', step, h', hopen', grown, hk'⟩
    · exact ⟨1, [.code .success], queue', .cons step (.nil queue'), List.mem_singleton_self _⟩
    · obtain ⟨reads, outs, r, run, mem⟩ := ih h' hopen' (by omega) (by omega)
      exact ⟨reads + 1, code :: outs, r, .cons step run, List.mem_cons_of_mem _ mem⟩

end Cleared

omit [NeZero packetCount] in
private theorem exec_addSysexStart (queue : TxQueue maxSize packetCount)
    (hempty : queue.fifo.bytes = []) (hcapacity : 3 ≤ queue.fifo.capacity) :
    ∃ fifo : Fifo, fifo.Holds [startChunk] ∧
      Request.addSysexStart.exec queue = (.ok 0, { queue with fifo := fifo }) := by
  have ok : (Request.addSysexStart.exec queue).1 = .ok 0 := by
    have blocks : Request.addSysexStart.Blocks := trivial
    rw [blocks.exec, Fifo.getFreeSpace, hempty]
    exact if_neg (Nat.not_lt.mpr hcapacity)
  have held : queue.fifo.Holds [] := hempty
  rcases Request.addSysexStart.exec_appends queue with ⟨code, eq⟩ | ⟨count, fifo, eq, written⟩
  · rw [eq] at ok
    cases ok
  · rw [eq] at ok
    cases ok
    have started : fifo.Holds ([] ++ [startChunk]) := held.append written
    exact ⟨fifo, started, eq⟩

private theorem Unsized.waits (times : Nat → UInt16) {runningStatusEnabled noteOffAsNoteOn : Bool}
    {queue : TxQueue maxSize packetCount}
    (h : Unsized runningStatusEnabled noteOffAsNoteOn queue [startChunk]) (reads : Nat) :
    ∃ queue', Performs (TxQueue.perform times) queue (List.replicate reads .readFromFifo)
      (List.replicate reads (.code .noTxPackets)) queue' := by
  refine Performs.replicate (f := TxQueue.perform times)
    (I := fun queue => Unsized runningStatusEnabled noteOffAsNoteOn queue [startChunk]) ?_ reads h
  intro queue unsized
  obtain ⟨queue', step, unsized'⟩ :=
    unsized.readStep_blocks times (by decide) (.inl rfl) ⟨0, 0, 0⟩
  have read : readFromFifo times 1 queue = some (.noTxPackets, queue') := by
    simp only [readFromFifo, loop, step]
  refine ⟨queue', ⟨1, ?_⟩, unsized'⟩
  rw [execOp, read]
  rfl

/-- A packet with an open sysex message makes the reader skip a sysex start that would wait behind
an initialisation. -/
private theorem reset_distinguished {runningStatusEnabled noteOffAsNoteOn : Bool}
    {queue : TxQueue maxSize packetCount} (times : Nat → UInt16)
    (h : Initialised runningStatusEnabled noteOffAsNoteOn queue) {k : Fin packetCount}
    (hopen : (queue.txPackets k).inSysexMsg = true) :
    ¬ Indistinguishable (TxQueue.perform times) (reset queue)
      (init queue runningStatusEnabled noteOffAsNoteOn) := by
  intro same
  have capacity : 3 ≤ queue.fifo.capacity := by
    by_contra small
    obtain ⟨-, closed⟩ := h.small (Nat.lt_of_not_le small)
    cases hopen.symm.trans (closed k)
  have window : 0 < packetCount := NeZero.pos packetCount
  obtain ⟨fifo, held, exec⟩ := exec_addSysexStart (reset queue) rfl capacity
  obtain ⟨fifo', held', exec'⟩ := exec_addSysexStart
    (init queue runningStatusEnabled noteOffAsNoteOn) rfl capacity
  have cleared : Cleared { reset queue with fifo := fifo } :=
    ⟨rfl, ⟨window, le_rfl, window⟩, fun _ => rfl, held, rfl⟩
  have unsized : Unsized runningStatusEnabled noteOffAsNoteOn
      { init queue runningStatusEnabled noteOffAsNoteOn with fifo := fifo' } [startChunk] :=
    ⟨⟨window, le_rfl, window⟩, fun _ => ⟨rfl, rfl, rfl, rfl, rfl⟩, held', rfl⟩
  obtain ⟨reads, outs, r, run, skipped⟩ := cleared.skips times (k := k) (k.val + 1) hopen
    (Nat.le_add_left 1 k.val) (Nat.lt_succ_self _)
  obtain ⟨r', run'⟩ := unsized.waits times reads
  have first : (reset queue).perform times (.request .addSysexStart) (.count (.ok 0))
      { reset queue with fifo := fifo } := ⟨0, by rw [execOp, exec]⟩
  have first' : (init queue runningStatusEnabled noteOffAsNoteOn).perform times
      (.request .addSysexStart) (.count (.ok 0))
      { init queue runningStatusEnabled noteOffAsNoteOn with fifo := fifo' } :=
    ⟨0, by rw [execOp, exec']⟩
  have outs_eq := Indistinguishable.outs_eq (f := TxQueue.perform times) perform_deterministic same
    (.cons first run) (.cons first' run')
  rw [← (List.cons.inj outs_eq).2] at skipped
  cases List.eq_of_mem_replicate skipped

omit [NeZero packetCount] in
private theorem reset_eq_init {runningStatusEnabled noteOffAsNoteOn : Bool}
    {queue : TxQueue maxSize packetCount}
    (h : EveryPacket (HasFlags runningStatusEnabled noteOffAsNoteOn) queue)
    (hclosed : ∀ i, (queue.txPackets i).inSysexMsg = false) :
    reset queue = init queue runningStatusEnabled noteOffAsNoteOn := by
  have packets : (reset queue).txPackets =
      (init queue runningStatusEnabled noteOffAsNoteOn).txPackets := by
    funext i
    obtain ⟨runningStatus, noteOff⟩ := h i
    change { writerReset (queue.txPackets i) with txBufMaxSize := 0 } =
      { writerReset (writerInit (queue.txPackets i) runningStatusEnabled noteOffAsNoteOn) with
        txBufMaxSize := 0 }
    unfold writerReset writerInit
    simp only [hclosed i, runningStatus, noteOff]
  unfold init
  unfold reset at packets ⊢
  simp only [TxQueue.mk.injEq, true_and, and_true]
  exact packets

/-- Clearing a queue after any run from `tx_queue_init` that writes inside its buffers is as good as
initialising it again if and only if no packet of the ring has a sysex message open. -/
theorem reset_indistinguishable_iff {blank : TxQueue maxSize packetCount}
    {runningStatusEnabled noteOffAsNoteOn : Bool} {times : Nat → UInt16}
    {s : System maxSize packetCount}
    (h : Reach (System.act times) WritesInside
      (System.initial (init blank runningStatusEnabled noteOffAsNoteOn)) s)
    (times' : Nat → UInt16) :
    Indistinguishable (TxQueue.perform times') (reset s.queue)
        (init s.queue runningStatusEnabled noteOffAsNoteOn) ↔
      ∀ i, (s.queue.txPackets i).inSysexMsg = false := by
  have initialised := Initialised.of_reach (h.mono fun _ => trivial)
  constructor
  · intro same
    by_contra opened
    obtain ⟨k, hk⟩ := not_forall.mp opened
    exact reset_distinguished times' initialised (Bool.eq_true_of_not_eq_false hk) same
  · intro closed
    rw [reset_eq_init initialised.flags closed]
    exact Indistinguishable.refl _ _

/-- A sysex start that was read into a packet. -/
def startedSysex : List Action :=
  [.request (.addTxPacketSize 5), .request .addSysexStart, .beginRead, .iterateRead, .iterateRead,
    .iterateRead]

/-- A queue that was cleared in the middle of a sysex message. -/
theorem reset_indistinguishable_started :
    ∃ s, Reach (System.act millisecondClock) WritesInside
        (System.initial (init (blankQueue 8 2 16) true true)) s ∧
      (s.queue.txPackets 0).inSysexMsg = true ∧
      (Indistinguishable (TxQueue.perform millisecondClock) (reset s.queue)
          (init s.queue true true) ↔
        ∀ i, (s.queue.txPackets i).inSysexMsg = false) := by
  obtain ⟨s, run, hopen⟩ := exists_of_replay (System.act millisecondClock) WritesInside
    (System.initial (init (blankQueue 8 2 16) true true))
    (fun s => (s.queue.txPackets 0).inSysexMsg = true) startedSysex (by decide +kernel)
  exact ⟨s, run, hopen, reset_indistinguishable_iff run millisecondClock⟩

/-- A message with a new packet size, and the packet it is read into. -/
def oneMessage : List QueueOp :=
  [.request (.addTxPacketSize 5), .request (.addMsg ⟨0x90, 1, 2⟩), .readFromFifo, .firstTxPacket]

/-- In such a queue the next message is lost, while it is sent behind an initialisation. -/
theorem reset_loses_message :
    ∃ s, Reach (System.act millisecondClock) WritesInside
        (System.initial (init (blankQueue 8 2 16) true true)) s ∧
      (∃ queue, Performs (TxQueue.perform millisecondClock) (reset s.queue) oneMessage
        [.count (.ok 0), .count (.ok 0), .code .success, .packet none] queue) ∧
      (∃ queue, Performs (TxQueue.perform millisecondClock) (init s.queue true true) oneMessage
        [.count (.ok 0), .count (.ok 0), .code .success,
          .packet (some (5, [0xbf, 0xff, 0x90, 1, 2]))] queue) ∧
      ¬ Indistinguishable (TxQueue.perform millisecondClock) (reset s.queue)
        (init s.queue true true) := by
  obtain ⟨s, run, lost, sent⟩ := exists_of_replay (System.act millisecondClock) WritesInside
    (System.initial (init (blankQueue 8 2 16) true true))
    (fun s =>
      (execute (execOp millisecondClock 9) (reset s.queue) oneMessage).map Prod.fst =
          some [.count (.ok 0), .count (.ok 0), .code .success, .packet none] ∧
        (execute (execOp millisecondClock 9) (init s.queue true true) oneMessage).map Prod.fst =
          some [.count (.ok 0), .count (.ok 0), .code .success,
            .packet (some (5, [0xbf, 0xff, 0x90, 1, 2]))]) startedSysex (by decide +kernel)
  have performs {queue : TxQueue 8 2} {outs : List Returned}
      (h : (execute (execOp millisecondClock 9) queue oneMessage).map Prod.fst = some outs) :
      ∃ queue', Performs (TxQueue.perform millisecondClock) queue oneMessage outs queue' := by
    obtain ⟨⟨outs', queue'⟩, executed, rfl⟩ := Option.map_eq_some_iff.mp h
    exact ⟨queue', performs_of_execute (fun step => ⟨9, step⟩) oneMessage executed⟩
  obtain ⟨r, reset_run⟩ := performs lost
  obtain ⟨r', init_run⟩ := performs sent
  refine ⟨s, run, ⟨r, reset_run⟩, ⟨r', init_run⟩, fun same => ?_⟩
  have outs_eq := Indistinguishable.outs_eq (f := TxQueue.perform millisecondClock)
    perform_deterministic same reset_run init_run
  revert outs_eq
  decide

end BleMidi.Queue
