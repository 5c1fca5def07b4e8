/- Module: BleMidi/Queue/TxQueueSpec
   source: ble_midi/src/tx_queue.c (add_3_byte_chunk_to_tx_packet, add_data_bytes_to_tx_packet)
   digest: What the functions that fill the packets of the queue can do to it. -/

import BleMidi.Packet.WriterSpec
import BleMidi.Queue.TxQueue

set_option autoImplicit false
set_option relaxedAutoImplicit false

namespace BleMidi.Queue.TxQueue

open BleMidi.Core.RingWindow
open BleMidi.Packet.Bytes
open BleMidi.Packet.PacketWriter
open BleMidi.Packet.WriterSpec

variable {maxSize packetCount : Nat}

/-- What no function that appends to a packet changes, and how far it may grow. -/
structure Extends (w w' : Writer maxSize) : Prop where
  txBufMaxSize : w'.txBufMaxSize = w.txBufMaxSize
  runningStatusEnabled : w'.runningStatusEnabled = w.runningStatusEnabled
  noteOffAsNoteOn : w'.noteOffAsNoteOn = w.noteOffAsNoteOn
  size : w'.txBufSize = w.txBufSize ∨ w'.txBufSize.toNat ≤ w.txBufMaxSize.toNat

theorem Extends.refl (w : Writer maxSize) : Extends w w := ⟨rfl, rfl, rfl, .inl rfl⟩

theorem extends_reset (w : Writer maxSize) : Extends w (writerReset w) :=
  ⟨rfl, rfl, rfl, .inr (Nat.zero_le _)⟩

theorem Extends.fits {w w' : Writer maxSize} (h : Extends w w') (hw : Fits w) : Fits w' := by
  refine ⟨?_, ?_⟩
  · rw [h.txBufMaxSize]
    rcases h.size with same | small
    · rw [same]
      exact hw.size_le
    · exact small
  · rw [h.txBufMaxSize]
    exact hw.max_le

theorem extends_putAll {w : Writer maxSize} {bytes : List UInt8}
    (h : HasRoom w bytes) : Extends w (w.putAll bytes) := by
  refine ⟨putAll_txBufMaxSize _ _, putAll_runningStatusEnabled _ _, putAll_noteOffAsNoteOn _ _,
    .inr ?_⟩
  rw [h.size]
  exact h

/-- The bytes that a three byte chunk adds to a packet, and what the writer keeps of it. -/
inductive Addition (w : Writer maxSize) (bytes : MessageBytes) (t : UInt16) :
    List UInt8 → (Writer maxSize → Writer maxSize) → Prop
  | start : bytes.byte0 = sysexStart → w.inSysexMsg = false →
      Addition w bytes t (statusBytes w t 0xf0) fun w' =>
        { w' with inSysexMsg := true, prevRunningStatusByte := 0 }
  | finish : bytes.byte0 = sysexEnd → w.inSysexMsg = true →
      Addition w bytes t (statusBytes w t 0xf7) fun w' => { w' with inSysexMsg := false }
  | realtime : bytes.byte0 ≠ sysexStart → bytes.byte0 ≠ sysexEnd →
      w.inSysexMsg = true → isRealtimeMessage bytes.byte0 = true →
      Addition w bytes t [timestampByte t, bytes.byte0] id
  | message : bytes.byte0 ≠ sysexStart → bytes.byte0 ≠ sysexEnd →
      w.inSysexMsg = false → ValidMessage bytes →
      Addition w bytes t (messageBytesToAppend w bytes t) (remember w bytes t)

/-- A chunk adds its bytes if there is room for them, or it is refused whatever room there is. -/
theorem addChunk_addition (bytes : MessageBytes) (timestamp : UInt16) (w : Writer maxSize) :
    (∃ v f, Addition w bytes timestamp v f ∧ addChunk bytes timestamp w = added w v f) ∨
      (∀ v f, ¬ Addition w bytes timestamp v f) ∧
        ∃ code, code ≠ .success ∧ code ≠ .packetFull ∧ addChunk bytes timestamp w = (code, w) := by
  unfold addChunk
  by_cases start : bytes.byte0 = sysexStart
  · rw [if_pos start, writerStartSysexMsg_eq]
    cases flag : w.inSysexMsg with
    | false => exact .inl ⟨_, _, .start start flag, if_neg (by simp)⟩
    | true =>
      refine .inr ⟨?_, .alreadyInSysexSequence, by decide, by decide, if_pos rfl⟩
      rintro v f (⟨-, clear⟩ | ⟨finish, -⟩ | ⟨other, -⟩ | ⟨other, -⟩)
      · cases flag.symm.trans clear
      · cases start.symm.trans finish
      · exact other start
      · exact other start
  rw [if_neg start]
  by_cases finish : bytes.byte0 = sysexEnd
  · rw [if_pos finish, writerEndSysexMsg_eq]
    cases flag : w.inSysexMsg with
    | true => exact .inl ⟨_, _, .finish finish flag, if_pos rfl⟩
    | false =>
      refine .inr ⟨?_, .notInSysexSequence, by decide, by decide, if_neg (by simp)⟩
      rintro v f (⟨start', -⟩ | ⟨-, set⟩ | ⟨-, other, -⟩ | ⟨-, other, -⟩)
      · exact start start'
      · cases flag.symm.trans set
      · exact other finish
      · exact other finish
  rw [if_neg finish]
  cases flag : w.inSysexMsg with
  | true =>
    rw [writerAddMsg_inside flag]
    by_cases realtime : isRealtimeMessage bytes.byte0 = true
    · exact .inl ⟨_, _, .realtime start finish flag realtime, if_pos realtime⟩
    · refine .inr ⟨?_, .invalidStatusByte, by decide, by decide, if_neg realtime⟩
      rintro v f (⟨start', -⟩ | ⟨finish', -⟩ | ⟨-, -, -, realtime'⟩ | ⟨-, -, clear, -⟩)
      · exact start start'
      · exact finish finish'
      · exact realtime realtime'
      · cases flag.symm.trans clear
  | false =>
    by_cases valid : ValidMessage bytes
    · exact .inl ⟨_, _, .message start finish flag valid, writerAddMsg_outside flag valid _⟩
    · refine .inr ⟨?_, writerAddMsg_invalid flag valid timestamp⟩
      rintro v f (⟨start', -⟩ | ⟨finish', -⟩ | ⟨-, -, set, -⟩ | ⟨-, -, -, valid'⟩)
      · exact start start'
      · exact finish finish'
      · cases flag.symm.trans set
      · exact valid valid'

theorem Addition.extends' {w w' : Writer maxSize} {bytes : MessageBytes} {t : UInt16}
    {v : List UInt8} {f : Writer maxSize → Writer maxSize} (h : Addition w bytes t v f)
    (hw : Extends w w') : Extends w (f w') := by
  cases h with
  | start _ _ => exact ⟨hw.1, hw.2, hw.3, hw.4⟩
  | finish _ _ => exact ⟨hw.1, hw.2, hw.3, hw.4⟩
  | realtime _ _ _ _ => exact hw
  | message _ _ _ _ => exact ⟨hw.1, hw.2, hw.3, hw.4⟩

theorem addChunk_added (bytes : MessageBytes) (timestamp : UInt16) (w : Writer maxSize) :
    (∃ w', addChunk bytes timestamp w = (.success, w') ∧ Extends w w') ∨
      ∃ code, code ≠ .success ∧ addChunk bytes timestamp w = (code, w) := by
  rcases addChunk_addition bytes timestamp w with
    ⟨v, f, addition, eq⟩ | ⟨-, code, failed, -, eq⟩
  · rw [eq]
    by_cases room : HasRoom w v
    · exact .inl ⟨_, if_pos room, addition.extends' (extends_putAll room)⟩
    · exact .inr ⟨.packetFull, by decide, if_neg room⟩
  · exact .inr ⟨code, failed, eq⟩

theorem addChunk_failed {bytes : MessageBytes} {timestamp : UInt16} {w w' : Writer maxSize}
    {code : PacketError} (h : addChunk bytes timestamp w = (code, w')) (hcode : code ≠ .success) :
    w' = w := by
  rcases addChunk_added bytes timestamp w with ⟨_, eq, -⟩ | ⟨_, -, eq⟩
  · exact absurd (congrArg Prod.fst (h.symm.trans eq)) hcode
  · exact congrArg Prod.snd (h.symm.trans eq)

theorem addChunk_extends (bytes : MessageBytes) (timestamp : UInt16) (w : Writer maxSize) :
    Extends w (addChunk bytes timestamp w).2 := by
  rcases addChunk_added bytes timestamp w with ⟨_, eq, extends'⟩ | ⟨_, -, eq⟩
  · rw [eq]
    exact extends'
  · rw [eq]
    exact Extends.refl w

/-- The window is a part of the ring, and there is always a current packet. -/
structure Window (queue : TxQueue maxSize packetCount) : Prop where
  first_lt : queue.firstTxPacketIdx < packetCount
  pos : 1 ≤ queue.txPacketCount
  le : queue.txPacketCount ≤ packetCount

/-- The window depends on the first packet and the number of packets only. -/
theorem Window.of_eq {queue queue' : TxQueue maxSize packetCount} (h : Window queue)
    (hfirst : queue'.firstTxPacketIdx = queue.firstTxPacketIdx)
    (hcount : queue'.txPacketCount = queue.txPacketCount) : Window queue' := by
  refine ⟨?_, ?_, ?_⟩
  · rw [hfirst]
    exact h.first_lt
  · rw [hcount]
    exact h.pos
  · rw [hcount]
    exact h.le

/-- What the packet functions leave alone. -/
structure Frame (queue queue' : TxQueue maxSize packetCount) : Prop where
  fifo : queue'.fifo = queue.fifo
  numRemainingDataBytes : queue'.numRemainingDataBytes = queue.numRemainingDataBytes
  currSysexDataChunkSize : queue'.currSysexDataChunkSize = queue.currSysexDataChunkSize
  sysexChunkScratchBuf : queue'.sysexChunkScratchBuf = queue.sysexChunkScratchBuf
  window : Window queue → Window queue'

theorem Frame.refl (queue : TxQueue maxSize packetCount) : Frame queue queue :=
  ⟨rfl, rfl, rfl, rfl, id⟩

theorem Frame.trans {queue queue' queue'' : TxQueue maxSize packetCount} (h : Frame queue queue')
    (h' : Frame queue' queue'') : Frame queue queue'' where
  fifo := h'.fifo.trans h.fifo
  numRemainingDataBytes := h'.numRemainingDataBytes.trans h.numRemainingDataBytes
  currSysexDataChunkSize := h'.currSysexDataChunkSize.trans h.currSysexDataChunkSize
  sysexChunkScratchBuf := h'.sysexChunkScratchBuf.trans h.sysexChunkScratchBuf
  window := h'.window ∘ h.window

theorem Frame.tick (queue : TxQueue maxSize packetCount) : Frame queue queue.tick :=
  ⟨rfl, rfl, rfl, rfl, fun ⟨h, h', h''⟩ => ⟨h, h', h''⟩⟩

theorem Frame.setHasTxData (queue : TxQueue maxSize packetCount) (hasData : Bool) :
    Frame queue (queue.setHasTxData hasData) :=
  ⟨rfl, rfl, rfl, rfl, fun ⟨h, h', h''⟩ => ⟨h, h', h''⟩⟩

/-- A property of every packet of the ring, in the window or not. -/
def EveryPacket (P : Writer maxSize → Prop) (queue : TxQueue maxSize packetCount) : Prop :=
  ∀ i, P (queue.txPackets i)

variable [NeZero packetCount]

@[simp] theorem setLastTxPacket_self (queue : TxQueue maxSize packetCount) :
    queue.setLastTxPacket queue.lastTxPacket = queue := by
  simp [setLastTxPacket, lastTxPacket]

@[simp] theorem lastTxPacket_setLastTxPacket (queue : TxQueue maxSize packetCount)
    (w : Writer maxSize) : (queue.setLastTxPacket w).lastTxPacket = w := by
  unfold lastTxPacket
  exact Function.update_self _ _ _

@[simp] theorem lastTxPacket_tick (queue : TxQueue maxSize packetCount) :
    queue.tick.lastTxPacket = queue.lastTxPacket := rfl

/-- The queue with one more packet, which is empty. -/
def push (queue : TxQueue maxSize packetCount) : TxQueue maxSize packetCount :=
  (queue.txPacketAdd).2

theorem txPacketAdd_of_lt {queue : TxQueue maxSize packetCount}
    (h : queue.txPacketCount < packetCount) : queue.txPacketAdd = (.success, queue.push) := by
  unfold push txPacketAdd
  rw [if_neg (Nat.not_le_of_lt h)]

theorem txPacketAdd_of_le {queue : TxQueue maxSize packetCount}
    (h : packetCount ≤ queue.txPacketCount) : queue.txPacketAdd = (.noTxPackets, queue) :=
  if_pos h

/-- The packet that a full queue window would grow into. -/
def nextTxPacket (queue : TxQueue maxSize packetCount) : Writer maxSize :=
  queue.txPackets (slot packetCount queue.firstTxPacketIdx queue.txPacketCount)

theorem lastTxPacket_push {queue : TxQueue maxSize packetCount}
    (h : queue.txPacketCount < packetCount) :
    queue.push.lastTxPacket = writerReset queue.nextTxPacket := by
  unfold push txPacketAdd
  rw [if_neg (Nat.not_le_of_lt h)]
  simp only [lastTxPacket_setLastTxPacket]
  rfl

theorem Frame.setLastTxPacket (queue : TxQueue maxSize packetCount) (w : Writer maxSize) :
    Frame queue (queue.setLastTxPacket w) :=
  ⟨rfl, rfl, rfl, rfl, fun ⟨h, h', h''⟩ => ⟨h, h', h''⟩⟩

theorem push_eq {queue : TxQueue maxSize packetCount} (h : queue.txPacketCount < packetCount) :
    queue.push =
      { queue with txPacketCount := queue.txPacketCount + 1 }.setLastTxPacket
        (writerReset queue.nextTxPacket) := by
  unfold push txPacketAdd
  rw [if_neg (Nat.not_le_of_lt h)]
  rfl

theorem Frame.push {queue : TxQueue maxSize packetCount}
    (h : queue.txPacketCount < packetCount) : Frame queue queue.push := by
  rw [push_eq h]
  exact ⟨rfl, rfl, rfl, rfl, fun window => ⟨window.first_lt, Nat.le_add_left 1 _, h⟩⟩

section EveryPacket

variable {P : Writer maxSize → Prop} {queue : TxQueue maxSize packetCount}

theorem EveryPacket.last (h : EveryPacket P queue) : P queue.lastTxPacket := h _

theorem EveryPacket.setLastTxPacket (h : EveryPacket P queue) {w : Writer maxSize} (hw : P w) :
    EveryPacket P (queue.setLastTxPacket w) := by
  intro i
  change P (Function.update queue.txPackets queue.lastSlot w i)
  by_cases same : i = queue.lastSlot
  · rw [same, Function.update_self]
    exact hw
  · rw [Function.update_of_ne same]
    exact h i

theorem EveryPacket.push (hreset : ∀ w, P w → P (writerReset w)) (h : EveryPacket P queue)
    (hlt : queue.txPacketCount < packetCount) : EveryPacket P queue.push := by
  rw [push_eq hlt]
  have grown : EveryPacket P { queue with txPacketCount := queue.txPacketCount + 1 } := h
  exact grown.setLastTxPacket (hreset _ (h _))

end EveryPacket

/-- The packets of the window in front of the current one. -/
def front (queue : TxQueue maxSize packetCount) : List (Writer maxSize) :=
  window queue.txPackets queue.firstTxPacketIdx (queue.txPacketCount - 1)

/-- The packets of the window. -/
def packets (queue : TxQueue maxSize packetCount) : List (Writer maxSize) :=
  window queue.txPackets queue.firstTxPacketIdx queue.txPacketCount

section Window

variable {queue : TxQueue maxSize packetCount} (h : Window queue)

include h

theorem Window.packets_eq : queue.packets = queue.front ++ [queue.lastTxPacket] := by
  obtain ⟨count, grown⟩ : ∃ count, queue.txPacketCount = count + 1 :=
    ⟨queue.txPacketCount - 1, by have := h.pos; omega⟩
  unfold packets front lastTxPacket lastSlot
  rw [grown]
  exact window_succ _ _ _

theorem Window.front_setLastTxPacket (w : Writer maxSize) :
    (queue.setLastTxPacket w).front = queue.front := by
  have := h.pos
  have := h.le
  exact window_update le_rfl (by omega) w

theorem Window.front_push (hlt : queue.txPacketCount < packetCount) :
    queue.push.front = queue.front ++ [queue.lastTxPacket] := by
  rw [push_eq hlt, ← h.packets_eq]
  exact window_update le_rfl hlt _

end Window

/-- What a sent notification does: nothing, or it empties the only packet of the window, or it
takes the first one of several away. -/
inductive SentCase (queue : TxQueue maxSize packetCount) :
    Option (Writer maxSize) → TxQueue maxSize packetCount → Prop
  | none : SentCase queue none queue
  | only : queue.front = [] →
      SentCase queue (some queue.lastTxPacket)
        ((queue.setLastTxPacket (writerReset queue.lastTxPacket)).setHasTxData false)
  | first {w : Writer maxSize} {queue' : TxQueue maxSize packetCount} :
      queue.front = w :: queue'.front → queue'.lastTxPacket = queue.lastTxPacket →
      queue'.hasTxData = queue.hasTxData → SentCase queue (some w) queue'

theorem onTxPacketSent_clear {queue : TxQueue maxSize packetCount}
    (h : queue.hasTxData = false) :
    queue.firstTxPacket = none ∧ queue.onTxPacketSent.2 = queue := by
  have nothing : queue.firstTxPacket = none := by
    unfold firstTxPacket
    rw [h]
    rfl
  refine ⟨nothing, ?_⟩
  unfold onTxPacketSent
  rw [nothing]

theorem onTxPacketSent_eq {queue : TxQueue maxSize packetCount}
    (h : queue.hasTxData = true) :
    queue.onTxPacketSent.2 =
      if queue.txPacketCount ≤ 1 then
        { queue with
          txPackets := Function.update queue.txPackets queue.firstSlot
            (writerReset (queue.txPackets queue.firstSlot))
          hasTxData := false }
      else
        { queue with
          txPackets := Function.update queue.txPackets queue.firstSlot
            (writerReset (queue.txPackets queue.firstSlot))
          txPacketCount := queue.txPacketCount - 1
          firstTxPacketIdx := (queue.firstTxPacketIdx + 1) % packetCount } := by
  unfold onTxPacketSent firstTxPacket
  rw [if_pos h]
  by_cases one : queue.txPacketCount ≤ 1
  · simp only [if_pos one]
    rfl
  · simp only [if_neg one]

theorem onTxPacketSent_code (queue : TxQueue maxSize packetCount) :
    queue.onTxPacketSent.1 = if queue.hasTxData then .success else .noTxPackets := by
  unfold onTxPacketSent firstTxPacket
  cases queue.hasTxData with
  | false => rfl
  | true =>
    simp only [if_true]
    split <;> rfl

theorem Window.sent_case {queue : TxQueue maxSize packetCount} (h : Window queue) :
    SentCase queue queue.firstTxPacket queue.onTxPacketSent.2 := by
  have pos := h.pos
  have le := h.le
  cases flag : queue.hasTxData with
  | false =>
    obtain ⟨nothing, same⟩ := onTxPacketSent_clear flag
    rw [nothing, same]
    exact .none
  | true =>
    have first : queue.firstTxPacket = some (queue.txPackets queue.firstSlot) := if_pos flag
    rw [first, onTxPacketSent_eq flag]
    by_cases one : queue.txPacketCount ≤ 1
    · rw [if_pos one]
      have count : queue.txPacketCount - 1 = 0 := by omega
      have last : queue.firstSlot = queue.lastSlot := by
        rw [lastSlot, count]
        rfl
      rw [last]
      refine .only ?_
      rw [front, count]
      exact window_zero _ _
    · rw [if_neg one]
      obtain ⟨count, grown⟩ : ∃ count, queue.txPacketCount = count + 2 :=
        ⟨queue.txPacketCount - 2, by omega⟩
      refine .first ?_ ?_ rfl
      · change window _ _ (queue.txPacketCount - 1) = _ :: window _ _ (queue.txPacketCount - 1 - 1)
        rw [grown]
        change window _ _ (count + 1) = _ :: window _ _ count
        rw [window_pop]
        exact congrArg (_ :: ·) (window_pop_update (by omega) _).symm
      · unfold lastTxPacket lastSlot
        simp only [grown]
        change Function.update queue.txPackets queue.firstSlot
          (writerReset (queue.txPackets queue.firstSlot))
          (slot packetCount ((queue.firstTxPacketIdx + 1) % packetCount) count) =
            queue.txPackets (slot packetCount queue.firstTxPacketIdx (count + 1))
        rw [slot_succ]
        exact Function.update_of_ne (slot_ne (by omega) (by omega) (by omega)) _ _

theorem onTxPacketSent_frame (queue : TxQueue maxSize packetCount) :
    Frame queue queue.onTxPacketSent.2 := by
  cases flag : queue.hasTxData with
  | false =>
    rw [(onTxPacketSent_clear flag).2]
    exact Frame.refl queue
  | true =>
    rw [onTxPacketSent_eq flag]
    by_cases one : queue.txPacketCount ≤ 1
    · rw [if_pos one]
      exact ⟨rfl, rfl, rfl, rfl, fun ⟨h, h', h''⟩ => ⟨h, h', h''⟩⟩
    · rw [if_neg one]
      refine ⟨rfl, rfl, rfl, rfl, fun ⟨h, h', h''⟩ => ⟨?_, ?_, ?_⟩⟩
      · exact Nat.mod_lt _ (NeZero.pos packetCount)
      · change 1 ≤ queue.txPacketCount - 1
        omega
      · change queue.txPacketCount - 1 ≤ packetCount
        omega

theorem EveryPacket.onTxPacketSent {P : Writer maxSize → Prop}
    {queue : TxQueue maxSize packetCount} (hreset : ∀ w, P w → P (writerReset w))
    (h : EveryPacket P queue) : EveryPacket P queue.onTxPacketSent.2 := by
  cases flag : queue.hasTxData with
  | false =>
    rw [(onTxPacketSent_clear flag).2]
    exact h
  | true =>
    have updated : EveryPacket P { queue with
        txPackets := Function.update queue.txPackets queue.firstSlot
          (writerReset (queue.txPackets queue.firstSlot)) } := by
      intro i
      change P (Function.update queue.txPackets queue.firstSlot _ i)
      by_cases same : i = queue.firstSlot
      · rw [same, Function.update_self]
        exact hreset _ (h _)
      · rw [Function.update_of_ne same]
        exact h i
    rw [onTxPacketSent_eq flag]
    split <;> exact updated

variable (times : Nat → UInt16)

/-- How a three byte chunk gets into a packet, or why it does not. -/
inductive Add3Case (queue : TxQueue maxSize packetCount) (bytes : MessageBytes) :
    TxQueueError × TxQueue maxSize packetCount → Prop
  | added {w : Writer maxSize} :
      addChunk bytes (times queue.clock) queue.lastTxPacket = (.success, w) →
      Add3Case queue bytes (.success, (queue.tick.setLastTxPacket w).setHasTxData true)
  | full :
      addChunk bytes (times queue.clock) queue.lastTxPacket = (.packetFull, queue.lastTxPacket) →
      packetCount ≤ queue.txPacketCount →
      Add3Case queue bytes (.noTxPackets, queue.tick)
  | refused {code : PacketError} :
      code ≠ .success → code ≠ .packetFull →
      addChunk bytes (times queue.clock) queue.lastTxPacket = (code, queue.lastTxPacket) →
      Add3Case queue bytes (.invalidData, queue.tick)
  | addedNext {w : Writer maxSize} :
      addChunk bytes (times queue.clock) queue.lastTxPacket = (.packetFull, queue.lastTxPacket) →
      queue.txPacketCount < packetCount →
      addChunk bytes (times queue.clock) (writerReset queue.nextTxPacket) = (.success, w) →
      Add3Case queue bytes (.success, (queue.tick.push.setLastTxPacket w).setHasTxData true)
  | fullNext :
      addChunk bytes (times queue.clock) queue.lastTxPacket = (.packetFull, queue.lastTxPacket) →
      queue.txPacketCount < packetCount →
      addChunk bytes (times queue.clock) (writerReset queue.nextTxPacket) =
        (.packetFull, writerReset queue.nextTxPacket) →
      Add3Case queue bytes (.noTxPackets, queue.tick.push)
  | refusedNext {code : PacketError} :
      addChunk bytes (times queue.clock) queue.lastTxPacket = (.packetFull, queue.lastTxPacket) →
      queue.txPacketCount < packetCount → code ≠ .success → code ≠ .packetFull →
      addChunk bytes (times queue.clock) (writerReset queue.nextTxPacket) =
        (code, writerReset queue.nextTxPacket) →
      Add3Case queue bytes (.invalidData, queue.tick.push)

private theorem attempts_one (queue : TxQueue maxSize packetCount) (bytes : MessageBytes)
    (timestamp : UInt16) :
    add3ByteChunkAttempts bytes timestamp 1 queue =
      ((addChunk bytes timestamp queue.lastTxPacket).1,
        queue.setLastTxPacket (addChunk bytes timestamp queue.lastTxPacket).2) := by
  rw [add3ByteChunkAttempts]
  rcases addChunk bytes timestamp queue.lastTxPacket with ⟨code, w⟩
  cases code <;> rfl

theorem add3_case (queue : TxQueue maxSize packetCount) (bytes : MessageBytes) :
    Add3Case times queue bytes (add3ByteChunkToTxPacket times queue bytes) := by
  unfold add3ByteChunkToTxPacket
  rw [add3ByteChunkAttempts, lastTxPacket_tick]
  rcases h : addChunk bytes (times queue.clock) queue.lastTxPacket with ⟨code, w⟩
  by_cases success : code = .success
  · subst success
    exact .added h
  obtain rfl : w = queue.lastTxPacket := addChunk_failed h success
  have same : queue.tick.setLastTxPacket queue.lastTxPacket = queue.tick :=
    setLastTxPacket_self queue.tick
  by_cases full : code = .packetFull
  · subst full
    simp only [same, Nat.reduceEqDiff, if_false]
    by_cases free : queue.txPacketCount < packetCount
    · have free' : queue.tick.txPacketCount < packetCount := free
      have next : queue.tick.push.lastTxPacket = writerReset queue.nextTxPacket :=
        lastTxPacket_push free'
      rw [txPacketAdd_of_lt free']
      simp only
      rw [attempts_one, next]
      rcases h' : addChunk bytes (times queue.clock) (writerReset queue.nextTxPacket) with
        ⟨code, w⟩
      by_cases success' : code = .success
      · subst success'
        exact .addedNext h free h'
      obtain rfl : w = writerReset queue.nextTxPacket := addChunk_failed h' success'
      have same' : queue.tick.push.setLastTxPacket (writerReset queue.nextTxPacket) =
          queue.tick.push := by
        rw [← next]
        exact setLastTxPacket_self _
      rw [same']
      by_cases full' : code = .packetFull
      · subst full'
        exact .fullNext h free h'
      · have result : Add3Case times queue bytes (.invalidData, queue.tick.push) :=
          .refusedNext h free success' full' h'
        cases code <;> first | exact result | exact absurd rfl success' | exact absurd rfl full'
    · have le : packetCount ≤ queue.tick.txPacketCount := Nat.le_of_not_lt free
      rw [txPacketAdd_of_le le]
      exact .full h le
  · have result : Add3Case times queue bytes
        (.invalidData, queue.tick.setLastTxPacket queue.lastTxPacket) := by
      rw [same]
      exact .refused success full h
    cases code <;> first | exact result | exact absurd rfl success | exact absurd rfl full

theorem add3_frame (queue : TxQueue maxSize packetCount) (bytes : MessageBytes) :
    Frame queue (add3ByteChunkToTxPacket times queue bytes).2 := by
  have ticked := Frame.tick queue
  have pushed (h : queue.txPacketCount < packetCount) : Frame queue queue.tick.push :=
    ticked.trans (Frame.push h)
  have written {queue' : TxQueue maxSize packetCount} (h : Frame queue queue')
      (w : Writer maxSize) : Frame queue ((queue'.setLastTxPacket w).setHasTxData true) :=
    (h.trans (Frame.setLastTxPacket _ w)).trans (Frame.setHasTxData _ true)
  have case := add3_case times queue bytes
  generalize add3ByteChunkToTxPacket times queue bytes = r at case ⊢
  cases case with
  | added _ => exact written ticked _
  | full _ _ => exact ticked
  | refused _ _ _ => exact ticked
  | addedNext _ free _ => exact written (pushed free) _
  | fullNext _ free _ => exact pushed free
  | refusedNext _ free _ _ _ => exact pushed free

theorem EveryPacket.add3 {P : Writer maxSize → Prop} {queue : TxQueue maxSize packetCount}
    {bytes : MessageBytes} (hreset : ∀ w, P w → P (writerReset w))
    (hadd : ∀ w timestamp, P w → P (addChunk bytes timestamp w).2) (h : EveryPacket P queue) :
    EveryPacket P (add3ByteChunkToTxPacket times queue bytes).2 := by
  have written {w w' : Writer maxSize} {timestamp : UInt16} {code : PacketError} (hw : P w)
      (eq : addChunk bytes timestamp w = (code, w')) : P w' := by
    have := hadd w timestamp hw
    rwa [eq] at this
  have ticked : EveryPacket P queue.tick := h
  have case := add3_case times queue bytes
  generalize add3ByteChunkToTxPacket times queue bytes = r at case ⊢
  cases case with
  | added eq => exact ticked.setLastTxPacket (written h.last eq)
  | full _ _ => exact h
  | refused _ _ _ => exact h
  | addedNext _ free eq =>
    exact (ticked.push hreset free).setLastTxPacket (written (hreset _ (h _)) eq)
  | fullNext _ free _ => exact ticked.push hreset free
  | refusedNext _ free _ _ _ => exact ticked.push hreset free

private theorem EveryPacket.addDataLoop {P : Writer maxSize → Prop}
    (hreset : ∀ w, P w → P (writerReset w))
    (hadd : ∀ w bytes timestamp, P w → P (writerAddSysexData w bytes timestamp).2) (fuel : Nat) :
    ∀ {queue : TxQueue maxSize packetCount} (bytes : List UInt8) (numBytesAdded : Nat),
      EveryPacket P queue →
      EveryPacket P (addDataBytesLoop times fuel queue bytes numBytesAdded).2 := by
  induction fuel with
  | zero => exact fun _ _ h => h
  | succ fuel ih =>
    intro queue bytes numBytesAdded h
    rw [addDataBytesLoop]
    by_cases done : bytes = []
    · rw [if_pos done]
      exact h
    rw [if_neg done]
    have ticked : EveryPacket P queue.tick := h
    have written := ticked.setLastTxPacket (hadd _ bytes (times queue.clock) h.last)
    rcases result : writerAddSysexData queue.lastTxPacket bytes (times queue.clock) with
      ⟨code | count, w⟩
    · rw [result] at written
      exact written
    · rw [result] at written
      by_cases left : count < bytes.length
      · simp only [if_pos left]
        by_cases free : (queue.tick.setLastTxPacket w).txPacketCount < packetCount
        · rw [txPacketAdd_of_lt free]
          exact ih _ _ (written.push hreset free)
        · rw [txPacketAdd_of_le (Nat.le_of_not_lt free)]
          exact written
      · simp only [if_neg left]
        exact written

theorem EveryPacket.addData {P : Writer maxSize → Prop} {queue : TxQueue maxSize packetCount}
    (hreset : ∀ w, P w → P (writerReset w))
    (hadd : ∀ w bytes timestamp, P w → P (writerAddSysexData w bytes timestamp).2)
    (h : EveryPacket P queue) (bytes : List UInt8) :
    EveryPacket P (addDataBytesToTxPacket times queue bytes).2 := by
  have loop := EveryPacket.addDataLoop times hreset hadd packetCount bytes 0 h
  unfold addDataBytesToTxPacket
  revert loop
  rcases addDataBytesLoop times packetCount queue bytes 0 with ⟨code | total, queue'⟩
  · exact id
  · intro loop
    simp only
    split
    · exact loop
    · exact loop

/-- A rule for the loop of `add_data_bytes_to_tx_packet`: `R` holds before a round, `D`
behind a round that adds bytes, `F` behind one that fails, all with the bytes that are left.
A window that grows in each round but the last has at most `packetCount` rounds. -/
theorem addDataBytesLoop_rule {R D : TxQueue maxSize packetCount → List UInt8 → Prop}
    {F : TxQueue maxSize packetCount → Prop}
    (hround : ∀ {queue bytes}, R queue bytes → bytes ≠ [] →
      match writerAddSysexData queue.lastTxPacket bytes (times queue.clock) with
      | (.error _, w) => F (queue.tick.setLastTxPacket w)
      | (.ok count, w) =>
          count ≤ bytes.length ∧ D (queue.tick.setLastTxPacket w) (bytes.drop count))
    (hnext : ∀ {queue bytes}, D queue bytes → bytes ≠ [] →
      queue.txPacketCount < packetCount → R queue.push bytes) (fuel : Nat) :
    ∀ {queue : TxQueue maxSize packetCount} {bytes : List UInt8} (numBytesAdded : Nat),
      R queue bytes → bytes ≠ [] → packetCount < fuel + queue.txPacketCount →
      queue.txPacketCount ≤ packetCount →
      match addDataBytesLoop times fuel queue bytes numBytesAdded with
      | (.error _, queue') => F queue'
      | (.ok total, queue') =>
          ∃ count, total = numBytesAdded + count ∧ count ≤ bytes.length ∧
            D queue' (bytes.drop count) := by
  induction fuel with
  | zero =>
    intro queue bytes _ _ _ hfuel hle
    omega
  | succ fuel ih =>
    intro queue bytes numBytesAdded ready nonempty hfuel hle
    have round := hround ready nonempty
    rw [addDataBytesLoop, if_neg nonempty]
    rcases result : writerAddSysexData queue.lastTxPacket bytes (times queue.clock) with
      ⟨code | count, w⟩
    · rw [result] at round
      exact round
    · rw [result] at round
      obtain ⟨most, done⟩ := round
      simp only
      by_cases left : count < bytes.length
      · rw [if_pos left]
        have rest : bytes.drop count ≠ [] := by
          rw [ne_eq, List.drop_eq_nil_iff]
          omega
        by_cases free : queue.txPacketCount < packetCount
        · have free' : (queue.tick.setLastTxPacket w).txPacketCount < packetCount := free
          rw [txPacketAdd_of_lt free']
          have grown : (queue.tick.setLastTxPacket w).push.txPacketCount =
              queue.txPacketCount + 1 := by
            rw [push_eq free']
            rfl
          have more := ih (numBytesAdded + count) (hnext done rest free') rest
            (by omega) (by omega)
          simp only
          revert more
          rcases addDataBytesLoop times fuel (queue.tick.setLastTxPacket w).push
            (bytes.drop count) (numBytesAdded + count) with ⟨code | total, queue'⟩
          · exact id
          · rintro ⟨count', rfl, most', done'⟩
            rw [List.length_drop] at most'
            rw [List.drop_drop] at done'
            exact ⟨count + count', by omega, by omega, done'⟩
        · have le : packetCount ≤ (queue.tick.setLastTxPacket w).txPacketCount := by
            exact Nat.le_of_not_lt free
          rw [txPacketAdd_of_le le]
          exact ⟨count, rfl, most, done⟩
      · rw [if_neg left]
        exact ⟨count, rfl, most, done⟩

/-- The same rule for `add_data_bytes_to_tx_packet`, which also sets the flag. -/
theorem addDataBytes_rule {R D : TxQueue maxSize packetCount → List UInt8 → Prop}
    {F : TxQueue maxSize packetCount → Prop}
    (hround : ∀ {queue bytes}, R queue bytes → bytes ≠ [] →
      match writerAddSysexData queue.lastTxPacket bytes (times queue.clock) with
      | (.error _, w) => F (queue.tick.setLastTxPacket w)
      | (.ok count, w) =>
          count ≤ bytes.length ∧ D (queue.tick.setLastTxPacket w) (bytes.drop count))
    (hnext : ∀ {queue bytes}, D queue bytes → bytes ≠ [] →
      queue.txPacketCount < packetCount → R queue.push bytes)
    (hflag : ∀ {queue bytes}, D queue bytes → D (queue.setHasTxData true) bytes)
    {queue : TxQueue maxSize packetCount} {bytes : List UInt8} (hready : R queue bytes)
    (hbytes : bytes ≠ []) (hwindow : Window queue) :
    match addDataBytesToTxPacket times queue bytes with
    | (.error _, queue') => F queue'
    | (.ok count, queue') => count ≤ bytes.length ∧ D queue' (bytes.drop count) := by
  have := hwindow.pos
  have loop := addDataBytesLoop_rule times hround hnext packetCount 0 hready hbytes (by omega)
    hwindow.le
  unfold addDataBytesToTxPacket
  revert loop
  rcases addDataBytesLoop times packetCount queue bytes 0 with ⟨code | total, queue'⟩
  · exact id
  · rintro ⟨count, total_eq, most, done⟩
    rw [Nat.zero_add] at total_eq
    subst total_eq
    refine ⟨most, ?_⟩
    split
    · exact hflag done
    · exact done

private theorem addDataBytesLoop_frame (fuel : Nat) :
    ∀ (queue : TxQueue maxSize packetCount) (bytes : List UInt8) (numBytesAdded : Nat),
      Frame queue (addDataBytesLoop times fuel queue bytes numBytesAdded).2 := by
  induction fuel with
  | zero =>
    intro queue bytes numBytesAdded
    exact Frame.refl queue
  | succ fuel ih =>
    intro queue bytes numBytesAdded
    rw [addDataBytesLoop]
    by_cases done : bytes = []
    · rw [if_pos done]
      exact Frame.refl queue
    · rw [if_neg done]
      have written (w : Writer maxSize) : Frame queue (queue.tick.setLastTxPacket w) :=
        (Frame.tick queue).trans (Frame.setLastTxPacket _ w)
      rcases writerAddSysexData queue.lastTxPacket bytes (times queue.clock) with ⟨code | count, w⟩
      · exact written w
      · by_cases left : count < bytes.length
        · simp only [if_pos left]
          by_cases free : queue.txPacketCount < packetCount
          · have free' : (queue.tick.setLastTxPacket w).txPacketCount < packetCount := free
            rw [txPacketAdd_of_lt free']
            exact ((written w).trans (Frame.push free')).trans (ih _ _ _)
          · have le : packetCount ≤ (queue.tick.setLastTxPacket w).txPacketCount :=
              Nat.le_of_not_lt free
            rw [txPacketAdd_of_le le]
            exact written w
        · simp only [if_neg left]
          exact written w

/-- Whatever the bytes are, adding them leaves the FIFO and the scratch buffer alone. -/
theorem addDataBytes_frame (queue : TxQueue maxSize packetCount) (bytes : List UInt8) :
    Frame queue (addDataBytesToTxPacket times queue bytes).2 := by
  have frame := addDataBytesLoop_frame times packetCount queue bytes 0
  unfold addDataBytesToTxPacket
  revert frame
  rcases addDataBytesLoop times packetCount queue bytes 0 with ⟨code | total, queue'⟩
  · exact id
  · intro frame
    simp only
    split
    · exact frame.trans (Frame.setHasTxData queue' true)
    · exact frame

theorem addDataBytes_nil (queue : TxQueue maxSize packetCount) :
    addDataBytesToTxPacket times queue [] = (.ok 0, queue) := by
  have loop : ∀ fuel, addDataBytesLoop times fuel queue [] 0 = (.ok 0, queue) := by
    intro fuel
    cases fuel <;> rfl
  unfold addDataBytesToTxPacket
  rw [loop]
  rfl

/-- A packet that refuses the bytes in the first round stays as it is. -/
theorem addDataBytes_error {queue : TxQueue maxSize packetCount} {bytes : List UInt8}
    {code : PacketError} (hbytes : bytes ≠ [])
    (h : writerAddSysexData queue.lastTxPacket bytes (times queue.clock) =
      (.error code, queue.lastTxPacket)) :
    addDataBytesToTxPacket times queue bytes = (.error .invalidData, queue.tick) := by
  obtain ⟨fuel, eq⟩ : ∃ fuel, packetCount = fuel + 1 :=
    ⟨packetCount - 1, by have := NeZero.pos packetCount; omega⟩
  have same : queue.tick.setLastTxPacket queue.lastTxPacket = queue.tick :=
    setLastTxPacket_self queue.tick
  have loop : addDataBytesLoop times (fuel + 1) queue bytes 0 =
      (.error .invalidData, queue.tick) := by
    rw [addDataBytesLoop, if_neg hbytes, h]
    simp only [same]
  unfold addDataBytesToTxPacket
  rw [show addDataBytesLoop times packetCount queue bytes 0 =
    addDataBytesLoop times (fuel + 1) queue bytes 0 from congrArg
      (fun fuel => addDataBytesLoop times fuel queue bytes 0) eq, loop]

end BleMidi.Queue.TxQueue
