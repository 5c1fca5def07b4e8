/- Module: BleMidi/Queue/Steady
   source: ble_midi/src/tx_queue.c
   digest: The queue while its packet size is fixed. -/

import BleMidi.Queue.ReadCases

set_option autoImplicit false
set_option relaxedAutoImplicit false

namespace BleMidi.Queue

open BleMidi.Core.RingWindow
open BleMidi.Core.Runs
open BleMidi.Packet.Bytes
open BleMidi.Packet.PacketWriter
open BleMidi.Packet.WriterSpec
open TxQueue

/-- What all packets of the queue have in common. The longest message takes five bytes of an
empty packet. -/
structure Settings (maxSize : Nat) where
  txBufMaxSize : UInt16
  runningStatusEnabled : Bool
  noteOffAsNoteOn : Bool
  five_le : 5 ≤ txBufMaxSize.toNat
  le_maxSize : txBufMaxSize.toNat ≤ maxSize

variable {maxSize packetCount : Nat} {settings : Settings maxSize}

/-- A packet with the settings of the queue that is not longer than allowed. -/
structure SteadyPacket (settings : Settings maxSize) (w : Writer maxSize) : Prop where
  txBufMaxSize : w.txBufMaxSize = settings.txBufMaxSize
  runningStatusEnabled : w.runningStatusEnabled = settings.runningStatusEnabled
  noteOffAsNoteOn : w.noteOffAsNoteOn = settings.noteOffAsNoteOn
  size_le : w.txBufSize.toNat ≤ w.txBufMaxSize.toNat

namespace SteadyPacket

variable {w w' : Writer maxSize}

theorem fits (h : SteadyPacket settings w) : Fits w := by
  refine ⟨h.size_le, ?_⟩
  rw [h.txBufMaxSize]
  exact settings.le_maxSize

theorem five_le (h : SteadyPacket settings w) : 5 ≤ w.txBufMaxSize.toNat := by
  rw [h.txBufMaxSize]
  exact settings.five_le

theorem extends' (h : SteadyPacket settings w) (hw : Extends w w') : SteadyPacket settings w' where
  txBufMaxSize := hw.txBufMaxSize.trans h.txBufMaxSize
  runningStatusEnabled := hw.runningStatusEnabled.trans h.runningStatusEnabled
  noteOffAsNoteOn := hw.noteOffAsNoteOn.trans h.noteOffAsNoteOn
  size_le := (hw.fits h.fits).size_le

theorem reset (w : Writer maxSize) (h : SteadyPacket settings w) :
    SteadyPacket settings (writerReset w) :=
  h.extends' (extends_reset w)

theorem addChunk (bytes : MessageBytes) (w : Writer maxSize) (timestamp : UInt16)
    (h : SteadyPacket settings w) : SteadyPacket settings (TxQueue.addChunk bytes timestamp w).2 :=
  h.extends' (addChunk_extends bytes timestamp w)

end SteadyPacket

/-- The state of the queue between two calls with a fixed packet size. -/
structure Steady [NeZero packetCount] (settings : Settings maxSize)
    (queue : TxQueue maxSize packetCount) : Prop where
  window : Window queue
  packets : EveryPacket (SteadyPacket settings) queue

/-- A packet to which sysex data can be added. -/
def TakesData (w : Writer maxSize) : Prop := w.inSysexMsg = true ∨ w.txBufSize = 0

instance (w : Writer maxSize) : Decidable (TakesData w) := inferInstanceAs (Decidable (_ ∨ _))

theorem not_takesData {w : Writer maxSize} (h : ¬ TakesData w) :
    w.inSysexMsg = false ∧ w.txBufSize ≠ 0 :=
  ⟨Bool.eq_false_iff.mpr fun flag => h (.inl flag), fun empty => h (.inr empty)⟩

/-- The packet with as many of the data bytes as it has room for. -/
def withData (w : Writer maxSize) (bytes : List UInt8) (timestamp : UInt16) : Writer maxSize :=
  w.putAll (w.header timestamp ++ bytes.take (dataRoom w))

section Queue

variable [NeZero packetCount] {queue : TxQueue maxSize packetCount} {times : Nat → UInt16}

theorem Steady.last (h : Steady settings queue) : SteadyPacket settings queue.lastTxPacket :=
  h.packets.last

theorem Steady.withScratch (h : Steady settings queue) (fifo : Fifo) (remaining size : Nat)
    (buf : List UInt8) :
    Steady settings { queue with
      fifo := fifo
      numRemainingDataBytes := remaining
      currSysexDataChunkSize := size
      sysexChunkScratchBuf := buf } :=
  ⟨h.window.of_eq rfl rfl, h.packets⟩

theorem Steady.tick (h : Steady settings queue) : Steady settings queue.tick :=
  ⟨(Frame.tick queue).window h.window, h.packets⟩

theorem Steady.setLastTxPacket (h : Steady settings queue) {w : Writer maxSize}
    (hw : SteadyPacket settings w) : Steady settings (queue.setLastTxPacket w) :=
  ⟨(Frame.setLastTxPacket queue w).window h.window, h.packets.setLastTxPacket hw⟩

theorem Steady.push (h : Steady settings queue) (hlt : queue.txPacketCount < packetCount) :
    Steady settings queue.push where
  window := (Frame.push hlt).window h.window
  packets := h.packets.push SteadyPacket.reset hlt

theorem Steady.add3 (times : Nat → UInt16) (h : Steady settings queue) (bytes : MessageBytes) :
    Steady settings (add3ByteChunkToTxPacket times queue bytes).2 where
  window := (add3_frame times queue bytes).window h.window
  packets := h.packets.add3 times SteadyPacket.reset (SteadyPacket.addChunk bytes)

private theorem withData_txBufSize {w : Writer maxSize} {bytes : List UInt8} {timestamp : UInt16}
    (h : HasRoom w (w.header timestamp ++ bytes.take (dataRoom w))) :
    (withData w bytes timestamp).txBufSize ≠ 0 := by
  intro zero
  have size := h.size
  change (withData w bytes timestamp).txBufSize.toNat = _ at size
  rw [zero, List.length_append, header_length] at size
  by_cases empty : w.txBufSize = 0
  · rw [if_pos empty, empty] at size
    change 0 = 0 + _ at size
    omega
  · apply empty
    apply UInt16.toNat_inj.mp
    change 0 = _ at size
    change _ = 0
    omega

/-- Data bytes go into the packets one packet after another. `R` is what the rounds keep. -/
theorem Steady.addData (times : Nat → UInt16) {R : TxQueue maxSize packetCount → List UInt8 → Prop}
    (hround : ∀ {queue bytes}, Steady settings queue → R queue bytes →
      (∀ b ∈ bytes, isDataByte b = true) →
      HasRoom queue.lastTxPacket (queue.lastTxPacket.header (times queue.clock) ++
        bytes.take (dataRoom queue.lastTxPacket)) →
      R (queue.tick.setLastTxPacket (withData queue.lastTxPacket bytes (times queue.clock)))
        (bytes.drop (dataRoom queue.lastTxPacket)))
    (hnext : ∀ {queue bytes}, Steady settings queue → R queue bytes →
      queue.lastTxPacket.txBufSize ≠ 0 → queue.txPacketCount < packetCount → R queue.push bytes)
    (hflag : ∀ {queue bytes}, R queue bytes → R (queue.setHasTxData true) bytes)
    {bytes : List UInt8} (h : Steady settings queue) (hR : R queue bytes) (hbytes : bytes ≠ [])
    (hdata : ∀ b ∈ bytes, isDataByte b = true) (htakes : TakesData queue.lastTxPacket) :
    ∃ count queue', addDataBytesToTxPacket times queue bytes = (.ok count, queue') ∧
      count ≤ bytes.length ∧ Steady settings queue' ∧ Frame queue queue' ∧
      queue'.lastTxPacket.txBufSize ≠ 0 ∧ R queue' (bytes.drop count) := by
  have frame := addDataBytes_frame times queue bytes
  have rule := addDataBytes_rule times
    (R := fun q left => Steady settings q ∧ R q left ∧ (∀ b ∈ left, isDataByte b = true) ∧
      TakesData q.lastTxPacket)
    (D := fun q left => Steady settings q ∧ R q left ∧ (∀ b ∈ left, isDataByte b = true) ∧
      q.lastTxPacket.txBufSize ≠ 0)
    (F := fun _ => False) ?_ ?_ ?_ ⟨h, hR, hdata, htakes⟩ hbytes h.window
  · rcases result : addDataBytesToTxPacket times queue bytes with ⟨code | count, queue'⟩
    · rw [result] at rule
      exact rule.elim
    · rw [result] at rule frame
      obtain ⟨most, steady, kept, -, written⟩ := rule
      exact ⟨count, queue', rfl, most, steady, frame, written, kept⟩
  · intro q left ⟨steady, kept, data, takes⟩ _
    have last := steady.last
    have positive : 0 < q.lastTxPacket.txBufMaxSize.toNat := by
      have := last.five_le
      omega
    obtain ⟨eq, room⟩ := writerAddSysexData_eq last.size_le takes data positive (times q.clock)
    rw [eq]
    have rest : left.drop (min left.length (dataRoom q.lastTxPacket)) =
        left.drop (dataRoom q.lastTxPacket) := by
      rcases Nat.le_total left.length (dataRoom q.lastTxPacket) with short | long
      · rw [Nat.min_eq_left short, List.drop_length, List.drop_eq_nil_of_le short]
      · rw [Nat.min_eq_right long]
    refine ⟨Nat.min_le_left _ _, steady.tick.setLastTxPacket ?_, ?_, ?_, ?_⟩
    · exact last.extends' (extends_putAll room)
    · rw [rest]
      exact hround steady kept data room
    · intro b hb
      exact data b (List.mem_of_mem_drop hb)
    · rw [lastTxPacket_setLastTxPacket]
      exact withData_txBufSize room
  · intro q left ⟨steady, kept, data, written⟩ _ free
    refine ⟨steady.push free, hnext steady kept written free, data, .inr ?_⟩
    rw [lastTxPacket_push free]
    rfl
  · intro q left ⟨steady, kept, data, written⟩
    exact ⟨⟨(Frame.setHasTxData q true).window steady.window, steady.packets⟩, hflag kept, data,
      written⟩

theorem addData_refused {bytes : List UInt8} (hbytes : bytes ≠ [])
    (h : ¬ TakesData queue.lastTxPacket) :
    addDataBytesToTxPacket times queue bytes = (.error .invalidData, queue.tick) := by
  obtain ⟨flag, size⟩ := not_takesData h
  exact addDataBytes_error times hbytes (writerAddSysexData_refused flag size _ _)

theorem addData_invalid {bytes : List UInt8} (hbytes : bytes ≠ [])
    (h : ¬ ∀ b ∈ bytes, isDataByte b = true) :
    addDataBytesToTxPacket times queue bytes = (.error .invalidData, queue.tick) := by
  obtain ⟨code, eq⟩ := writerAddSysexData_invalid queue.lastTxPacket h (times queue.clock)
  exact addDataBytes_error times hbytes eq

/-- Bytes that are not all data bytes, or that the current packet does not take, are refused as a
whole. -/
theorem addData_unaccepted {bytes : List UInt8} (hbytes : bytes ≠ [])
    (h : ¬ ((∀ b ∈ bytes, isDataByte b = true) ∧ TakesData queue.lastTxPacket)) :
    addDataBytesToTxPacket times queue bytes = (.error .invalidData, queue.tick) := by
  rcases not_and_or.mp h with invalid | refuses
  · exact addData_invalid hbytes invalid
  · exact addData_refused hbytes refuses

/-- Data bytes that the current packet takes are added as far as there is room. -/
theorem Steady.addData_some (times : Nat → UInt16) (h : Steady settings queue)
    {bytes : List UInt8} (hbytes : bytes ≠ []) (hdata : ∀ b ∈ bytes, isDataByte b = true)
    (htakes : TakesData queue.lastTxPacket) :
    ∃ count queue', addDataBytesToTxPacket times queue bytes = (.ok count, queue') ∧
      count ≤ bytes.length ∧ Steady settings queue' ∧ Frame queue queue' ∧
      queue'.lastTxPacket.txBufSize ≠ 0 := by
  obtain ⟨count, queue', eq, most, steady, frame, written, -⟩ := h.addData times
    (R := fun _ _ => True) (fun _ _ _ _ => trivial) (fun _ _ _ _ => trivial) (fun _ => trivial)
    trivial hbytes hdata htakes
  exact ⟨count, queue', eq, most, steady, frame, written⟩

theorem Steady.addDataBytes (times : Nat → UInt16) (h : Steady settings queue)
    (bytes : List UInt8) : Steady settings (addDataBytesToTxPacket times queue bytes).2 := by
  by_cases nonempty : bytes = []
  · rw [nonempty, addDataBytes_nil]
    exact h
  by_cases accepted : (∀ b ∈ bytes, isDataByte b = true) ∧ TakesData queue.lastTxPacket
  · obtain ⟨count, queue', eq, -, steady, -⟩ :=
      h.addData_some times nonempty accepted.1 accepted.2
    rw [eq]
    exact steady
  · rw [addData_unaccepted nonempty accepted]
    exact h.tick

end Queue

/-- The data bytes in the scratch buffer that still have to be added. -/
structure Pending (queue : TxQueue maxSize packetCount) (data : List UInt8) : Prop where
  remaining : queue.numRemainingDataBytes = data.length
  chunk : data.length ≤ queue.currSysexDataChunkSize
  bytes : queue.remainingData = data
  valid : ∀ b ∈ data, isDataByte b = true

namespace Pending

variable {queue queue' : TxQueue maxSize packetCount} {data : List UInt8}

theorem nil (h : queue.numRemainingDataBytes = 0) : Pending queue [] := by
  refine ⟨h, Nat.zero_le _, ?_, fun b hb => absurd hb List.not_mem_nil⟩
  rw [remainingData, h, List.take_zero]

theorem frame (h : Pending queue data) (hframe : Frame queue queue') : Pending queue' data where
  remaining := hframe.numRemainingDataBytes.trans h.remaining
  chunk := by
    rw [hframe.currSysexDataChunkSize]
    exact h.chunk
  bytes := by
    rw [← h.bytes, remainingData, hframe.numRemainingDataBytes, hframe.currSysexDataChunkSize,
      hframe.sysexChunkScratchBuf]
    rfl
  valid := h.valid

theorem withFifo (h : Pending queue data) (fifo : Fifo) :
    Pending { queue with fifo := fifo } data :=
  ⟨h.remaining, h.chunk, h.bytes, h.valid⟩

theorem drop (h : Pending queue data) {count : Nat} (hcount : count ≤ data.length) :
    Pending { queue with numRemainingDataBytes := queue.numRemainingDataBytes - count }
      (data.drop count) := by
  obtain ⟨remaining, chunk, bytes, valid⟩ := h
  refine ⟨?_, ?_, ?_, fun b hb => valid b (List.mem_of_mem_drop hb)⟩
  · rw [List.length_drop]
    exact congrArg (· - count) remaining
  · rw [List.length_drop]
    exact (Nat.sub_le _ _).trans chunk
  · rw [← bytes, remainingData, remainingData, List.drop_take, List.drop_drop]
    have position : queue.currSysexDataChunkSize - (queue.numRemainingDataBytes - count) =
        queue.currSysexDataChunkSize - queue.numRemainingDataBytes + count := by
      omega
    simp only [position]

theorem ofChunk {bytes : List UInt8} (hframe : Frame (queue.load bytes) queue')
    (hdata : ∀ b ∈ bytes, isDataByte b = true) {count : Nat} (hcount : count ≤ bytes.length)
    (fifo : Fifo) :
    Pending { queue' with
      fifo := fifo
      numRemainingDataBytes := bytes.length - count
      currSysexDataChunkSize := (Chunk.data bytes).encode.length } (bytes.drop count) := by
  have size : (Chunk.data bytes).encode.length = 3 + bytes.length := by
    simp only [Chunk.encode, List.length_cons]
    omega
  refine ⟨List.length_drop.symm, ?_, ?_, fun b hb => hdata b (List.mem_of_mem_drop hb)⟩
  · rw [List.length_drop]
    change _ ≤ (Chunk.data bytes).encode.length
    omega
  · have buffer : queue'.sysexChunkScratchBuf =
        overwrite queue.sysexChunkScratchBuf (Chunk.data bytes).encode :=
      hframe.sysexChunkScratchBuf
    have position : (Chunk.data bytes).encode.length - (bytes.length - count) = 3 + count := by
      omega
    rw [remainingData, buffer]
    simp only [position]
    rw [← List.drop_drop, overwrite, Chunk.encode]
    change ((bytes ++ _).drop count).take (bytes.length - count) = _
    rw [List.drop_append_of_le_length hcount, ← List.length_drop, List.take_left]

end Pending

end BleMidi.Queue
