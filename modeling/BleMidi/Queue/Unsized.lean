/- Module: BleMidi/Queue/Unsized
   source: ble_midi/src/tx_queue.c (tx_queue_reset, tx_queue_read_from_fifo)
   digest: The queue between its reset and its first packet size. -/

import BleMidi.Queue.ChunkStream
import BleMidi.Queue.Termination

set_option autoImplicit false
set_option relaxedAutoImplicit false

namespace BleMidi.Queue

open BleMidi.Packet.Bytes
open BleMidi.Packet.PacketWriter
open BleMidi.Packet.WriterSpec
open BleMidi.Packet.WriterPieces
open TxQueue

variable {maxSize packetCount : Nat} {runningStatusEnabled noteOffAsNoteOn : Bool}

/-- A packet as `tx_queue_init` leaves it. -/
structure NoRoom (runningStatusEnabled noteOffAsNoteOn : Bool) (w : Writer maxSize) : Prop where
  txBufMaxSize : w.txBufMaxSize = 0
  txBufSize : w.txBufSize = 0
  inSysexMsg : w.inSysexMsg = false
  runningStatus : w.runningStatusEnabled = runningStatusEnabled
  noteOff : w.noteOffAsNoteOn = noteOffAsNoteOn

/-- Three bytes that a packet outside a sysex message takes when it has room: a sysex start or a
valid message. -/
def TakenOutside (bytes : MessageBytes) : Prop :=
  bytes.byte0 = sysexStart ∨ bytes.byte0 ≠ sysexEnd ∧ ValidMessage bytes

instance : DecidablePred TakenOutside := fun _ => inferInstanceAs (Decidable (_ ∨ _ ∧ _))

/-- A chunk that waits for room, while the others are skipped by packets without any. -/
def Chunk.Blocks : Chunk → Prop
  | threeBytes bytes => TakenOutside bytes
  | _ => False

instance : DecidablePred Chunk.Blocks
  | .threeBytes bytes => inferInstanceAs (Decidable (TakenOutside bytes))
  | .data _ => inferInstanceAs (Decidable False)
  | .packetSize _ => inferInstanceAs (Decidable False)

/-- A call whose chunk waits for room. -/
def Request.Blocks : Request → Prop
  | addMsg bytes => TakenOutside bytes
  | addSysexStart => True
  | _ => False

instance : DecidablePred Request.Blocks
  | .addMsg bytes => inferInstanceAs (Decidable (TakenOutside bytes))
  | .addSysexStart => inferInstanceAs (Decidable True)
  | .addSysexData _ => inferInstanceAs (Decidable False)
  | .addSysexEnd => inferInstanceAs (Decidable False)
  | .addTxPacketSize _ => inferInstanceAs (Decidable False)

theorem Request.chunk_blocks (r : Request) (count : Nat) : (r.chunk count).Blocks ↔ r.Blocks := by
  cases r with
  | addMsg bytes => exact Iff.rfl
  | addSysexStart => exact iff_of_true (.inl rfl) trivial
  | addSysexData bytes => exact Iff.rfl
  | addSysexEnd =>
    refine iff_of_false ?_ id
    rintro (eq | ⟨other, -⟩)
    · exact absurd eq (by decide)
    · exact other rfl
  | addTxPacketSize size => exact Iff.rfl

/-- A call that writes three bytes fails if and only if there is no room for them. -/
theorem write3_returned (queue : TxQueue maxSize packetCount) {bytes : List UInt8}
    (h : bytes.length = 3) :
    (Request.returned (queue.write3ByteChunkToFifo bytes)).1 =
      if queue.fifo.getFreeSpace < 3 then .error .fifoFull else .ok 0 := by
  unfold write3ByteChunkToFifo
  by_cases full : queue.fifo.getFreeSpace < 3
  · rw [if_pos full, if_pos full]
    rfl
  · obtain ⟨count, -⟩ := Fifo.write_of_le (f := queue.fifo) (v := bytes) (by omega)
    rw [if_neg full, if_neg full]
    change (Request.returned (if (queue.fifo.write bytes).1 = 3 then _ else _, _)).1 = _
    rw [if_pos (count.trans h)]
    rfl

theorem Request.Blocks.exec {r : Request} (h : r.Blocks) (queue : TxQueue maxSize packetCount) :
    (r.exec queue).1 = if queue.fifo.getFreeSpace < 3 then .error .fifoFull else .ok 0 := by
  cases r with
  | addMsg bytes => exact write3_returned queue rfl
  | addSysexStart => exact write3_returned queue rfl
  | addSysexData bytes => exact h.elim
  | addSysexEnd => exact h.elim
  | addTxPacketSize size => exact h.elim

namespace NoRoom

variable {w : Writer maxSize}

theorem reset (w : Writer maxSize) (h : NoRoom runningStatusEnabled noteOffAsNoteOn w) :
    NoRoom runningStatusEnabled noteOffAsNoteOn (writerReset w) :=
  ⟨h.txBufMaxSize, rfl, h.inSysexMsg, h.runningStatus, h.noteOff⟩

private theorem added_full (h : NoRoom runningStatusEnabled noteOffAsNoteOn w) {bytes : List UInt8}
    (hbytes : bytes ≠ []) (f : Writer maxSize → Writer maxSize) :
    added w bytes f = (.packetFull, w) := by
  have positive := List.length_pos_iff.mpr hbytes
  refine if_neg fun room => ?_
  unfold HasRoom at room
  rw [h.txBufMaxSize, h.txBufSize] at room
  change 0 + _ ≤ 0 at room
  omega

/-- Nothing can be added. Only what is valid fails for the lack of room. -/
theorem addChunk (h : NoRoom runningStatusEnabled noteOffAsNoteOn w) (bytes : MessageBytes)
    (timestamp : UInt16) :
    ∃ code, code ≠ .success ∧ (code = .packetFull ↔ TakenOutside bytes) ∧
      TxQueue.addChunk bytes timestamp w = (code, w) := by
  rcases addChunk_addition bytes timestamp w with
    ⟨v, f, addition, eq⟩ | ⟨refused, code, failed, notFull, eq⟩
  · rw [eq]
    refine ⟨.packetFull, by decide, iff_of_true rfl ?_, added_full h ?_ f⟩
    · cases addition with
      | start start _ => exact .inl start
      | finish _ set => cases h.inSysexMsg.symm.trans set
      | realtime _ _ set _ => cases h.inSysexMsg.symm.trans set
      | message _ finish _ valid => exact .inr ⟨finish, valid⟩
    · exact List.length_pos_iff.mp addition.length.1
  · refine ⟨code, failed, iff_of_false notFull ?_, eq⟩
    by_cases start : bytes.byte0 = sysexStart
    · exact fun _ => refused _ _ (.start start h.inSysexMsg)
    · rintro (start' | ⟨finish, valid⟩)
      · exact start start'
      · exact refused _ _ (.message start finish h.inSysexMsg valid)

end NoRoom

/-- A queue with a FIFO but without packet sizes. -/
structure Unsized (runningStatusEnabled noteOffAsNoteOn : Bool)
    (queue : TxQueue maxSize packetCount) (queued : List Chunk) : Prop where
  window : Window queue
  packets : EveryPacket (NoRoom runningStatusEnabled noteOffAsNoteOn) queue
  held : queue.fifo.Holds queued
  idle : queue.numRemainingDataBytes = 0

variable [NeZero packetCount] {times : Nat → UInt16} {queue : TxQueue maxSize packetCount}
  {queued : List Chunk}

namespace Unsized

theorem init (blank : TxQueue maxSize packetCount) (runningStatusEnabled noteOffAsNoteOn : Bool) :
    Unsized runningStatusEnabled noteOffAsNoteOn
      (TxQueue.init blank runningStatusEnabled noteOffAsNoteOn) [] :=
  ⟨⟨NeZero.pos packetCount, le_rfl, NeZero.pos packetCount⟩, fun _ => ⟨rfl, rfl, rfl, rfl, rfl⟩,
    rfl, rfl⟩

omit [NeZero packetCount] in
theorem append (h : Unsized runningStatusEnabled noteOffAsNoteOn queue queued) {fifo : Fifo}
    {chunk : Chunk} (hfifo : fifo.bytes = queue.fifo.bytes ++ chunk.encode) :
    Unsized runningStatusEnabled noteOffAsNoteOn { queue with fifo := fifo } (queued ++ [chunk]) :=
  ⟨h.window.of_eq rfl rfl, h.packets, h.held.append hfifo, h.idle⟩

omit [NeZero packetCount] in
private theorem frame {queue' : TxQueue maxSize packetCount}
    (h : Unsized runningStatusEnabled noteOffAsNoteOn queue queued) (hframe : Frame queue queue')
    (hpackets : EveryPacket (NoRoom runningStatusEnabled noteOffAsNoteOn) queue') :
    Unsized runningStatusEnabled noteOffAsNoteOn queue' queued :=
  ⟨hframe.window h.window, hpackets, hframe.holds h.held,
    hframe.numRemainingDataBytes.trans h.idle⟩

theorem sent (h : Unsized runningStatusEnabled noteOffAsNoteOn queue queued) :
    Unsized runningStatusEnabled noteOffAsNoteOn queue.onTxPacketSent.2 queued :=
  h.frame (onTxPacketSent_frame queue) (EveryPacket.onTxPacketSent NoRoom.reset h.packets)

omit [NeZero packetCount] in
private theorem read {chunk : Chunk} {queued : List Chunk}
    (h : Unsized runningStatusEnabled noteOffAsNoteOn queue (chunk :: queued)) :
    Unsized runningStatusEnabled noteOffAsNoteOn
      { queue with fifo := queue.fifo.read chunk.encode.length } queued :=
  ⟨h.window.of_eq rfl rfl, h.packets, h.held.read, h.idle⟩

private theorem add3 (times : Nat → UInt16)
    (h : Unsized runningStatusEnabled noteOffAsNoteOn queue queued) (bytes : MessageBytes) :
    Unsized runningStatusEnabled noteOffAsNoteOn (add3ByteChunkToTxPacket times queue bytes).2
        queued ∧
      (add3ByteChunkToTxPacket times queue bytes).1 =
        if TakenOutside bytes then .noTxPackets else .invalidData := by
  refine ⟨h.frame (add3_frame times queue bytes) ?_, ?_⟩
  · refine h.packets.add3 times NoRoom.reset fun w timestamp hw => ?_
    obtain ⟨code, -, -, eq⟩ := hw.addChunk bytes timestamp
    rw [eq]
    exact hw
  · obtain ⟨code, failed, full, eq⟩ := h.packets.last.addChunk bytes (times queue.clock)
    obtain ⟨code', failed', full', eq'⟩ :=
      (NoRoom.reset _ (h.packets _)).addChunk bytes (times queue.clock)
    have case := add3_case times queue bytes
    generalize add3ByteChunkToTxPacket times queue bytes = r at case ⊢
    have code_eq {c : PacketError} {w : Writer maxSize}
        (other : TxQueue.addChunk bytes (times queue.clock) queue.lastTxPacket = (c, w)) :
        code = c := congrArg Prod.fst (eq.symm.trans other)
    cases case with
    | added other => exact absurd (code_eq other) failed
    | full other _ => rw [if_pos (full.mp (code_eq other))]
    | refused _ notFull other =>
      rw [if_neg fun taken => notFull ((code_eq other).symm.trans (full.mpr taken))]
    | addedNext _ _ other =>
      exact absurd (congrArg Prod.fst (eq'.symm.trans other)) failed'
    | fullNext other _ _ => rw [if_pos (full.mp (code_eq other))]
    | refusedNext other _ _ notFull other' =>
      have same : code' = _ := congrArg Prod.fst (eq'.symm.trans other')
      exact absurd (same.symm.trans (full'.mpr (full.mp (code_eq other)))) notFull

private theorem addData (times : Nat → UInt16)
    (h : Unsized runningStatusEnabled noteOffAsNoteOn queue queued) {bytes : List UInt8}
    (hbytes : bytes ≠ []) :
    addDataBytesToTxPacket times queue bytes = (.error .invalidData, queue.tick) := by
  by_cases valid : ∀ b ∈ bytes, isDataByte b = true
  swap
  · exact addData_invalid hbytes valid
  have last := h.packets.last
  have full := writerAddSysexData_full last.txBufSize last.txBufMaxSize valid (times queue.clock)
  exact addDataBytes_error times hbytes full

/-- A chunk that blocks stays at the head of the FIFO. -/
theorem readStep_blocks (times : Nat → UInt16) {bytes : MessageBytes} {rest : List Chunk}
    (h : Unsized runningStatusEnabled noteOffAsNoteOn queue (.threeBytes bytes :: rest))
    (hbytes : 128 ≤ bytes.byte0) (hblocks : TakenOutside bytes) (msgBytes : MessageBytes) :
    ∃ queue', readStep times queue msgBytes = .ret (.noTxPackets, queue') ∧
      Unsized runningStatusEnabled noteOffAsNoteOn queue' (.threeBytes bytes :: rest) := by
  rw [readStep_threeBytes times h.held hbytes h.idle, read3ByteChunk]
  obtain ⟨unsized, code⟩ := h.add3 times bytes
  rw [if_pos hblocks] at code
  revert unsized code
  rcases add3ByteChunkToTxPacket times queue bytes with ⟨code', queue'⟩
  intro unsized code
  obtain rfl : code' = .noTxPackets := code
  exact ⟨queue', rfl, unsized⟩

/-- A chunk that does not block is skipped. -/
theorem readStep_passes (times : Nat → UInt16) {chunk : Chunk} {rest : List Chunk}
    (h : Unsized runningStatusEnabled noteOffAsNoteOn queue (chunk :: rest))
    (hkeeps : chunk.KeepsSize) (hpasses : ¬ chunk.Blocks) (msgBytes : MessageBytes) :
    ∃ queue' msgBytes', readStep times queue msgBytes = .next (queue', msgBytes') ∧
      Unsized runningStatusEnabled noteOffAsNoteOn queue' rest := by
  cases chunk with
  | threeBytes bytes =>
    rw [readStep_threeBytes times h.held hkeeps.1 h.idle, read3ByteChunk]
    obtain ⟨unsized, code⟩ := h.add3 times bytes
    have other : ¬ TakenOutside bytes := hpasses
    rw [if_neg other] at code
    revert unsized code
    rcases add3ByteChunkToTxPacket times queue bytes with ⟨code', queue'⟩
    intro unsized code
    obtain rfl : code' = .invalidData := code
    exact ⟨_, _, rfl, unsized.read⟩
  | data bytes =>
    obtain ⟨msgBytes', eq⟩ := readStep_data times h.held hkeeps.1.2 h.idle msgBytes
    have loaded : Unsized runningStatusEnabled noteOffAsNoteOn (queue.load bytes)
        (.data bytes :: rest) :=
      ⟨h.window.of_eq rfl rfl, h.packets, h.held, h.idle⟩
    have ticked := loaded.frame (Frame.tick (queue.load bytes)) h.packets
    rw [eq, loaded.addData times (List.length_pos_iff.mp hkeeps.1.1)]
    exact ⟨_, _, rfl, ticked.read⟩
  | packetSize size => exact hkeeps.2.elim

end Unsized

/-- The granted packet size. -/
def grantedSize (maxSize : Nat) (size : UInt16) : UInt16 :=
  UInt16.ofNat (if maxSize < size.toNat then maxSize else size.toNat)

private theorem grantedSize_toNat (maxSize : Nat) (size : UInt16) :
    (grantedSize maxSize size).toNat = min maxSize size.toNat := by
  have bound := UInt16.toNat_lt size
  unfold grantedSize
  rw [UInt16.toNat_ofNat']
  split <;> omega

/-- The first size request makes the queue readable, whatever chunks follow it. -/
theorem Unsized.readStep_packetSize (times : Nat → UInt16) {size : UInt16} {rest : List Chunk}
    (h : Unsized runningStatusEnabled noteOffAsNoteOn queue (.packetSize size :: rest))
    (hmax : 5 ≤ maxSize) (hsize : 5 ≤ size.toNat) (hrest : ∀ chunk ∈ rest, chunk.KeepsSize)
    (msgBytes : MessageBytes) :
    ∃ (settings : Settings maxSize) (queue' : TxQueue maxSize packetCount)
      (msgBytes' : MessageBytes),
      readStep times queue msgBytes = .next (queue', msgBytes') ∧ Readable settings queue' := by
  obtain ⟨msgBytes', eq⟩ := TxQueue.readStep_packetSize times h.held h.idle msgBytes
  have granted := grantedSize_toNat maxSize size
  refine ⟨⟨grantedSize maxSize size, runningStatusEnabled, noteOffAsNoteOn, by omega, by omega⟩, _,
    msgBytes', eq, ⟨h.window.of_eq rfl rfl, fun i => ?_⟩,
    ⟨rest, h.held.read, hrest⟩, [], Pending.nil h.idle⟩
  have noRoom := h.packets i
  refine ⟨rfl, noRoom.runningStatus, noRoom.noteOff, ?_⟩
  change (queue.txPackets i).txBufSize.toNat ≤ _
  rw [noRoom.txBufSize]
  exact Nat.zero_le _

/-- With a packet size, the reader only gives up when the current packet has bytes. -/
theorem Readable.noTxPackets {settings : Settings maxSize} (h : Readable settings queue)
    {msgBytes : MessageBytes} {queue' : TxQueue maxSize packetCount}
    (hret : readStep times queue msgBytes = .ret (.noTxPackets, queue')) :
    queue'.lastTxPacket.txBufSize ≠ 0 := by
  obtain ⟨chunks, held, keeps⟩ := h.chunks
  obtain ⟨pending, hpending⟩ := h.pending
  -- Data is refused, or it leaves bytes in the current packet.
  have data {q : TxQueue maxSize packetCount} (steady : Steady settings q) {bytes : List UInt8}
      (nonempty : bytes ≠ []) {r : TxQueue maxSize packetCount}
      (eq : addDataBytesToTxPacket times q bytes = (.ok 0, r)) :
      r.lastTxPacket.txBufSize ≠ 0 := by
    by_cases accepted : (∀ b ∈ bytes, isDataByte b = true) ∧ TakesData q.lastTxPacket
    · obtain ⟨count, r', eq', -, -, -, written⟩ :=
        steady.addData_some times nonempty accepted.1 accepted.2
      cases eq'.symm.trans eq
      exact written
    · cases (addData_unaccepted nonempty accepted).symm.trans eq
  have case := readStep_case times held (fun chunk mem => (keeps chunk mem).1) msgBytes
  generalize readStep times queue msgBytes = step at case hret
  cases case with
  | empty => cases hret
  | remaining msgBytes remaining =>
    have positive := remaining
    rw [hpending.remaining] at positive
    rw [TxQueue.readRemaining, hpending.bytes] at hret
    rcases result : addDataBytesToTxPacket times queue pending with ⟨code | _ | count, r⟩
    · rw [result] at hret
      cases hret
    · rw [result] at hret
      cases hret
      exact data h.steady (List.length_pos_iff.mp positive) result
    · rw [result] at hret
      cases hret
  | threeBytes bytes _ =>
    rw [read3ByteChunk] at hret
    have case := add3_case times queue bytes
    generalize add3ByteChunkToTxPacket times queue bytes = r at case hret
    cases case with
    | added _ => cases hret
    | full eq _ =>
      cases hret
      exact (addChunk_written h.steady.last bytes (times queue.clock)).2 _ eq
    | refused _ _ _ => cases hret
    | addedNext _ _ _ => cases hret
    | fullNext _ _ eq =>
      have reset : SteadyPacket settings (writerReset queue.nextTxPacket) :=
        SteadyPacket.reset _ (h.steady.packets _)
      exact absurd rfl ((addChunk_written reset bytes (times queue.clock)).2 _ eq)
    | refusedNext _ _ _ _ _ => cases hret
  | data bytes msgBytes _ =>
    have loaded : Steady settings (queue.load bytes) := h.steady.withScratch _ _ _ _
    have nonempty := List.length_pos_iff.mp (keeps _ List.mem_cons_self).1.1
    rcases result : addDataBytesToTxPacket times (queue.load bytes) bytes with
      ⟨code | _ | count, r⟩
    · rw [result] at hret
      cases hret
    · rw [result] at hret
      cases hret
      exact data loaded nonempty result
    · rw [result] at hret
      cases hret
  | packetSize size _ _ => exact (keeps _ List.mem_cons_self).2.elim

end BleMidi.Queue
