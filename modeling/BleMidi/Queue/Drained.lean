/- Module: BleMidi/Queue/Drained
   source: ble_midi/src/tx_queue.c (tx_queue_read_from_fifo, add_data_bytes_to_tx_packet)
   digest: A successful read leaves data outside the packets exactly when it cuts the last chunk. -/

import BleMidi.Queue.Termination

set_option autoImplicit false
set_option relaxedAutoImplicit false

namespace BleMidi.Queue

open BleMidi.Core.Runs
open BleMidi.Packet.Bytes
open BleMidi.Packet.PacketWriter
open BleMidi.Packet.WriterSpec
open TxQueue

variable {maxSize packetCount : Nat} {settings : Settings maxSize} [NeZero packetCount]
  {times : Nat → UInt16} {queue queue' : TxQueue maxSize packetCount}

/-- The data bytes that the current packet and the free packets behind it have room for. -/
def TxQueue.dataSpace (queue : TxQueue maxSize packetCount) : Nat :=
  dataRoom queue.lastTxPacket +
    (packetCount - queue.txPacketCount) * (queue.lastTxPacket.txBufMaxSize.toNat - 1)

private theorem dataSpace_push (h : Steady settings queue)
    (hfree : queue.txPacketCount < packetCount) :
    queue.push.dataSpace = (packetCount - queue.txPacketCount) *
      (queue.lastTxPacket.txBufMaxSize.toNat - 1) := by
  have count : queue.push.txPacketCount = queue.txPacketCount + 1 := by
    rw [push_eq hfree]
    rfl
  have size : queue.push.lastTxPacket.txBufMaxSize = queue.lastTxPacket.txBufMaxSize :=
    (h.push hfree).last.txBufMaxSize.trans h.last.txBufMaxSize.symm
  have room : dataRoom queue.push.lastTxPacket = queue.lastTxPacket.txBufMaxSize.toNat - 1 := by
    have empty : queue.push.lastTxPacket.txBufSize = 0 := by
      rw [lastTxPacket_push hfree]
      rfl
    rw [dataRoom, size, empty]
    rfl
  obtain ⟨free, left⟩ : ∃ free, packetCount - queue.txPacketCount = free + 1 :=
    ⟨packetCount - queue.txPacketCount - 1, by omega⟩
  have rest : packetCount - (queue.txPacketCount + 1) = free := by omega
  rw [dataSpace, room, count, size, left, rest, Nat.succ_mul, Nat.add_comm]

private theorem addDataBytesLoop_count (times : Nat → UInt16) (fuel : Nat) :
    ∀ {queue : TxQueue maxSize packetCount} {bytes : List UInt8} (numBytesAdded : Nat),
      Steady settings queue → TakesData queue.lastTxPacket →
      (∀ b ∈ bytes, isDataByte b = true) → packetCount < fuel + queue.txPacketCount →
      (addDataBytesLoop times fuel queue bytes numBytesAdded).1 =
        .ok (numBytesAdded + min bytes.length queue.dataSpace) := by
  induction fuel with
  | zero =>
    intro queue bytes _ steady _ _ hfuel
    have := steady.window.le
    omega
  | succ fuel ih =>
    intro queue bytes numBytesAdded steady takes data hfuel
    rw [addDataBytesLoop]
    by_cases nonempty : bytes = []
    · rw [if_pos nonempty, nonempty]
      change Except.ok numBytesAdded = .ok (numBytesAdded + min 0 _)
      rw [Nat.zero_min, Nat.add_zero]
    rw [if_neg nonempty]
    have last := steady.last
    have positive : 0 < queue.lastTxPacket.txBufMaxSize.toNat := by
      have := last.five_le
      omega
    obtain ⟨eq, room⟩ := writerAddSysexData_eq last.size_le takes data positive
      (times queue.clock)
    rw [eq]
    generalize queue.lastTxPacket.header (times queue.clock) ++
      bytes.take (dataRoom queue.lastTxPacket) = added at room ⊢
    simp only
    obtain ⟨next, hnext⟩ : ∃ next,
      next = queue.tick.setLastTxPacket (queue.lastTxPacket.putAll added) := ⟨_, rfl⟩
    have written : Steady settings next := by
      rw [hnext]
      exact steady.tick.setLastTxPacket (last.extends' (extends_putAll room))
    have size : next.lastTxPacket.txBufMaxSize = queue.lastTxPacket.txBufMaxSize :=
      written.last.txBufMaxSize.trans last.txBufMaxSize.symm
    have count : next.txPacketCount = queue.txPacketCount := by
      rw [hnext]
      rfl
    rw [← hnext]
    by_cases whole : bytes.length ≤ dataRoom queue.lastTxPacket
    · have all : min bytes.length (dataRoom queue.lastTxPacket) = bytes.length := by omega
      have space : min bytes.length queue.dataSpace = bytes.length := by
        rw [dataSpace]
        omega
      rw [all, if_neg (Nat.lt_irrefl _), space]
    have part : min bytes.length (dataRoom queue.lastTxPacket) =
        dataRoom queue.lastTxPacket := by
      omega
    rw [part, if_pos (Nat.lt_of_not_le whole)]
    by_cases free : next.txPacketCount < packetCount
    · have grown : next.push.txPacketCount = next.txPacketCount + 1 := by
        rw [push_eq free]
        rfl
      have empty : TakesData next.push.lastTxPacket := by
        rw [lastTxPacket_push free]
        exact .inr rfl
      have data' : ∀ b ∈ bytes.drop (dataRoom queue.lastTxPacket), isDataByte b = true :=
        fun b hb => data b (List.mem_of_mem_drop hb)
      have rest := ih (numBytesAdded + dataRoom queue.lastTxPacket) (written.push free) empty
        data' (by omega)
      rw [txPacketAdd_of_lt free]
      simp only
      rw [rest, dataSpace_push written free, size, count, List.length_drop, dataSpace]
      congr 1
      omega
    · have none : packetCount - queue.txPacketCount = 0 := by omega
      have space : min bytes.length queue.dataSpace = dataRoom queue.lastTxPacket := by
        rw [dataSpace, none, Nat.zero_mul, Nat.add_zero]
        exact part
      rw [txPacketAdd_of_le (Nat.le_of_not_lt free), space]

theorem Steady.addData_count (times : Nat → UInt16) (h : Steady settings queue)
    {bytes : List UInt8} (hdata : ∀ b ∈ bytes, isDataByte b = true)
    (htakes : TakesData queue.lastTxPacket) :
    (addDataBytesToTxPacket times queue bytes).1 = .ok (min bytes.length queue.dataSpace) := by
  have := h.window.pos
  have count := addDataBytesLoop_count times packetCount 0 h htakes hdata (by omega)
  rw [Nat.zero_add] at count
  unfold addDataBytesToTxPacket
  rcases result : addDataBytesLoop times packetCount queue bytes 0 with ⟨code | total, queue'⟩
  · rw [result] at count
    cases count
  · rw [result] at count
    exact count

/-- When the FIFO is empty, no data byte waits outside the packets. -/
def Complete (queue : TxQueue maxSize packetCount) : Prop :=
  queue.fifo.isEmpty = true → queue.numRemainingDataBytes = 0

/-- The FIFO holds a single data chunk, and the packets take some of its bytes but not all. -/
def CutsLastChunk (queue : TxQueue maxSize packetCount) : Prop :=
  queue.numRemainingDataBytes = 0 ∧
    queue.fifo.bytes.length = sysexDataChunkHeaderSize + queue.headData.length ∧
    (∀ b ∈ queue.headData, isDataByte b = true) ∧ TakesData queue.lastTxPacket ∧
    0 < queue.dataSpace ∧ queue.dataSpace < queue.headData.length

instance : DecidablePred (@CutsLastChunk maxSize packetCount _) :=
  fun queue =>
    have : Decidable (∀ b ∈ queue.headData, _) := List.decidableBAll (isDataByte · = true) _
    inferInstanceAs (Decidable (_ ∧ _ ∧ _ ∧ _ ∧ _ ∧ _))

omit [NeZero packetCount] in
private theorem complete_cons {chunk : Chunk} {chunks : List Chunk}
    (h : queue.fifo.Holds (chunk :: chunks)) : Complete queue :=
  fun empty => by cases h.isEmpty_cons.symm.trans empty

omit [NeZero packetCount] in
private theorem length_eq_iff {bytes : List UInt8} {chunks : List Chunk}
    (h : queue.fifo.Holds (.data bytes :: chunks)) :
    queue.fifo.bytes.length = sysexDataChunkHeaderSize + bytes.length ↔ chunks = [] := by
  have length : queue.fifo.bytes.length =
      sysexDataChunkHeaderSize + bytes.length + (chunks.flatMap Chunk.encode).length := by
    rw [show queue.fifo.bytes = (Chunk.data bytes).encode ++ chunks.flatMap Chunk.encode from h,
      List.length_append, Chunk.encode]
    simp only [List.length_cons, sysexDataChunkHeaderSize]
    omega
  rw [length]
  constructor
  · intro same
    cases chunks with
    | nil => rfl
    | cons chunk chunks =>
      have positive := List.length_pos_iff.mpr chunk.encode_ne_nil
      rw [List.flatMap_cons, List.length_append] at same
      omega
  · rintro rfl
    rfl

private theorem complete_threeBytes (times : Nat → UInt16)
    (hidle : queue.numRemainingDataBytes = 0) (bytes : MessageBytes) :
    Complete (read3ByteChunk times queue bytes).queue := by
  have frame := add3_frame times queue bytes
  have idle := frame.numRemainingDataBytes.trans hidle
  rcases read3ByteChunk_cases times queue bytes with stays | reads
  · rw [stays]
    exact fun _ => idle
  · rw [reads]
    exact fun _ => idle

/-- Behind a data chunk that is added, bytes are left outside the packets and the FIFO if and only
if the chunk was the last one and did not fit. -/
private theorem complete_data (times : Nat → UInt16) (h : Steady settings queue)
    (hidle : queue.numRemainingDataBytes = 0) {bytes : List UInt8} {chunks : List Chunk}
    (hheld : queue.fifo.Holds (.data bytes :: chunks))
    (hbytes : (Chunk.data bytes).WellFormed) (msgBytes : MessageBytes) :
    Complete (afterData bytes msgBytes
      (addDataBytesToTxPacket times (queue.load bytes) bytes)).queue ↔ ¬ CutsLastChunk queue := by
  have positive := hbytes.1
  have head : queue.headData = bytes := headData_data hheld hbytes.2
  have frame := addDataBytes_frame times (queue.load bytes) bytes
  have idle (queue' : TxQueue maxSize packetCount) (hframe : Frame (queue.load bytes) queue') :
      queue'.numRemainingDataBytes = 0 := hframe.numRemainingDataBytes.trans hidle
  unfold CutsLastChunk
  rw [head, length_eq_iff hheld]
  by_cases accepted : (∀ b ∈ bytes, isDataByte b = true) ∧ TakesData queue.lastTxPacket
  · obtain ⟨valid, takes⟩ := accepted
    have loaded : Steady settings (queue.load bytes) := h.withScratch _ _ _ _
    have count : (addDataBytesToTxPacket times (queue.load bytes) bytes).1 =
      .ok (min bytes.length queue.dataSpace) := loaded.addData_count times valid takes
    revert frame count
    rcases addDataBytesToTxPacket times (queue.load bytes) bytes with ⟨code | _ | added, queue'⟩
    · intro _ count
      cases count
    · intro frame count
      have none := Except.ok.inj count
      refine iff_of_true (fun _ => idle queue' frame) ?_
      rintro ⟨-, -, -, -, room, less⟩
      omega
    · intro frame count
      have some := Except.ok.inj count
      have held : (queue'.fifo.read (Chunk.data bytes).encode.length).Holds chunks :=
        frame.holds_read hheld
      cases chunks with
      | nil =>
        have left : Complete (afterData bytes msgBytes (.ok (added + 1), queue')).queue ↔
            bytes.length - (added + 1) = 0 :=
          ⟨fun complete => complete held.isEmpty_nil, fun none _ => none⟩
        rw [left]
        constructor
        · rintro none ⟨-, -, -, -, -, less⟩
          omega
        · intro whole
          by_contra more
          exact whole ⟨hidle, rfl, valid, takes, by omega, by omega⟩
      | cons chunk chunks =>
        refine iff_of_true (complete_cons held) ?_
        rintro ⟨-, last, -⟩
        cases last
  · have refused : addDataBytesToTxPacket times (queue.load bytes) bytes =
        (.error .invalidData, (queue.load bytes).tick) :=
      addData_unaccepted (List.length_pos_iff.mp positive) accepted
    rw [refused]
    refine iff_of_true (fun _ => hidle) ?_
    rintro ⟨-, -, valid, takes, -⟩
    exact accepted ⟨valid, takes⟩

/-- An iteration leaves data outside the packets and an empty FIFO behind exactly when it cuts the
last chunk. -/
theorem Readable.complete_iff (times : Nat → UInt16) (h : Readable settings queue)
    (hcomplete : Complete queue) (msgBytes : MessageBytes) :
    Complete (readStep times queue msgBytes).queue ↔ ¬ CutsLastChunk queue := by
  obtain ⟨chunks, held, keeps⟩ := h.chunks
  have case := readStep_case times held (fun chunk mem => (keeps chunk mem).1) msgBytes
  generalize readStep times queue msgBytes = r at case ⊢
  cases case with
  | empty =>
    refine iff_of_true hcomplete ?_
    rintro ⟨-, length, -⟩
    rw [show queue.fifo.bytes = [] from held] at length
    unfold sysexDataChunkHeaderSize at length
    change 0 = _ at length
    omega
  | remaining msgBytes remaining =>
    refine iff_of_true ?_ fun cuts => Nat.ne_of_gt remaining cuts.1
    have frame := addDataBytes_frame times queue queue.remainingData
    rw [TxQueue.readRemaining]
    revert frame
    rcases addDataBytesToTxPacket times queue queue.remainingData with
      ⟨code | _ | count, queue'⟩
    all_goals exact fun frame => complete_cons (frame.holds held)
  | threeBytes bytes idle =>
    refine iff_of_true (complete_threeBytes times idle bytes) ?_
    rintro ⟨-, -, -, -, -, less⟩
    rw [headData_threeBytes held (keeps _ List.mem_cons_self).1] at less
    exact absurd less (Nat.not_lt_zero _)
  | data bytes msgBytes idle =>
    exact complete_data times h.steady idle held (keeps _ List.mem_cons_self).1 msgBytes
  | packetSize size _ _ => exact (keeps _ List.mem_cons_self).2.elim

private theorem loop_isEmpty {fuel : Nat} {msgBytes : MessageBytes}
    {result : TxQueueError × TxQueue maxSize packetCount} (hempty : queue.fifo.isEmpty = true)
    (h : loop (readBody times) fuel (queue, msgBytes) = some result) :
    result = (.success, queue) := by
  cases fuel with
  | zero => cases h
  | succ fuel =>
    have step : readBody times (queue, msgBytes) = .ret (.success, queue) := if_pos hempty
    rw [loop, step] at h
    exact (Option.some.inj h).symm

/-- The iterations of a call that start in a complete queue: it returns success with nothing left
exactly when none of them cuts the last chunk. -/
private theorem loop_drains_iff (times : Nat → UInt16) (fuel : Nat) :
    ∀ {queue : TxQueue maxSize packetCount} {msgBytes : MessageBytes},
      Readable settings queue → Complete queue →
      loop (readBody times) fuel (queue, msgBytes) = some (.success, queue') →
      ((queue'.fifo.bytes = [] ∧ queue'.numRemainingDataBytes = 0) ↔
        ∀ k state, before (readBody times) k (queue, msgBytes) = some state →
          ¬ CutsLastChunk state.1) := by
  induction fuel with
  | zero =>
    intro queue msgBytes _ _ returned
    cases returned
  | succ fuel ih =>
    intro queue msgBytes readable complete returned
    have cut_iff := readable.complete_iff times complete msgBytes
    have readable' := readable.step times msgBytes
    have takes := readStep_takes times queue msgBytes
    rw [loop] at returned
    rcases result : readBody times (queue, msgBytes) with ⟨code, last⟩ | ⟨next, msgBytes'⟩
    · rw [result] at returned
      have step : readStep times queue msgBytes = .ret (code, last) := result
      rw [step] at takes cut_iff
      cases returned
      obtain ⟨same, failed | empty⟩ := takes
      · cases failed
      have bytes : queue'.fifo.bytes = [] := by
        rw [same]
        exact empty
      have drained : queue'.numRemainingDataBytes = 0 ↔ ¬ CutsLastChunk queue := by
        rw [← cut_iff]
        exact ⟨fun none _ => none, fun complete => complete (List.isEmpty_iff.mpr bytes)⟩
      rw [and_iff_right bytes, drained]
      exact (forall_before_ret (S := fun state => ¬ CutsLastChunk state.1) result).symm
    · rw [result] at returned
      have step : readStep times queue msgBytes = .next (next, msgBytes') := result
      rw [step] at readable' cut_iff
      rw [forall_before_next (S := fun state => ¬ CutsLastChunk state.1) result]
      by_cases cuts : CutsLastChunk queue
      · have left : ¬ Complete next := fun complete => cut_iff.mp complete cuts
        obtain ⟨empty, some⟩ := Classical.not_imp.mp left
        cases loop_isEmpty empty returned
        exact iff_of_false (fun drained => some drained.2) fun uncut => uncut.1 cuts
      · rw [and_iff_right cuts]
        exact ih readable' (cut_iff.mpr cuts) returned

/-- Runs in which no iteration cuts the last chunk keep the queue complete. -/
theorem complete_run {s : System maxSize packetCount}
    (h : System.Reachable times settings
      (System.permit (fun _ r => r.KeepsSize) fun queue => ¬ CutsLastChunk queue) s) :
    Readable settings s.queue ∧ Complete s.queue := by
  refine h.invariant (I := fun s => Readable settings s.queue ∧ Complete s.queue) ?_ ?_
  · intro queue fresh
    exact ⟨⟨fresh.steady, ⟨[], fresh.fifo, fun chunk hchunk => absurd hchunk List.not_mem_nil⟩,
      [], Pending.nil fresh.remaining⟩, fun _ => fresh.remaining⟩
  · intro s s' a ⟨readable, complete⟩ permitted next
    constructor
    · refine readable.act (a := a) ?_ next
      cases a with
      | request r => exact permitted
      | _ => trivial
    · refine System.act_keeps (P := Request.KeepsSize)
        (G := fun queue => Readable settings queue ∧ ¬ CutsLastChunk queue) ?_ ?_ ?_ complete ?_
        next
      · intro queue r count fifo _ _ _ written empty
        have bytes := List.isEmpty_iff.mp empty
        rw [written] at bytes
        exact absurd (List.append_eq_nil_iff.mp bytes).2 (Chunk.encode_ne_nil _)
      · intro queue msgBytes complete ⟨readable, uncut⟩
        exact (readable.complete_iff times complete msgBytes).mpr uncut
      · intro queue complete empty
        have frame := onTxPacketSent_frame queue
        rw [frame.fifo] at empty
        exact frame.numRemainingDataBytes.trans (complete empty)
      · cases a with
        | iterateRead => exact ⟨readable, permitted⟩
        | request r => exact permitted
        | _ => trivial

/-- A call of the reader that returns success has emptied the FIFO and left no data byte outside the
packets if and only if no iteration of it cuts the last chunk of the FIFO. -/
theorem readFromFifo_drains_iff {s : System maxSize packetCount}
    (h : System.Reachable times settings
      (System.permit (fun _ r => r.KeepsSize) fun queue => ¬ CutsLastChunk queue) s)
    {fuel : Nat} (hreturned : readFromFifo times fuel s.queue = some (.success, queue')) :
    (queue'.fifo.bytes = [] ∧ queue'.numRemainingDataBytes = 0) ↔
      ∀ k state, before (readBody times) k (s.queue, ⟨0, 0, 0⟩) = some state →
        ¬ CutsLastChunk state.1 := by
  obtain ⟨readable, complete⟩ := complete_run h
  exact loop_drains_iff times fuel readable complete hreturned

/-- A sysex message whose data fits into two packets of five bytes. -/
theorem readFromFifo_drains_two : ∃ s : System 8 2, ∃ queue',
    s.accepted = [.threeBytes ⟨0xf0, 0, 0⟩, .data [1, 2, 3]] ∧
    readFromFifo millisecondClock 3 s.queue = some (.success, queue') ∧
    ((queue'.fifo.bytes = [] ∧ queue'.numRemainingDataBytes = 0) ↔
      ∀ k state, before (readBody millisecondClock) k (s.queue, ⟨0, 0, 0⟩) = some state →
        ¬ CutsLastChunk state.1) := by
  obtain ⟨s, reached, accepted, returns⟩ := System.exists_reachable millisecondClock fiveBytes
    (System.permit (fun _ r => r.KeepsSize) fun queue => ¬ CutsLastChunk queue)
    (fun s => s.accepted = [.threeBytes ⟨0xf0, 0, 0⟩, .data [1, 2, 3]] ∧
      (readFromFifo millisecondClock 3 s.queue).any (fun r => decide (r.1 = .success)) = true)
    (blankQueue 8 2 32) [.request .addSysexStart, .request (.addSysexData [1, 2, 3])]
    (by decide +kernel)
  obtain ⟨⟨code, queue'⟩, returned, success⟩ := (Option.any_eq_true _ _).mp returns
  obtain rfl : code = .success := of_decide_eq_true success
  exact ⟨s, queue', accepted, returned, readFromFifo_drains_iff reached returned⟩

/-- The only packet takes two of the three data bytes. The reader returns success with a byte left,
and behind the sent packet neither the FIFO nor a packet has data. -/
theorem readFromFifo_drains_fails : ∃ s : System 8 1, ∃ queue',
    System.Reachable millisecondClock fiveBytes
      (System.permit (fun _ r => r.KeepsSize) fun _ => True) s ∧
    s.accepted = [.threeBytes ⟨0xf0, 0, 0⟩, .data [1, 2, 3]] ∧
    readFromFifo millisecondClock 3 s.queue = some (.success, queue') ∧
    queue'.fifo.bytes = [] ∧ queue'.numRemainingDataBytes = 1 ∧
    queue'.onTxPacketSent.2.hasTxData = false ∧
    queue'.onTxPacketSent.2.numRemainingDataBytes = 1 := by
  obtain ⟨s, reached, accepted, returns⟩ := System.exists_reachable millisecondClock fiveBytes
    (System.permit (fun _ r => r.KeepsSize) fun _ => True)
    (fun s => s.accepted = [.threeBytes ⟨0xf0, 0, 0⟩, .data [1, 2, 3]] ∧
      (readFromFifo millisecondClock 3 s.queue).any
        (fun r : TxQueueError × TxQueue 8 1 => decide (r.1 = .success ∧
          r.2.fifo.bytes = [] ∧ r.2.numRemainingDataBytes = 1 ∧
          r.2.onTxPacketSent.2.hasTxData = false ∧
          r.2.onTxPacketSent.2.numRemainingDataBytes = 1)) = true)
    (blankQueue 8 1 32) [.request .addSysexStart, .request (.addSysexData [1, 2, 3])]
    (by decide +kernel)
  obtain ⟨⟨code, queue'⟩, returned, result⟩ := (Option.any_eq_true _ _).mp returns
  obtain ⟨rfl, left⟩ : code = .success ∧ _ := of_decide_eq_true result
  exact ⟨s, queue', reached, accepted, returned, left⟩

end BleMidi.Queue
