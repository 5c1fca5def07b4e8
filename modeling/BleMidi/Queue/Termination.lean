/- Module: BleMidi/Queue/Termination
   source: ble_midi/src/tx_queue.c (tx_queue_read_from_fifo)
   digest: The FIFO reader hangs exactly when pending data meets a packet that refuses it. -/

import BleMidi.Queue.System
import Mathlib.Data.Prod.Lex

set_option autoImplicit false
set_option relaxedAutoImplicit false

namespace BleMidi.Queue

open BleMidi.Core.Runs
open BleMidi.Packet.Bytes
open BleMidi.Packet.PacketWriter
open TxQueue

variable {maxSize packetCount : Nat} {settings : Settings maxSize}

/-- A well formed chunk that does not change the packet size. -/
def Chunk.KeepsSize (chunk : Chunk) : Prop :=
  chunk.WellFormed ∧
    match chunk with
    | .packetSize _ => False
    | _ => True

/-- A call whose chunk is well formed and does not change the packet size. -/
def Request.KeepsSize (r : Request) : Prop :=
  r.WellFormed ∧
    match r with
    | .addTxPacketSize _ => False
    | _ => True

instance : DecidablePred Chunk.KeepsSize
  | .threeBytes _ => inferInstanceAs (Decidable (_ ∧ True))
  | .data _ => inferInstanceAs (Decidable (_ ∧ True))
  | .packetSize _ => inferInstanceAs (Decidable (_ ∧ False))

instance : DecidablePred Request.KeepsSize
  | .addMsg _ => inferInstanceAs (Decidable (_ ∧ True))
  | .addSysexStart => inferInstanceAs (Decidable (_ ∧ True))
  | .addSysexData _ => inferInstanceAs (Decidable (_ ∧ True))
  | .addSysexEnd => inferInstanceAs (Decidable (_ ∧ True))
  | .addTxPacketSize _ => inferInstanceAs (Decidable (_ ∧ False))

variable [NeZero packetCount] {times : Nat → UInt16}

/-- What the reader finds in the queue. -/
structure Readable (settings : Settings maxSize) (queue : TxQueue maxSize packetCount) : Prop where
  steady : Steady settings queue
  chunks : ∃ chunks, queue.fifo.Holds chunks ∧ ∀ chunk ∈ chunks, chunk.KeepsSize
  pending : ∃ data, Pending queue data

/-- Data is pending, and the current packet refuses it. -/
def Stalled (queue : TxQueue maxSize packetCount) : Prop :=
  queue.fifo.isEmpty = false ∧ 0 < queue.numRemainingDataBytes ∧ ¬ TakesData queue.lastTxPacket

instance : DecidablePred (@Stalled maxSize packetCount _) :=
  fun _ => inferInstanceAs (Decidable (_ ∧ _ ∧ _))

/-- The body of the loop of `tx_queue_read_from_fifo`. -/
def readBody (times : Nat → UInt16) (state : TxQueue maxSize packetCount × MessageBytes) :
    ReadStep maxSize packetCount :=
  readStep times state.1 state.2

/-- An iteration returns, removes bytes from the FIFO or decreases the number of pending bytes. -/
def Progresses (times : Nat → UInt16) (state : TxQueue maxSize packetCount × MessageBytes) : Prop :=
  match readBody times state with
  | .ret _ => True
  | .next (queue, _) =>
      queue.fifo.bytes.length < state.1.fifo.bytes.length ∨
        queue.numRemainingDataBytes < state.1.numRemainingDataBytes

/-- The bytes of the FIFO count more than the pending ones. -/
def readMeasure (state : TxQueue maxSize packetCount × MessageBytes) : Nat ×ₗ Nat :=
  toLex (state.1.fifo.bytes.length, state.1.numRemainingDataBytes)

section Readable

variable {queue queue' : TxQueue maxSize packetCount}

/-- What an iteration that goes on has done. -/
structure Moves (settings : Settings maxSize) (queue queue' : TxQueue maxSize packetCount) :
    Prop where
  readable : Readable settings queue'
  less : queue'.fifo.bytes.length < queue.fifo.bytes.length ∨
    queue'.fifo.bytes.length = queue.fifo.bytes.length ∧
      queue'.numRemainingDataBytes < queue.numRemainingDataBytes

private theorem readable_frame (h : Readable settings queue) (hsteady : Steady settings queue')
    (hframe : Frame queue queue') : Readable settings queue' := by
  obtain ⟨-, ⟨chunks, held, keeps⟩, data, pending⟩ := h
  exact ⟨hsteady, ⟨chunks, hframe.holds held, keeps⟩, data, pending.frame hframe⟩

theorem Readable.tick (h : Readable settings queue) : Readable settings queue.tick :=
  readable_frame h h.steady.tick (Frame.tick queue)

/-- A stalled iteration changes nothing but the number of times the clock was read. -/
theorem Stalled.readStep_eq (times : Nat → UInt16) (h : Stalled queue) {chunks : List Chunk}
    (hheld : queue.fifo.Holds chunks) {data : List UInt8} (hpending : Pending queue data)
    (msgBytes : MessageBytes) : readStep times queue msgBytes = .next (queue.tick, msgBytes) := by
  obtain ⟨nonempty, remaining, refuses⟩ := h
  have some : data ≠ [] := by
    rw [hpending.remaining] at remaining
    exact List.length_pos_iff.mp remaining
  cases chunks with
  | nil => cases nonempty.symm.trans hheld.isEmpty_nil
  | cons chunk chunks =>
    rw [readStep_remaining times hheld remaining, TxQueue.readRemaining, hpending.bytes,
      addData_refused some refuses]

theorem Readable.stalled (h : Readable settings queue) (hstalled : Stalled queue)
    (msgBytes : MessageBytes) : readStep times queue msgBytes = .next (queue.tick, msgBytes) := by
  obtain ⟨data, pending⟩ := h.pending
  obtain ⟨chunks, held, -⟩ := h.chunks
  exact hstalled.readStep_eq times held pending msgBytes

private theorem moves_read {chunk : Chunk} {chunks : List Chunk} {data : List UInt8}
    (hheld : queue.fifo.Holds (chunk :: chunks)) (hkeeps : ∀ c ∈ chunk :: chunks, c.KeepsSize)
    (hsteady : Steady settings queue') (hpending : Pending queue' data)
    (hfifo : queue'.fifo = queue.fifo.read chunk.encode.length) :
    Moves settings queue queue' := by
  refine ⟨⟨hsteady, ⟨chunks, ?_, fun c hc => hkeeps c (List.mem_cons_of_mem _ hc)⟩, data,
    hpending⟩, .inl ?_⟩
  · rw [hfifo]
    exact hheld.read
  · rw [hfifo]
    exact hheld.read_length_lt

private theorem remaining_moves (times : Nat → UInt16) (h : Readable settings queue)
    (hremaining : 0 < queue.numRemainingDataBytes) (htakes : TakesData queue.lastTxPacket)
    (msgBytes : MessageBytes) :
    (∃ result, TxQueue.readRemaining times queue msgBytes = .ret result ∧
        Readable settings result.2) ∨
      ∃ queue', TxQueue.readRemaining times queue msgBytes = .next (queue', msgBytes) ∧
        Moves settings queue queue' := by
  obtain ⟨data, pending⟩ := h.pending
  obtain ⟨chunks, held, keeps⟩ := h.chunks
  have positive := hremaining
  rw [pending.remaining] at positive
  obtain ⟨count, queue', eq, most, steady, frame, -⟩ := h.steady.addData_some times
    (List.length_pos_iff.mp positive) pending.valid htakes
  rw [TxQueue.readRemaining, pending.bytes, eq]
  cases count with
  | zero => exact .inl ⟨_, rfl, readable_frame h steady frame⟩
  | succ count =>
    refine .inr ⟨_, rfl, ⟨steady.withScratch _ _ _ _, ⟨chunks, frame.holds held, keeps⟩,
      data.drop (count + 1), ?_⟩, .inr ⟨?_, ?_⟩⟩
    · exact (pending.frame frame).drop most
    · change queue'.fifo.bytes.length = _
      rw [frame.fifo]
    · change queue'.numRemainingDataBytes - (count + 1) < queue.numRemainingDataBytes
      rw [frame.numRemainingDataBytes]
      omega

private theorem threeBytes_moves (times : Nat → UInt16) (h : Readable settings queue)
    {bytes : MessageBytes} {chunks : List Chunk}
    (hheld : queue.fifo.Holds (.threeBytes bytes :: chunks))
    (hkeeps : ∀ c ∈ Chunk.threeBytes bytes :: chunks, c.KeepsSize) (msgBytes : MessageBytes) :
    (∃ result, read3ByteChunk times queue msgBytes = .ret result ∧
        Readable settings result.2) ∨
      ∃ queue', read3ByteChunk times queue msgBytes = .next (queue', msgBytes) ∧
        Moves settings queue queue' := by
  obtain ⟨data, pending⟩ := h.pending
  have steady := h.steady.add3 times msgBytes
  have frame := add3_frame times queue msgBytes
  rcases read3ByteChunk_cases times queue msgBytes with stays | reads
  · exact .inl ⟨_, stays, readable_frame h steady frame⟩
  · refine .inr ⟨_, reads, moves_read hheld hkeeps (steady.withScratch _ _ _ _)
      ((pending.frame frame).withFifo _) ?_⟩
    change Fifo.read _ 3 = _
    rw [frame.fifo]
    rfl

private theorem data_moves (times : Nat → UInt16) (h : Readable settings queue)
    (hidle : queue.numRemainingDataBytes = 0) {bytes : List UInt8} {chunks : List Chunk}
    (hheld : queue.fifo.Holds (.data bytes :: chunks))
    (hkeeps : ∀ c ∈ Chunk.data bytes :: chunks, c.KeepsSize) (msgBytes : MessageBytes) :
    (∃ result, afterData bytes msgBytes
        (addDataBytesToTxPacket times (queue.load bytes) bytes) = .ret result ∧
          Readable settings result.2) ∨
      ∃ queue', afterData bytes msgBytes
          (addDataBytesToTxPacket times (queue.load bytes) bytes) = .next (queue', msgBytes) ∧
        Moves settings queue queue' := by
  have nonempty : bytes ≠ [] :=
    List.length_pos_iff.mp (hkeeps _ List.mem_cons_self).1.1
  have loaded : Steady settings (queue.load bytes) := h.steady.withScratch _ _ _ _
  by_cases accepted : (∀ b ∈ bytes, isDataByte b = true) ∧ TakesData queue.lastTxPacket
  · obtain ⟨valid, takes⟩ := accepted
    obtain ⟨count, queue', eq, most, steady, frame, -⟩ :=
      loaded.addData_some times nonempty valid takes
    rw [eq]
    cases count with
    | zero =>
      have idle := frame.numRemainingDataBytes.trans hidle
      exact .inl ⟨_, rfl, steady, ⟨_, frame.holds hheld, hkeeps⟩, [], Pending.nil idle⟩
    | succ count =>
      refine .inr ⟨_, rfl, moves_read hheld hkeeps (steady.withScratch _ _ _ _)
        (Pending.ofChunk frame valid most _) ?_⟩
      change queue'.fifo.read _ = _
      rw [frame.fifo]
      rfl
  · have refused : addDataBytesToTxPacket times (queue.load bytes) bytes =
        (.error .invalidData, (queue.load bytes).tick) := addData_unaccepted nonempty accepted
    rw [refused]
    refine .inr ⟨_, rfl, moves_read hheld hkeeps (loaded.tick.withScratch _ _ _ _)
      (Pending.nil hidle) rfl⟩

theorem Readable.moves (times : Nat → UInt16) (h : Readable settings queue)
    (hmoves : ¬ Stalled queue) (msgBytes : MessageBytes) :
    (∃ result, readStep times queue msgBytes = .ret result ∧ Readable settings result.2) ∨
      ∃ queue' msgBytes', readStep times queue msgBytes = .next (queue', msgBytes') ∧
        Moves settings queue queue' := by
  obtain ⟨chunks, held, keeps⟩ := h.chunks
  have case := readStep_case times held (fun chunk mem => (keeps chunk mem).1) msgBytes
  generalize readStep times queue msgBytes = r at case ⊢
  cases case with
  | empty => exact .inl ⟨_, rfl, h⟩
  | remaining msgBytes remaining =>
    have takes : TakesData queue.lastTxPacket := by
      by_contra refuses
      exact hmoves ⟨held.isEmpty_cons, remaining, refuses⟩
    exact (remaining_moves times h remaining takes msgBytes).imp_right
      fun ⟨queue', eq, moves⟩ => ⟨queue', msgBytes, eq, moves⟩
  | threeBytes bytes _ =>
    exact (threeBytes_moves times h held keeps bytes).imp_right
      fun ⟨queue', eq, moves⟩ => ⟨queue', bytes, eq, moves⟩
  | data bytes msgBytes idle =>
    exact (data_moves times h idle held keeps msgBytes).imp_right
      fun ⟨queue', eq, moves⟩ => ⟨queue', msgBytes, eq, moves⟩
  | packetSize size _ _ => exact (keeps _ List.mem_cons_self).2.elim

/-- An iteration progresses if and only if it is not stalled. -/
theorem Readable.progresses_iff (times : Nat → UInt16) (h : Readable settings queue)
    (msgBytes : MessageBytes) : Progresses times (queue, msgBytes) ↔ ¬ Stalled queue := by
  unfold Progresses readBody
  constructor
  · intro progress stalled
    rw [h.stalled stalled] at progress
    rcases progress with less | less
    · exact absurd less (Nat.lt_irrefl _)
    · exact absurd less (Nat.lt_irrefl _)
  · intro free
    rcases h.moves times free msgBytes with ⟨result, eq, -⟩ | ⟨queue', msgBytes', eq, -, less⟩
    · simp only [eq]
    · simp only [eq]
      exact less.imp_right And.right

private theorem readMeasure_less (h : Moves settings queue queue')
    (msgBytes msgBytes' : MessageBytes) :
    readMeasure (queue', msgBytes') < readMeasure (queue, msgBytes) := by
  rw [readMeasure, readMeasure, Prod.Lex.toLex_lt_toLex]
  exact h.less

private theorem Readable.next (h : Readable settings queue) {msgBytes msgBytes' : MessageBytes}
    (hnext : readStep times queue msgBytes = .next (queue', msgBytes')) :
    Readable settings queue' := by
  by_cases stalled : Stalled queue
  · cases (h.stalled stalled msgBytes).symm.trans hnext
    exact h.tick
  · rcases h.moves times stalled msgBytes with ⟨result, eq, -⟩ | ⟨_, _, eq, moves⟩
    · cases eq.symm.trans hnext
    · cases eq.symm.trans hnext
      exact moves.readable

/-- A call of the reader returns if and only if no iteration of it is stalled. -/
theorem Readable.returns_iff (times : Nat → UInt16) (h : Readable settings queue) :
    (∃ fuel result, readFromFifo times fuel queue = some result) ↔
      ∀ k state, before (readBody times) k (queue, ⟨0, 0, 0⟩) = some state → ¬ Stalled state.1 := by
  refine loop_returns_iff wellFounded_lt readMeasure (s := (queue, ⟨0, 0, 0⟩))
    (I := fun state => Readable settings state.1) (S := fun state => Stalled state.1) ?_ ?_ ?_ h
  · intro state state' readable next
    exact readable.next next
  · intro state state' readable free next
    rcases readable.moves times free state.2 with ⟨result, eq, -⟩ | ⟨_, _, eq, moves⟩
    · cases eq.symm.trans next
    · cases eq.symm.trans next
      exact readMeasure_less moves _ _
  · intro state readable stalled
    exact ⟨_, readable.stalled stalled state.2, stalled⟩

/-- The queue stays readable in an iteration, whether it goes on or not. -/
theorem Readable.step (times : Nat → UInt16) (h : Readable settings queue)
    (msgBytes : MessageBytes) : Readable settings (readStep times queue msgBytes).queue := by
  by_cases stalled : Stalled queue
  · rw [h.stalled stalled]
    exact h.tick
  · rcases h.moves times stalled msgBytes with ⟨result, eq, readable⟩ | ⟨_, _, eq, moves⟩
    · rw [eq]
      exact readable
    · rw [eq]
      exact moves.readable

theorem Readable.withFifo (h : Readable settings queue) {fifo : Fifo} {chunks : List Chunk}
    (hfifo : fifo.Holds chunks) (hchunks : ∀ chunk ∈ chunks, chunk.KeepsSize) :
    Readable settings { queue with fifo := fifo } := by
  obtain ⟨data, pending⟩ := h.pending
  exact ⟨h.steady.withScratch _ _ _ _, ⟨chunks, hfifo, hchunks⟩, data, pending.withFifo fifo⟩

end Readable

omit [NeZero packetCount] in
theorem Request.chunk_keepsSize {r : Request} (h : r.KeepsSize)
    {queue queue' : TxQueue maxSize packetCount} {count : Nat}
    (hexec : r.exec queue = (.ok count, queue')) : (r.chunk count).KeepsSize := by
  refine ⟨Request.chunk_wellFormed h.1 hexec, ?_⟩
  cases r with
  | addTxPacketSize size => exact h.2
  | _ => trivial

theorem Readable.act {s s' : System maxSize packetCount} {a : Action}
    (h : Readable settings s.queue)
    (hpermit : System.permit (fun _ r => r.KeepsSize) (fun _ => True) s a)
    (hact : s.act times a = some s') : Readable settings s'.queue := by
  refine System.act_keeps ?_ ?_ ?_ h hpermit hact
  · intro queue r count fifo readable keepsSize exec written
    obtain ⟨chunks, held, keeps⟩ := readable.chunks
    exact readable.withFifo (held.append written) (List.forall_mem_append.mpr
      ⟨keeps, List.forall_mem_singleton.mpr (Request.chunk_keepsSize keepsSize exec)⟩)
  · intro queue msgBytes readable _
    exact readable.step times msgBytes
  · intro queue readable
    have frame := onTxPacketSent_frame queue
    exact readable_frame readable ⟨frame.window readable.steady.window,
      readable.steady.packets.onTxPacketSent SteadyPacket.reset⟩ frame

/-- Runs with a fixed packet size keep the queue readable. -/
theorem readable_run {s : System maxSize packetCount}
    (h : System.Reachable times settings (System.permit (fun _ r => r.KeepsSize) fun _ => True) s) :
    Readable settings s.queue := by
  refine h.invariant (I := fun s => Readable settings s.queue) ?_ Readable.act
  intro queue fresh
  exact ⟨fresh.steady, ⟨[], fresh.fifo, fun chunk hchunk => absurd hchunk List.not_mem_nil⟩, [],
    Pending.nil fresh.remaining⟩

/-- A call of the reader, on whatever well formed chunks the FIFO holds, returns if and only if
none of its iterations is stalled, and those are the iterations that do not progress. -/
theorem readFromFifo_returns_iff {s : System maxSize packetCount}
    (h : System.Reachable times settings (System.permit (fun _ r => r.KeepsSize) fun _ => True) s)
    {fifo : Fifo} {chunks : List Chunk} (hfifo : fifo.Holds chunks)
    (hchunks : ∀ chunk ∈ chunks, chunk.KeepsSize) :
    let queue := { s.queue with fifo := fifo }
    ((∃ fuel result, readFromFifo times fuel queue = some result) ↔
      ∀ k state, before (readBody times) k (queue, ⟨0, 0, 0⟩) = some state → ¬ Stalled state.1) ∧
    ∀ k state, before (readBody times) k (queue, ⟨0, 0, 0⟩) = some state →
      (Progresses times state ↔ ¬ Stalled state.1) := by
  intro queue
  have readable : Readable settings queue := (readable_run h).withFifo hfifo hchunks
  refine ⟨readable.returns_iff times, ?_⟩
  intro k state reached
  have inside : Readable settings state.1 :=
    before_invariant (I := fun state => Readable settings state.1)
      (fun readable next => readable.next next) k readable reached
  exact inside.progresses_iff times state.2

/-- A sysex message of three bytes that waits in the FIFO for packets of five bytes, and is read. -/
theorem readFromFifo_returns_short : ∃ s : System 8 2,
    s.queue.fifo.bytes = [0xf0, 0, 0, 0x0d, 3, 0, 1, 2, 3, 0xf7, 0, 0] ∧
    let queue := { s.queue with fifo := s.queue.fifo }
    (∃ result, readFromFifo millisecondClock 5 queue = some result) ∧
    ((∃ fuel result, readFromFifo millisecondClock fuel queue = some result) ↔
      ∀ k state, before (readBody millisecondClock) k (queue, ⟨0, 0, 0⟩) = some state →
        ¬ Stalled state.1) ∧
    ∀ k state, before (readBody millisecondClock) k (queue, ⟨0, 0, 0⟩) = some state →
      (Progresses millisecondClock state ↔ ¬ Stalled state.1) := by
  obtain ⟨s, reached, bytes, returns⟩ := System.exists_reachable millisecondClock fiveBytes
    (System.permit (fun _ r => r.KeepsSize) fun _ => True)
    (fun s => s.queue.fifo.bytes = [0xf0, 0, 0, 0x0d, 3, 0, 1, 2, 3, 0xf7, 0, 0] ∧
      (readFromFifo millisecondClock 5 s.queue).isSome = true)
    (blankQueue 8 2 32)
    [.request .addSysexStart, .request (.addSysexData [1, 2, 3]), .request .addSysexEnd]
    (by decide +kernel)
  have held : s.queue.fifo.Holds
      [.threeBytes ⟨0xf0, 0, 0⟩, .data [1, 2, 3], .threeBytes ⟨0xf7, 0, 0⟩] := by
    rw [Fifo.Holds, bytes]
    decide
  exact ⟨s, bytes, Option.isSome_iff_exists.mp returns,
    readFromFifo_returns_iff reached held (by decide)⟩

/-- Twenty data bytes fill both packets. The flag of the second one is clear, so it refuses the
rest, and the reader tries again forever. -/
theorem readFromFifo_hangs : ∃ s : System 8 2,
    System.Reachable millisecondClock fiveBytes
      (System.permit (fun _ r => r.KeepsSize) fun _ => True) s ∧
    s.reading = none ∧
    s.accepted = [.threeBytes ⟨0xf0, 0, 0⟩, .data (List.replicate 20 1), .threeBytes ⟨0xf7, 0, 0⟩] ∧
    ∀ fuel, readFromFifo millisecondClock fuel s.queue = none := by
  obtain ⟨s, reached, ⟨idle, accepted⟩, stalls⟩ := System.exists_reachable millisecondClock
    fiveBytes (System.permit (fun _ r => r.KeepsSize) fun _ => True)
    (fun s => (s.reading = none ∧ s.accepted =
      [.threeBytes ⟨0xf0, 0, 0⟩, .data (List.replicate 20 1), .threeBytes ⟨0xf7, 0, 0⟩]) ∧
      (before (readBody millisecondClock) 2 (s.queue, ⟨0, 0, 0⟩)).any
        (fun state => decide (Stalled state.1)) = true)
    (blankQueue 8 2 32)
    [.request .addSysexStart, .request (.addSysexData (List.replicate 20 1)),
      .request .addSysexEnd]
    (by decide +kernel)
  refine ⟨s, reached, idle, accepted, ?_⟩
  obtain ⟨state, reached', stalled⟩ := (Option.any_eq_true _ _).mp stalls
  intro fuel
  by_contra returns
  obtain ⟨result, returned⟩ := Option.ne_none_iff_exists'.mp returns
  exact ((readable_run reached).returns_iff millisecondClock).mp ⟨fuel, result, returned⟩ 2 state
    reached' (of_decide_eq_true stalled)

end BleMidi.Queue
