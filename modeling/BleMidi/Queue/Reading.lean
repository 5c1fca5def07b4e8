/- Module: BleMidi/Queue/Reading
   source: ble_midi/src/tx_queue.c (tx_queue_fifo_add_*, tx_queue_read_from_fifo)
   digest: The reader runs, for every chunk, the branch of the call that wrote it. -/

import BleMidi.Queue.Capacity
import BleMidi.Queue.Recognition

set_option autoImplicit false
set_option relaxedAutoImplicit false

namespace BleMidi.Queue

open BleMidi.Core.Framing
open BleMidi.Core.Runs
open BleMidi.Packet.PacketWriter
open TxQueue

variable {maxSize packetCount : Nat}

/-- An accepted call, with as many data bytes as were accepted. -/
def Request.accepted (count : Nat) : Request → Request
  | addSysexData bytes => addSysexData (bytes.take count)
  | r => r

/-- A message whose status byte is not that of a sysex start or end, or some data. -/
def Request.Distinct : Request → Prop
  | addMsg bytes => 128 ≤ bytes.byte0 ∧ bytes.byte0 ≠ sysexStart ∧ bytes.byte0 ≠ sysexEnd
  | addSysexData bytes => bytes ≠ []
  | _ => True

instance : DecidablePred Request.Distinct
  | .addMsg _ => inferInstanceAs (Decidable (_ ∧ _ ∧ _))
  | .addSysexData bytes => inferInstanceAs (Decidable (bytes ≠ []))
  | .addSysexStart => inferInstanceAs (Decidable True)
  | .addSysexEnd => inferInstanceAs (Decidable True)
  | .addTxPacketSize _ => inferInstanceAs (Decidable True)

/-- The call that a chunk is taken for. -/
def Chunk.call : Chunk → Request
  | threeBytes bytes =>
      if bytes.byte0 = sysexStart then .addSysexStart
      else if bytes.byte0 = sysexEnd then .addSysexEnd
      else .addMsg bytes
  | data bytes => .addSysexData bytes
  | packetSize size => .addTxPacketSize size

theorem Request.Distinct.wellFormed {r : Request} (h : r.Distinct) : r.WellFormed := by
  cases r with
  | addMsg bytes => exact h.1
  | addSysexData bytes => exact h
  | _ => trivial

theorem Request.Distinct.call_chunk {r : Request} (h : r.Distinct) (count : Nat) :
    (r.chunk count).call = r.accepted count := by
  cases r with
  | addMsg bytes =>
    obtain ⟨-, start, finish⟩ := h
    exact (if_neg start).trans (if_neg finish)
  | _ => rfl

/-- The bytes of a message are taken for a message if and only if they start with a status byte
that is not one of a sysex start or end. -/
theorem recognise_addMsg_iff (bytes : MessageBytes) (rest : List UInt8) :
    (recognise ((Chunk.threeBytes bytes).encode ++ rest)).map Chunk.call = some (.addMsg bytes) ↔
      (Request.addMsg bytes).Distinct := by
  constructor
  · intro h
    obtain ⟨chunk, recognised, call⟩ := Option.map_eq_some_iff.mp h
    cases chunk with
    | threeBytes bytes' =>
      rw [Chunk.call] at call
      by_cases start : bytes'.byte0 = sysexStart
      · rw [if_pos start] at call
        cases call
      by_cases finish : bytes'.byte0 = sysexEnd
      · rw [if_neg start, if_pos finish] at call
        cases call
      rw [if_neg start, if_neg finish] at call
      cases call
      exact ⟨(recognise_threeBytes_iff bytes rest).mp recognised, start, finish⟩
    | data bytes' => cases call
    | packetSize size => cases call
  · intro h
    rw [(recognise_threeBytes_iff bytes rest).mpr h.1, Option.map_some]
    exact congrArg some (h.call_chunk 0)

/-- The code that the reader runs for a call. A message goes to `ble_midi_writer_add_msg`, and no
data chunk is larger than the scratch buffer it is copied into. -/
inductive ReadsAs [NeZero packetCount] (times : Nat → UInt16)
    (queue : TxQueue maxSize packetCount) : Request → ReadStep maxSize packetCount → Prop
  | addMsg {bytes : MessageBytes} :
      (∀ timestamp (w : Writer maxSize), addChunk bytes timestamp w =
        writerAddMsg w bytes timestamp) →
      ReadsAs times queue (.addMsg bytes) (read3ByteChunk times queue bytes)
  | addSysexStart {bytes : MessageBytes} :
      (∀ timestamp (w : Writer maxSize), addChunk bytes timestamp w =
        writerStartSysexMsg w timestamp) →
      ReadsAs times queue .addSysexStart (read3ByteChunk times queue bytes)
  | addSysexEnd {bytes : MessageBytes} :
      (∀ timestamp (w : Writer maxSize), addChunk bytes timestamp w =
        writerEndSysexMsg w timestamp) →
      ReadsAs times queue .addSysexEnd (read3ByteChunk times queue bytes)
  | addSysexData {bytes : List UInt8} {msgBytes : MessageBytes} :
      sysexDataChunkSize msgBytes = sysexDataChunkHeaderSize + bytes.length →
      sysexDataChunkSize msgBytes ≤ sysexDataChunkMaxSize →
      (queue.fifo.peek (sysexDataChunkSize msgBytes)).drop sysexDataChunkHeaderSize = bytes →
      ReadsAs times queue (.addSysexData bytes) (readDataChunk times queue msgBytes)
  | addTxPacketSize {size : UInt16} {msgBytes : MessageBytes} :
      word msgBytes.byte1 msgBytes.byte2 = size.toNat →
      ReadsAs times queue (.addTxPacketSize size) (readPacketSize queue msgBytes)

/-- The code that an iteration of the reader runs: for an empty FIFO, for data that is pending, or
for the call of the chunk at the head. -/
inductive Branch [NeZero packetCount] (times : Nat → UInt16)
    (queue : TxQueue maxSize packetCount) : ReadStep maxSize packetCount → Prop
  | empty : queue.fifo.recognised = [] → Branch times queue (.ret (.success, queue))
  | pending {msgBytes : MessageBytes} : 0 < queue.numRemainingDataBytes →
      Branch times queue (readRemaining times queue msgBytes)
  | head {chunk : Chunk} {rest : List Chunk} {r : ReadStep maxSize packetCount} :
      queue.fifo.recognised = chunk :: rest → queue.numRemainingDataBytes = 0 →
      ReadsAs times queue chunk.call r → Branch times queue r

/-- An iteration returns and leaves the FIFO alone, it reads the chunk at the head, or it adds some
of the data that is pending. -/
inductive Treats (queue : TxQueue maxSize packetCount) : ReadStep maxSize packetCount → Prop
  | returns {code : TxQueueError} {queue' : TxQueue maxSize packetCount} :
      queue'.fifo = queue.fifo → Treats queue (.ret (code, queue'))
  | reads {chunk : Chunk} {rest : List Chunk} {queue' : TxQueue maxSize packetCount}
      {msgBytes : MessageBytes} :
      queue.fifo.recognised = chunk :: rest → queue'.fifo.recognised = rest →
      queue'.fifo = queue.fifo.read chunk.encode.length → Treats queue (.next (queue', msgBytes))
  | adds {queue' : TxQueue maxSize packetCount} {msgBytes : MessageBytes} :
      queue'.fifo = queue.fifo → queue'.numRemainingDataBytes < queue.numRemainingDataBytes →
      Treats queue (.next (queue', msgBytes))

section Iteration

variable [NeZero packetCount] {times : Nat → UInt16} {queue : TxQueue maxSize packetCount}
  {queued : List Chunk}

private theorem readsAs_threeBytes (times : Nat → UInt16) (queue : TxQueue maxSize packetCount)
    (bytes : MessageBytes) :
    ReadsAs times queue (Chunk.threeBytes bytes).call (read3ByteChunk times queue bytes) := by
  rw [Chunk.call]
  by_cases start : bytes.byte0 = sysexStart
  · rw [if_pos start]
    exact .addSysexStart fun timestamp w => if_pos start
  rw [if_neg start]
  by_cases finish : bytes.byte0 = sysexEnd
  · rw [if_pos finish]
    exact .addSysexEnd fun timestamp w => (if_neg start).trans (if_pos finish)
  · rw [if_neg finish]
    exact .addMsg fun timestamp w => (if_neg start).trans (if_neg finish)

private theorem readsAs_data (times : Nat → UInt16) {bytes : List UInt8} {rest : List Chunk}
    (h : queue.fifo.Holds (.data bytes :: rest))
    (hbytes : bytes.length ≤ sysexDataChunkMaxByteCount) :
    ReadsAs times queue (Chunk.data bytes).call (readDataChunk times queue queue.headBytes) := by
  have small : bytes.length < 2 ^ 16 := by
    unfold sysexDataChunkMaxByteCount at hbytes
    omega
  have size : sysexDataChunkSize queue.headBytes = sysexDataChunkHeaderSize + bytes.length := by
    rw [sysexDataChunkSize, headBytes_data_eq h, word_count small]
  refine .addSysexData size ?_ ?_
  · rw [size]
    exact Nat.add_le_add_left hbytes _
  · have data := headData_data h hbytes
    rw [headData, if_pos (headBytes_data h)] at data
    exact data

/-- The branch for the chunk at the head is that of the call that it is taken for. -/
theorem Framed.readsAs (times : Nat → UInt16) {chunk : Chunk}
    (h : Framed queue (chunk :: queued) []) (hidle : queue.numRemainingDataBytes = 0)
    (msgBytes : MessageBytes) :
    ReadsAs times queue chunk.call (readStep times queue msgBytes) := by
  have held := h.holds
  have wellFormed := h.wellFormed chunk List.mem_cons_self
  have long : 3 ≤ queue.fifo.bytes.length := by
    rw [show queue.fifo.bytes = chunk.encode ++ queued.flatMap Chunk.encode from held,
      List.length_append]
    have : 3 ≤ chunk.encode.length := by
      cases chunk <;> simp [Chunk.encode]
    omega
  rw [readStep_recognise times long hidle, h.head, List.head?_cons]
  cases chunk with
  | threeBytes bytes => exact readsAs_threeBytes times queue bytes
  | data bytes => exact readsAs_data times held wellFormed.2
  | packetSize size =>
    refine .addTxPacketSize ?_
    rw [headBytes_packetSize_eq held, word_size]

theorem Framed.branch (times : Nat → UInt16) (h : Framed queue queued [])
    (msgBytes : MessageBytes) : Branch times queue (readStep times queue msgBytes) := by
  have held := h.holds
  cases queued with
  | nil =>
    rw [readStep_empty times held]
    exact .empty h.recognised
  | cons chunk rest =>
    by_cases idle : queue.numRemainingDataBytes = 0
    · exact .head h.recognised idle (h.readsAs times idle msgBytes)
    · have remaining : 0 < queue.numRemainingDataBytes := Nat.pos_of_ne_zero idle
      rw [readStep_remaining times held remaining]
      exact .pending remaining

private theorem Framed.treats (times : Nat → UInt16) (h : Framed queue queued [])
    (hmoves : ¬ Stalled queue) (msgBytes : MessageBytes) :
    Treats queue (readStep times queue msgBytes) := by
  have iterates := h.iterates times (.inl rfl) hmoves msgBytes
  generalize readStep times queue msgBytes = r at iterates ⊢
  cases iterates with
  | returns same _ => exact .returns same
  | reads cons read framed => exact .reads (h.recognised.trans cons) framed.recognised read
  | adds same less _ => exact .adds same less

end Iteration

/-- A run of the queue with the calls that were accepted and the calls that its reader has taken
the chunks for that it has read. -/
structure Traced (maxSize packetCount : Nat) where
  system : System maxSize packetCount
  calls : List Request
  consumed : List Request

/-- When bytes leave the FIFO, the chunk recognised at its head has been read. -/
def readBetween (fifo fifo' : Fifo) : List Request :=
  if fifo'.bytes.length < fifo.bytes.length then
    ((recognise fifo.bytes).map Chunk.call).toList
  else []

theorem readBetween_of_le {fifo fifo' : Fifo} (h : fifo.bytes.length ≤ fifo'.bytes.length) :
    readBetween fifo fifo' = [] :=
  if_neg (Nat.not_lt.mpr h)

/-- The call of an action, if it is accepted. -/
def acceptedCall (queue : TxQueue maxSize packetCount) : Action → List Request
  | .request r =>
      match (r.exec queue).1 with
      | .ok count => [r.accepted count]
      | .error _ => []
  | _ => []

namespace Traced

def initial (queue : TxQueue maxSize packetCount) : Traced maxSize packetCount :=
  ⟨System.initial queue, [], []⟩

variable [NeZero packetCount] (times : Nat → UInt16)

def act (s : Traced maxSize packetCount) (a : Action) : Option (Traced maxSize packetCount) :=
  (s.system.act times a).map fun system =>
    ⟨system, s.calls ++ acceptedCall s.system.queue a,
      s.consumed ++ readBetween s.system.queue.fifo system.queue.fifo⟩

/-- Calls that are told apart by their first byte, and iterations of the reader that neither are
stalled nor write behind a packet. -/
def permits (s : Traced maxSize packetCount) (a : Action) : Prop :=
  System.permit (fun _ r => r.Distinct) (fun queue => ¬ Stalled queue ∧ ¬ Overruns queue) s.system a

instance : ∀ (s : Traced maxSize packetCount) (a : Action), Decidable (permits s a) :=
  fun s a => inferInstanceAs (Decidable (System.permit _ _ s.system a))

/-- The calls that the chunks in the FIFO are taken for. -/
def waiting (s : Traced maxSize packetCount) : List Request :=
  s.system.queue.fifo.recognised.map Chunk.call

end Traced

/-- The calls accepted are those of the chunks that were read, and then those of the chunks in the
FIFO, which is made up of these. -/
structure ReadsChunks (s : Traced maxSize packetCount) : Prop where
  calls : s.calls = s.consumed ++ s.waiting
  held : s.system.queue.fifo.Holds s.system.queue.fifo.recognised

namespace Traced

variable [NeZero packetCount] {times : Nat → UInt16} {s s' : Traced maxSize packetCount}

/-- What a run keeps: the calls accepted are those read and those in the FIFO. -/
private def Inv (s : Traced maxSize packetCount) : Prop :=
  ∃ queued, s.calls = s.consumed ++ queued.map Chunk.call ∧ Framed s.system.queue queued []

private theorem act_request_inv {r : Request} (h : s.Inv) (hr : r.Distinct)
    (hact : s.act times (.request r) = some s') : s'.Inv := by
  obtain ⟨queued, calls, framed⟩ := h
  obtain ⟨system, next, rfl⟩ := Option.map_eq_some_iff.mp hact
  rcases r.exec_appends s.system.queue with ⟨code, failed⟩ | ⟨count, fifo, exec, written⟩
  · have same : system = s.system := by
      rw [System.act, failed] at next
      exact (Option.some.inj next).symm
    subst same
    refine ⟨queued, ?_, framed⟩
    change s.calls ++ acceptedCall s.system.queue (.request r) =
      s.consumed ++ readBetween s.system.queue.fifo s.system.queue.fifo ++ _
    rw [readBetween_of_le le_rfl, acceptedCall, failed, List.append_nil, List.append_nil]
    exact calls
  · have grown : system = { s.system with
        queue := { s.system.queue with fifo := fifo }
        accepted := s.system.accepted ++ [r.chunk count] } := by
      rw [System.act, exec] at next
      exact (Option.some.inj next).symm
    subst grown
    have longer : s.system.queue.fifo.bytes.length ≤ fifo.bytes.length := by
      rw [written, List.length_append]
      exact Nat.le_add_right _ _
    have wellFormed := Request.chunk_wellFormed hr.wellFormed exec
    refine ⟨queued ++ [r.chunk count], ?_, framed.append wellFormed written⟩
    change s.calls ++ acceptedCall s.system.queue (.request r) =
      s.consumed ++ readBetween s.system.queue.fifo fifo ++ _
    rw [readBetween_of_le longer, acceptedCall, exec, List.append_nil, List.map_append,
      List.map_singleton, hr.call_chunk, calls, List.append_assoc]

private theorem act_iterateRead_inv (h : s.Inv) (hmoves : ¬ Stalled s.system.queue)
    (hact : s.act times .iterateRead = some s') : s'.Inv := by
  obtain ⟨queued, calls, framed⟩ := h
  obtain ⟨system, next, rfl⟩ := Option.map_eq_some_iff.mp hact
  obtain ⟨msgBytes, reading, -, rfl⟩ := System.act_iterateRead next
  have iterates := framed.iterates times (.inl rfl) hmoves msgBytes
  change ∃ rest, s.calls ++ [] = s.consumed ++ readBetween s.system.queue.fifo
    (readStep times s.system.queue msgBytes).queue.fifo ++ rest.map Chunk.call ∧
      Framed (readStep times s.system.queue msgBytes).queue rest []
  rw [List.append_nil]
  generalize readStep times s.system.queue msgBytes = r at iterates ⊢
  have kept {fifo : Fifo} (same : fifo = s.system.queue.fifo) :
      s.calls = s.consumed ++ readBetween s.system.queue.fifo fifo ++ queued.map Chunk.call := by
    rw [readBetween_of_le (by rw [same]), List.append_nil, calls]
  cases iterates with
  | returns same framed' => exact ⟨queued, kept same, framed'⟩
  | @reads chunk rest queue' _ cons read framed' =>
    have less : queue'.fifo.bytes.length < s.system.queue.fifo.bytes.length := by
      rw [read]
      rw [cons] at framed
      exact framed.held.read_length_lt
    refine ⟨rest, ?_, framed'⟩
    change s.calls = s.consumed ++ readBetween s.system.queue.fifo queue'.fifo ++ _
    rw [readBetween, if_pos less, framed.head, calls, cons, List.append_assoc]
    rfl
  | adds same _ framed' => exact ⟨queued, kept same, framed'⟩

private theorem act_inv {a : Action} (h : s.Inv) (hpermit : s.permits a)
    (hact : s.act times a = some s') : s'.Inv := by
  cases a with
  | request r => exact act_request_inv h hpermit hact
  | iterateRead => exact act_iterateRead_inv h hpermit.1 hact
  | beginRead =>
    obtain ⟨queued, calls, framed⟩ := h
    obtain ⟨system, next, rfl⟩ := Option.map_eq_some_iff.mp hact
    obtain rfl := System.act_beginRead next
    refine ⟨queued, ?_, framed⟩
    change s.calls ++ [] = s.consumed ++ readBetween s.system.queue.fifo s.system.queue.fifo ++ _
    rw [readBetween_of_le le_rfl, List.append_nil, List.append_nil, calls]
  | packetSent =>
    obtain ⟨queued, calls, framed⟩ := h
    obtain ⟨system, next, rfl⟩ := Option.map_eq_some_iff.mp hact
    obtain rfl := System.act_packetSent next
    have same := (onTxPacketSent_frame s.system.queue).fifo
    refine ⟨queued, ?_, framed.sent⟩
    change s.calls ++ [] = s.consumed ++ readBetween s.system.queue.fifo
      s.system.queue.onTxPacketSent.2.fifo ++ _
    rw [readBetween_of_le (by rw [same]), List.append_nil, List.append_nil, calls]

private theorem inv_run {blank : TxQueue maxSize packetCount}
    {runningStatusEnabled noteOffAsNoteOn : Bool}
    (h : Reach (act times) permits
      (initial (init blank runningStatusEnabled noteOffAsNoteOn)) s) : s.Inv :=
  h.invariant (I := Inv) ⟨[], rfl, Framed.init blank _ _⟩ act_inv

end Traced

section Runs

variable [NeZero packetCount]

/-- In runs whose messages have status bytes of their own, whose reader is never stalled and never
writes behind a packet, the reader runs for every chunk the code of the call that wrote it, in the
order of the calls. It reads each chunk or leaves it alone with a return, and a call of it ends if
it does not stall. -/
theorem readsChunks {times : Nat → UInt16} {blank : TxQueue maxSize packetCount}
    {runningStatusEnabled noteOffAsNoteOn : Bool} {s : Traced maxSize packetCount}
    (h : Reach (Traced.act times) Traced.permits
      (Traced.initial (init blank runningStatusEnabled noteOffAsNoteOn)) s)
    (msgBytes : MessageBytes) :
    ReadsChunks s ∧ Branch times s.system.queue (readStep times s.system.queue msgBytes) ∧
      (¬ Stalled s.system.queue → ¬ Overruns s.system.queue →
        Treats s.system.queue (readStep times s.system.queue msgBytes)) ∧
      ((∀ k state, before (readBody times) k (s.system.queue, msgBytes) = some state →
          ¬ Overruns state.1) →
        ((∃ fuel result, loop (readBody times) fuel (s.system.queue, msgBytes) = some result) ↔
          ∀ k state, before (readBody times) k (s.system.queue, msgBytes) = some state →
            ¬ Stalled state.1)) := by
  obtain ⟨queued, calls, framed⟩ := Traced.inv_run h
  refine ⟨⟨?_, ?_⟩, framed.branch times msgBytes, fun free _ => framed.treats times free msgBytes,
    fun _ => framed.returns_iff times msgBytes⟩
  · rw [Traced.waiting, framed.recognised]
    exact calls
  · rw [framed.recognised]
    exact framed.holds

/-- A message, a sysex message in two pieces and a size request that wait behind the first size
request, which has been read. -/
theorem readsChunks_waiting : ∃ s : Traced 8 2,
    (s.consumed = [.addTxPacketSize 5] ∧ s.waiting =
      [.addMsg ⟨0x90, 1, 2⟩, .addSysexStart, .addSysexData [1], .addSysexData [2, 3],
        .addSysexEnd, .addTxPacketSize 7]) ∧
    ReadsChunks s ∧
      Branch millisecondClock s.system.queue
        (readStep millisecondClock s.system.queue ⟨0, 0, 0⟩) ∧
      (¬ Stalled s.system.queue → ¬ Overruns s.system.queue →
        Treats s.system.queue (readStep millisecondClock s.system.queue ⟨0, 0, 0⟩)) ∧
      ((∀ k state, before (readBody millisecondClock) k (s.system.queue, ⟨0, 0, 0⟩) =
          some state → ¬ Overruns state.1) →
        ((∃ fuel result, loop (readBody millisecondClock) fuel (s.system.queue, ⟨0, 0, 0⟩) =
            some result) ↔
          ∀ k state, before (readBody millisecondClock) k (s.system.queue, ⟨0, 0, 0⟩) =
            some state → ¬ Stalled state.1)) := by
  obtain ⟨s, reached, state⟩ := exists_of_replay (Traced.act millisecondClock) Traced.permits
    (Traced.initial (init (blankQueue 8 2 64) true true))
    (fun s => s.consumed = [.addTxPacketSize 5] ∧ s.waiting =
      [.addMsg ⟨0x90, 1, 2⟩, .addSysexStart, .addSysexData [1], .addSysexData [2, 3],
        .addSysexEnd, .addTxPacketSize 7])
    [.request (.addTxPacketSize 5), .beginRead, .iterateRead, .request (.addMsg ⟨0x90, 1, 2⟩),
      .request .addSysexStart, .request (.addSysexData [1]), .request (.addSysexData [2, 3]),
      .request .addSysexEnd, .request (.addTxPacketSize 7)]
    (by decide +kernel)
  exact ⟨s, state, readsChunks reached _⟩

/-- A call with data that is not empty, and otherwise any call. -/
def Request.HasData : Request → Prop
  | addSysexData bytes => bytes ≠ []
  | _ => True

instance : DecidablePred Request.HasData
  | .addSysexData bytes => inferInstanceAs (Decidable (bytes ≠ []))
  | .addMsg _ => inferInstanceAs (Decidable True)
  | .addSysexStart => inferInstanceAs (Decidable True)
  | .addSysexEnd => inferInstanceAs (Decidable True)
  | .addTxPacketSize _ => inferInstanceAs (Decidable True)

/-- A message that starts like a data chunk is taken for one, and 65538 bytes of it are copied into
the scratch buffer. -/
theorem readsChunks_fails : ∃ s : Traced 8 2,
    Reach (Traced.act millisecondClock)
      (fun s => System.permit (fun _ r => r.HasData) (fun _ => True) s.system)
      (Traced.initial (init (blankQueue 8 2 32) true true)) s ∧
    s.calls = [.addMsg ⟨0x0d, 0xff, 0xff⟩] ∧
    readStep millisecondClock s.system.queue ⟨0, 0, 0⟩ =
      readDataChunk millisecondClock s.system.queue ⟨0x0d, 0xff, 0xff⟩ ∧
    sysexDataChunkSize ⟨0x0d, 0xff, 0xff⟩ = 65538 ∧ ¬ ReadsChunks s := by
  obtain ⟨s, reached, calls, consumed, waiting, nonempty, idle, head⟩ := exists_of_replay
    (Traced.act millisecondClock)
    (fun s => System.permit (fun _ r => r.HasData) (fun _ => True) s.system)
    (Traced.initial (init (blankQueue 8 2 32) true true))
    (fun s => s.calls = [.addMsg ⟨0x0d, 0xff, 0xff⟩] ∧ s.consumed = [] ∧
      s.waiting = [.addSysexData []] ∧ s.system.queue.fifo.isEmpty = false ∧
      s.system.queue.numRemainingDataBytes = 0 ∧
      peekMsgBytes ⟨0, 0, 0⟩ (s.system.queue.fifo.peek 3) = ⟨0x0d, 0xff, 0xff⟩)
    [.request (.addMsg ⟨0x0d, 0xff, 0xff⟩)]
    (by decide +kernel)
  refine ⟨s, reached, calls, ?_, by decide, fun reads => ?_⟩
  · rw [readStep, if_neg (by simp [nonempty]), if_neg (by omega), head]
    rfl
  · have same := reads.calls
    rw [calls, consumed, waiting] at same
    revert same
    decide

end Runs

end BleMidi.Queue
