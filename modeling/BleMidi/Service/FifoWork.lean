/- Module: BleMidi/Service/FifoWork
   source: ble_midi/src/ble_midi.c (tx_queue_fifo_work_cb, submit_tx_queue_fifo_work,
     ble_midi_tx_msg, ble_midi_tx_sysex_*, on_mtu_changed)
   digest: No chunk stays in the FIFO without a reader that has seen it and found no room. -/

import BleMidi.Service.Notify

set_option autoImplicit false
set_option relaxedAutoImplicit false

namespace BleMidi.Service

open BleMidi.Core.Runs
open BleMidi.Packet.PacketWriter
open BleMidi.Queue
open BleMidi.Queue.TxQueue

variable {maxSize packetCount : Nat}

/-- Where `tx_queue_fifo_work_cb` is: in front of an iteration of the reader, of `atomic_get`, of
its own `k_work_submit` or of `atomic_dec`. -/
inductive FifoWork
  | idle
  | reading (msgBytes : MessageBytes)
  | counting
  | resubmitting
  | decrementing
  deriving DecidableEq

/-- Where the producer call is that has the FIFO for itself: behind its free-space check, with three
bytes or a data chunk to write, or behind the header that it wrote at `first`. -/
inductive Writing
  | idle
  | three (r : Request)
  | header (bytes : List UInt8) (count : Nat)
  | data (bytes : List UInt8) (count first : Nat)
  deriving DecidableEq

/-- How many calls are in front of `atomic_inc` and how many in front of `k_work_submit`. -/
structure Callers where
  incrementing : Nat
  submitting : Nat
  deriving DecidableEq

/-- The place of a chunk among all the bytes ever written to the FIFO. -/
structure Placed where
  first : Nat
  last : Nat
  deriving DecidableEq

/-- How many bytes had been taken from the FIFO and written to it when a call of the reader returned
`TX_QUEUE_NO_TX_PACKETS`. -/
structure GaveUp where
  taken : Nat
  written : Nat
  deriving DecidableEq

/-- The bytes between the two places were in the FIFO. -/
def GaveUp.Present (r : GaveUp) (chunk : Placed) : Prop :=
  r.taken ≤ chunk.first ∧ chunk.last ≤ r.written

/-- The two work items, the producer calls, and what has happened to the FIFO. Calls of
`on_mtu_changed` submit the work even if their request has found no room. -/
structure WorkQueue (maxSize packetCount : Nat) where
  notifier : Notifier maxSize packetCount
  fifoWork : FifoWork
  fifoWorkSubmitted : Bool
  writing : Writing
  producers : Callers
  refused : Callers
  taken : Nat
  chunks : List Placed
  gaveUp : List GaveUp

/-- A producer call up to its free-space check, where a size request is that of `on_mtu_changed`,
its next write, a step of `submit_tx_queue_fifo_work`, or a step of one of the other functions. -/
inductive WorkAction
  | call (r : Request)
  | write
  | atomicInc
  | submit
  | atomicIncRefused
  | submitRefused
  | fifoWork
  | pendingWork (result : SendResult)
  | radioNotif
  | onNotifyDone
  deriving DecidableEq

def Callers.atomicInc (callers : Callers) : Option Callers :=
  if callers.incrementing = 0 then none
  else some ⟨callers.incrementing - 1, callers.submitting + 1⟩

def Callers.submit (callers : Callers) : Option Callers :=
  if callers.submitting = 0 then none
  else some { callers with submitting := callers.submitting - 1 }

namespace WorkQueue

/-- The state behind `ble_midi_context_reset`. -/
def initial (context : Context maxSize packetCount) : WorkQueue maxSize packetCount where
  notifier := { Notifier.initial context with connected := true }
  fifoWork := .idle
  fifoWorkSubmitted := false
  writing := .idle
  producers := ⟨0, 0⟩
  refused := ⟨0, 0⟩
  taken := 0
  chunks := []
  gaveUp := []

def fifo (s : WorkQueue maxSize packetCount) : Fifo := s.notifier.context.txQueue.fifo

/-- The number of bytes ever written to the FIFO. -/
def written (s : WorkQueue maxSize packetCount) : Nat := s.taken + s.fifo.bytes.length

def withFifo (s : WorkQueue maxSize packetCount) (fifo : Fifo) : WorkQueue maxSize packetCount :=
  { s with notifier := s.notifier.withQueue { s.notifier.context.txQueue with fifo := fifo } }

/-- `pending_tx_queue_fifo_work_count` -/
def count (s : WorkQueue maxSize packetCount) : Int :=
  s.notifier.context.pendingTxQueueFifoWorkCount

def withCount (s : WorkQueue maxSize packetCount) (count : Int) : WorkQueue maxSize packetCount :=
  { s with notifier := { s.notifier with
      context := { s.notifier.context with pendingTxQueueFifoWorkCount := count } } }

/-- A call whose chunk has been written goes on to `submit_tx_queue_fifo_work`. -/
def wrote (s : WorkQueue maxSize packetCount) : WorkQueue maxSize packetCount :=
  { s with producers := { s.producers with incrementing := s.producers.incrementing + 1 } }

/-- The start of a producer call. Another call may only start behind its writes. -/
def call (s : WorkQueue maxSize packetCount) (r : Request) :
    Option (WorkQueue maxSize packetCount) :=
  match s.writing with
  | .idle =>
      let fifoSpaceLeft := s.fifo.getFreeSpace
      match r with
      | .addSysexData bytes =>
          if bytes = [] ∨ fifoSpaceLeft ≤ sysexDataChunkHeaderSize then some s
          else some { s with
            writing := .header bytes (numBytesToSend fifoSpaceLeft bytes.length) }
      | .addTxPacketSize _ =>
          if fifoSpaceLeft < 3 then
            some { s with
              refused := { s.refused with incrementing := s.refused.incrementing + 1 } }
          else some { s with writing := .three r }
      | _ => if fifoSpaceLeft < 3 then some s else some { s with writing := .three r }
  | _ => none

def isSizeRequest : Request → Bool
  | .addTxPacketSize _ => true
  | _ => false

/-- The next `fifo_write` of the call that has the FIFO for itself. -/
def write (s : WorkQueue maxSize packetCount) : Option (WorkQueue maxSize packetCount) :=
  match s.writing with
  | .idle => none
  | .three r =>
      let (writeResult, fifo) := s.fifo.write (r.chunk 0).encode
      let s' := { s.withFifo fifo with
        writing := .idle
        chunks := s.chunks ++ [⟨s.written, s.written + writeResult⟩] }
      some (if writeResult = 3 ∨ isSizeRequest r then s'.wrote else s')
  | .header bytes count =>
      let (headerWriteResult, fifo) := s.fifo.write (chunkHeader count)
      some { s.withFifo fifo with
        writing :=
          if headerWriteResult = sysexDataChunkHeaderSize then .data bytes count s.written
          else .idle }
  | .data bytes count first =>
      let (dataWriteResult, fifo) := s.fifo.write (bytes.take count)
      let s' := { s.withFifo fifo with
        writing := .idle
        chunks := s.chunks ++ [⟨first, s.written + dataWriteResult⟩] }
      some (if 0 < dataWriteResult then s'.wrote else s')

section Steps

variable [NeZero packetCount] (times : Nat → UInt16)

/-- What an iteration of the reader leaves, whichever handler has called it. -/
def watch (s : WorkQueue maxSize packetCount) (r : ReadStep maxSize packetCount) :
    WorkQueue maxSize packetCount :=
  { s with
    notifier := s.notifier.withQueue r.queue
    taken := s.taken + (s.fifo.bytes.length - r.queue.fifo.bytes.length)
    gaveUp :=
      match r with
      | .ret (.noTxPackets, _) => s.gaveUp ++ [⟨s.taken, s.written⟩]
      | _ => s.gaveUp }

/-- A step of `tx_queue_fifo_work_cb`, which leaves the queue of the work items when it starts. The
work queue runs one item at a time. -/
def fifoWorkStep (s : WorkQueue maxSize packetCount) : Option (WorkQueue maxSize packetCount) :=
  match s.fifoWork with
  | .idle =>
      if s.fifoWorkSubmitted = true ∧ s.notifier.pendingWork = .idle then
        some { s with fifoWorkSubmitted := false, fifoWork := .reading ⟨0, 0, 0⟩ }
      else none
  | .reading msgBytes =>
      let r := readStep times s.notifier.context.txQueue msgBytes
      some { s.watch r with
        fifoWork :=
          match r with
          | .ret _ => .counting
          | .next (_, msgBytes) => .reading msgBytes }
  | .counting =>
      some { s with fifoWork := if 1 < s.count then .resubmitting else .decrementing }
  | .resubmitting => some { s with fifoWorkSubmitted := true, fifoWork := .decrementing }
  | .decrementing => some { s.withCount (s.count - 1) with fifoWork := .idle }

/-- A step of `tx_pending_packets_work_cb`. -/
def pendingWorkStep (s : WorkQueue maxSize packetCount) (result : SendResult) :
    Option (WorkQueue maxSize packetCount) :=
  if s.fifoWork = .idle then
    (s.notifier.pendingWorkStep times result).map fun notifier =>
      match s.notifier.pendingWork with
      | .reading msgBytes =>
          { s.watch (readStep times s.notifier.context.txQueue msgBytes) with notifier := notifier }
      | _ => { s with notifier := notifier }
  else none

def act (s : WorkQueue maxSize packetCount) : WorkAction → Option (WorkQueue maxSize packetCount)
  | .call r => s.call r
  | .write => s.write
  | .atomicInc => s.producers.atomicInc.map fun producers =>
      { s.withCount (s.count + 1) with producers := producers }
  | .submit => s.producers.submit.map fun producers =>
      { s with producers := producers, fifoWorkSubmitted := true }
  | .atomicIncRefused => s.refused.atomicInc.map fun refused =>
      { s.withCount (s.count + 1) with refused := refused }
  | .submitRefused => s.refused.submit.map fun refused =>
      { s with refused := refused, fifoWorkSubmitted := true }
  | .fifoWork => s.fifoWorkStep times
  | .pendingWork result => s.pendingWorkStep times result
  | .radioNotif => some { s with notifier := s.notifier.radioNotifStep }
  | .onNotifyDone =>
      (s.notifier.act times .onNotifyDone).map fun notifier => { s with notifier := notifier }

end Steps

/-- A call is between its first FIFO write and its submit. -/
def Between (s : WorkQueue maxSize packetCount) : Prop :=
  (∃ bytes count first, s.writing = .data bytes count first) ∨ 0 < s.producers.incrementing ∨
    0 < s.producers.submitting

/-- The work item has been submitted, its handler has not finished its read, or a call is about to
submit it. -/
def Attended (s : WorkQueue maxSize packetCount) : Prop :=
  s.fifoWorkSubmitted = true ∨ (∃ msgBytes, s.fifoWork = .reading msgBytes) ∨ s.Between

/-- All that is in the FIFO was in it when some call of the reader gave up. -/
def Seen (s : WorkQueue maxSize packetCount) : Prop :=
  s.fifo.bytes = [] ∨ ∃ r ∈ s.gaveUp, r.taken ≤ s.taken ∧ r.written = s.written

/-- The call that has the FIFO for itself finds room for what it still has to write. -/
def Writing.Room (space : Nat) : Writing → Prop
  | .idle => True
  | .three r => (r.chunk 0).encode.length = 3 ∧ 3 ≤ space
  | .header bytes count => 1 ≤ count ∧ count ≤ bytes.length ∧ count + 3 ≤ space
  | .data bytes count _ => 1 ≤ count ∧ count ≤ bytes.length ∧ count ≤ space

structure Inv (s : WorkQueue maxSize packetCount) : Prop where
  room : Writing.Room s.fifo.getFreeSpace s.writing
  header : ∀ bytes count first, s.writing = .data bytes count first → first ≤ s.written
  chunks : ∀ chunk ∈ s.chunks, chunk.first < chunk.last ∧ chunk.last ≤ s.written
  seen : s.Attended ∨ s.Seen

theorem Writing.Room.mono {space space' : Nat} (hle : space ≤ space') {writing : Writing}
    (h : Writing.Room space writing) : Writing.Room space' writing := by
  cases writing with
  | idle => trivial
  | three r => exact ⟨h.1, h.2.trans hle⟩
  | header bytes count => exact ⟨h.1, h.2.1, h.2.2.trans hle⟩
  | data bytes count first => exact ⟨h.1, h.2.1, h.2.2.trans hle⟩

/-- A step that leaves the FIFO and the calls that write to it alone. -/
structure Same (s s' : WorkQueue maxSize packetCount) : Prop where
  fifo : s'.fifo = s.fifo
  writing : s'.writing = s.writing
  taken : s'.taken = s.taken
  chunks : s'.chunks = s.chunks
  gaveUp : s'.gaveUp = s.gaveUp

variable {s s' : WorkQueue maxSize packetCount}

theorem Same.seen (h : Same s s') (hs : s.Seen) : s'.Seen := by
  unfold Seen written at *
  rw [h.fifo, h.taken, h.gaveUp]
  exact hs

theorem Inv.same (hs : s.Inv) (h : Same s s') (hattended : s.Attended → s'.Attended ∨ s'.Seen) :
    s'.Inv := by
  have written : s'.written = s.written := by
    unfold WorkQueue.written
    rw [h.fifo, h.taken]
  refine ⟨?_, ?_, ?_, ?_⟩
  · rw [h.fifo, h.writing]
    exact hs.room
  · rw [h.writing, written]
    exact hs.header
  · rw [h.chunks, written]
    exact hs.chunks
  · rcases hs.seen with attended | seen
    · exact hattended attended
    · exact .inr (h.seen seen)

private theorem Inv.call {r : Request} (h : s.Inv) (hcall : s.call r = some s') : s'.Inv := by
  unfold WorkQueue.call at hcall
  cases idle : s.writing with
  | three r => simp [idle] at hcall
  | header bytes count => simp [idle] at hcall
  | data bytes count first => simp [idle] at hcall
  | idle =>
    simp only [idle] at hcall
    -- The call that takes the FIFO has written nothing so far.
    have start {writing : Writing} {refused : Callers}
        (room : Writing.Room s.fifo.getFreeSpace writing)
        (unwritten : ∀ bytes count first, writing ≠ .data bytes count first) :
        Inv { s with writing := writing, refused := refused } := by
      refine ⟨room, fun _ _ _ data => absurd data (unwritten _ _ _), h.chunks, h.seen.imp_left ?_⟩
      rintro (submitted | reading | ⟨_, _, _, data⟩ | more)
      · exact .inl submitted
      · exact .inr (.inl reading)
      · cases idle.symm.trans data
      · exact .inr (.inr (.inr more))
    have three (hlength : (r.chunk 0).encode.length = 3) (space : ¬ s.fifo.getFreeSpace < 3) :
        Inv { s with writing := .three r } :=
      start ⟨hlength, Nat.not_lt.mp space⟩ fun _ _ _ => Writing.noConfusion
    have message (hlength : (r.chunk 0).encode.length = 3)
        (next : (if s.fifo.getFreeSpace < 3 then some s else some { s with writing := .three r }) =
          some s') : s'.Inv := by
      split at next
      · cases next
        exact h
      · cases next
        exact three hlength ‹_›
    cases r with
    | addSysexData bytes =>
      dsimp only at hcall
      split at hcall
      · cases hcall
        exact h
      · rename_i space
        rw [not_or] at space
        obtain ⟨nonempty, space⟩ := space
        have least := List.length_pos_iff.mpr nonempty
        cases hcall
        refine start ?_ fun _ _ _ => Writing.noConfusion
        unfold sysexDataChunkHeaderSize at space
        unfold numBytesToSend sysexDataChunkMaxByteCount sysexDataChunkHeaderSize
        refine ⟨?_, ?_, ?_⟩ <;> omega
    | addTxPacketSize size =>
      dsimp only at hcall
      split at hcall
      · cases hcall
        exact start trivial fun _ _ _ => Writing.noConfusion
      · cases hcall
        exact three rfl ‹_›
    | addMsg bytes => exact message rfl hcall
    | addSysexStart => exact message rfl hcall
    | addSysexEnd => exact message rfl hcall

private theorem Inv.write (h : s.Inv) (hwrite : s.write = some s') : s'.Inv := by
  unfold WorkQueue.write at hwrite
  have room := h.room
  have stored {bytes : List UInt8} (hle : bytes.length ≤ s.fifo.getFreeSpace)
      (hbytes : 0 < bytes.length) {first : Nat} (hfirst : first ≤ s.written)
      (t : WorkQueue maxSize packetCount)
      (hfifo : t.fifo = (s.fifo.write bytes).2) (htaken : t.taken = s.taken)
      (hwriting : t.writing = .idle)
      (hchunks : t.chunks = s.chunks ++ [⟨first, s.written + (s.fifo.write bytes).1⟩]) :
      Inv t.wrote := by
    obtain ⟨result, written, -⟩ := Fifo.write_of_le hle
    have more : t.written = s.written + bytes.length := by
      unfold WorkQueue.written
      rw [hfifo, htaken, written, List.length_append, Nat.add_assoc]
    refine ⟨?_, ?_, ?_, .inl (.inr (.inr (.inr (.inl (Nat.succ_pos _)))))⟩
    · change Writing.Room _ t.writing
      rw [hwriting]
      trivial
    · intro _ _ _ data
      cases hwriting.symm.trans data
    · change ∀ chunk ∈ t.chunks, chunk.first < chunk.last ∧ chunk.last ≤ t.written
      rw [hchunks, more]
      intro chunk hchunk
      rcases List.mem_append.mp hchunk with old | new
      · obtain ⟨some, last⟩ := h.chunks chunk old
        exact ⟨some, last.trans (Nat.le_add_right _ _)⟩
      · rw [List.mem_singleton.mp new, result]
        exact ⟨hfirst.trans_lt (Nat.lt_add_of_pos_right hbytes), le_rfl⟩
  cases phase : s.writing with
  | idle => simp [phase] at hwrite
  | three r =>
    rw [phase] at room
    obtain ⟨length, space⟩ := room
    obtain ⟨result, -, -⟩ :=
      Fifo.write_of_le (f := s.fifo) (v := (r.chunk 0).encode) (by omega)
    simp only [phase, result, length, true_or, if_true] at hwrite
    cases hwrite
    exact stored (by omega) (by omega) le_rfl _ rfl rfl rfl (by rw [result, length])
  | header bytes count =>
    rw [phase] at room
    obtain ⟨least, most, space⟩ := room
    have three : (chunkHeader count).length = 3 := rfl
    obtain ⟨result, written, capacity⟩ :=
      Fifo.write_of_le (f := s.fifo) (v := chunkHeader count) (by omega)
    simp only [phase, result, three, sysexDataChunkHeaderSize, if_true] at hwrite
    cases hwrite
    have more : s.fifo.bytes.length ≤ (s.fifo.write (chunkHeader count)).2.bytes.length := by
      rw [written, List.length_append]
      exact Nat.le_add_right _ _
    refine ⟨⟨least, most, ?_⟩, ?_, ?_, .inl (.inr (.inr (.inl ⟨bytes, count, _, rfl⟩)))⟩
    · change count ≤ (s.fifo.write (chunkHeader count)).2.getFreeSpace
      unfold Fifo.getFreeSpace at space ⊢
      rw [written, capacity, List.length_append, three]
      omega
    · intro _ _ _ data
      cases data
      exact Nat.add_le_add_left more _
    · intro chunk hchunk
      obtain ⟨some, last⟩ := h.chunks chunk hchunk
      exact ⟨some, last.trans (Nat.add_le_add_left more _)⟩
  | data bytes count first =>
    rw [phase] at room
    obtain ⟨least, most, space⟩ := room
    have length : (bytes.take count).length = count := by
      rw [List.length_take]
      omega
    obtain ⟨result, -, -⟩ := Fifo.write_of_le (f := s.fifo) (v := bytes.take count) (by omega)
    have some : 0 < (s.fifo.write (bytes.take count)).1 := by omega
    simp only [phase, some, if_true] at hwrite
    cases hwrite
    exact stored (by omega) (by omega) (h.header _ _ _ phase) _ rfl rfl rfl rfl

variable [NeZero packetCount] {times : Nat → UInt16}

private theorem watch_seen (times : Nat → UInt16) (s : WorkQueue maxSize packetCount)
    (msgBytes : MessageBytes) :
    let r := readStep times s.notifier.context.txQueue msgBytes
    (s.watch r).written = s.written ∧ s.fifo.getFreeSpace ≤ (s.watch r).fifo.getFreeSpace ∧
      (s.Seen → (s.watch r).Seen) ∧ (∀ result, r = .ret result → (s.watch r).Seen) := by
  intro r
  have takes := readStep_takes times s.notifier.context.txQueue msgBytes
  change Takes s.notifier.context.txQueue r at takes
  rcases r with ⟨code, queue'⟩ | ⟨queue', msgBytes'⟩
  · obtain ⟨same, gaveUp⟩ := takes
    have fifo : (s.watch (.ret (code, queue'))).fifo = s.fifo := same
    have taken : (s.watch (.ret (code, queue'))).taken = s.taken := by
      change s.taken + (s.fifo.bytes.length - queue'.fifo.bytes.length) = _
      rw [show queue'.fifo = s.fifo from same, Nat.sub_self, Nat.add_zero]
    have written : (s.watch (.ret (code, queue'))).written = s.written := by
      unfold WorkQueue.written
      rw [fifo, taken]
    have seen : (s.watch (.ret (code, queue'))).Seen := by
      rcases gaveUp with rfl | empty
      · refine .inr ⟨⟨s.taken, s.written⟩, List.mem_append_right _ List.mem_cons_self, ?_, ?_⟩
        · rw [taken]
        · rw [written]
      · exact .inl (fifo ▸ empty)
    exact ⟨written, le_of_eq (congrArg Fifo.getFreeSpace fifo.symm), fun _ => seen, fun _ _ => seen⟩
  · obtain ⟨n, read⟩ := takes
    have fifo : (s.watch (.next (queue', msgBytes'))).fifo = s.fifo.read n := read
    have rest : (s.fifo.read n).bytes.length = s.fifo.bytes.length - n := List.length_drop
    have taken : (s.watch (.next (queue', msgBytes'))).taken =
        s.taken + (s.fifo.bytes.length - (s.fifo.bytes.length - n)) := by
      change s.taken + (s.fifo.bytes.length - queue'.fifo.bytes.length) = _
      rw [show queue'.fifo = s.fifo.read n from read, rest]
    have written : (s.watch (.next (queue', msgBytes'))).written = s.written := by
      unfold WorkQueue.written
      rw [fifo, taken, rest]
      omega
    refine ⟨written, ?_, ?_, fun _ ret => by cases ret⟩
    · rw [fifo]
      unfold Fifo.getFreeSpace
      rw [rest]
      exact Nat.sub_le_sub_left (Nat.sub_le _ _) _
    · rintro (empty | ⟨r, member, le, all⟩)
      · left
        rw [fifo]
        change s.fifo.bytes.drop n = []
        rw [empty, List.drop_nil]
      · right
        refine ⟨r, member, ?_, ?_⟩
        · rw [taken]
          omega
        · rw [written]
          exact all

private theorem Inv.watch (times : Nat → UInt16) (h : s.Inv) (msgBytes : MessageBytes)
    (t : WorkQueue maxSize packetCount)
    (hsame : Same (s.watch (readStep times s.notifier.context.txQueue msgBytes)) t)
    (hattended : s.Attended → t.Attended ∨
      (s.watch (readStep times s.notifier.context.txQueue msgBytes)).Seen) : t.Inv := by
  obtain ⟨written, space, seen, -⟩ := watch_seen times s msgBytes
  generalize readStep times s.notifier.context.txQueue msgBytes = r at *
  have tWritten : t.written = s.written := by
    unfold WorkQueue.written at written ⊢
    rw [hsame.fifo, hsame.taken]
    exact written
  refine ⟨?_, ?_, ?_, ?_⟩
  · rw [hsame.writing, hsame.fifo]
    exact h.room.mono space
  · rw [hsame.writing, tWritten]
    exact h.header
  · rw [hsame.chunks, tWritten]
    exact h.chunks
  · rcases h.seen with attended | already
    · exact (hattended attended).imp_right hsame.seen
    · exact .inr (hsame.seen (seen already))

private theorem Inv.fifoWork (h : s.Inv) (hstep : s.fifoWorkStep times = some s') : s'.Inv := by
  -- Behind the read, what attends to the chunks is not this handler.
  have behind {t : WorkQueue maxSize packetCount}
      (hread : ∀ msgBytes, s.fifoWork ≠ .reading msgBytes)
      (hsubmitted : t.fifoWorkSubmitted = s.fifoWorkSubmitted) (hbetween : s.Between → t.Between)
      (attended : s.Attended) : t.Attended ∨ t.Seen := by
    rcases attended with submitted | ⟨msgBytes, reading⟩ | between
    · exact .inl (.inl (hsubmitted.trans submitted))
    · exact absurd reading (hread msgBytes)
    · exact .inl (.inr (.inr (hbetween between)))
  unfold fifoWorkStep at hstep
  cases phase : s.fifoWork with
  | idle =>
    simp only [phase] at hstep
    split at hstep
    · cases hstep
      exact h.same ⟨rfl, rfl, rfl, rfl, rfl⟩ fun _ => .inl (.inr (.inl ⟨_, rfl⟩))
    · cases hstep
  | reading msgBytes =>
    simp only [phase] at hstep
    cases hstep
    obtain ⟨-, -, -, seen⟩ := watch_seen times s msgBytes
    refine h.watch times msgBytes _ ⟨rfl, rfl, rfl, rfl, rfl⟩ fun _ => ?_
    rcases result : readStep times s.notifier.context.txQueue msgBytes with result' | ⟨_, msgBytes'⟩
    · right
      rw [result] at seen
      exact seen _ rfl
    · exact .inl (.inr (.inl ⟨msgBytes', rfl⟩))
  | counting =>
    have other (msgBytes : MessageBytes) : s.fifoWork ≠ .reading msgBytes := by
      rw [phase]
      exact FifoWork.noConfusion
    simp only [phase] at hstep
    cases hstep
    exact h.same ⟨rfl, rfl, rfl, rfl, rfl⟩ (behind other rfl id)
  | resubmitting =>
    simp only [phase] at hstep
    cases hstep
    exact h.same ⟨rfl, rfl, rfl, rfl, rfl⟩ fun _ => .inl (.inl rfl)
  | decrementing =>
    have other (msgBytes : MessageBytes) : s.fifoWork ≠ .reading msgBytes := by
      rw [phase]
      exact FifoWork.noConfusion
    simp only [phase] at hstep
    cases hstep
    exact h.same ⟨rfl, rfl, rfl, rfl, rfl⟩ (behind other rfl id)

private theorem Inv.pendingWork {result : SendResult} (h : s.Inv)
    (hstep : s.pendingWorkStep times result = some s') : s'.Inv := by
  unfold WorkQueue.pendingWorkStep at hstep
  split at hstep
  swap
  · cases hstep
  obtain ⟨notifier, next, rfl⟩ := Option.map_eq_some_iff.mp hstep
  obtain ⟨txQueue, context, fifo⟩ := Notifier.pendingWorkStep_context next
  rw [← show notifier.context.txQueue = txQueue from congrArg Context.txQueue context] at fifo
  cases phase : s.notifier.pendingWork with
  | reading msgBytes =>
    rw [phase] at fifo
    exact h.watch times msgBytes _ ⟨fifo, rfl, rfl, rfl, rfl⟩ .inl
  | _ =>
    rw [phase] at fifo
    exact h.same ⟨fifo, rfl, rfl, rfl, rfl⟩ .inl

/-- Every step keeps the invariant. A call that submits the work hands over to its handler. -/
theorem Inv.act {a : WorkAction} (h : s.Inv) (hact : s.act times a = some s') : s'.Inv := by
  cases a with
  | call r => exact h.call hact
  | write => exact h.write hact
  | atomicInc =>
    obtain ⟨producers, next, rfl⟩ := Option.map_eq_some_iff.mp hact
    refine h.same ⟨rfl, rfl, rfl, rfl, rfl⟩ fun _ => .inl (.inr (.inr (.inr (.inr ?_))))
    unfold Callers.atomicInc at next
    split at next
    · cases next
    · cases next
      exact Nat.succ_pos _
  | submit =>
    obtain ⟨producers, -, rfl⟩ := Option.map_eq_some_iff.mp hact
    exact h.same ⟨rfl, rfl, rfl, rfl, rfl⟩ fun _ => .inl (.inl rfl)
  | atomicIncRefused =>
    obtain ⟨refused, -, rfl⟩ := Option.map_eq_some_iff.mp hact
    exact h.same ⟨rfl, rfl, rfl, rfl, rfl⟩ .inl
  | submitRefused =>
    obtain ⟨refused, -, rfl⟩ := Option.map_eq_some_iff.mp hact
    exact h.same ⟨rfl, rfl, rfl, rfl, rfl⟩ fun _ => .inl (.inl rfl)
  | fifoWork => exact h.fifoWork hact
  | pendingWork result => exact h.pendingWork hact
  | radioNotif =>
    cases hact
    have same := congrArg (fun context => context.txQueue.fifo)
      (Notifier.radioNotifStep_context s.notifier)
    exact h.same ⟨same, rfl, rfl, rfl, rfl⟩ .inl
  | onNotifyDone =>
    obtain ⟨notifier, next, rfl⟩ := Option.map_eq_some_iff.mp hact
    have same := congrArg (fun context => context.txQueue.fifo) (Notifier.onNotifyDone_context next)
    exact h.same ⟨same, rfl, rfl, rfl, rfl⟩ .inl

theorem inv_run {context : Context maxSize packetCount}
    (h : Reach (act times) (fun _ _ => True) (initial context) s) : s.Inv := by
  have start : Inv (initial context) := by
    refine ⟨trivial, ?_, ?_, .inr (.inl rfl)⟩
    · intro _ _ _ data
      cases data
    · intro chunk hchunk
      cases hchunk
  exact h.invariant start fun inv _ next => inv.act next

/-- When the work item is neither queued nor running and no call is about to submit it, the chunks
of the FIFO, and any other bytes in it, were in it when some call of the reader gave up. -/
theorem fifoWork_present {context : Context maxSize packetCount}
    (h : Reach (act times) (fun _ _ => True) (initial context) s)
    (hsubmitted : s.fifoWorkSubmitted = false) (hfifoWork : s.fifoWork = .idle)
    (hbetween : ¬ s.Between) :
    (∀ chunk ∈ s.chunks, s.taken ≤ chunk.first → ∃ r ∈ s.gaveUp, r.Present chunk) ∧
    (s.fifo.bytes ≠ [] → ∃ r ∈ s.gaveUp, r.taken ≤ s.taken ∧ r.written = s.written) := by
  have inv := inv_run h
  have seen : s.Seen := by
    rcases inv.seen with (submitted | ⟨msgBytes, reading⟩ | between) | seen
    · cases submitted.symm.trans hsubmitted
    · cases reading.symm.trans hfifoWork
    · exact absurd between hbetween
    · exact seen
  constructor
  · intro chunk hchunk whole
    obtain ⟨some, last⟩ := inv.chunks chunk hchunk
    rcases seen with empty | ⟨r, member, taken, all⟩
    · -- An empty FIFO has no place for the chunk.
      unfold written at last
      rw [empty, List.length_nil] at last
      omega
    · exact ⟨r, member, taken.trans whole, all ▸ last⟩
  · intro some
    rcases seen with empty | found
    · exact absurd empty some
    · exact found

/-- The second message comes while the work item is running, which then submits itself. There is
only one packet, so the message stays in the FIFO. -/
theorem fifoWork_present_resubmitted : ∃ s : WorkQueue 8 1,
    (s.fifo.bytes = [0xb0, 3, 4] ∧ s.taken = 6 ∧ s.chunks = [⟨0, 3⟩, ⟨3, 6⟩, ⟨6, 9⟩]) ∧
    ∀ chunk ∈ s.chunks, s.taken ≤ chunk.first → ∃ r ∈ s.gaveUp, r.Present chunk := by
  obtain ⟨s, reached, ⟨submitted, fifoWork, writing, producers⟩, state⟩ := exists_of_replay
    (act millisecondClock) (fun _ _ => True) (initial ⟨blankQueue 8 1 32, 0⟩)
    (fun s => (s.fifoWorkSubmitted = false ∧ s.fifoWork = .idle ∧ s.writing = .idle ∧
        s.producers = ⟨0, 0⟩) ∧
      s.fifo.bytes = [0xb0, 3, 4] ∧ s.taken = 6 ∧ s.chunks = [⟨0, 3⟩, ⟨3, 6⟩, ⟨6, 9⟩])
    [.call (.addTxPacketSize 8), .write, .atomicInc, .call (.addMsg ⟨0x90, 1, 2⟩), .write, .submit,
      .fifoWork, .fifoWork, .fifoWork, .fifoWork, .atomicInc, .call (.addMsg ⟨0xb0, 3, 4⟩), .write,
      .atomicInc, .submit, .fifoWork, .fifoWork, .fifoWork, .submit, .fifoWork, .fifoWork,
      .fifoWork, .fifoWork, .fifoWork, .fifoWork, .fifoWork, .fifoWork, .fifoWork]
    (by decide +kernel)
  refine ⟨s, state, (fifoWork_present reached submitted fifoWork ?_).1⟩
  rintro (⟨_, _, _, data⟩ | incrementing | submitting)
  · cases writing.symm.trans data
  · rw [producers] at incrementing
    exact absurd incrementing (Nat.lt_irrefl 0)
  · rw [producers] at submitting
    exact absurd submitting (Nat.lt_irrefl 0)

end WorkQueue

end BleMidi.Service
