/- Module: BleMidi/Service/Transmitter
   source: ble_midi/src/ble_midi.c, ble_midi/src/tx_queue.c
   digest: The work items and the split calls refine the queue whose calls are whole. -/

import BleMidi.Queue.InFlight
import BleMidi.Service.FifoWork

set_option autoImplicit false
set_option relaxedAutoImplicit false

namespace BleMidi.Service

open BleMidi.Core.Runs
open BleMidi.Core.Simulation
open BleMidi.Packet.PacketWriter
open BleMidi.Queue
open BleMidi.Queue.TxQueue

variable {maxSize packetCount : Nat}

/-- What the FIFO holds of a call that is still to write the rest. -/
def Writing.written : Writing → List Chunk
  | .data _ count _ => [.threeBytes (headerBytes count)]
  | _ => []

/-- The chunk of the call under way. -/
def Writing.whole : Writing → List Chunk
  | .idle => []
  | .three r => [r.chunk 0]
  | .header bytes count => [.data (bytes.take count)]
  | .data bytes count _ => [.data (bytes.take count)]

/-- What a step of `tx_pending_packets_work_cb` does to the queue, and where it goes. -/
inductive Pends [NeZero packetCount] (times : Nat → UInt16)
    (txQueue : TxQueue maxSize packetCount) :
    SendResult → PendingWork → TxQueue maxSize packetCount → PendingWork → Prop
  | start {result : SendResult} {msgBytes : MessageBytes} :
      Pends times txQueue result .idle txQueue (.reading msgBytes)
  | read {result : SendResult} {msgBytes : MessageBytes} {next : PendingWork} :
      (next = .fetching ∨ ∃ msgBytes, next = .reading msgBytes) →
      Pends times txQueue result (.reading msgBytes) (readStep times txQueue msgBytes).queue next
  | fetch {result : SendResult} : txQueue.hasTxData = true →
      Pends times txQueue result .fetching txQueue .sending
  | finish {result : SendResult} : Pends times txQueue result .fetching txQueue .idle
  | send : Pends times txQueue .success .sending txQueue .sent
  | fail {result : SendResult} {next : PendingWork} : result ≠ .success →
      (next = .idle ∨ next = .noMem) → Pends times txQueue result .sending txQueue next
  | sent {result : SendResult} :
      Pends times txQueue result .sent txQueue.onTxPacketSent.2 .fetching
  | wait {result : SendResult} : Pends times txQueue result .noMem txQueue .idle

theorem Notifier.pendingWorkStep_pends [NeZero packetCount] {times : Nat → UInt16}
    {s s' : Notifier maxSize packetCount} {result : SendResult}
    (h : s.pendingWorkStep times result = some s') :
    Pends times s.context.txQueue result s.pendingWork s'.context.txQueue s'.pendingWork := by
  unfold Notifier.pendingWorkStep at h
  cases phase : s.pendingWork with
  | idle =>
    simp only [phase] at h
    split at h
    · cases h
      exact .start
    · cases h
  | reading msgBytes =>
    have read (next : PendingWork)
        (hnext : next = .fetching ∨ ∃ msgBytes, next = .reading msgBytes) :
        Pends times s.context.txQueue result (.reading msgBytes)
          (readStep times s.context.txQueue msgBytes).queue next := .read hnext
    simp only [phase] at h
    revert read h
    rcases readStep times s.context.txQueue msgBytes with ⟨code, queue⟩ | ⟨queue, msgBytes'⟩
    · intro read h
      cases h
      exact read _ (.inl rfl)
    · intro read h
      cases h
      exact read _ (.inr ⟨_, rfl⟩)
  | fetching =>
    simp only [phase] at h
    unfold firstTxPacket at h
    cases flag : s.context.txQueue.hasTxData with
    | true =>
      rw [flag] at h
      cases h
      exact .fetch flag
    | false =>
      rw [flag] at h
      cases h
      exact .finish
  | sending =>
    simp only [phase] at h
    cases h
    unfold sendPacket
    cases result with
    | success =>
      dsimp only
      split
      · exact .send
      · exact .send
    | noMem => exact .fail SendResult.noConfusion (.inr rfl)
    | error => exact .fail SendResult.noConfusion (.inl rfl)
  | sent =>
    simp only [phase] at h
    cases h
    exact .sent
  | noMem =>
    simp only [phase] at h
    cases h
    exact .wait

namespace WorkQueue

def txQueue (s : WorkQueue maxSize packetCount) : TxQueue maxSize packetCount :=
  s.notifier.context.txQueue

/-- The chunk of a call that an action ends. -/
def endsCall (s : WorkQueue maxSize packetCount) : WorkAction → List Chunk
  | .write =>
      match s.writing with
      | .three r => if (s.fifo.write (r.chunk 0).encode).1 = 3 then [r.chunk 0] else []
      | .data bytes count _ => [.data (bytes.take (s.fifo.write (bytes.take count)).1)]
      | _ => []
  | _ => []

/-- The bytes of the packet that `bt_gatt_notify_cb` takes. -/
def notifies [NeZero packetCount] (s : WorkQueue maxSize packetCount) :
    WorkAction → List (List UInt8)
  | .pendingWork .success =>
      if s.notifier.pendingWork = .sending ∧ s.fifoWork = .idle then
        [(s.txQueue.txPackets s.txQueue.firstSlot).payload]
      else []
  | _ => []

/-- A step that leaves the queue, the call with the FIFO and both handlers where they are. -/
structure Still (s s' : WorkQueue maxSize packetCount) : Prop where
  txQueue : s'.txQueue = s.txQueue
  writing : s'.writing = s.writing
  fifoWork : s'.fifoWork = s.fifoWork
  pendingWork : s'.notifier.pendingWork = s.notifier.pendingWork

/-- One work item runs at a time, and a packet that is sent stays the first one with data. -/
structure Turns (s : WorkQueue maxSize packetCount) : Prop where
  alone : s.fifoWork = .idle ∨ s.notifier.pendingWork = .idle
  hasTxData : s.notifier.pendingWork = .sending ∨ s.notifier.pendingWork = .sent →
    s.txQueue.hasTxData = true

variable {s s' : WorkQueue maxSize packetCount}

/-- A call takes the FIFO for itself if its check finds room. -/
theorem call_cases {r : Request} (h : s.call r = some s') :
    s.writing = .idle ∧ (Still s s' ∨
      (¬ s.fifo.getFreeSpace < 3 ∧ (∀ bytes, r ≠ .addSysexData bytes) ∧
        s' = { s with writing := .three r }) ∨
      ∃ bytes, r = .addSysexData bytes ∧ ¬ s.fifo.getFreeSpace ≤ sysexDataChunkHeaderSize ∧
        s' = { s with
          writing := .header bytes (numBytesToSend s.fifo.getFreeSpace bytes.length) }) := by
  unfold call at h
  cases idle : s.writing with
  | three r => simp [idle] at h
  | header bytes count => simp [idle] at h
  | data bytes count first => simp [idle] at h
  | idle =>
    refine ⟨rfl, ?_⟩
    simp only [idle] at h
    have three (hr : ∀ bytes, r ≠ .addSysexData bytes) {u : WorkQueue maxSize packetCount}
        (hu : Still s u) (hnext : (if s.fifo.getFreeSpace < 3 then some u
          else some { s with writing := .three r }) = some s') :
        Still s s' ∨ ¬ s.fifo.getFreeSpace < 3 ∧ (∀ bytes, r ≠ .addSysexData bytes) ∧
          s' = { s with writing := .three r } := by
      by_cases full : s.fifo.getFreeSpace < 3
      · rw [if_pos full] at hnext
        cases hnext
        exact .inl hu
      · rw [if_neg full] at hnext
        exact .inr ⟨full, hr, (Option.some.inj hnext).symm⟩
    have stays : Still s s := ⟨rfl, rfl, rfl, rfl⟩
    cases r with
    | addSysexData bytes =>
      dsimp only at h
      split at h
      · cases h
        exact .inl stays
      · rename_i refused
        exact .inr (.inr ⟨bytes, rfl, fun full => refused (.inr full), (Option.some.inj h).symm⟩)
    | addTxPacketSize size =>
      refine (three (fun _ => Request.noConfusion) ?_ h).imp_right .inl
      exact ⟨rfl, idle.symm, rfl, rfl⟩
    | addMsg bytes => exact (three (fun _ => Request.noConfusion) stays h).imp_right .inl
    | addSysexStart => exact (three (fun _ => Request.noConfusion) stays h).imp_right .inl
    | addSysexEnd => exact (three (fun _ => Request.noConfusion) stays h).imp_right .inl

/-- What a write that finds the room of its call does to the FIFO and the call. -/
inductive Writes (s : WorkQueue maxSize packetCount) : Writing → List UInt8 → List Chunk → Prop
  | three {r : Request} : s.writing = .three r → Writes s .idle (r.chunk 0).encode [r.chunk 0]
  | header {bytes : List UInt8} {count first : Nat} : s.writing = .header bytes count →
      Writes s (.data bytes count first) (chunkHeader count) []
  | data {bytes : List UInt8} {count first : Nat} : s.writing = .data bytes count first →
      (bytes.take count).length = count →
      Writes s .idle (bytes.take count) [.data (bytes.take count)]

theorem write_cases (hroom : Writing.Room s.fifo.getFreeSpace s.writing)
    (h : s.write = some s') : ∃ bytes fifo, Writes s s'.writing bytes (s.endsCall .write) ∧
      fifo.bytes = s.fifo.bytes ++ bytes ∧ fifo.capacity = s.fifo.capacity ∧
      s'.txQueue = { s.txQueue with fifo := fifo } ∧ s'.fifoWork = s.fifoWork ∧
      s'.notifier.pendingWork = s.notifier.pendingWork := by
  unfold write at h
  cases phase : s.writing with
  | idle => simp [phase] at h
  | three r =>
    rw [phase] at hroom
    obtain ⟨length, space⟩ := hroom
    obtain ⟨result, written, capacity⟩ :=
      Fifo.write_of_le (f := s.fifo) (v := (r.chunk 0).encode) (by omega)
    have ends : s.endsCall .write = [r.chunk 0] := by
      simp only [endsCall, phase, result, length, if_true]
    simp only [phase, result, length, true_or, if_true] at h
    cases h
    rw [ends]
    exact ⟨_, _, .three phase, written, capacity, rfl, rfl, rfl⟩
  | header bytes count =>
    rw [phase] at hroom
    obtain ⟨least, most, space⟩ := hroom
    have three : (chunkHeader count).length = 3 := rfl
    obtain ⟨result, written, capacity⟩ :=
      Fifo.write_of_le (f := s.fifo) (v := chunkHeader count) (by omega)
    have ends : s.endsCall .write = [] := by
      simp only [endsCall, phase]
    simp only [phase, result, three, sysexDataChunkHeaderSize, if_true] at h
    cases h
    rw [ends]
    exact ⟨_, _, .header phase, written, capacity, rfl, rfl, rfl⟩
  | data bytes count first =>
    rw [phase] at hroom
    obtain ⟨least, most, space⟩ := hroom
    have length : (bytes.take count).length = count := by
      rw [List.length_take]
      omega
    obtain ⟨result, written, capacity⟩ :=
      Fifo.write_of_le (f := s.fifo) (v := bytes.take count) (by omega)
    have ends : s.endsCall .write = [.data (bytes.take count)] := by
      simp only [endsCall, phase, result, length]
    have some : 0 < (s.fifo.write (bytes.take count)).1 := by omega
    simp only [phase, some, if_true] at h
    cases h
    rw [ends]
    exact ⟨_, _, .data phase length, written, capacity, rfl, rfl, rfl⟩

section Handlers

variable [NeZero packetCount] {times : Nat → UInt16}

/-- What a step of `tx_queue_fifo_work_cb` does to the queue. -/
theorem fifoWorkStep_cases (h : s.fifoWorkStep times = some s') :
    (s.fifoWork = .idle → s.notifier.pendingWork = .idle) ∧ s'.writing = s.writing ∧
      s'.notifier.pendingWork = s.notifier.pendingWork ∧
      (s'.txQueue = s.txQueue ∨ ∃ msgBytes, s.fifoWork = .reading msgBytes ∧
        s'.txQueue = (readStep times s.txQueue msgBytes).queue) := by
  unfold fifoWorkStep at h
  cases phase : s.fifoWork with
  | idle =>
    simp only [phase] at h
    split at h
    · rename_i turn
      cases h
      exact ⟨fun _ => turn.2, rfl, rfl, .inl rfl⟩
    · cases h
  | reading msgBytes =>
    simp only [phase] at h
    cases h
    exact ⟨FifoWork.noConfusion, rfl, rfl, .inr ⟨msgBytes, rfl, rfl⟩⟩
  | _ =>
    simp only [phase] at h
    cases h
    exact ⟨FifoWork.noConfusion, rfl, rfl, .inl rfl⟩

theorem pendingWorkStep_cases {result : SendResult} (h : s.pendingWorkStep times result = some s') :
    s.fifoWork = .idle ∧ s'.fifoWork = .idle ∧ s'.writing = s.writing ∧
      Pends times s.txQueue result s.notifier.pendingWork s'.txQueue s'.notifier.pendingWork := by
  unfold pendingWorkStep at h
  split at h
  swap
  · cases h
  rename_i idle
  obtain ⟨notifier, next, rfl⟩ := Option.map_eq_some_iff.mp h
  have pends := Notifier.pendingWorkStep_pends next
  split
  · exact ⟨idle, idle, rfl, pends⟩
  · exact ⟨idle, idle, rfl, pends⟩

omit [NeZero packetCount] in
theorem Still.turns (h : Still s s') (hs : s.Turns) : s'.Turns := by
  refine ⟨?_, ?_⟩
  · rw [h.fifoWork, h.pendingWork]
    exact hs.alone
  · rw [h.pendingWork, h.txQueue]
    exact hs.hasTxData

/-- The steps that neither call nor write nor belong to a handler. -/
theorem act_still {a : WorkAction} (h : s.act times a = some s') :
    (∃ r, a = .call r) ∨ a = .write ∨ a = .fifoWork ∨ (∃ result, a = .pendingWork result) ∨
      Still s s' ∧ s.endsCall a = [] ∧ s.notifies a = [] := by
  cases a with
  | call r => exact .inl ⟨r, rfl⟩
  | write => exact .inr (.inl rfl)
  | fifoWork => exact .inr (.inr (.inl rfl))
  | pendingWork result => exact .inr (.inr (.inr (.inl ⟨result, rfl⟩)))
  | atomicInc =>
    obtain ⟨producers, -, rfl⟩ := Option.map_eq_some_iff.mp h
    exact .inr (.inr (.inr (.inr ⟨⟨rfl, rfl, rfl, rfl⟩, rfl, rfl⟩)))
  | submit =>
    obtain ⟨producers, -, rfl⟩ := Option.map_eq_some_iff.mp h
    exact .inr (.inr (.inr (.inr ⟨⟨rfl, rfl, rfl, rfl⟩, rfl, rfl⟩)))
  | atomicIncRefused =>
    obtain ⟨refused, -, rfl⟩ := Option.map_eq_some_iff.mp h
    exact .inr (.inr (.inr (.inr ⟨⟨rfl, rfl, rfl, rfl⟩, rfl, rfl⟩)))
  | submitRefused =>
    obtain ⟨refused, -, rfl⟩ := Option.map_eq_some_iff.mp h
    exact .inr (.inr (.inr (.inr ⟨⟨rfl, rfl, rfl, rfl⟩, rfl, rfl⟩)))
  | radioNotif =>
    cases h
    refine .inr (.inr (.inr (.inr ⟨⟨?_, rfl, rfl, ?_⟩, rfl, rfl⟩)))
    · exact congrArg Context.txQueue (Notifier.radioNotifStep_context s.notifier)
    · change s.notifier.radioNotifStep.pendingWork = _
      unfold Notifier.radioNotifStep
      split <;> rfl
  | onNotifyDone =>
    obtain ⟨notifier, next, rfl⟩ := Option.map_eq_some_iff.mp h
    change (if s.notifier.outstanding = 0 then none else some _) = some notifier at next
    split at next
    · cases next
    · cases next
      exact .inr (.inr (.inr (.inr ⟨⟨rfl, rfl, rfl, rfl⟩, rfl, rfl⟩)))

theorem Turns.act {a : WorkAction} (h : s.Turns) (hinv : s.Inv) (hact : s.act times a = some s') :
    s'.Turns := by
  rcases act_still hact with ⟨r, rfl⟩ | rfl | rfl | ⟨result, rfl⟩ | ⟨still, -⟩
  · obtain ⟨-, still | ⟨-, -, rfl⟩ | ⟨bytes, -, -, rfl⟩⟩ := call_cases hact
    · exact still.turns h
    · exact ⟨h.alone, h.hasTxData⟩
    · exact ⟨h.alone, h.hasTxData⟩
  · obtain ⟨bytes, fifo, -, -, -, txQueue, fifoWork, pendingWork⟩ := write_cases hinv.room hact
    refine ⟨?_, ?_⟩
    · rw [fifoWork, pendingWork]
      exact h.alone
    · rw [pendingWork, txQueue]
      exact h.hasTxData
  · obtain ⟨turn, -, pendingWork, -⟩ := fifoWorkStep_cases hact
    have idle : s.notifier.pendingWork = .idle := h.alone.elim turn id
    refine ⟨.inr (pendingWork.trans idle), ?_⟩
    rw [pendingWork, idle]
    rintro (sending | sent)
    · cases sending
    · cases sent
  · obtain ⟨-, idle, -, pends⟩ := pendingWorkStep_cases hact
    refine ⟨.inl idle, ?_⟩
    have flag := h.hasTxData
    generalize s'.notifier.pendingWork = next at pends ⊢
    generalize s.notifier.pendingWork = phase at pends flag
    generalize s'.txQueue = queue' at pends ⊢
    cases pends with
    | fetch set => exact fun _ => set
    | send => exact fun _ => flag (.inl rfl)
    | read place =>
      rintro (rfl | rfl)
      · simp at place
      · simp at place
    | fail _ place =>
      rintro (rfl | rfl)
      · simp at place
      · simp at place
    | _ => simp
  · exact still.turns h

end Handlers

end WorkQueue

/-- The work items, the chunks of the calls that have returned and the payloads that were handed
over to `bt_gatt_notify_cb`. -/
structure Transmitter (maxSize packetCount : Nat) where
  work : WorkQueue maxSize packetCount
  accepted : List Chunk
  notified : List (List UInt8)

namespace Transmitter

/-- A connection that is up, with a queue. -/
def initial (queue : TxQueue maxSize packetCount) : Transmitter maxSize packetCount where
  work := { WorkQueue.initial ⟨queue, 0⟩ with
    notifier := (WorkQueue.initial ⟨queue, 0⟩).notifier.withQueue queue }
  accepted := []
  notified := []

def act [NeZero packetCount] (times : Nat → UInt16) (s : Transmitter maxSize packetCount)
    (a : WorkAction) : Option (Transmitter maxSize packetCount) :=
  (s.work.act times a).map fun work =>
    ⟨work, s.accepted ++ s.work.endsCall a, s.notified ++ s.work.notifies a⟩

/-- Well formed calls with a property `P` that depends on the chunks of the calls before. -/
def permit (P : List Chunk → Request → Prop) (s : Transmitter maxSize packetCount) :
    WorkAction → Prop
  | .call r => r.WellFormed ∧ P s.accepted r
  | _ => True

instance (P : List Chunk → Request → Prop) [∀ chunks r, Decidable (P chunks r)]
    (s : Transmitter maxSize packetCount) : DecidablePred (permit P s)
  | .call _ => inferInstanceAs (Decidable (_ ∧ _))
  | .write => inferInstanceAs (Decidable True)
  | .atomicInc => inferInstanceAs (Decidable True)
  | .submit => inferInstanceAs (Decidable True)
  | .atomicIncRefused => inferInstanceAs (Decidable True)
  | .submitRefused => inferInstanceAs (Decidable True)
  | .fifoWork => inferInstanceAs (Decidable True)
  | .pendingWork _ => inferInstanceAs (Decidable True)
  | .radioNotif => inferInstanceAs (Decidable True)
  | .onNotifyDone => inferInstanceAs (Decidable True)

/-- The same calls of the queue that is represented. -/
abbrev Permits [NeZero packetCount] (P : List Chunk → Request → Prop) :
    System maxSize packetCount → Action → Prop :=
  System.permit (fun t r => r.WellFormed ∧ P t.accepted r) fun _ => True

/-- The payload that has been handed over and whose packet is still in the window. -/
def handed [NeZero packetCount] (s : Transmitter maxSize packetCount) : List (List UInt8) :=
  if s.work.notifier.pendingWork = .sent then
    [(s.work.txQueue.txPackets s.work.txQueue.firstSlot).payload]
  else []

/-- The queue in which every call is made at its free-space check, and every packet is taken from
the window when it is sent. -/
structure Represents [NeZero packetCount] (times : Nat → UInt16)
    (s : Transmitter maxSize packetCount) (t : System maxSize packetCount) : Prop where
  inFlight : InFlight times s.work.writing.written s.work.writing.whole s.work.txQueue t.queue
  accepted : t.accepted = s.accepted ++ s.work.writing.whole
  notified : s.notified = t.sent ++ s.handed

namespace Represents

variable [NeZero packetCount] {times : Nat → UInt16} {s : Transmitter maxSize packetCount}
  {t : System maxSize packetCount} {work : WorkQueue maxSize packetCount}
  {P : List Chunk → Request → Prop}

private theorem still (h : Represents times s t) (hstill : WorkQueue.Still s.work work) :
    Represents times ⟨work, s.accepted, s.notified⟩ t := by
  refine ⟨?_, ?_, ?_⟩
  · change InFlight times work.writing.written work.writing.whole work.txQueue t.queue
    rw [hstill.writing, hstill.txQueue]
    exact h.inFlight
  · change t.accepted = s.accepted ++ work.writing.whole
    rw [hstill.writing]
    exact h.accepted
  · change s.notified = _ ++ handed ⟨work, s.accepted, s.notified⟩
    unfold handed
    rw [hstill.pendingWork, hstill.txQueue]
    exact h.notified

private theorem call (h : Represents times s t) {r : Request} (hr : r.WellFormed)
    (hpermit : P s.accepted r) (hcall : s.work.call r = some work) :
    ∃ t', Reach (System.act times) (Permits P) t t' ∧
      Represents times ⟨work, s.accepted, s.notified⟩ t' := by
  obtain ⟨idle, step⟩ := WorkQueue.call_cases hcall
  rcases step with still | takes
  · exact ⟨t, .start, h.still still⟩
  obtain ⟨inFlight, accepted, notified⟩ := h
  rw [idle] at inFlight accepted
  have fifo : t.queue.fifo = s.work.txQueue.fifo := inFlight.fifo_eq
  have accepted' : t.accepted = s.accepted := accepted.trans (List.append_nil _)
  have permitted : r.WellFormed ∧ P t.accepted r := ⟨hr, accepted' ▸ hpermit⟩
  rcases takes with ⟨space, three, rfl⟩ | ⟨bytes, rfl, space, rfl⟩
  · have room : ¬ t.queue.fifo.getFreeSpace < 3 := by
      rw [fifo]
      exact space
    have exec := Request.exec_three room three
    have length : (r.chunk 0).encode.length = 3 := by
      cases r with
      | addSysexData bytes => exact absurd rfl (three bytes)
      | _ => rfl
    obtain ⟨-, written, -⟩ :=
      Fifo.write_of_le (f := t.queue.fifo) (v := (r.chunk 0).encode) (by omega)
    obtain ⟨t', run, inFlight', more, sent⟩ := inFlight.accept
      (P := fun t r => r.WellFormed ∧ P t.accepted r) hr permitted exec rfl written
    exact ⟨t', run, inFlight', by rw [more, accepted']; rfl, by rw [sent]; exact notified⟩
  · have room : ¬ t.queue.fifo.getFreeSpace ≤ sysexDataChunkHeaderSize := by
      rw [fifo]
      exact space
    obtain ⟨exec, written⟩ := Request.exec_data room bytes
    obtain ⟨t', run, inFlight', more, sent⟩ := inFlight.accept
      (P := fun t r => r.WellFormed ∧ P t.accepted r) hr permitted exec rfl written
    rw [fifo] at inFlight' more
    exact ⟨t', run, inFlight', by rw [more, accepted']; rfl, by rw [sent]; exact notified⟩

private theorem write (h : Represents times s t)
    (hroom : WorkQueue.Writing.Room s.work.fifo.getFreeSpace s.work.writing)
    (hwrite : s.work.write = some work) :
    Represents times ⟨work, s.accepted ++ s.work.endsCall .write, s.notified⟩ t := by
  obtain ⟨bytes, fifo, writes, written, capacity, txQueue, fifoWork, pendingWork⟩ :=
    WorkQueue.write_cases hroom hwrite
  obtain ⟨inFlight, accepted, notified⟩ := h
  have notified' : s.notified = t.sent ++ handed ⟨work, s.accepted ++ s.work.endsCall .write,
      s.notified⟩ := by
    unfold handed
    rw [pendingWork, txQueue]
    exact notified
  refine ⟨?_, ?_, notified'⟩
  · change InFlight times work.writing.written work.writing.whole work.txQueue t.queue
    rw [txQueue]
    generalize work.writing = writing at writes ⊢
    generalize s.work.endsCall .write = ends at writes
    cases writes with
    | three phase =>
      rw [phase] at inFlight
      exact inFlight.writeChunk capacity written
    | header phase =>
      rw [phase] at inFlight
      exact inFlight.writeHeader capacity written
    | data phase length =>
      rw [phase] at inFlight
      exact InFlight.writeData length inFlight capacity written
  · change t.accepted = s.accepted ++ s.work.endsCall .write ++ work.writing.whole
    rw [accepted, List.append_assoc]
    generalize work.writing = writing at writes ⊢
    generalize s.work.endsCall .write = ends at writes ⊢
    cases writes with
    | three phase =>
      rw [phase]
      rfl
    | header phase =>
      rw [phase]
      rfl
    | data phase length =>
      rw [phase]
      rfl

private theorem fifoWork (h : Represents times s t) (hturns : s.work.Turns)
    (hstep : s.work.fifoWorkStep times = some work) :
    ∃ t', Reach (System.act times) (Permits P) t t' ∧
      Represents times ⟨work, s.accepted, s.notified⟩ t' := by
  obtain ⟨turn, writing, pendingWork, queue⟩ := WorkQueue.fifoWorkStep_cases hstep
  have idle : s.work.notifier.pendingWork = .idle := hturns.alone.elim turn id
  obtain ⟨inFlight, accepted, notified⟩ := h
  have none : s.handed = [] := by
    unfold handed
    rw [idle]
    exact if_neg PendingWork.noConfusion
  have none' : handed ⟨work, s.accepted, s.notified⟩ = [] := by
    unfold handed
    rw [pendingWork, idle]
    exact if_neg PendingWork.noConfusion
  rw [none, ← none'] at notified
  rw [← writing] at inFlight accepted
  rcases queue with same | ⟨msgBytes, -, read⟩
  · rw [← same] at inFlight
    exact ⟨t, .start, inFlight, accepted, notified⟩
  · obtain ⟨t', run, moved, more, sent⟩ := inFlight.iterate
      (P := fun t r => r.WellFormed ∧ P t.accepted r) msgBytes
    rw [← read] at moved
    exact ⟨t', run, moved, more.trans accepted, sent ▸ notified⟩

private theorem pendingWork (h : Represents times s t) (hturns : s.work.Turns) {result : SendResult}
    (hstep : s.work.pendingWorkStep times result = some work) :
    ∃ t', Reach (System.act times) (Permits P) t t' ∧
      Represents times ⟨work, s.accepted, s.notified ++ s.work.notifies (.pendingWork result)⟩
        t' := by
  obtain ⟨idle, -, writing, pends⟩ := WorkQueue.pendingWorkStep_cases hstep
  obtain ⟨inFlight, accepted, notified⟩ := h
  rw [← writing] at inFlight accepted
  have flag := hturns.hasTxData
  have hands : s.work.notifies (.pendingWork result) =
      if result = .success ∧ s.work.notifier.pendingWork = .sending then
        [(s.work.txQueue.txPackets s.work.txQueue.firstSlot).payload]
      else [] := by
    cases result <;> simp [WorkQueue.notifies, idle]
  suffices moved : ∃ t', Reach (System.act times) (Permits P) t t' ∧
      InFlight times work.writing.written work.writing.whole work.txQueue t'.queue ∧
      t'.accepted = t.accepted ∧ s.notified ++ s.work.notifies (.pendingWork result) = t'.sent ++
        if work.notifier.pendingWork = .sent then
          [(work.txQueue.txPackets work.txQueue.firstSlot).payload]
        else [] by
    obtain ⟨t', run, inFlight', same, notified'⟩ := moved
    exact ⟨t', run, inFlight', same.trans accepted, notified'⟩
  unfold handed at notified
  rw [hands]
  generalize work.notifier.pendingWork = next at pends ⊢
  generalize s.work.notifier.pendingWork = phase at pends flag notified ⊢
  generalize work.txQueue = queue at pends ⊢
  cases pends with
  | start => exact ⟨t, .start, inFlight, rfl, by simpa using notified⟩
  | read place =>
    obtain ⟨t', run, moved, same, sent⟩ := inFlight.iterate
      (P := fun t r => r.WellFormed ∧ P t.accepted r) _
    refine ⟨t', run, moved, same, ?_⟩
    rw [sent, notified]
    rcases place with rfl | ⟨msgBytes, rfl⟩ <;> simp
  | fetch => exact ⟨t, .start, inFlight, rfl, by simpa using notified⟩
  | finish => exact ⟨t, .start, inFlight, rfl, by simpa using notified⟩
  | send => exact ⟨t, .start, inFlight, rfl, by simpa using notified⟩
  | fail failed place =>
    refine ⟨t, .start, inFlight, rfl, ?_⟩
    rw [notified]
    rcases place with rfl | rfl <;> simp [failed]
  | sent =>
    -- The packet that was handed over leaves both windows.
    have same := inFlight.twins.firstTxPacket_payload
    have next : System.act times t .packetSent = some { t with
        queue := t.queue.onTxPacketSent.2
        sent := t.sent ++ (t.queue.firstTxPacket.map Writer.payload).toList } := rfl
    refine ⟨_, reach_one (a := .packetSent) trivial next, inFlight.packetSent, rfl, ?_⟩
    rw [notified, same, firstTxPacket, flag (.inr rfl)]
    simp
  | wait => exact ⟨t, .start, inFlight, rfl, by simpa using notified⟩

end Represents

section Run

variable [NeZero packetCount] {times : Nat → UInt16} {P : List Chunk → Request → Prop}

/-- Every step is matched by a run of the queue whose calls are whole. -/
theorem simulates : Simulates (act times) (permit P) (System.act times) (Permits P)
    fun (s : Transmitter maxSize packetCount) t =>
      s.work.Inv ∧ s.work.Turns ∧ Represents times s t := by
  rintro s s' t a ⟨inv, turns, represents⟩ permitted next
  obtain ⟨work, step, rfl⟩ := Option.map_eq_some_iff.mp next
  suffices matched : ∃ t', Reach (System.act times) (Permits P) t t' ∧ Represents times
      ⟨work, s.accepted ++ s.work.endsCall a, s.notified ++ s.work.notifies a⟩ t' by
    obtain ⟨t', run, represents'⟩ := matched
    exact ⟨t', run, inv.act step, turns.act inv step, represents'⟩
  rcases WorkQueue.act_still step with
    ⟨r, rfl⟩ | rfl | rfl | ⟨result, rfl⟩ | ⟨still, ends, notifies⟩
  · obtain ⟨t', run, represents'⟩ := represents.call permitted.1 permitted.2 step
    refine ⟨t', run, ?_⟩
    change Represents times ⟨work, s.accepted ++ [], s.notified ++ []⟩ t'
    rw [List.append_nil, List.append_nil]
    exact represents'
  · refine ⟨t, .start, ?_⟩
    change Represents times ⟨work, _, s.notified ++ []⟩ t
    rw [List.append_nil]
    exact represents.write inv.room step
  · obtain ⟨t', run, represents'⟩ := represents.fifoWork turns step
    refine ⟨t', run, ?_⟩
    change Represents times ⟨work, s.accepted ++ [], s.notified ++ []⟩ t'
    rw [List.append_nil, List.append_nil]
    exact represents'
  · obtain ⟨t', run, represents'⟩ := represents.pendingWork turns step
    refine ⟨t', run, ?_⟩
    change Represents times ⟨work, s.accepted ++ [], _⟩ t'
    rw [List.append_nil]
    exact represents'
  · refine ⟨t, .start, ?_⟩
    rw [ends, notifies, List.append_nil, List.append_nil]
    exact represents.still still

theorem represents_initial {queue : TxQueue maxSize packetCount} (h : Framed queue [] []) :
    (initial queue).work.Inv ∧ (initial queue).work.Turns ∧
      Represents times (initial queue) (System.initial queue) := by
  refine ⟨⟨trivial, ?_, ?_, .inr (.inl ?_)⟩, ⟨.inl rfl, ?_⟩, ⟨?_, rfl, rfl⟩⟩
  · intro _ _ _ data
    cases data
  · intro chunk hchunk
    cases hchunk
  · exact h.holds
  · rintro (sending | sent)
    · cases sending
    · cases sent
  · exact ⟨h.twin queue.fifo, rfl, .inl rfl, [], h, h⟩

end Run

end Transmitter

end BleMidi.Service
