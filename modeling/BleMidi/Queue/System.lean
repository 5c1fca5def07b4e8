/- Module: BleMidi/Queue/System
   source: ble_midi/src/tx_queue.c, ble_midi/src/ble_midi.c
   digest: Runs of the queue between its producer, its reader and the packets that are sent. -/

import BleMidi.Queue.Steady

set_option autoImplicit false
set_option relaxedAutoImplicit false

namespace BleMidi.Queue

open BleMidi.Core.Runs
open BleMidi.Packet.PacketWriter
open BleMidi.Packet.WriterSpec
open TxQueue

variable {maxSize packetCount : Nat}

/-- The queue, `msg_bytes` of a call of `tx_queue_read_from_fifo` under way, the chunks accepted
and the packets sent. -/
structure System (maxSize packetCount : Nat) where
  queue : TxQueue maxSize packetCount
  reading : Option MessageBytes
  accepted : List Chunk
  sent : List (List UInt8)

/-- Producer calls and sent notifications may come between the iterations of the reader. -/
inductive Action
  | request (r : Request)
  | beginRead
  | iterateRead
  | packetSent
  deriving DecidableEq

/-- The queue behind an iteration of the reader. -/
def TxQueue.ReadStep.queue : ReadStep maxSize packetCount → TxQueue maxSize packetCount
  | .ret (_, queue) => queue
  | .next (queue, _) => queue

namespace System

def initial (queue : TxQueue maxSize packetCount) : System maxSize packetCount :=
  ⟨queue, none, [], []⟩

/-- Producer calls with a property `P`, and iterations of the reader where `G` holds. -/
def permit (P : System maxSize packetCount → Request → Prop)
    (G : TxQueue maxSize packetCount → Prop) (s : System maxSize packetCount) : Action → Prop
  | .request r => P s r
  | .iterateRead => G s.queue
  | _ => True

instance (P : System maxSize packetCount → Request → Prop) [∀ s r, Decidable (P s r)]
    (G : TxQueue maxSize packetCount → Prop) [DecidablePred G] :
    ∀ s a, Decidable (permit P G s a)
  | s, .request r => inferInstanceAs (Decidable (P s r))
  | _, .beginRead => inferInstanceAs (Decidable True)
  | s, .iterateRead => inferInstanceAs (Decidable (G s.queue))
  | _, .packetSent => inferInstanceAs (Decidable True)

variable [NeZero packetCount] (times : Nat → UInt16)

def act (s : System maxSize packetCount) : Action → Option (System maxSize packetCount)
  | .request r =>
      match r.exec s.queue with
      | (.ok count, queue) =>
          some { s with queue := queue, accepted := s.accepted ++ [r.chunk count] }
      | (.error _, queue) => some { s with queue := queue }
  | .beginRead =>
      match s.reading with
      | none => some { s with reading := some ⟨0, 0, 0⟩ }
      | some _ => none
  | .iterateRead =>
      match s.reading with
      | none => none
      | some msgBytes =>
          match readStep times s.queue msgBytes with
          | .ret (_, queue) => some { s with queue := queue, reading := none }
          | .next (queue, msgBytes) => some { s with queue := queue, reading := some msgBytes }
  | .packetSent =>
      some { s with
        queue := s.queue.onTxPacketSent.2
        sent := s.sent ++ (s.queue.firstTxPacket.map Writer.payload).toList }

section Act

variable {times} {s s' : System maxSize packetCount}

/-- A producer call appends its chunk, or it changes nothing. -/
theorem act_request {r : Request} (h : s.act times (.request r) = some s') :
    s' = s ∨ ∃ count fifo, r.exec s.queue = (.ok count, { s.queue with fifo := fifo }) ∧
      fifo.bytes = s.queue.fifo.bytes ++ (r.chunk count).encode ∧
      s' = { s with
        queue := { s.queue with fifo := fifo }
        accepted := s.accepted ++ [r.chunk count] } := by
  rcases r.exec_appends s.queue with ⟨code, eq⟩ | ⟨count, fifo, eq, written⟩
  · rw [act, eq] at h
    exact .inl (Option.some.inj h).symm
  · rw [act, eq] at h
    exact .inr ⟨count, fifo, eq, written, (Option.some.inj h).symm⟩

theorem act_beginRead (h : s.act times .beginRead = some s') :
    s' = { s with reading := some ⟨0, 0, 0⟩ } := by
  unfold act at h
  cases reading : s.reading with
  | none =>
    rw [reading] at h
    exact (Option.some.inj h).symm
  | some msgBytes =>
    rw [reading] at h
    cases h

theorem act_iterateRead (h : s.act times .iterateRead = some s') :
    ∃ msgBytes reading, s.reading = some msgBytes ∧
      s' = { s with queue := (readStep times s.queue msgBytes).queue, reading := reading } := by
  unfold act at h
  cases reading : s.reading with
  | none =>
    rw [reading] at h
    cases h
  | some msgBytes =>
    rw [reading] at h
    simp only at h
    refine ⟨msgBytes, ?_⟩
    rcases result : readStep times s.queue msgBytes with ⟨code, queue⟩ | ⟨queue, msgBytes'⟩
    · rw [result] at h
      exact ⟨none, rfl, (Option.some.inj h).symm⟩
    · rw [result] at h
      exact ⟨some msgBytes', rfl, (Option.some.inj h).symm⟩

theorem act_packetSent (h : s.act times .packetSent = some s') :
    s' = { s with
      queue := s.queue.onTxPacketSent.2
      sent := s.sent ++ (s.queue.firstTxPacket.map Writer.payload).toList } :=
  (Option.some.inj h).symm

/-- What producer calls, iterations of the reader and sent packets keep of the queue is kept by
every permitted action. -/
theorem act_keeps {I : TxQueue maxSize packetCount → Prop} {P : Request → Prop}
    {G : TxQueue maxSize packetCount → Prop}
    (hrequest : ∀ {queue : TxQueue maxSize packetCount} {r : Request} {count : Nat} {fifo : Fifo},
      I queue → P r → r.exec queue = (.ok count, { queue with fifo := fifo }) →
      fifo.bytes = queue.fifo.bytes ++ (r.chunk count).encode → I { queue with fifo := fifo })
    (hread : ∀ {queue : TxQueue maxSize packetCount} (msgBytes : MessageBytes),
      I queue → G queue → I (readStep times queue msgBytes).queue)
    (hsent : ∀ {queue : TxQueue maxSize packetCount}, I queue → I queue.onTxPacketSent.2)
    {a : Action} (h : I s.queue) (hpermit : permit (fun _ r => P r) G s a)
    (hact : s.act times a = some s') : I s'.queue := by
  cases a with
  | request r =>
    rcases act_request hact with rfl | ⟨count, fifo, exec, written, rfl⟩
    · exact h
    · exact hrequest h hpermit exec written
  | beginRead =>
    rw [act_beginRead hact]
    exact h
  | iterateRead =>
    obtain ⟨msgBytes, reading, -, rfl⟩ := act_iterateRead hact
    exact hread msgBytes h hpermit
  | packetSent =>
    rw [act_packetSent hact]
    exact hsent h

end Act

variable (settings : Settings maxSize)

/-- The queue behind `tx_queue_init` and a first packet size request that was read. -/
def start (blank : TxQueue maxSize packetCount) : Option (TxQueue maxSize packetCount) :=
  match (init blank settings.runningStatusEnabled settings.noteOffAsNoteOn).fifoAddTxPacketSize
      settings.txBufMaxSize with
  | (.success, queue) => (readFromFifo times 2 queue).map Prod.snd
  | _ => none

/-- The states reached from a started queue by permitted actions. -/
def Reachable (permits : System maxSize packetCount → Action → Prop)
    (s : System maxSize packetCount) : Prop :=
  ∃ blank queue, start times settings blank = some queue ∧
    Reach (act times) permits (initial queue) s

end System

/-- What is known of a started queue. -/
structure Fresh [NeZero packetCount] (settings : Settings maxSize)
    (queue : TxQueue maxSize packetCount) : Prop where
  steady : Steady settings queue
  empty : EveryPacket (fun w => w.txBufSize = 0 ∧ w.prevRunningStatusByte = 0 ∧
    w.inSysexMsg = false) queue
  fifo : queue.fifo.Holds []
  remaining : queue.numRemainingDataBytes = 0
  single : queue.txPacketCount = 1
  clear : queue.hasTxData = false

namespace System

variable [NeZero packetCount] {times : Nat → UInt16} {settings : Settings maxSize}

/-- The size request is the only chunk of the FIFO, and it is granted. -/
theorem start_fresh {blank queue : TxQueue maxSize packetCount}
    (h : start times settings blank = some queue) : Fresh settings queue := by
  unfold start at h
  generalize hinit : init blank settings.runningStatusEnabled settings.noteOffAsNoteOn = q at h
  rcases result : q.fifoAddTxPacketSize settings.txBufMaxSize with ⟨code, q'⟩
  rw [result] at h
  cases code with
  | success => ?_
  | _ => cases h
  have exec : (Request.addTxPacketSize settings.txBufMaxSize).exec q = (.ok 0, q') := by
    change Request.returned (q.fifoAddTxPacketSize settings.txBufMaxSize) = _
    rw [result]
    rfl
  obtain ⟨fifo, rfl, written⟩ : ∃ fifo, q' = { q with fifo := fifo } ∧
      fifo.bytes = q.fifo.bytes ++ (Chunk.packetSize settings.txBufMaxSize).encode := by
    rcases (Request.addTxPacketSize settings.txBufMaxSize).exec_appends q with
      ⟨code, failed⟩ | ⟨count, fifo, eq, written⟩
    · cases exec.symm.trans failed
    · exact ⟨fifo, congrArg Prod.snd (exec.symm.trans eq), written⟩
  have size : UInt16.ofNat (if maxSize < settings.txBufMaxSize.toNat then maxSize
      else settings.txBufMaxSize.toNat) = settings.txBufMaxSize := by
    rw [if_neg (Nat.not_lt.mpr settings.le_maxSize)]
    exact UInt16.ofNat_toNat
  have cleared : q.fifo.bytes = [] := by
    rw [← hinit]
    rfl
  have holds : ({ q with fifo := fifo } : TxQueue maxSize packetCount).fifo.Holds
      [.packetSize settings.txBufMaxSize] := by
    change fifo.bytes = _
    rw [written, cleared]
    rfl
  have idle :
      ({ q with fifo := fifo } : TxQueue maxSize packetCount).numRemainingDataBytes = 0 := by
    rw [← hinit]
    rfl
  obtain ⟨msgBytes, granted⟩ := readStep_packetSize times holds idle ⟨0, 0, 0⟩
  have rest : (fifo.read 3).Holds [] := holds.read
  simp only [readFromFifo, loop, granted] at h
  rw [readStep_empty times (by exact rest), size] at h
  obtain rfl := Option.some.inj h
  subst hinit
  refine ⟨⟨⟨?_, ?_, ?_⟩, ?_⟩, ?_, rest, rfl, rfl, rfl⟩
  · exact NeZero.pos packetCount
  · exact le_rfl
  · exact NeZero.pos packetCount
  · intro i
    exact ⟨rfl, rfl, rfl, Nat.zero_le _⟩
  · intro i
    exact ⟨rfl, rfl, rfl⟩

variable {permits : System maxSize packetCount → Action → Prop} {s : System maxSize packetCount}

/-- What a started queue has and the permitted actions keep holds in every state reached. -/
theorem Reachable.invariant {I : System maxSize packetCount → Prop}
    (hstart : ∀ {queue}, Fresh settings queue → I (initial queue))
    (hstep : ∀ {s s' a}, I s → permits s a → s.act times a = some s' → I s')
    (h : Reachable times settings permits s) : I s := by
  obtain ⟨blank, queue, started, run⟩ := h
  exact run.invariant (hstart (start_fresh started)) hstep

/-- A state with a property that the replay of some actions comes to. -/
theorem exists_reachable (times : Nat → UInt16) (settings : Settings maxSize)
    (permits : System maxSize packetCount → Action → Prop) [∀ s a, Decidable (permits s a)]
    (P : System maxSize packetCount → Prop) [DecidablePred P]
    (blank : TxQueue maxSize packetCount) (actions : List Action)
    (h : ((start times settings blank).bind fun queue =>
      replay (act times) permits (initial queue) actions).any (fun s => decide (P s)) = true) :
    ∃ s, Reachable times settings permits s ∧ P s := by
  obtain ⟨s, replayed, property⟩ := (Option.any_eq_true _ _).mp h
  obtain ⟨queue, started, rest⟩ := Option.bind_eq_some_iff.mp replayed
  exact ⟨s, ⟨blank, queue, started, reach_of_replay .start rest⟩, of_decide_eq_true property⟩

end System

/-- A queue before its initialisation. -/
def blankQueue (maxSize packetCount capacity : Nat) : TxQueue maxSize packetCount where
  fifo := ⟨capacity, [], Nat.zero_le _⟩
  txPackets _ := ⟨Vector.replicate maxSize 0, 0, 0, 0, 0, 0, false, false, false⟩
  firstTxPacketIdx := 0
  txPacketCount := 0
  hasTxData := false
  numRemainingDataBytes := 0
  currSysexDataChunkSize := 0
  sysexChunkScratchBuf := List.replicate 258 0
  clock := 0

/-- Packets of five bytes. -/
def fiveBytes : Settings 8 := ⟨5, true, true, by decide, by decide⟩

/-- A 13 bit clock that wraps after its second reading. -/
def millisecondClock (n : Nat) : UInt16 := UInt16.ofNat (8190 + n)

end BleMidi.Queue
