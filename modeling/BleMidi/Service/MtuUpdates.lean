/- Module: BleMidi/Service/MtuUpdates
   source: ble_midi/src/ble_midi.c (on_connected, att_mtu_updated_cb, on_mtu_changed)
   digest: A new MTU reaches the packets of the queue unless its size request is dropped. -/

import BleMidi.Queue.Capacity
import BleMidi.Queue.Sessions
import BleMidi.Queue.Sizes
import BleMidi.Queue.Unsized
import BleMidi.Service.Producers

set_option autoImplicit false
set_option relaxedAutoImplicit false

namespace BleMidi.Service

open BleMidi.Core.Runs
open BleMidi.Packet.PacketWriter
open BleMidi.Queue
open BleMidi.Queue.TxQueue

variable {maxSize packetCount : Nat}

/-- The queue of the buffered mode, and the MTU of the most recent `on_mtu_changed` behind
`ble_midi_context_reset`. -/
structure BufferedDevice (maxSize packetCount : Nat) where
  system : System maxSize packetCount
  mtu : Option UInt16

/-- Calls of the application, iterations of the reader and sent packets, the reset that a connection
starts with, and a new MTU, in `on_connected` or in `att_mtu_updated_cb`. -/
inductive BufferedAction
  | step (a : Action)
  | contextReset (txRunningStatus txNoteOffAsNoteOn : Bool)
  | onMtuChanged (mtuSize : UInt16)
  deriving DecidableEq

/-- The size that the packets have when all chunks of the FIFO have been read. -/
def sizeAhead [NeZero packetCount] (queue : TxQueue maxSize packetCount) : UInt16 :=
  sizeBehind maxSize queue.lastTxPacket.txBufMaxSize queue.fifo.recognised

namespace BufferedDevice

def initial (queue : TxQueue maxSize packetCount) : BufferedDevice maxSize packetCount :=
  ⟨System.initial queue, none⟩

variable [NeZero packetCount] (times : Nat → UInt16)

/-- Whether the size request found room is not looked at. -/
def act (s : BufferedDevice maxSize packetCount) :
    BufferedAction → Option (BufferedDevice maxSize packetCount)
  | .step a => (s.system.act times a).map fun system => { s with system := system }
  | .contextReset txRunningStatus txNoteOffAsNoteOn =>
      some ⟨{ s.system with
        queue :=
          (Queue.contextReset ⟨s.system.queue, 0⟩ txRunningStatus txNoteOffAsNoteOn).txQueue },
        none⟩
  | .onMtuChanged mtuSize =>
      (s.system.act times (.request (.addTxPacketSize (requestedSize maxSize mtuSize)))).map
        fun system => ⟨system, some mtuSize⟩

/-- Valid calls, iterations of the reader that do not write behind a packet, where the size fields
are, and size requests that find room in the FIFO or ask for what the packets will have anyway. -/
def Heard (s : BufferedDevice maxSize packetCount) : BufferedAction → Prop
  | .step (.request r) => r.KeepsSize
  | .step .iterateRead => ¬ Overruns s.system.queue
  | .onMtuChanged mtuSize => 23 ≤ mtuSize ∧ (3 ≤ s.system.queue.fifo.getFreeSpace ∨
      sizeAhead s.system.queue = requestedSize maxSize mtuSize)
  | _ => True

instance : ∀ (s : BufferedDevice maxSize packetCount) (a : BufferedAction), Decidable (s.Heard a)
  | _, .step (.request r) => inferInstanceAs (Decidable r.KeepsSize)
  | _, .step .beginRead => inferInstanceAs (Decidable True)
  | _, .step .iterateRead => inferInstanceAs (Decidable (¬ _))
  | _, .step .packetSent => inferInstanceAs (Decidable True)
  | _, .contextReset _ _ => inferInstanceAs (Decidable True)
  | _, .onMtuChanged _ => inferInstanceAs (Decidable (_ ∧ (_ ∨ _)))

/-- The packets have the size that goes with the MTU when no size request waits in the FIFO. -/
def Effective (s : BufferedDevice maxSize packetCount) : Prop :=
  ∀ mtuSize ∈ s.mtu, (∀ chunk ∈ s.system.queue.fifo.recognised, ¬ chunk.Resizes) →
    ∀ i, (s.system.queue.txPackets i).txBufMaxSize.toNat = min maxSize (mtuSize.toNat - 3)

/-- The packets have one size, and the last request on the way is the one of the MTU. -/
private def OnTheWay (s : BufferedDevice maxSize packetCount) : Prop :=
  ∃ queued size, Sized s.system.queue queued size ∧
    ∀ mtuSize ∈ s.mtu, 23 ≤ mtuSize ∧
      sizeBehind maxSize size queued = requestedSize maxSize mtuSize

private theorem sized_sizeAhead {queue : TxQueue maxSize packetCount} {queued : List Chunk}
    {size : UInt16} (h : Sized queue queued size) :
    sizeAhead queue = sizeBehind maxSize size queued := by
  have last : queue.lastTxPacket.txBufMaxSize = size := h.uniform.last
  rw [sizeAhead, h.recognised, last]

omit [NeZero packetCount] in
private theorem granted_requestedSize {mtuSize : UInt16} (hmtu : 23 ≤ mtuSize) (size : UInt16) :
    (Chunk.packetSize (requestedSize maxSize mtuSize)).sizeBehind maxSize size =
      requestedSize maxSize mtuSize := by
  have least : 23 ≤ mtuSize.toNat := hmtu
  have fits : ¬ maxSize < (requestedSize maxSize mtuSize).toNat := by
    rw [requestedSize_toNat (by omega)]
    omega
  rw [Chunk.sizeBehind, if_neg fits, UInt16.ofNat_toNat]

variable {times} {s s' : BufferedDevice maxSize packetCount}

omit [NeZero packetCount] in
private theorem OnTheWay.effective (h : s.OnTheWay) : s.Effective := by
  obtain ⟨queued, size, sized, way⟩ := h
  intro mtuSize mem none i
  obtain ⟨least, requested⟩ := way mtuSize mem
  have least : 23 ≤ mtuSize.toNat := least
  rw [sized.recognised] at none
  rw [sizeBehind_none none] at requested
  rw [show (s.system.queue.txPackets i).txBufMaxSize = size from sized.uniform i, requested,
    requestedSize_toNat (by omega)]

private theorem OnTheWay.step {a : Action} (h : s.OnTheWay) (hheard : s.Heard (.step a))
    (hact : s.act times (.step a) = some s') : s'.OnTheWay := by
  obtain ⟨queued, size, sized, way⟩ := h
  obtain ⟨system, next, rfl⟩ := Option.map_eq_some_iff.mp hact
  cases a with
  | request r =>
    have keeps : r.KeepsSize := hheard
    rcases System.act_request next with rfl | ⟨count, fifo, exec, written, rfl⟩
    · exact ⟨queued, size, sized, way⟩
    · have chunk := Request.chunk_keepsSize keeps exec
      refine ⟨_, size, sized.append chunk.1 written, fun mtuSize mem => ?_⟩
      have same (size : UInt16) : (r.chunk count).sizeBehind maxSize size = size := by
        cases hr : r.chunk count with
        | packetSize requested =>
          rw [hr] at chunk
          exact chunk.2.elim
        | _ => rfl
      rw [sizeBehind_append, same]
      exact way mtuSize mem
  | beginRead =>
    rw [System.act_beginRead next]
    exact ⟨queued, size, sized, way⟩
  | iterateRead =>
    obtain ⟨msgBytes, reading, -, rfl⟩ := System.act_iterateRead next
    obtain ⟨rest, size', sized', same⟩ := sized.step times msgBytes
    refine ⟨rest, size', sized', fun mtuSize mem => ?_⟩
    rw [same]
    exact way mtuSize mem
  | packetSent =>
    rw [System.act_packetSent next]
    exact ⟨queued, size, sized.sent, way⟩

/-- A size request is written, or it finds less than three bytes of room and nothing changes. -/
theorem onMtuChanged_cases {mtuSize : UInt16}
    (hact : s.act times (.onMtuChanged mtuSize) = some s') :
    s' = { s with mtu := some mtuSize } ∧ ¬ 3 ≤ s.system.queue.fifo.getFreeSpace ∨
      3 ≤ s.system.queue.fifo.getFreeSpace ∧ s'.mtu = some mtuSize ∧
        ∃ fifo : Fifo, s'.system.queue = { s.system.queue with fifo := fifo } ∧
          fifo.bytes = s.system.queue.fifo.bytes ++
            (Chunk.packetSize (requestedSize maxSize mtuSize)).encode := by
  obtain ⟨system, next, rfl⟩ := Option.map_eq_some_iff.mp hact
  have written3 := write3_returned s.system.queue
    (show (Chunk.packetSize (requestedSize maxSize mtuSize)).encode.length = 3 from rfl)
  unfold System.act at next
  rcases (Request.addTxPacketSize (requestedSize maxSize mtuSize)).exec_appends s.system.queue with
    ⟨code, eq⟩ | ⟨count, fifo, eq, written⟩
  · simp only [eq] at next
    cases next
    refine .inl ⟨rfl, fun room => ?_⟩
    rw [if_neg (Nat.not_lt.mpr room)] at written3
    cases written3.symm.trans (congrArg Prod.fst eq)
  · simp only [eq] at next
    cases next
    refine .inr ⟨?_, rfl, fifo, rfl, written⟩
    by_contra full
    rw [if_pos (Nat.lt_of_not_le full)] at written3
    cases written3.symm.trans (congrArg Prod.fst eq)

private theorem OnTheWay.onMtuChanged {mtuSize : UInt16} (h : s.OnTheWay)
    (hheard : s.Heard (.onMtuChanged mtuSize))
    (hact : s.act times (.onMtuChanged mtuSize) = some s') : s'.OnTheWay := by
  obtain ⟨queued, size, sized, -⟩ := h
  obtain ⟨least, timely⟩ := hheard
  rcases onMtuChanged_cases hact with ⟨rfl, full⟩ | ⟨-, mtu, fifo, queue, written⟩
  · refine ⟨queued, size, sized, fun _ mem => ?_⟩
    obtain rfl := Option.some.inj mem
    rw [← sized_sizeAhead sized]
    exact ⟨least, timely.resolve_left full⟩
  · have chunk : (Chunk.packetSize (requestedSize maxSize mtuSize)).WellFormed := trivial
    refine ⟨queued ++ [.packetSize (requestedSize maxSize mtuSize)], size, ?_, fun _ mem => ?_⟩
    · rw [queue]
      exact sized.append chunk written
    · rw [mtu] at mem
      obtain rfl := Option.some.inj mem
      rw [sizeBehind_append, granted_requestedSize least]
      exact ⟨least, rfl⟩

private theorem onTheWay_run {context : Context maxSize packetCount}
    {txRunningStatus txNoteOffAsNoteOn : Bool} (h : Reach (act times) Heard
      (initial (Queue.contextReset context txRunningStatus txNoteOffAsNoteOn).txQueue) s) :
    s.OnTheWay := by
  refine h.invariant (I := OnTheWay)
    ⟨[], 0, Sized.init _ _ _, fun _ mem => absurd mem (by simp [initial])⟩ ?_
  intro s s' a way heard next
  cases a with
  | step a => exact way.step heard next
  | contextReset txRunningStatus txNoteOffAsNoteOn =>
    cases next
    exact ⟨[], 0, Sized.init _ _ _, fun _ mem => absurd mem (by simp)⟩
  | onMtuChanged mtuSize => exact way.onMtuChanged heard next

/-- In every state of a run whose size requests are all heard and whose reader never writes behind a
packet, the packets have the size that goes with the MTU when no request waits in the FIFO. -/
theorem mtu_effective {context : Context maxSize packetCount}
    {txRunningStatus txNoteOffAsNoteOn : Bool} (h : Reach (act times) Heard
      (initial (Queue.contextReset context txRunningStatus txNoteOffAsNoteOn).txQueue) s) :
    s.Effective :=
  (onTheWay_run h).effective

/-- The first MTU of a connection, a message, a larger MTU and another message, all read. -/
theorem mtu_effective_larger : ∃ s : BufferedDevice 64 2,
    (s.mtu = some 50 ∧ s.system.queue.fifo.recognised = [] ∧ s.system.accepted =
      [.packetSize 20, .threeBytes ⟨0x90, 60, 127⟩, .packetSize 47,
        .threeBytes ⟨0x80, 60, 0⟩]) ∧ s.Effective := by
  obtain ⟨s, reached, state⟩ := exists_of_replay (act millisecondClock) Heard
    (initial (Queue.contextReset ⟨blankQueue 64 2 8, 0⟩ true true).txQueue)
    (fun s => s.mtu = some 50 ∧ s.system.queue.fifo.recognised = [] ∧ s.system.accepted =
      [.packetSize 20, .threeBytes ⟨0x90, 60, 127⟩, .packetSize 47, .threeBytes ⟨0x80, 60, 0⟩])
    [.onMtuChanged 23, .step .beginRead, .step .iterateRead,
      .step (.request (.addMsg ⟨0x90, 60, 127⟩)), .onMtuChanged 50, .step .iterateRead,
      .step (.request (.addMsg ⟨0x80, 60, 0⟩)), .step .iterateRead, .step .iterateRead]
    (by decide +kernel)
  exact ⟨s, state, mtu_effective reached⟩

/-- Two messages leave two bytes of the FIFO for the size request of the larger MTU, which is
dropped. The packets keep the size of the first MTU. -/
theorem mtu_effective_fails : ∃ s : BufferedDevice 64 2,
    Reach (act millisecondClock) (fun _ _ => True)
      (initial (Queue.contextReset ⟨blankQueue 64 2 8, 0⟩ true true).txQueue) s ∧
    s.mtu = some 50 ∧ s.system.queue.fifo.recognised = [] ∧
    s.system.accepted =
      [.packetSize 20, .threeBytes ⟨0x90, 60, 127⟩, .threeBytes ⟨0x80, 60, 0⟩] ∧
    (s.system.queue.txPackets 0).txBufMaxSize = 20 ∧ ¬ s.Effective := by
  obtain ⟨s, reached, mtu, none, accepted, size⟩ := exists_of_replay (act millisecondClock)
    (fun _ _ => True) (initial (Queue.contextReset ⟨blankQueue 64 2 8, 0⟩ true true).txQueue)
    (fun s => s.mtu = some 50 ∧ s.system.queue.fifo.recognised = [] ∧ s.system.accepted =
        [.packetSize 20, .threeBytes ⟨0x90, 60, 127⟩, .threeBytes ⟨0x80, 60, 0⟩] ∧
      (s.system.queue.txPackets 0).txBufMaxSize = 20)
    [.onMtuChanged 23, .step .beginRead, .step .iterateRead,
      .step (.request (.addMsg ⟨0x90, 60, 127⟩)), .step (.request (.addMsg ⟨0x80, 60, 0⟩)),
      .onMtuChanged 50, .step .iterateRead, .step .iterateRead]
    (by decide +kernel)
  refine ⟨s, reached, mtu, none, accepted, size, fun effective => ?_⟩
  have granted := effective 50 mtu (by simp [none]) 0
  rw [size] at granted
  exact absurd granted (by decide)

/-- The condition is exact for a new MTU that finds no size request in the FIFO. -/
theorem onMtuChanged_effective_iff {context : Context maxSize packetCount}
    {txRunningStatus txNoteOffAsNoteOn : Bool} (h : Reach (act times) Heard
      (initial (Queue.contextReset context txRunningStatus txNoteOffAsNoteOn).txQueue) s)
    (hnone : ∀ chunk ∈ s.system.queue.fifo.recognised, ¬ chunk.Resizes) {mtuSize : UInt16}
    (hmtu : 23 ≤ mtuSize) (hact : s.act times (.onMtuChanged mtuSize) = some s') :
    s'.Effective ↔ s.Heard (.onMtuChanged mtuSize) := by
  have way := onTheWay_run h
  constructor
  · intro effective
    refine ⟨hmtu, ?_⟩
    rcases onMtuChanged_cases hact with ⟨rfl, -⟩ | ⟨room, -⟩
    · obtain ⟨queued, size, sized, -⟩ := way
      have least : 23 ≤ mtuSize.toNat := hmtu
      have granted := effective mtuSize rfl hnone s.system.queue.lastSlot
      rw [← requestedSize_toNat (by omega), UInt16.toNat_inj] at granted
      rw [sized.recognised] at hnone
      rw [sized_sizeAhead sized, sizeBehind_none hnone, ← granted]
      exact .inr (sized.uniform _).symm
    · exact .inl room
  · intro heard
    exact (way.onMtuChanged heard hact).effective

end BufferedDevice

end BleMidi.Service
