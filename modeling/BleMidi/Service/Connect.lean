/- Module: BleMidi/Service/Connect
   source: ble_midi/src/ble_midi.c (on_connected, on_mtu_changed), ble_midi/src/ble_midi_context.c
   digest: Calls of the application between the two steps of a connection. -/

import BleMidi.Queue.Sessions
import BleMidi.Queue.Unsized
import BleMidi.Service.Producers

set_option autoImplicit false
set_option relaxedAutoImplicit false

namespace BleMidi.Service

open BleMidi.Core.Runs
open BleMidi.Packet.PacketWriter
open BleMidi.Queue
open BleMidi.Queue.TxQueue

variable {maxSize packetCount : Nat}

/-- The queue behind `ble_midi_context_reset` of `on_connected`, and whether `on_mtu_changed` has
followed. -/
structure Connection (maxSize packetCount : Nat) where
  system : System maxSize packetCount
  connected : Bool

/-- Calls of the application, iterations of the reader and sent packets, or the second step of
`on_connected`. -/
inductive ConnectionAction
  | step (a : Action)
  | onMtuChanged (mtuSize : UInt16)
  deriving DecidableEq

/-- Chunks in front of which no chunk waits for the packet size: those behind a size request, if
there is one, or else all of them pass. -/
inductive Opening : Bool → List Chunk → Prop
  | nil : Opening false []
  | request {size : UInt16} {rest : List Chunk} : 5 ≤ size.toNat →
      (∀ chunk ∈ rest, chunk.KeepsSize) → Opening true (.packetSize size :: rest)
  | passes {requested : Bool} {chunk : Chunk} {rest : List Chunk} : chunk.KeepsSize →
      ¬ chunk.Blocks → Opening requested rest → Opening requested (chunk :: rest)

namespace Opening

variable {requested : Bool} {queued : List Chunk} {chunk : Chunk}

theorem append (h : Opening requested queued) (hkeeps : chunk.KeepsSize)
    (hpasses : requested = true ∨ ¬ chunk.Blocks) : Opening requested (queued ++ [chunk]) := by
  induction h with
  | nil => exact .passes hkeeps (hpasses.resolve_left (by decide)) .nil
  | request size rest =>
    exact .request size (List.forall_mem_append.mpr ⟨rest, List.forall_mem_singleton.mpr hkeeps⟩)
  | passes keeps passes _ ih => exact .passes keeps passes (ih hpasses)

theorem append_request (h : Opening requested queued) (hrequested : requested = false)
    {size : UInt16} (hsize : 5 ≤ size.toNat) : Opening true (queued ++ [.packetSize size]) := by
  induction h with
  | nil => exact .request hsize fun chunk hchunk => absurd hchunk List.not_mem_nil
  | request _ _ => cases hrequested
  | passes keeps passes _ ih => exact .passes keeps passes (ih hrequested)

theorem all_pass (h : Opening requested queued) (hrequested : requested = false) :
    ∀ chunk ∈ queued, chunk.KeepsSize ∧ ¬ chunk.Blocks := by
  induction h with
  | nil => exact fun chunk hchunk => absurd hchunk List.not_mem_nil
  | request _ _ => cases hrequested
  | passes keeps passes _ ih => exact List.forall_mem_cons.mpr ⟨⟨keeps, passes⟩, ih hrequested⟩

theorem head (h : Opening requested queued) :
    queued = [] ∨
      (∃ size rest, queued = .packetSize size :: rest ∧ requested = true ∧ 5 ≤ size.toNat ∧
        ∀ chunk ∈ rest, chunk.KeepsSize) ∨
      ∃ chunk rest, queued = chunk :: rest ∧ chunk.KeepsSize ∧ ¬ chunk.Blocks ∧
        Opening requested rest := by
  cases h with
  | nil => exact .inl rfl
  | request size rest => exact .inr (.inl ⟨_, _, rfl, rfl, size, rest⟩)
  | passes keeps passes rest => exact .inr (.inr ⟨_, _, rfl, keeps, passes, rest⟩)

end Opening

/-- The size that a connection requests is large enough for a message. -/
theorem five_le_requestedSize (hmax : 5 ≤ maxSize) {mtuSize : UInt16} (hmtu : 23 ≤ mtuSize) :
    5 ≤ (requestedSize maxSize mtuSize).toNat := by
  have least : 23 ≤ mtuSize.toNat := hmtu
  rw [requestedSize_toNat (by omega)]
  omega

namespace Connection

def initial (queue : TxQueue maxSize packetCount) : Connection maxSize packetCount :=
  ⟨System.initial queue, false⟩

variable [NeZero packetCount] (times : Nat → UInt16)

def act (s : Connection maxSize packetCount) :
    ConnectionAction → Option (Connection maxSize packetCount)
  | .step a => (s.system.act times a).map fun system => { s with system := system }
  | .onMtuChanged mtuSize =>
      if s.connected then none
      else (s.system.act times (.request (.addTxPacketSize (requestedSize maxSize mtuSize)))).map
        fun system => ⟨system, true⟩

/-- Calls of the application that are not accepted between the two steps if their chunks wait for
room, and a size request that finds room in the FIFO. -/
def InTime (s : Connection maxSize packetCount) : ConnectionAction → Prop
  | .step (.request r) =>
      r.KeepsSize ∧ (s.connected = true ∨ ¬ r.Blocks ∨ s.system.queue.fifo.getFreeSpace < 3)
  | .step _ => True
  | .onMtuChanged mtuSize => 23 ≤ mtuSize ∧ 3 ≤ s.system.queue.fifo.getFreeSpace

instance : ∀ (s : Connection maxSize packetCount) (a : ConnectionAction), Decidable (s.InTime a)
  | _, .step (.request _) => inferInstanceAs (Decidable (_ ∧ (_ ∨ ¬ _ ∨ _)))
  | _, .step .beginRead => inferInstanceAs (Decidable True)
  | _, .step .iterateRead => inferInstanceAs (Decidable True)
  | _, .step .packetSent => inferInstanceAs (Decidable True)
  | _, .onMtuChanged _ => inferInstanceAs (Decidable (_ ∧ _))

/-- What the steps keep: no chunk waits in front of the size request, or the size is known. -/
private def Inv (s : Connection maxSize packetCount) : Prop :=
  (∃ runningStatusEnabled noteOffAsNoteOn queued,
      Unsized runningStatusEnabled noteOffAsNoteOn s.system.queue queued ∧
        Opening s.connected queued) ∨
    s.connected = true ∧ ∃ settings : Settings maxSize, Readable settings s.system.queue

variable {times} {s s' : Connection maxSize packetCount}

private theorem inv_step {a : Action} (hmax : 5 ≤ maxSize) (h : s.Inv) (hclean : s.InTime (.step a))
    (hact : s.act times (.step a) = some s') : s'.Inv := by
  obtain ⟨system, next, rfl⟩ := Option.map_eq_some_iff.mp hact
  rcases h with ⟨runningStatusEnabled, noteOffAsNoteOn, queued, unsized, opening⟩ |
    ⟨connected, settings, readable⟩
  · cases a with
    | request r =>
      obtain ⟨keeps, early⟩ := hclean
      rcases System.act_request next with rfl | ⟨count, fifo, exec, written, rfl⟩
      · exact .inl ⟨_, _, queued, unsized, opening⟩
      · refine .inl ⟨_, _, _, unsized.append written,
          opening.append (Request.chunk_keepsSize keeps exec) ?_⟩
        rw [Request.chunk_blocks]
        refine early.imp_right fun passes blocks => ?_
        have full := passes.resolve_left (not_not.mpr blocks)
        have failed := blocks.exec s.system.queue
        rw [exec, if_pos full] at failed
        cases failed
    | beginRead =>
      rw [System.act_beginRead next]
      exact .inl ⟨_, _, queued, unsized, opening⟩
    | iterateRead =>
      obtain ⟨msgBytes, reading, -, rfl⟩ := System.act_iterateRead next
      rcases opening.head with rfl | ⟨size, rest, rfl, connected, five_le, keeps⟩ |
        ⟨chunk, rest, rfl, keeps, passes, opening'⟩
      · rw [readStep_empty times unsized.held]
        exact .inl ⟨_, _, [], unsized, opening⟩
      · obtain ⟨settings, queue', msgBytes', eq, readable⟩ :=
          unsized.readStep_packetSize times hmax five_le keeps msgBytes
        rw [eq]
        exact .inr ⟨connected, settings, readable⟩
      · obtain ⟨queue', msgBytes', eq, unsized'⟩ :=
          unsized.readStep_passes times keeps passes msgBytes
        rw [eq]
        exact .inl ⟨_, _, rest, unsized', opening'⟩
    | packetSent =>
      rw [System.act_packetSent next]
      exact .inl ⟨_, _, queued, unsized.sent, opening⟩
  · refine .inr ⟨connected, settings, readable.act ?_ next⟩
    cases a with
    | request r => exact hclean.1
    | _ => trivial

private theorem inv_onMtuChanged {mtuSize : UInt16} (hmax : 5 ≤ maxSize) (h : s.Inv)
    (hclean : s.InTime (.onMtuChanged mtuSize))
    (hact : s.act times (.onMtuChanged mtuSize) = some s') : s'.Inv := by
  obtain ⟨mtu, room⟩ := hclean
  unfold act at hact
  cases connected : s.connected with
  | true => simp [connected] at hact
  | false =>
    simp only [connected, Bool.false_eq_true, if_false] at hact
    obtain ⟨system, next, rfl⟩ := Option.map_eq_some_iff.mp hact
    rcases h with ⟨runningStatusEnabled, noteOffAsNoteOn, queued, unsized, opening⟩ |
      ⟨already, -⟩
    swap
    · cases connected.symm.trans already
    have written3 := write3_returned s.system.queue
      (show (Chunk.packetSize (requestedSize maxSize mtuSize)).encode.length = 3 from rfl)
    rw [if_neg (Nat.not_lt.mpr room)] at written3
    rcases (Request.addTxPacketSize (requestedSize maxSize mtuSize)).exec_appends
      s.system.queue with ⟨code, failed⟩ | ⟨count, fifo, exec, written⟩
    · cases written3.symm.trans (congrArg Prod.fst failed)
    · unfold System.act at next
      simp only [exec] at next
      cases next
      exact .inl ⟨_, _, _, unsized.append written,
        opening.append_request connected (five_le_requestedSize hmax mtu)⟩

theorem inv_run {context : Context maxSize packetCount} {txRunningStatus txNoteOffAsNoteOn : Bool}
    (hmax : 5 ≤ maxSize) (h : Reach (act times) InTime
      (initial (contextReset context txRunningStatus txNoteOffAsNoteOn).txQueue) s) : s.Inv := by
  refine h.invariant (I := Inv)
    (.inl ⟨txRunningStatus, txNoteOffAsNoteOn, [], Unsized.init _ _ _, .nil⟩) ?_
  intro s s' a inv clean next
  cases a with
  | step a => exact inv_step hmax inv clean next
  | onMtuChanged mtuSize => exact inv_onMtuChanged hmax inv clean next

/-- When the reader gives up, some packet has bytes to send. -/
theorem noTxPackets_written {context : Context maxSize packetCount}
    {txRunningStatus txNoteOffAsNoteOn : Bool} (hmax : 5 ≤ maxSize)
    (h : Reach (act times) InTime
      (initial (contextReset context txRunningStatus txNoteOffAsNoteOn).txQueue) s)
    {msgBytes : MessageBytes} {queue' : TxQueue maxSize packetCount}
    (hret : readStep times s.system.queue msgBytes = .ret (.noTxPackets, queue')) :
    ∃ i, (queue'.txPackets i).txBufSize ≠ 0 := by
  rcases inv_run hmax h with ⟨runningStatusEnabled, noteOffAsNoteOn, queued, unsized, opening⟩ |
    ⟨-, settings, readable⟩
  · rcases opening.head with rfl | ⟨size, rest, rfl, -, five_le, keeps⟩ |
      ⟨chunk, rest, rfl, keeps, passes, -⟩
    · cases (readStep_empty times unsized.held msgBytes).symm.trans hret
    · obtain ⟨_, _, _, eq, -⟩ := unsized.readStep_packetSize times hmax five_le keeps msgBytes
      cases eq.symm.trans hret
    · obtain ⟨_, _, eq, -⟩ := unsized.readStep_passes times keeps passes msgBytes
      cases eq.symm.trans hret
  · exact ⟨_, readable.noTxPackets hret⟩

/-- The queue that a call of the reader leaves when it gives up. -/
def gaveUp : ReadStep maxSize packetCount → Option (TxQueue maxSize packetCount)
  | .ret (.noTxPackets, queue) => some queue
  | _ => none

omit [NeZero packetCount] in
theorem eq_of_gaveUp {r : ReadStep maxSize packetCount} {queue : TxQueue maxSize packetCount}
    (h : gaveUp r = some queue) : r = .ret (.noTxPackets, queue) := by
  rcases r with ⟨code, queue'⟩ | ⟨queue', msgBytes⟩
  · cases code <;> cases h
    rfl
  · cases h

/-- Data and a sysex end come before the size request and are skipped. Two messages come behind it,
and the second one does not fit into the only packet. -/
theorem noTxPackets_written_skipped : ∃ (s : Connection 8 1) (queue' : TxQueue 8 1),
    (s.connected = true ∧ s.system.accepted =
      [.data [1], .threeBytes ⟨0xf7, 0, 0⟩, .packetSize 8, .threeBytes ⟨0x90, 1, 2⟩,
        .threeBytes ⟨0xb0, 3, 4⟩]) ∧
    readStep millisecondClock s.system.queue ⟨0, 0, 0⟩ = .ret (.noTxPackets, queue') ∧
    ∃ i, (queue'.txPackets i).txBufSize ≠ 0 := by
  obtain ⟨s, reached, state, gives⟩ := exists_of_replay (act millisecondClock) InTime
    (initial (contextReset ⟨blankQueue 8 1 32, 0⟩ true true).txQueue)
    (fun s => (s.connected = true ∧ s.system.accepted =
        [.data [1], .threeBytes ⟨0xf7, 0, 0⟩, .packetSize 8, .threeBytes ⟨0x90, 1, 2⟩,
          .threeBytes ⟨0xb0, 3, 4⟩]) ∧
      (gaveUp (readStep millisecondClock s.system.queue ⟨0, 0, 0⟩)).isSome = true)
    [.step (.request (.addSysexData [1])), .step (.request .addSysexEnd), .onMtuChanged 23,
      .step (.request (.addMsg ⟨0x90, 1, 2⟩)), .step (.request (.addMsg ⟨0xb0, 3, 4⟩)),
      .step .beginRead, .step .iterateRead, .step .iterateRead, .step .iterateRead,
      .step .iterateRead]
    (by decide +kernel)
  obtain ⟨queue', gave⟩ := Option.isSome_iff_exists.mp gives
  exact ⟨s, queue', state, eq_of_gaveUp gave,
    noTxPackets_written (by decide) reached (eq_of_gaveUp gave)⟩

/-- A message between the two steps waits in front of the size request, and no packet can ever be
sent to make room for it. -/
theorem noTxPackets_written_fails : ∃ (s : Connection 8 2) (queue' : TxQueue 8 2),
    Reach (act millisecondClock) (fun _ _ => True)
      (initial (contextReset ⟨blankQueue 8 2 32, 0⟩ true true).txQueue) s ∧
    (s.connected = true ∧
      s.system.accepted = [.threeBytes ⟨0x90, 1, 2⟩, .packetSize 8]) ∧
    readStep millisecondClock s.system.queue ⟨0, 0, 0⟩ = .ret (.noTxPackets, queue') ∧
    ¬ ∃ i, (queue'.txPackets i).txBufSize ≠ 0 := by
  obtain ⟨s, reached, state, gives⟩ := exists_of_replay (act millisecondClock) (fun _ _ => True)
    (initial (contextReset ⟨blankQueue 8 2 32, 0⟩ true true).txQueue)
    (fun s => (s.connected = true ∧
        s.system.accepted = [.threeBytes ⟨0x90, 1, 2⟩, .packetSize 8]) ∧
      (gaveUp (readStep millisecondClock s.system.queue ⟨0, 0, 0⟩)).any (fun queue' =>
        decide ((queue'.txPackets 0).txBufSize = 0 ∧ (queue'.txPackets 1).txBufSize = 0)) = true)
    [.step (.request (.addMsg ⟨0x90, 1, 2⟩)), .onMtuChanged 23, .step .beginRead]
    (by decide +kernel)
  obtain ⟨queue', gave, empty⟩ := (Option.any_eq_true _ _).mp gives
  obtain ⟨first, second⟩ := of_decide_eq_true empty
  refine ⟨s, queue', reached, state, eq_of_gaveUp gave, ?_⟩
  rintro ⟨i, written⟩
  match i with
  | 0 => exact written first
  | 1 => exact written second

/-- A chunk in front of any size request waits for room. -/
def Blocked (s : Connection maxSize packetCount) : Prop :=
  ∃ runningStatusEnabled noteOffAsNoteOn ahead bytes rest,
    Unsized runningStatusEnabled noteOffAsNoteOn s.system.queue
      (ahead ++ .threeBytes bytes :: rest) ∧
    (∀ chunk ∈ ahead, chunk.KeepsSize ∧ ¬ chunk.Blocks) ∧ 128 ≤ bytes.byte0 ∧ TakenOutside bytes

omit [NeZero packetCount] in
private theorem Blocked.append {system : System maxSize packetCount} {connected : Bool}
    (h : Blocked s) {fifo : Fifo} {chunk : Chunk}
    (hqueue : system.queue = { s.system.queue with fifo := fifo })
    (hfifo : fifo.bytes = s.system.queue.fifo.bytes ++ chunk.encode) :
    Blocked ⟨system, connected⟩ := by
  obtain ⟨runningStatusEnabled, noteOffAsNoteOn, ahead, bytes, rest, unsized, passes, head⟩ := h
  have more := unsized.append hfifo
  rw [List.append_assoc] at more
  refine ⟨runningStatusEnabled, noteOffAsNoteOn, ahead, bytes, rest ++ [chunk], ?_, passes, head⟩
  rw [show (⟨system, connected⟩ : Connection maxSize packetCount).system.queue = _ from hqueue]
  exact more

private theorem Blocked.request {r : Request} {system : System maxSize packetCount}
    {connected : Bool} (h : Blocked s) (hact : s.system.act times (.request r) = some system) :
    Blocked ⟨system, connected⟩ := by
  rcases System.act_request hact with rfl | ⟨count, fifo, exec, written, rfl⟩
  · exact h
  · exact h.append rfl written

/-- An iteration skips what is in front of the chunk, or the reader gives up. -/
theorem Blocked.readStep (times : Nat → UInt16) (h : Blocked s) (msgBytes : MessageBytes) :
    (∀ reading, Blocked { s with
        system := { s.system with
          queue := (readStep times s.system.queue msgBytes).queue, reading := reading } }) ∧
      ∀ code queue', TxQueue.readStep times s.system.queue msgBytes = .ret (code, queue') →
        code = .noTxPackets ∧ ∀ i, (queue'.txPackets i).txBufSize = 0 := by
  obtain ⟨runningStatusEnabled, noteOffAsNoteOn, ahead, bytes, rest, unsized, passes, head⟩ := h
  cases ahead with
  | nil =>
    obtain ⟨queue', eq, unsized'⟩ := unsized.readStep_blocks times head.1 head.2 msgBytes
    rw [eq]
    refine ⟨fun _ => ⟨_, _, [], bytes, rest, unsized', passes, head⟩, ?_⟩
    intro code r ret
    cases ret
    exact ⟨rfl, fun i => (unsized'.packets i).txBufSize⟩
  | cons chunk ahead =>
    obtain ⟨keeps, other⟩ := passes chunk List.mem_cons_self
    obtain ⟨queue', msgBytes', eq, unsized'⟩ := unsized.readStep_passes times keeps other msgBytes
    rw [eq]
    refine ⟨fun _ => ⟨_, _, ahead, bytes, rest, unsized',
      fun c hc => passes c (List.mem_cons_of_mem _ hc), head⟩, ?_⟩
    intro code r ret
    cases ret

theorem Blocked.step {a : ConnectionAction} (h : Blocked s) (hact : s.act times a = some s') :
    Blocked s' := by
  cases a with
  | step a =>
    obtain ⟨system, next, rfl⟩ := Option.map_eq_some_iff.mp hact
    cases a with
    | request r => exact h.request next
    | beginRead =>
      rw [System.act_beginRead next]
      exact h
    | iterateRead =>
      obtain ⟨msgBytes, reading, -, rfl⟩ := System.act_iterateRead next
      exact (h.readStep times msgBytes).1 reading
    | packetSent =>
      rw [System.act_packetSent next]
      obtain ⟨_, _, ahead, bytes, rest, unsized, passes, head⟩ := h
      exact ⟨_, _, ahead, bytes, rest, unsized.sent, passes, head⟩
  | onMtuChanged mtuSize =>
    change (if s.connected then none else _) = some s' at hact
    split at hact
    · cases hact
    · obtain ⟨system, next, rfl⟩ := Option.map_eq_some_iff.mp hact
      exact h.request next

/-- The condition is exact for calls: one that is accepted too early blocks the queue, whatever
follows. Until the next reset the reader gives up whenever it returns, and all packets are empty. -/
theorem early_call_blocks {context : Context maxSize packetCount}
    {txRunningStatus txNoteOffAsNoteOn : Bool} (hmax : 5 ≤ maxSize)
    {s₁ s₂ : Connection maxSize packetCount}
    (h : Reach (act times) InTime
      (initial (contextReset context txRunningStatus txNoteOffAsNoteOn).txQueue) s)
    (hconnected : s.connected = false) {r : Request} (hkeeps : r.KeepsSize) (hblocks : r.Blocks)
    (hroom : 3 ≤ s.system.queue.fifo.getFreeSpace)
    (hcall : s.act times (.step (.request r)) = some s₁)
    (hrun : Reach (act times) (fun _ _ => True) s₁ s₂) (msgBytes : MessageBytes)
    (code : TxQueueError) (queue' : TxQueue maxSize packetCount)
    (hret : TxQueue.readStep times s₂.system.queue msgBytes = .ret (code, queue')) :
    code = .noTxPackets ∧ ∀ i, (queue'.txPackets i).txBufSize = 0 := by
  have blocked : Blocked s₁ := by
    rcases inv_run hmax h with ⟨runningStatusEnabled, noteOffAsNoteOn, queued, unsized, opening⟩ |
      ⟨already, -⟩
    swap
    · cases hconnected.symm.trans already
    obtain ⟨system, next, rfl⟩ := Option.map_eq_some_iff.mp hcall
    have done := hblocks.exec s.system.queue
    rw [if_neg (Nat.not_lt.mpr hroom)] at done
    unfold System.act at next
    rcases r.exec_appends s.system.queue with ⟨failed, eq⟩ | ⟨count, fifo, eq, written⟩
    · cases done.symm.trans (congrArg Prod.fst eq)
    · simp only [eq] at next
      cases next
      have chunk := Request.chunk_keepsSize hkeeps eq
      have blocks := (Request.chunk_blocks r count).mpr hblocks
      have more := unsized.append (show _ = _ ++ (r.chunk count).encode from written)
      cases hr : r.chunk count with
      | threeBytes bytes =>
        rw [hr] at chunk blocks more
        rw [hconnected] at opening
        exact ⟨_, _, queued, bytes, [], more, opening.all_pass rfl, chunk.1, blocks⟩
      | data bytes =>
        rw [hr] at blocks
        exact blocks.elim
      | packetSize size =>
        rw [hr] at blocks
        exact blocks.elim
  exact ((hrun.invariant blocked fun blocked _ next => blocked.step next).readStep times
    msgBytes).2 code queue' hret

end Connection

end BleMidi.Service
