/- Module: BleMidi/Service/Received
   source: ble_midi/src/ble_midi.c, ble_midi/src/tx_queue.c, ble_midi/src/ble_midi_packet.c
   digest: What a receiver gets from the notifications is what the producer calls were given. -/

import BleMidi.Packet.Standalone
import BleMidi.Queue.Progress
import BleMidi.Service.Transmitter

set_option autoImplicit false
set_option relaxedAutoImplicit false

namespace BleMidi.Service

open BleMidi.Core.Runs
open BleMidi.Core.RingWindow
open BleMidi.Packet.Grammar
open BleMidi.Packet.PacketStream
open BleMidi.Packet.PacketWriter
open BleMidi.Packet.MultiPacket
open BleMidi.Packet.Standalone
open BleMidi.Packet.Truncation (deliveries)
open BleMidi.Queue
open BleMidi.Queue.TxQueue

variable {maxSize packetCount : Nat} {settings : Settings maxSize}

variable [NeZero packetCount]

theorem framed_of_fresh {queue : TxQueue maxSize packetCount} (h : Fresh settings queue) :
    Framed queue [] [] := by
  refine ⟨h.steady.window, ⟨settings.txBufMaxSize, fun i => (h.steady.packets i).txBufMaxSize, ?_⟩,
    h.fifo, ?_, [], Pending.nil h.remaining, Nat.zero_le _⟩
  · intro positive
    exact absurd h.remaining (Nat.ne_of_gt positive)
  · intro chunk hchunk
    cases hchunk

namespace Transmitter

/-- The packets of the window that have not been handed over. -/
def unsent (s : Transmitter maxSize packetCount) : List (Writer maxSize) :=
  if s.work.notifier.pendingWork = .sent then s.work.txQueue.packets.tail
  else s.work.txQueue.packets

variable {times : Nat → UInt16} {s : Transmitter maxSize packetCount}
  {t : System maxSize packetCount}

theorem handed_append_unsent (hwindow : Window s.work.txQueue) :
    s.handed ++ s.unsent.map Writer.payload = s.work.txQueue.packets.map Writer.payload := by
  unfold handed unsent
  by_cases sent : s.work.notifier.pendingWork = .sent
  · obtain ⟨count, more⟩ : ∃ count, s.work.txQueue.txPacketCount = count + 1 :=
      ⟨s.work.txQueue.txPacketCount - 1, by have := hwindow.pos; omega⟩
    rw [if_pos sent, if_pos sent, TxQueue.packets, more, window_pop]
    rfl
  · rw [if_neg sent, if_neg sent]
    rfl

/-- The FIFO in front of the call under way holds the chunks of the calls that have returned and
that were not read yet. -/
theorem Represents.queued (h : Represents times s t) {consumed queued : List Chunk}
    (haccepted : t.accepted = consumed ++ queued) (hheld : t.queue.fifo.Holds queued)
    (hqueued : ∀ chunk ∈ queued, chunk.WellFormed) : ∃ ahead,
      s.accepted = consumed ++ ahead ∧ s.work.fifo.Holds (ahead ++ s.work.writing.written) := by
  obtain ⟨ahead, framed, framed'⟩ := h.inFlight.chunks
  have same : ahead ++ s.work.writing.whole = queued := by
    rw [← framed'.recognised, Fifo.recognised_eq hheld hqueued]
  refine ⟨ahead, ?_, framed.held⟩
  have accepted := h.accepted
  rw [haccepted, ← same, ← List.append_assoc] at accepted
  exact (List.append_cancel_right accepted).symm

theorem exists_started (times : Nat → UInt16) (settings : Settings maxSize)
    (P : List Chunk → Request → Prop) [∀ chunks r, Decidable (P chunks r)]
    (Q : Transmitter maxSize packetCount → Prop) [DecidablePred Q]
    (blank : TxQueue maxSize packetCount) (actions : List WorkAction)
    (h : ((System.start times settings blank).bind fun queue =>
      replay (act times) (permit P) (initial queue) actions).any (fun s => decide (Q s)) = true) :
    ∃ queue, System.start times settings blank = some queue ∧
      ∃ s, Reach (act times) (permit P) (initial queue) s ∧ Q s := by
  obtain ⟨s, replayed, property⟩ := (Option.any_eq_true _ _).mp h
  obtain ⟨queue, started, rest⟩ := Option.bind_eq_some_iff.mp replayed
  exact ⟨queue, started, s, reach_of_replay .start rest, of_decide_eq_true property⟩

theorem exists_conserves {blank queue : TxQueue maxSize packetCount}
    (hstart : System.start times settings blank = some queue)
    (h : Reach (act times) (permit (Orderly packetCount)) (initial queue) s) :
    ∃ t consumed queued data es, s.work.Turns ∧ Represents times s t ∧
      Conserves settings t consumed queued data es := by
  have fresh := System.start_fresh hstart
  obtain ⟨t, run, -, turns, represents⟩ :=
    simulates.reach (represents_initial (framed_of_fresh fresh)) h
  have reachable : System.Reachable times settings (Permits (Orderly packetCount)) t :=
    ⟨blank, queue, hstart, run⟩
  obtain ⟨consumed, queued, data, es, conserves⟩ :=
    (flows_run (fun permitted => permitted.2) reachable).conserves
  exact ⟨t, consumed, queued, data, es, turns, represents, conserves⟩

section Conserves

variable {consumed queued : List Chunk} {data : List UInt8} {es : List MidiEvent}

theorem Represents.notified_ne_nil (h : Represents times s t) (hturns : s.work.Turns)
    (hconserves : Conserves settings t consumed queued data es) :
    ∀ packet ∈ s.notified, packet ≠ [] := by
  rw [h.notified]
  refine List.forall_mem_append.mpr ⟨hconserves.sent, ?_⟩
  unfold handed
  by_cases sent : s.work.notifier.pendingWork = .sent
  · have later := hconserves.packetSent.sent
    rw [h.inFlight.twins.firstTxPacket_payload, firstTxPacket,
      hturns.hasTxData (.inr sent)] at later
    rw [if_pos sent]
    exact (List.forall_mem_append.mp later).2
  · rw [if_neg sent]
    intro packet hpacket
    cases hpacket

/-- The chunks of the calls that have returned, read and in the FIFO. -/
theorem Represents.ahead (h : Represents times s t)
    (hconserves : Conserves settings t consumed queued data es) : ∃ ahead,
      s.accepted = consumed ++ ahead ∧ s.work.fifo.Holds (ahead ++ s.work.writing.written) := by
  have bracketed := hconserves.bracketed
  rw [hconserves.accepted] at bracketed
  refine h.queued hconserves.accepted hconserves.fifo fun chunk hchunk => ?_
  exact (bracketed_keepsSize (bracketed_append.mp bracketed).2 chunk hchunk).1

/-- The notifications and the packets in the window, read one after another. -/
theorem Represents.received (h : Represents times s t)
    (hconserves : Conserves settings t consumed queued data es) : ∃ es',
      receiveAll false (s.notified ++ s.unsent.map Writer.payload) = some es' ∧
      consumed.flatMap (Chunk.events settings) =
        es' ++ s.work.txQueue.remainingData.map .sysexData := by
  obtain ⟨-, -, es', received, heard⟩ := accounted hconserves
  refine ⟨es', ?_, ?_⟩
  · obtain ⟨_, framed, -⟩ := h.inFlight.chunks
    rw [h.notified, List.append_assoc, handed_append_unsent framed.window,
      ← h.inFlight.twins.packets_payload]
    exact received
  · rw [← h.inFlight.twins.remainingData]
    exact heard

end Conserves

/-- What the producer calls were given is what a receiver gets from the packets that were handed
over to `bt_gatt_notify_cb` and from those still in the window, then the pending data, then the
chunks in the FIFO. No notification is empty. -/
theorem transmission_accounted {blank queue : TxQueue maxSize packetCount}
    (hstart : System.start times settings blank = some queue)
    (h : Reach (act times) (permit (Orderly packetCount)) (initial queue) s) :
    (∀ packet ∈ s.notified, packet ≠ []) ∧ ∃ consumed queued es,
      s.accepted = consumed ++ queued ∧ s.work.fifo.Holds (queued ++ s.work.writing.written) ∧
      receiveAll false (s.notified ++ s.unsent.map Writer.payload) = some es ∧
      consumed.flatMap (Chunk.events settings) =
        es ++ s.work.txQueue.remainingData.map .sysexData := by
  obtain ⟨t, consumed, queued, data, es, turns, represents, conserves⟩ :=
    exists_conserves hstart h
  obtain ⟨ahead, accepted, held⟩ := represents.ahead conserves
  obtain ⟨es', received, heard⟩ := represents.received conserves
  exact ⟨represents.notified_ne_nil turns conserves, consumed, ahead, es', accepted, held,
    received, heard⟩

/-- A sysex message in packets of five bytes: a send of the first packet failed and the next one did
not, the second packet is full with data left over, and more data is about to follow its header. -/
theorem transmission_accounted_split : ∃ s : Transmitter 8 1,
    (s.notified = [[0xbf, 0xfe, 0xf0, 1, 2]] ∧
      s.unsent.map Writer.payload = [[0x80, 3, 4, 5, 6]] ∧
      s.work.txQueue.remainingData = [7] ∧ s.work.fifo.bytes = [0x0d, 1, 0]) ∧
    (∀ packet ∈ s.notified, packet ≠ []) ∧ ∃ consumed queued es,
      s.accepted = consumed ++ queued ∧ s.work.fifo.Holds (queued ++ s.work.writing.written) ∧
      receiveAll false (s.notified ++ s.unsent.map Writer.payload) = some es ∧
      consumed.flatMap (Chunk.events fiveBytes) =
        es ++ s.work.txQueue.remainingData.map .sysexData := by
  obtain ⟨queue, started, s, reached, state⟩ := exists_started millisecondClock fiveBytes
    (Orderly 1) (fun s => s.notified = [[0xbf, 0xfe, 0xf0, 1, 2]] ∧
      s.unsent.map Writer.payload = [[0x80, 3, 4, 5, 6]] ∧
      s.work.txQueue.remainingData = [7] ∧ s.work.fifo.bytes = [0x0d, 1, 0]) (blankQueue 8 1 32)
    [.call .addSysexStart, .write, .atomicInc, .submit,
      .call (.addSysexData [1, 2, 3, 4, 5, 6, 7]), .write, .write, .atomicInc, .submit,
      .fifoWork, .fifoWork, .fifoWork, .fifoWork, .fifoWork, .fifoWork, .fifoWork,
      .call (.addSysexData [8]), .write, .radioNotif, .radioNotif, .radioNotif, .radioNotif,
      .pendingWork .error, .pendingWork .error, .pendingWork .error, .pendingWork .error,
      .radioNotif, .radioNotif, .radioNotif, .radioNotif, .pendingWork .success,
      .pendingWork .success, .pendingWork .success, .pendingWork .success, .pendingWork .success,
      .pendingWork .success, .radioNotif, .radioNotif, .radioNotif, .radioNotif,
      .pendingWork .success, .pendingWork .success, .pendingWork .success, .pendingWork .success]
    (by decide +kernel)
  exact ⟨s, state, transmission_accounted started reached⟩

/-- The parser of the library, which takes every notification by itself, delivers a part of what the
producer calls were given, in their order. It succeeds on every notification and delivers all that
the notifications say exactly if none of them begins with a sysex end. -/
theorem transmission_parsed {blank queue : TxQueue maxSize packetCount}
    (hstart : System.start times settings blank = some queue)
    (h : Reach (act times) (permit (Orderly packetCount)) (initial queue) s) : ∃ es rest,
      s.accepted.flatMap (Chunk.events settings) = es ++ rest ∧
      receiveAll false s.notified = some es ∧ (s.notified.flatMap deliveries).Sublist es ∧
      (ParsesTo s.notified es ↔ ∀ packet ∈ s.notified, ¬ EndsFirst packet) := by
  obtain ⟨t, consumed, queued, data, es, turns, represents, conserves⟩ :=
    exists_conserves hstart h
  obtain ⟨ahead, accepted, -⟩ := represents.ahead conserves
  obtain ⟨es', received, heard⟩ := represents.received conserves
  obtain ⟨first, later, notified, rfl⟩ := receiveAll_prefix received
  have nonempty := represents.notified_ne_nil turns conserves
  refine ⟨first, later ++ s.work.txQueue.remainingData.map .sysexData ++
    ahead.flatMap (Chunk.events settings), ?_, notified, deliveries_sublist notified, ?_⟩
  · rw [accepted, List.flatMap_append, heard]
    simp only [List.append_assoc]
  · rw [parsesTo_iff notified]
    exact forall₂_congr fun packet hpacket => and_iff_right (nonempty packet hpacket)

/-- A sysex message whose end begins the second notification. The parser does not deliver it. -/
theorem transmission_parsed_end : ∃ s : Transmitter 8 1,
    (s.notified = [[0xbf, 0xfe, 0xf0, 1, 2], [0x80, 0x80, 0xf7]] ∧
      s.notified.flatMap deliveries = [.sysexStart, .sysexData 1, .sysexData 2]) ∧ ∃ es rest,
      s.accepted.flatMap (Chunk.events fiveBytes) = es ++ rest ∧
      receiveAll false s.notified = some es ∧ (s.notified.flatMap deliveries).Sublist es ∧
      (ParsesTo s.notified es ↔ ∀ packet ∈ s.notified, ¬ EndsFirst packet) := by
  obtain ⟨queue, started, s, reached, state⟩ := exists_started millisecondClock fiveBytes
    (Orderly 1) (fun s => s.notified = [[0xbf, 0xfe, 0xf0, 1, 2], [0x80, 0x80, 0xf7]] ∧
      s.notified.flatMap deliveries = [.sysexStart, .sysexData 1, .sysexData 2])
    (blankQueue 8 1 32)
    [.call .addSysexStart, .write, .atomicInc, .submit,
      .call (.addSysexData [1, 2]), .write, .write, .atomicInc, .submit,
      .fifoWork, .fifoWork, .fifoWork, .fifoWork, .fifoWork, .fifoWork, .fifoWork,
      .radioNotif, .radioNotif, .radioNotif, .radioNotif, .pendingWork .success,
      .pendingWork .success, .pendingWork .success, .pendingWork .success, .pendingWork .success,
      .pendingWork .success, .call .addSysexEnd, .write, .atomicInc, .submit, .radioNotif,
      .radioNotif, .radioNotif, .radioNotif, .pendingWork .success, .pendingWork .success,
      .pendingWork .success, .pendingWork .success, .pendingWork .success]
    (by decide +kernel)
  exact ⟨s, state, transmission_parsed started reached⟩

end Transmitter

end BleMidi.Service
