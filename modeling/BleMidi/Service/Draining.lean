/- Module: BleMidi/Service/Draining
   source: ble_midi/src/ble_midi.c (tx_pending_packets_work_cb, radio_notif_handler,
     ble_midi_tx_flush), ble_midi/src/tx_queue.c
   digest: Radio notifications that each get a packet through send all that was accepted. -/

import BleMidi.Queue.Progress
import BleMidi.Service.Notify

set_option autoImplicit false
set_option relaxedAutoImplicit false

namespace BleMidi.Service

open BleMidi.Core.Runs
open BleMidi.Packet.PacketStream
open BleMidi.Packet.PacketWriter
open BleMidi.Queue
open BleMidi.Queue.TxQueue

variable {maxSize packetCount : Nat} [NeZero packetCount]

/-- The loop of `tx_pending_packets_work_cb` with what `bt_gatt_notify_cb` returns in it, if that is
enough for the loop to end. -/
def sendPackets : List SendResult → System maxSize packetCount → Option (System maxSize packetCount)
  | [], s =>
      match s.queue.firstTxPacket with
      | none => some s
      | some _ => none
  | sendResult :: results, s =>
      match s.queue.firstTxPacket with
      | none => some s
      | some packet =>
          match sendResult with
          | .success =>
              sendPackets results { s with
                queue := s.queue.onTxPacketSent.2
                sent := s.sent ++ [packet.payload] }
          | _ => some s

/-- A call of `radio_notif_handler` that waits for no notification, and `tx_pending_packets_work_cb`
if it is submitted. This is what `ble_midi_tx_flush` does, too. -/
def radioNotif (times : Nat → UInt16) (fuel : Nat) (results : List SendResult)
    (s : System maxSize packetCount) : Option (System maxSize packetCount) :=
  if s.queue.hasTxData = true ∨ s.queue.fifo.isEmpty = false then
    (readFromFifo times fuel s.queue).bind fun (_, queue) =>
      sendPackets results { s with queue := queue }
  else some s

def radioNotifs (times : Nat → UInt16) (fuel : Nat) :
    List (List SendResult) → System maxSize packetCount → Option (System maxSize packetCount)
  | [], s => some s
  | results :: events, s =>
      (radioNotif times fuel results s).bind (radioNotifs times fuel events)

/-- At least one packet gets through, and there is a result for every packet of the ring. -/
def GetsThrough (packetCount : Nat) (results : List SendResult) : Prop :=
  results.head? = some .success ∧ packetCount ≤ results.length

instance (packetCount : Nat) : DecidablePred (GetsThrough packetCount) :=
  fun _ => inferInstanceAs (Decidable (_ ∧ _))

variable {settings : Settings maxSize} {times : Nat → UInt16} {s : System maxSize packetCount}

private theorem sendPackets_flows (results : List SendResult) :
    ∀ {s : System maxSize packetCount}, Flows settings s →
      (s.queue.hasTxData = true → s.queue.txPacketCount ≤ results.length) →
      ∃ s', sendPackets results s = some s' ∧ Flows settings s' ∧ s'.accepted = s.accepted ∧
        s'.queue.backlog ≤ s.queue.backlog ∧
        (s.queue.hasTxData = true → results.head? = some .success →
          s'.queue.backlog < s.queue.backlog) := by
  induction results with
  | nil =>
    intro s h enough
    have off : s.queue.hasTxData = false := by
      by_contra set
      obtain ⟨_, _, _, _, conserves⟩ := h.conserves
      have pos := conserves.steady.window.pos
      have none := enough (Bool.eq_true_of_not_eq_false set)
      rw [List.length_nil] at none
      omega
    refine ⟨s, ?_, h, rfl, le_rfl, fun _ some => absurd some (by simp)⟩
    rw [sendPackets, firstTxPacket, off]
    rfl
  | cons sendResult results ih =>
    intro s h enough
    cases flag : s.queue.hasTxData with
    | false =>
      refine ⟨s, ?_, h, rfl, le_rfl, fun set => by cases set⟩
      rw [sendPackets, firstTxPacket, flag]
      rfl
    | true =>
      have first : s.queue.firstTxPacket = some (s.queue.txPackets s.queue.firstSlot) := by
        rw [firstTxPacket, flag]
        rfl
      obtain ⟨flows, less⟩ := h.packetSent flag
      rw [first] at flows
      rw [sendPackets, first]
      cases sendResult with
      | success =>
        have enough' : s.queue.onTxPacketSent.2.hasTxData = true →
            s.queue.onTxPacketSent.2.txPacketCount ≤ results.length := by
          have most := enough flag
          rw [List.length_cons] at most
          rw [onTxPacketSent_eq flag]
          by_cases one : s.queue.txPacketCount ≤ 1
          · rw [if_pos one]
            intro set
            cases set
          · rw [if_neg one]
            intro _
            change s.queue.txPacketCount - 1 ≤ results.length
            omega
        obtain ⟨s', sent, flows', accepted, le, -⟩ := ih flows enough'
        exact ⟨s', sent, flows', accepted, le.trans (Nat.le_of_lt less),
          fun _ _ => Nat.lt_of_le_of_lt le less⟩
      | noMem => exact ⟨s, rfl, h, rfl, le_rfl, fun _ other => by cases other⟩
      | error => exact ⟨s, rfl, h, rfl, le_rfl, fun _ other => by cases other⟩

/-- A radio notification that finds something to do makes the backlog smaller, and one that does
not leaves everything as it is. -/
private theorem radioNotif_flows (h : Flows settings s) {fuel : Nat}
    (hfuel : s.queue.backlog < fuel) {results : List SendResult}
    (hresults : GetsThrough packetCount results) :
    ∃ s', radioNotif times fuel results s = some s' ∧ Flows settings s' ∧
      s'.accepted = s.accepted ∧
      (s'.queue.backlog < s.queue.backlog ∨
        s' = s ∧ s.queue.hasTxData = false ∧ s.queue.fifo.bytes = []) := by
  by_cases work : s.queue.hasTxData = true ∨ s.queue.fifo.isEmpty = false
  · rw [radioNotif, if_pos work]
    obtain ⟨code, queue, returned, flows, le, done⟩ := Flows.read fuel ⟨0, 0, 0⟩ h hfuel
    have read : readFromFifo times fuel s.queue = some (code, queue) := returned
    have set : queue.hasTxData = true := by
      rcases done with set | ⟨rfl, empty⟩
      · exact set
      · refine work.resolve_right fun some => ?_
        rw [Fifo.isEmpty, empty] at some
        cases some
    have enough : queue.hasTxData = true → queue.txPacketCount ≤ results.length := by
      intro _
      obtain ⟨_, _, _, _, conserves⟩ := flows.conserves
      exact conserves.steady.window.le.trans hresults.2
    obtain ⟨s', sent, flows', accepted, -, less⟩ := sendPackets_flows results flows enough
    rw [read]
    exact ⟨s', sent, flows', accepted, .inl (Nat.lt_of_lt_of_le (less set hresults.1) le)⟩
  · rw [radioNotif, if_neg work]
    rw [not_or] at work
    refine ⟨s, rfl, h, rfl, .inr ⟨rfl, Bool.eq_false_of_not_eq_true work.1, ?_⟩⟩
    exact List.isEmpty_iff.mp (Bool.eq_true_of_not_eq_false work.2)

private theorem radioNotifs_flows {fuel : Nat} (events : List (List SendResult))
    (hevents : ∀ results ∈ events, GetsThrough packetCount results) :
    ∀ {s : System maxSize packetCount}, Flows settings s → chunksOpen false s.accepted = false →
      s.queue.backlog < fuel → s.queue.backlog ≤ events.length →
      ∃ s', radioNotifs times fuel events s = some s' ∧ Flows settings s' ∧
        s'.accepted = s.accepted ∧ s'.queue.hasTxData = false ∧ s'.queue.fifo.bytes = [] := by
  induction events with
  | nil =>
    intro s h _ _ hmany
    have none : s.queue.backlog = 0 := Nat.le_zero.mp hmany
    unfold backlog at none
    have off : s.queue.hasTxData = false := by
      by_contra set
      obtain ⟨_, _, _, _, conserves⟩ := h.conserves
      have pos := conserves.steady.window.pos
      rw [if_pos (Bool.eq_true_of_not_eq_false set)] at none
      omega
    exact ⟨s, rfl, h, rfl, off, List.eq_nil_of_length_eq_zero (by omega)⟩
  | cons results events ih =>
    intro s h hclosed hfuel hmany
    obtain ⟨first, rest⟩ := List.forall_mem_cons.mp hevents
    obtain ⟨t, handled, flows, accepted, progress⟩ := radioNotif_flows h hfuel first
    rw [List.length_cons] at hmany
    rw [radioNotifs, handled]
    rcases progress with less | ⟨rfl, off, empty⟩
    · obtain ⟨s', run, flows', accepted', done⟩ :=
        ih rest flows (by rw [accepted]; exact hclosed) (less.trans hfuel) (by omega)
      exact ⟨s', run, flows', accepted'.trans accepted, done⟩
    · -- Nothing is left to do, and the other notifications find nothing either.
      have none : t.queue.backlog = 0 := by
        unfold backlog
        rw [(h.drained hclosed empty off).1, empty, off]
        rfl
      obtain ⟨s', run, flows', accepted', done⟩ := ih rest flows hclosed hfuel (by omega)
      exact ⟨s', run, flows', accepted', done⟩

/-- From every state that orderly calls can lead to, radio notifications that each get at least one
packet through send all that was accepted, and their number is bounded by what is left to do. Each
call of the reader returns within that many iterations. -/
theorem radioNotifs_drain
    (h : System.Reachable times settings
      (System.permit (fun s r => Orderly packetCount s.accepted r) fun _ => True) s)
    (hclosed : chunksOpen false s.accepted = false) {fuel : Nat} (hfuel : s.queue.backlog < fuel)
    {events : List (List SendResult)}
    (hevents : ∀ results ∈ events, GetsThrough packetCount results)
    (hmany : s.queue.backlog ≤ events.length) :
    ∃ s', radioNotifs times fuel events s = some s' ∧ s'.queue.fifo.bytes = [] ∧
      s'.queue.numRemainingDataBytes = 0 ∧ s'.queue.hasTxData = false ∧
      receiveAll false s'.sent = some (s.accepted.flatMap (Chunk.events settings)) := by
  have flows : Flows settings s := flows_run (fun permitted => permitted) h
  obtain ⟨s', run, flows', accepted, off, empty⟩ :=
    radioNotifs_flows events hevents flows hclosed hfuel hmany
  obtain ⟨remaining, received⟩ := flows'.drained (by rw [accepted]; exact hclosed) empty off
  rw [accepted] at received
  exact ⟨s', run, empty, remaining, off, received⟩

/-- A sysex message in a single packet of five bytes, where only the first packet of each radio
notification gets through. -/
theorem radioNotifs_drain_sysex : ∃ s : System 8 1,
    (s.accepted =
        [.threeBytes ⟨0xf0, 0, 0⟩, .data [1, 2, 3, 4, 5, 6, 7], .threeBytes ⟨0xf7, 0, 0⟩] ∧
      s.queue.backlog = 27 ∧ s.sent = []) ∧
    ∃ s', radioNotifs millisecondClock 28 (List.replicate 27 [.success, .noMem]) s = some s' ∧
      s'.queue.fifo.bytes = [] ∧ s'.queue.numRemainingDataBytes = 0 ∧
      s'.queue.hasTxData = false ∧
      receiveAll false s'.sent = some (s.accepted.flatMap (Chunk.events fiveBytes)) := by
  obtain ⟨s, reached, state⟩ := System.exists_reachable millisecondClock fiveBytes
    (System.permit (fun s r => Orderly 1 s.accepted r) fun _ => True)
    (fun s => s.accepted =
        [.threeBytes ⟨0xf0, 0, 0⟩, .data [1, 2, 3, 4, 5, 6, 7], .threeBytes ⟨0xf7, 0, 0⟩] ∧
      s.queue.backlog = 27 ∧ s.sent = []) (blankQueue 8 1 32)
    [.request .addSysexStart, .request (.addSysexData [1, 2, 3, 4, 5, 6, 7]),
      .request .addSysexEnd, .beginRead, .iterateRead]
    (by decide +kernel)
  refine ⟨s, state, radioNotifs_drain reached ?_ ?_ ?_ ?_⟩
  · rw [state.1]
    rfl
  · rw [state.2.1]
    decide
  · intro results hresults
    rw [List.eq_of_mem_replicate hresults]
    decide
  · rw [state.2.1, List.length_replicate]

end BleMidi.Service
