/- Module: BleMidi/Queue/Timing
   source: ble_midi/src/tx_queue.c, ble_midi/src/ble_midi_packet.c
   digest: With which timestamps messages come out of the queue. -/

import BleMidi.Queue.Messages

set_option autoImplicit false
set_option relaxedAutoImplicit false

namespace BleMidi.Queue

open BleMidi.Core.Runs
open BleMidi.Packet.Bytes
open BleMidi.Packet.PacketParser
open BleMidi.Packet.Grammar
open BleMidi.Packet.Timestamps
open BleMidi.Packet.PacketWriter
open BleMidi.Packet.WriterSpec
open BleMidi.Packet.WriterPieces
open BleMidi.Packet.WriterSimulation
open BleMidi.Packet.PacketStream
open TxQueue

/-- The bytes of a message and the time at which it was written into its packet. -/
structure Stamp where
  bytes : List UInt8
  time : UInt16
  deriving DecidableEq

def Stamp.event (stamp : Stamp) : Event := .midiMessage stamp.bytes stamp.time

/-- The event with its timestamp as it was, up to the wrap of thirteen bits. -/
def Stamp.exact (stamp : Stamp) : Event := .midiMessage stamp.bytes (wrapped stamp.time)

/-- Each message of a packet is at most 127 ms later than the one before. -/
def Paced (stamps : List Stamp) : Prop := (stamps.map Stamp.time).IsChain Advances

instance : DecidablePred Paced := fun _ => inferInstanceAs (Decidable (List.IsChain _ _))

section Packet

/-- A clock rebuilds the timestamps of messages in a row exactly when each is at most 127 ms later
than the one before. -/
private theorem reports_exact_iff (t : UInt16) (stamps : List Stamp) :
    (Receiver.at false t).reports (stamps.map Stamp.event) = stamps.map Stamp.exact ↔
      (t :: stamps.map Stamp.time).IsChain Advances := by
  induction stamps generalizing t with
  | nil => simp [Receiver.reports]
  | cons stamp stamps ih =>
    have head : (Receiver.at false t).report stamp.event = stamp.exact ↔
        Advances t stamp.time := by
      rw [← rebuilt_iff false]
      simp [Receiver.report, Receiver.track, Stamp.event, Stamp.exact, mapTime, time?,
        Receiver.at]
    simp only [List.map_cons, Receiver.reports, List.cons.injEq, List.isChain_cons_cons, head]
    refine and_congr_right fun advances => ?_
    have next : (Receiver.at false t).next stamp.event = Receiver.at false stamp.time := by
      have seen : (Receiver.at false t).track stamp.event = Receiver.at false stamp.time :=
        see_at false advances
      rw [Receiver.next, seen]
      rfl
    rw [next]
    exact ih stamp.time

/-- What the parser makes of a packet with the given messages: all of them, and with their
timestamps exactly when each is at most 127 ms later than the one before. -/
structure ParsesAs (packet : List UInt8) (stamps : List Stamp) : Prop where
  halt : (parsePacket packet).halt = .returned .success
  messages : (parsePacket packet).callbacks.map untimed =
    stamps.map fun stamp => .message stamp.bytes
  timed : (parsePacket packet).callbacks = stamps.map Stamp.exact ↔ Paced stamps

theorem parsesAs_of_carries {maxSize : Nat} {w : Writer maxSize} {stamps : List Stamp}
    (h : Carries false w (stamps.map Stamp.event)) (hwritten : w.payload ≠ []) :
    ParsesAs w.payload stamps := by
  obtain ⟨t, ⟨first, head, time⟩, halt, callbacks⟩ := h.parse hwritten
  refine ⟨halt, ?_, ?_⟩
  · rw [callbacks, Receiver.untimed_reports, List.map_map]
    rfl
  · cases stamps with
    | nil => cases head
    | cons stamp stamps =>
      obtain rfl := Option.some.inj head
      have at' := reports_start time (stamps.map Stamp.event)
      obtain rfl : stamp.time = t := Option.some.inj time
      rw [callbacks, List.map_cons, at', ← List.map_cons, reports_exact_iff, Paced]
      exact ⟨fun chain => chain.tail, fun chain => List.IsChain.cons_cons (.refl _) chain⟩

end Packet

variable {maxSize packetCount : Nat} {settings : Settings maxSize} [NeZero packetCount]
  {times : Nat → UInt16}

/-- The packets in front of the current one and the current one hold the stamped messages, and the
stamps are readings of the clock, each later than the one before. -/
structure Stamped (times : Nat → UInt16) (sent : List (List UInt8))
    (queue : TxQueue maxSize packetCount) (finished : List (List Stamp)) (current : List Stamp) :
    Prop where
  done : List.Forall₂ ParsesAs (sent ++ queue.front.map Writer.payload) finished
  carries : Carries false queue.lastTxPacket (current.map Stamp.event)
  shown : Shown times queue.clock ((finished.flatten ++ current).map Stamp.time)

/-- The stamp of a message that goes into a packet. -/
def Settings.stamp (settings : Settings maxSize) (bytes : MessageBytes) (time : UInt16) : Stamp :=
  ⟨delivered settings.runningStatusEnabled settings.noteOffAsNoteOn bytes, time⟩

private theorem openAfter_stamps (stamps : List Stamp) :
    openAfter false (stamps.map Stamp.event) = false := by
  induction stamps with
  | nil => rfl
  | cons stamp stamps ih => exact ih

private theorem carries_addMsg {bytes : MessageBytes} {w w' : Writer maxSize} {t : UInt16}
    {stamps : List Stamp} (h : SteadyPacket settings w) (hclear : w.inSysexMsg = false)
    (hvalid : ValidMessage bytes) (hadd : writerAddMsg w bytes t = (.success, w'))
    (hcarries : Carries false w (stamps.map Stamp.event)) :
    Carries false w' ((stamps ++ [settings.stamp bytes t]).map Stamp.event) := by
  rw [writerAddMsg_outside hclear hvalid, added] at hadd
  by_cases room : HasRoom w (messageBytesToAppend w bytes t)
  · rw [if_pos room] at hadd
    cases hadd
    rw [List.map_append, Settings.stamp, ← h.runningStatusEnabled, ← h.noteOffAsNoteOn]
    exact hcarries.addMsg (openAfter_stamps stamps) hvalid room
  · rw [if_neg room] at hadd
    cases hadd

namespace Stamped

variable {sent : List (List UInt8)} {queue : TxQueue maxSize packetCount}
  {finished : List (List Stamp)} {current : List Stamp}

theorem tick (h : Stamped times sent queue finished current) :
    Stamped times sent queue.tick finished current :=
  ⟨h.done, h.carries, h.shown.tick⟩

private theorem written (h : Stamped times sent queue finished current)
    {queue' : TxQueue maxSize packetCount} {stamp : Stamp} (hfront : queue'.front = queue.front)
    (hclock : queue'.clock = queue.clock + 1) (htime : stamp.time = times queue.clock)
    (hcarries : Carries false queue'.lastTxPacket ((current ++ [stamp]).map Stamp.event)) :
    Stamped times sent queue' finished (current ++ [stamp]) := by
  refine ⟨?_, hcarries, ?_⟩
  · rw [hfront]
    exact h.done
  · rw [hclock, ← List.append_assoc, List.map_append, List.map_singleton, htime]
    exact h.shown.now

private theorem push (h : Stamped times sent queue finished current)
    (hsteady : Steady settings queue) (hlast : queue.lastTxPacket.txBufSize ≠ 0)
    (hlt : queue.txPacketCount < packetCount) :
    Stamped times sent queue.push (finished ++ [current]) [] := by
  have fits := hsteady.last.fits
  have payload : queue.lastTxPacket.payload ≠ [] := by
    rw [ne_eq, payload_eq_nil (fits.size_le.trans fits.max_le)]
    exact hlast
  refine ⟨?_, ?_, ?_⟩
  · rw [hsteady.window.front_push hlt, List.map_append, ← List.append_assoc]
    exact List.rel_append h.done (.cons (parsesAs_of_carries h.carries payload) .nil)
  · rw [lastTxPacket_push hlt]
    exact carries_reset _ (hsteady.packets _).fits.max_le
  · rw [push_clock hlt, List.flatten_append, List.flatten_singleton, List.append_nil]
    exact h.shown

/-- A valid message is written with the time, into the current packet or the next one, or there is
no packet with room for it. -/
private theorem add3 (h : Stamped times sent queue finished current)
    (hsteady : Steady settings queue) (hclear : Flags false queue) {bytes : MessageBytes}
    (hvalid : ValidMessage bytes) :
    add3ByteChunkToTxPacket times queue bytes = (.noTxPackets, queue.tick) ∨
      ∃ queue' finished' current',
        add3ByteChunkToTxPacket times queue bytes = (.success, queue') ∧
        Stamped times sent queue' finished' current' ∧
        finished'.flatten ++ current' =
          finished.flatten ++ current ++ [settings.stamp bytes (times queue.clock)] := by
  have case := add3_message times hsteady hclear hvalid
  generalize add3ByteChunkToTxPacket times queue bytes = r at case ⊢
  cases case with
  | @added w eq =>
    have current' := lastTxPacket_setLastTxPacket queue.tick w
    refine .inr ⟨_, finished, current ++ [settings.stamp bytes (times queue.clock)], rfl,
      h.written ?_ rfl rfl ?_, ?_⟩
    · exact hsteady.tick.window.front_setLastTxPacket _
    · change Carries false (queue.tick.setLastTxPacket w).lastTxPacket _
      rw [current']
      exact carries_addMsg hsteady.last hclear.last hvalid eq h.carries
    · rw [List.append_assoc]
  | full eq le => exact .inl rfl
  | @addedNext w eq written free eq' =>
    have next := SteadyPacket.reset queue.nextTxPacket (hsteady.packets _)
    have pushed := h.push hsteady written free
    have steady := hsteady.tick.push free
    have current' := lastTxPacket_setLastTxPacket queue.tick.push w
    have clock : queue.push.clock = queue.clock := push_clock free
    have clock' : queue.tick.push.clock = queue.clock + 1 := push_clock free
    refine .inr ⟨_, finished ++ [current], [] ++ [settings.stamp bytes (times queue.clock)], rfl,
      pushed.written ?_ (clock'.trans (congrArg (· + 1) clock.symm)) ?_ ?_, ?_⟩
    · have front := hsteady.window.front_push free
      have front' : queue.tick.push.front = _ := hsteady.tick.window.front_push free
      exact (steady.window.front_setLastTxPacket w).trans (front'.trans front.symm)
    · exact congrArg times clock.symm
    · change Carries false (queue.tick.push.setLastTxPacket w).lastTxPacket _
      rw [current']
      exact carries_addMsg next (hclear _) hvalid eq'
        (carries_reset _ (hsteady.packets _).fits.max_le)
    · simp

private theorem packetSent (h : Stamped times sent queue finished current)
    (hsteady : Steady settings queue)
    (hcurrent : queue.hasTxData = true → queue.lastTxPacket.txBufSize ≠ 0) :
    ∃ finished' current', Stamped times
        (sent ++ (queue.firstTxPacket.map Writer.payload).toList) queue.onTxPacketSent.2
        finished' current' ∧
      finished'.flatten ++ current' = finished.flatten ++ current := by
  have clock := onTxPacketSent_clock queue
  have flag {w : Writer maxSize} (popped : queue.firstTxPacket = some w) :
      queue.hasTxData = true := by
    by_contra clear
    rw [firstTxPacket, if_neg clear] at popped
    cases popped
  have case := hsteady.window.sent_case
  generalize queue.firstTxPacket = first at case flag ⊢
  generalize queue.onTxPacketSent.2 = queue' at case clock ⊢
  cases case with
  | none => exact ⟨finished, current, by simpa using h, rfl⟩
  | only alone =>
    have fits := hsteady.last.fits
    have payload : queue.lastTxPacket.payload ≠ [] := by
      rw [ne_eq, payload_eq_nil (fits.size_le.trans fits.max_le)]
      exact hcurrent (flag rfl)
    have current' := lastTxPacket_setLastTxPacket queue (writerReset queue.lastTxPacket)
    refine ⟨finished ++ [current], [], ⟨?_, ?_, ?_⟩, by simp⟩
    · have none : ((queue.setLastTxPacket (writerReset queue.lastTxPacket)).setHasTxData
          false).front = [] := (hsteady.window.front_setLastTxPacket _).trans alone
      have done := h.done
      rw [alone] at done
      rw [none]
      have both := List.rel_append done (.cons (parsesAs_of_carries h.carries payload) .nil)
      simpa using both
    · change Carries false (queue.setLastTxPacket (writerReset queue.lastTxPacket)).lastTxPacket []
      rw [current']
      exact carries_reset _ fits.max_le
    · rw [List.flatten_append, List.flatten_singleton, List.append_nil]
      exact h.shown
  | first popped last same =>
    refine ⟨finished, current, ⟨?_, ?_, ?_⟩, rfl⟩
    · have done := h.done
      rw [popped] at done
      simpa using done
    · rw [last]
      exact h.carries
    · rw [clock]
      exact h.shown

end Stamped

section Run

variable {s : System maxSize packetCount}

/-- The consumed messages are in the packets, with their stamps. -/
private def Told (times : Nat → UInt16) (settings : Settings maxSize) (sent : List (List UInt8))
    (queue : TxQueue maxSize packetCount) (consumed : List Chunk) : Prop :=
  ∃ finished current, Stamped times sent queue finished current ∧
    (finished.flatten ++ current).map (fun stamp => MidiEvent.message stamp.bytes) =
      consumed.flatMap (Chunk.events settings)

private theorem told_start {queue : TxQueue maxSize packetCount} (fresh : Fresh settings queue) :
    Told times settings [] queue [] := by
  obtain ⟨size, running, -⟩ := fresh.empty.last
  have alone : queue.front = [] := by
    rw [front, fresh.single]
    exact Core.RingWindow.window_zero _ _
  have payload : queue.lastTxPacket.payload = [] := by
    have fits := fresh.steady.last.fits
    exact (payload_eq_nil (fits.size_le.trans fits.max_le)).mpr size
  refine ⟨[], [], ⟨?_, ?_, .nil _ _⟩, rfl⟩
  · rw [alone]
    exact .nil
  · exact ⟨fresh.steady.last.fits, .inl ⟨payload, running, rfl⟩⟩

private theorem told_kept :
    Kept times settings (@Told maxSize packetCount _ times settings) where
  start started := told_start (System.start_fresh started)
  withFifo := by
    rintro sent queue consumed fifo ⟨finished, current, stamped, heard⟩
    exact ⟨finished, current, ⟨stamped.done, stamped.carries, stamped.shown⟩, heard⟩
  tick := by
    rintro sent queue consumed ⟨finished, current, stamped, heard⟩
    exact ⟨finished, current, stamped.tick, heard⟩
  add3 := by
    rintro sent queue consumed bytes ⟨finished, current, stamped, heard⟩ steady clear valid
    rcases stamped.add3 steady clear valid with
      eq | ⟨queue', finished', current', eq, stamped', added⟩
    · exact .inl eq
    · refine .inr ⟨queue', eq, finished', current', stamped', ?_⟩
      have message := isMessage_of_valid valid
      rw [added, List.map_append, heard, List.flatMap_append, List.flatMap_singleton]
      simp only [Chunk.events, if_neg message.1, if_neg message.2]
      rfl
  packetSent := by
    rintro sent queue consumed ⟨finished, current, stamped, heard⟩ steady - written
    obtain ⟨finished', current', stamped', same⟩ := stamped.packetSent steady written
    refine ⟨finished', current', stamped', ?_⟩
    rw [same]
    exact heard

private theorem ParsesAs.ne_nil {packet : List UInt8} {stamps : List Stamp}
    (h : ParsesAs packet stamps) : packet ≠ [] := by
  rintro rfl
  cases h.halt

private theorem packets_ne_nil {packets : List (List UInt8)} {stamps : List (List Stamp)}
    (h : List.Forall₂ ParsesAs packets stamps) : ∀ packet ∈ packets, packet ≠ [] := by
  induction h with
  | nil => simp
  | cons first _ ih => exact List.forall_mem_cons.mpr ⟨first.ne_nil, ih⟩

/-- Packets of eight bytes. -/
def eightBytes : Settings 8 := ⟨8, true, true, by decide, by decide⟩

/-- A 13 bit clock that advances by 100 ms between its readings. -/
def slowClock (n : Nat) : UInt16 := UInt16.ofNat (8150 + 100 * n)

/-- The messages come out of the packets, each with the time that the clock showed when the reader
wrote it, in increasing order: the parser rebuilds the timestamps of a packet exactly when no
message of it comes more than 127 ms behind the one before. -/
theorem messages_timed (h : System.Reachable times settings
      (System.permit (fun _ r => r.IsMessage) fun _ => True) s) :
    ∃ (consumed queued : List Chunk) (stamps : List (List Stamp)) (readings : List Nat),
      s.accepted = consumed ++ queued ∧ s.queue.fifo.Holds queued ∧
      stamps.flatten.map (fun stamp => MidiEvent.message stamp.bytes) =
        consumed.flatMap (Chunk.events settings) ∧
      stamps.flatten.map Stamp.time = readings.map times ∧ readings.Pairwise (· < ·) ∧
      (∀ n ∈ readings, n < s.queue.clock) ∧
      List.Forall₂ ParsesAs (s.sent ++ (s.queue.packets.map Writer.payload).filter (· ≠ []))
        stamps := by
  obtain ⟨consumed, queued, accepted, held, finished, current, stamped, heard⟩ := told_kept.run h
  obtain ⟨readings, shown, increasing, past⟩ := stamped.shown
  obtain ⟨-, _, _, _, conserves⟩ := conserves_messages h
  have written := packets_ne_nil stamped.done
  have ahead : (s.queue.front.map Writer.payload).filter (· ≠ []) =
      s.queue.front.map Writer.payload := by
    rw [List.filter_eq_self]
    intro packet hpacket
    simpa using written packet (List.mem_append_right _ hpacket)
  have window : (s.queue.packets.map Writer.payload).filter (· ≠ []) =
      s.queue.front.map Writer.payload ++ [s.queue.lastTxPacket.payload].filter (· ≠ []) := by
    rw [conserves.steady.window.packets_eq, List.map_append, List.filter_append, ahead]
    rfl
  rw [window, ← List.append_assoc]
  by_cases empty : s.queue.lastTxPacket.payload = []
  · have none : current = [] := by
      rcases stamped.carries.shown with ⟨-, -, nothing⟩ | ⟨t, body, state, view⟩
      · exact List.map_eq_nil_iff.mp nothing
      · rw [view.payload] at empty
        cases empty
    subst none
    rw [List.append_nil] at heard
    refine ⟨consumed, queued, finished, readings, accepted, held, heard, ?_, increasing,
      past, ?_⟩
    · rw [← shown, List.append_nil]
    · rw [empty]
      simpa using stamped.done
  · refine ⟨consumed, queued, finished ++ [current], readings, accepted, held, ?_, ?_,
      increasing, past, ?_⟩
    · rw [List.flatten_append, List.flatten_singleton]
      exact heard
    · rw [List.flatten_append, List.flatten_singleton]
      exact shown
    · have last : [s.queue.lastTxPacket.payload].filter (· ≠ []) =
          [s.queue.lastTxPacket.payload] := by simp [empty]
      rw [last]
      exact List.rel_append stamped.done (.cons (parsesAs_of_carries stamped.carries empty) .nil)

/-- Two messages in a packet of eight bytes, 100 ms apart across the wrap of the clock, one behind
them in the next packet and one in the FIFO. -/
theorem messages_timed_wrap : ∃ s : System 8 2,
    (s.sent = [[0xbf, 0xd6, 0x90, 0x40, 0x7f, 0xba, 0x41, 0x7f]] ∧
      s.queue.packets.map Writer.payload = [[0x81, 0x9e, 0x90, 0x42, 0x7f]]) ∧
    ∃ (consumed queued : List Chunk) (stamps : List (List Stamp)) (readings : List Nat),
      s.accepted = consumed ++ queued ∧ s.queue.fifo.Holds queued ∧
      stamps.flatten.map (fun stamp => MidiEvent.message stamp.bytes) =
        consumed.flatMap (Chunk.events eightBytes) ∧
      stamps.flatten.map Stamp.time = readings.map slowClock ∧ readings.Pairwise (· < ·) ∧
      (∀ n ∈ readings, n < s.queue.clock) ∧
      List.Forall₂ ParsesAs (s.sent ++ (s.queue.packets.map Writer.payload).filter (· ≠ []))
        stamps := by
  obtain ⟨s, reached, packets⟩ := System.exists_reachable slowClock eightBytes
    (System.permit (fun _ r => r.IsMessage) fun _ => True)
    (fun s => s.sent = [[0xbf, 0xd6, 0x90, 0x40, 0x7f, 0xba, 0x41, 0x7f]] ∧
      s.queue.packets.map Writer.payload = [[0x81, 0x9e, 0x90, 0x42, 0x7f]])
    (blankQueue 8 2 32)
    [.request (.addMsg ⟨0x90, 0x40, 0x7f⟩), .request (.addMsg ⟨0x90, 0x41, 0x7f⟩),
      .request (.addMsg ⟨0x90, 0x42, 0x7f⟩), .request (.addMsg ⟨0xf8, 0, 0⟩), .beginRead,
      .iterateRead, .iterateRead, .iterateRead, .packetSent]
    (by decide +kernel)
  exact ⟨s, packets, messages_timed reached⟩

end Run

end BleMidi.Queue
