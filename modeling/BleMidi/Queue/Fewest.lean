/- Module: BleMidi/Queue/Fewest
   source: ble_midi/src/tx_queue.c (add_3_byte_chunk_to_tx_packet, tx_queue_on_tx_packet_sent)
   digest: Messages wait in as few packets as they fit into, and the queue is full only if they fit
     into no packets as many as it has. -/

import BleMidi.Packet.Packing
import BleMidi.Packet.RoundTrip
import BleMidi.Queue.Messages

set_option autoImplicit false
set_option relaxedAutoImplicit false

namespace BleMidi.Queue

open BleMidi.Core.Segmentation
open BleMidi.Core.Runs
open BleMidi.Packet.Bytes
open BleMidi.Packet.PacketWriter
open BleMidi.Packet.WriterSpec
open BleMidi.Packet.WriterTwins
open BleMidi.Packet.Packing
open TxQueue

variable {maxSize packetCount : Nat} {settings : Settings maxSize}

/-- An empty packet with the settings of the queue. -/
def Settings.blank (settings : Settings maxSize) : Writer maxSize :=
  ⟨Vector.replicate maxSize 0, settings.txBufMaxSize, 0, 0, 0, 0, false,
    settings.runningStatusEnabled, settings.noteOffAsNoteOn⟩

/-- The packet holds the messages. -/
def Packed (settings : Settings maxSize) (messages : List Timed) (w : Writer maxSize) : Prop :=
  ∃ v, pack settings.blank messages = some v ∧ Alike v w

theorem blank_hereditary (settings : Settings maxSize) : Hereditary (FitInto settings.blank) :=
  Blank.hereditary ⟨rfl, rfl, rfl⟩

section Packet

variable {w w' : Writer maxSize} {messages : List Timed} {m : Timed}

theorem Packed.fit (h : Packed settings messages w) : FitInto settings.blank messages := by
  obtain ⟨v, packed, -⟩ := h
  exact Option.isSome_iff_exists.mpr ⟨v, packed⟩

theorem packed_reset (h : SteadyPacket settings w) (hclear : w.inSysexMsg = false) :
    Packed settings [] (writerReset w) := by
  refine ⟨settings.blank, rfl, ⟨⟨w.txBuf, ?_⟩, ?_⟩⟩
  · unfold writerReset Settings.blank
    rw [← h.txBufMaxSize, ← h.runningStatusEnabled, ← h.noteOffAsNoteOn, ← hclear]
  · rw [writerReset_payload]
    rfl

private theorem Packed.concat (h : Packed settings messages w) (m : Timed) :
    ∃ v, Alike v w ∧ pack settings.blank (messages ++ [m]) = addTimed v m := by
  obtain ⟨v, packed, alike⟩ := h
  refine ⟨v, alike, ?_⟩
  rw [pack_concat, packed]
  rfl

/-- A message is added to a packet exactly if it fits behind the messages of the packet. -/
theorem Packed.fit_iff (h : Packed settings messages w) (m : Timed) :
    FitInto settings.blank (messages ++ [m]) ↔
      (writerAddMsg w m.message m.time).1 = .success := by
  obtain ⟨v, alike, grown⟩ := h.concat m
  rw [FitInto, grown, ← (alike.addMsg m.message m.time).1, Option.isSome_iff_exists]
  constructor
  · rintro ⟨v', added⟩
    rw [addTimed_eq_some.mp added]
  · intro success
    exact ⟨_, addTimed_eq_some.mpr (Prod.ext success rfl)⟩

theorem Packed.add (h : Packed settings messages w)
    (hadd : writerAddMsg w m.message m.time = (.success, w')) :
    Packed settings (messages ++ [m]) w' := by
  obtain ⟨v, alike, grown⟩ := h.concat m
  obtain ⟨code, alike'⟩ := alike.addMsg m.message m.time
  rw [hadd] at code alike'
  exact ⟨(writerAddMsg v m.message m.time).2,
    grown.trans (addTimed_eq_some.mpr (Prod.ext code rfl)), alike'⟩

end Packet

theorem packed_fit {parts : List (List Timed)} {packets : List (Writer maxSize)}
    (h : List.Forall₂ (Packed settings) parts packets) :
    ∀ messages ∈ parts, FitInto settings.blank messages := by
  induction h with
  | nil => simp
  | cons packed _ ih => exact List.forall_mem_cons.mpr ⟨packed.fit, ih⟩

/-- The chunk of a message. -/
def chunkOf (m : Timed) : Chunk := .threeBytes m.message

variable [NeZero packetCount] {times : Nat → UInt16}

/-- The packets of the window hold the messages. Each message is where the first packet that had
room for it was when its time was read. -/
structure PackedLate (times : Nat → UInt16) (settings : Settings maxSize)
    (queue : TxQueue maxSize packetCount) (full : List (List Timed)) (current : List Timed) :
    Prop where
  front : List.Forall₂ (Packed settings) full queue.front
  last : Packed settings current queue.lastTxPacket
  late : (full ++ [current]).IsChain (Late (FitInto settings.blank))
  shown : Shown times queue.clock ((full.flatten ++ current).map Timed.time)

namespace PackedLate

variable {queue : TxQueue maxSize packetCount} {full : List (List Timed)} {current : List Timed}

theorem packets (h : PackedLate times settings queue full current)
    (hsteady : Steady settings queue) :
    List.Forall₂ (Packed settings) (full ++ [current]) queue.packets := by
  rw [hsteady.window.packets_eq]
  exact List.rel_append h.front (.cons h.last .nil)

theorem length (h : PackedLate times settings queue full current)
    (hsteady : Steady settings queue) :
    (full ++ [current]).length = queue.txPacketCount :=
  (h.packets hsteady).length_eq.trans (Core.RingWindow.length_window _ _ _)

theorem split (h : PackedLate times settings queue full current)
    (hsteady : Steady settings queue) :
    Split (FitInto settings.blank) (full.flatten ++ current) (full ++ [current]) :=
  ⟨by simp, packed_fit (h.packets hsteady)⟩

theorem tick (h : PackedLate times settings queue full current) :
    PackedLate times settings queue.tick full current :=
  ⟨h.front, h.last, h.late, h.shown.tick⟩

/-- A message that is written is at the end, and one that is not fits into no split with as many
parts as there are packets. -/
theorem add3 (h : PackedLate times settings queue full current) (hsteady : Steady settings queue)
    (hclear : Flags false queue) {bytes : MessageBytes} (hvalid : ValidMessage bytes) :
    (add3ByteChunkToTxPacket times queue bytes = (.noTxPackets, queue.tick) ∧
        Needs (FitInto settings.blank) (full.flatten ++ current ++ [⟨bytes, times queue.clock⟩])
          (packetCount + 1)) ∨
      ∃ queue' full' current', add3ByteChunkToTxPacket times queue bytes = (.success, queue') ∧
        PackedLate times settings queue' full' current' ∧
        full'.flatten ++ current' = full.flatten ++ current ++ [⟨bytes, times queue.clock⟩] := by
  have unfit (eq : writerAddMsg queue.lastTxPacket bytes (times queue.clock) =
      (.packetFull, queue.lastTxPacket)) :
      ¬ FitInto settings.blank (current ++ [⟨bytes, times queue.clock⟩]) := by
    rw [h.last.fit_iff, eq]
    rintro ⟨⟩
  have case := add3_message times hsteady hclear hvalid
  generalize add3ByteChunkToTxPacket times queue bytes = r at case ⊢
  cases case with
  | @added w eq =>
    have current' := lastTxPacket_setLastTxPacket queue.tick w
    refine .inr ⟨_, full, current ++ [⟨bytes, times queue.clock⟩], rfl, ⟨?_, ?_, ?_, ?_⟩, ?_⟩
    · have same : ((queue.tick.setLastTxPacket w).setHasTxData true).front = queue.front :=
        hsteady.tick.window.front_setLastTxPacket w
      rw [same]
      exact h.front
    · change Packed settings _ (queue.tick.setLastTxPacket w).lastTxPacket
      rw [current']
      exact h.last.add eq
    · exact late_grow h.late _
    · rw [← List.append_assoc, List.map_append]
      exact h.shown.now
    · rw [List.append_assoc]
  | full eq le =>
    have needs := needs_succ_of_late (blank_hereditary settings) h.late (unfit eq)
    rw [h.length hsteady, List.flatten_append, List.flatten_singleton] at needs
    exact .inl ⟨rfl, fun parts split => (Nat.succ_le_succ le).trans (needs parts split)⟩
  | @addedNext w eq written free eq' =>
    have current' := lastTxPacket_setLastTxPacket queue.tick.push w
    have steady := hsteady.tick.push free
    have none : Packed settings [] (writerReset queue.nextTxPacket) :=
      packed_reset (hsteady.packets _) (hclear _)
    refine .inr ⟨_, full ++ [current], [⟨bytes, times queue.clock⟩], rfl, ⟨?_, ?_, ?_, ?_⟩, ?_⟩
    · have same : ((queue.tick.push.setLastTxPacket w).setHasTxData true).front =
          queue.front ++ [queue.lastTxPacket] :=
        (steady.window.front_setLastTxPacket w).trans (hsteady.tick.window.front_push free)
      rw [same]
      exact List.rel_append h.front (.cons h.last .nil)
    · change Packed settings _ (queue.tick.push.setLastTxPacket w).lastTxPacket
      rw [current']
      exact none.add eq'
    · exact late_next h.late (unfit eq)
    · have clock' : queue.tick.push.clock = queue.clock + 1 := push_clock free
      change Shown times queue.tick.push.clock _
      rw [clock', List.map_append, List.flatten_append, List.flatten_singleton]
      exact h.shown.now
    · rw [List.flatten_append, List.flatten_singleton]

theorem packetSent (h : PackedLate times settings queue full current)
    (hsteady : Steady settings queue) (hclear : Flags false queue) :
    ∃ gone full' current', PackedLate times settings queue.onTxPacketSent.2 full' current' ∧
      full.flatten ++ current = gone ++ (full'.flatten ++ current') := by
  have clock := onTxPacketSent_clock queue
  have case := hsteady.window.sent_case
  generalize queue.firstTxPacket = first at case
  generalize queue.onTxPacketSent.2 = queue' at case clock ⊢
  cases case with
  | none => exact ⟨[], full, current, h, rfl⟩
  | only alone =>
    have front := h.front
    rw [alone] at front
    cases front
    have current' := lastTxPacket_setLastTxPacket queue (writerReset queue.lastTxPacket)
    refine ⟨current, [], [], ⟨?_, ?_, .singleton _, .nil _ _⟩, by simp⟩
    · have none : ((queue.setLastTxPacket (writerReset queue.lastTxPacket)).setHasTxData
          false).front = [] := (hsteady.window.front_setLastTxPacket _).trans alone
      rw [none]
      exact .nil
    · change Packed settings []
        (queue.setLastTxPacket (writerReset queue.lastTxPacket)).lastTxPacket
      rw [current']
      exact packed_reset hsteady.last hclear.last
  | first popped last same =>
    have front := h.front
    rw [popped] at front
    cases front with
    | @cons messages _ full _ packed rest =>
      refine ⟨messages, full, current, ⟨rest, ?_, h.late.tail, ?_⟩, by simp⟩
      · rw [last]
        exact h.last
      · rw [clock]
        have shown := h.shown
        rw [List.flatten_cons, List.append_assoc, List.map_append] at shown
        exact shown.right_of_append

end PackedLate

section Run

variable {s : System maxSize packetCount}

/-- The last messages that were consumed are in the packets of the window. -/
private def Waiting (times : Nat → UInt16) (settings : Settings maxSize) (_ : List (List UInt8))
    (queue : TxQueue maxSize packetCount) (consumed : List Chunk) : Prop :=
  ∃ gone full current, PackedLate times settings queue full current ∧
    consumed = gone ++ (full.flatten ++ current).map chunkOf

private theorem start_reset {blank queue : TxQueue maxSize packetCount}
    (h : System.start times settings blank = some queue) :
    EveryPacket (fun w => w = writerReset w) queue := by
  unfold System.start at h
  generalize hinit : init blank settings.runningStatusEnabled settings.noteOffAsNoteOn = q at h
  have reset : EveryPacket (fun w => w = writerReset w) q := by
    rw [← hinit]
    exact fun _ => rfl
  have resized {w : Writer maxSize} (h : w = writerReset w) (size : UInt16) :
      ({ w with txBufMaxSize := size } : Writer maxSize) =
        writerReset { w with txBufMaxSize := size } := by
    rw [h]
    rfl
  have cleared : q.fifo.bytes = [] := by
    rw [← hinit]
    rfl
  have idle : q.numRemainingDataBytes = 0 := by
    rw [← hinit]
    rfl
  have appends := (Request.addTxPacketSize settings.txBufMaxSize).exec_appends q
  change Appends q _ (Request.returned (q.fifoAddTxPacketSize settings.txBufMaxSize)) at appends
  rcases result : q.fifoAddTxPacketSize settings.txBufMaxSize with ⟨code, q'⟩
  rw [result] at h appends
  cases code with
  | success => ?_
  | _ => cases h
  rcases appends with ⟨code, failed⟩ | ⟨count, fifo, added, written⟩
  · cases failed
  cases added
  have holds : ({ q with fifo := fifo } : TxQueue maxSize packetCount).fifo.Holds
      [.packetSize settings.txBufMaxSize] := by
    change fifo.bytes = _
    rw [written, cleared]
    rfl
  obtain ⟨msgBytes, granted⟩ := readStep_packetSize times holds idle ⟨0, 0, 0⟩
  have rest : (fifo.read 3).Holds [] := holds.read
  simp only [readFromFifo, loop, granted] at h
  rw [readStep_empty times (by exact rest)] at h
  obtain rfl := Option.some.inj h
  exact fun i => resized (reset i) _

private theorem waiting_start {blank queue : TxQueue maxSize packetCount}
    (h : System.start times settings blank = some queue) : Waiting times settings [] queue [] := by
  have fresh := System.start_fresh h
  have alone : queue.front = [] := by
    rw [front, fresh.single]
    exact Core.RingWindow.window_zero _ _
  refine ⟨[], [], [], ⟨?_, ?_, .singleton _, .nil _ _⟩, rfl⟩
  · rw [alone]
    exact .nil
  · rw [(start_reset h).last]
    exact packed_reset fresh.steady.last fresh.empty.last.2.2

private theorem waiting_kept :
    Kept times settings (@Waiting maxSize packetCount _ times settings) where
  start := waiting_start
  withFifo := by
    rintro sent queue consumed fifo ⟨gone, full, current, filled, rfl⟩
    exact ⟨gone, full, current, ⟨filled.front, filled.last, filled.late, filled.shown⟩, rfl⟩
  tick := by
    rintro sent queue consumed ⟨gone, full, current, filled, rfl⟩
    exact ⟨gone, full, current, filled.tick, rfl⟩
  add3 := by
    rintro sent queue consumed bytes ⟨gone, full, current, filled, rfl⟩ steady clear valid
    rcases filled.add3 steady clear valid with
      ⟨eq, -⟩ | ⟨queue', full', current', eq, filled', added⟩
    · exact .inl eq
    · refine .inr ⟨queue', eq, gone, full', current', filled', ?_⟩
      have grown : (full'.flatten ++ current').map chunkOf =
          (full.flatten ++ current).map chunkOf ++ [.threeBytes bytes] := by
        rw [added, List.map_append]
        rfl
      rw [grown, ← List.append_assoc]
  packetSent := by
    rintro sent queue consumed ⟨gone, full, current, filled, rfl⟩ steady clear _
    obtain ⟨sent', full', current', filled', eq⟩ := filled.packetSent steady clear
    refine ⟨gone ++ sent'.map chunkOf, full', current', filled', ?_⟩
    rw [eq, List.map_append, List.append_assoc]

private theorem readStep_gives_up {consumed chunks : List Chunk} {bytes : MessageBytes}
    (hreached : System.Reachable times settings MessagesOnly s)
    (haccepted : s.accepted = consumed ++ .threeBytes bytes :: chunks)
    (hheld : s.queue.fifo.Holds (.threeBytes bytes :: chunks)) (msgBytes : MessageBytes) :
    ValidMessage bytes ∧
      ((∃ queue, readStep times s.queue msgBytes = .ret (.noTxPackets, queue)) ↔
        ∃ queue, add3ByteChunkToTxPacket times s.queue bytes = (.noTxPackets, queue)) := by
  obtain ⟨_, same, valid⟩ := messages_head hreached haccepted
  cases same
  obtain ⟨-, _, _, _, conserves⟩ := conserves_messages hreached
  refine ⟨valid, ?_⟩
  rw [readStep_threeBytes times hheld (allowed_of_valid valid).wellFormed
    conserves.pending.remaining, read3ByteChunk]
  have case := add3_message times conserves.steady (messages_clear hreached) valid
  generalize add3ByteChunkToTxPacket times s.queue bytes = r at case ⊢
  cases case with
  | added => constructor <;> rintro ⟨_, ⟨⟩⟩
  | full => exact iff_of_true ⟨_, rfl⟩ ⟨_, rfl⟩
  | addedNext => constructor <;> rintro ⟨_, ⟨⟩⟩

/-- Packets of ten bytes. -/
def tenBytes : Settings 16 := ⟨10, true, true, by decide, by decide⟩

/-- While messages only come in, those that wait in the window are in as few packets as they fit
into in their order, whichever way they are split. The reader gives up at the next message exactly
if all of them with it need more packets than the queue has. -/
theorem window_fewest (h : System.Reachable times settings
      (System.permit (fun _ r => r.IsMessage) fun _ => True) s) :
    ∃ (gone queued : List Chunk) (parts : List (List Timed)),
      s.accepted = gone ++ parts.flatten.map chunkOf ++ queued ∧ s.queue.fifo.Holds queued ∧
      Shown times s.queue.clock (parts.flatten.map Timed.time) ∧
      List.Forall₂ (Packed settings) parts s.queue.packets ∧
      (parts.flatten ≠ [] →
        Needs (FitInto settings.blank) parts.flatten s.queue.txPacketCount) ∧
      ∀ bytes chunks msgBytes, queued = .threeBytes bytes :: chunks →
        ((∃ queue, readStep times s.queue msgBytes = .ret (.noTxPackets, queue)) ↔
          Needs (FitInto settings.blank) (parts.flatten ++ [⟨bytes, times s.queue.clock⟩])
            (packetCount + 1)) := by
  obtain ⟨consumed, queued, accepted, held, gone, full, current, filled, rfl⟩ :=
    waiting_kept.run h
  obtain ⟨-, _, _, _, conserves⟩ := conserves_messages h
  have steady := conserves.steady
  have flatten : (full ++ [current]).flatten = full.flatten ++ current := by simp
  refine ⟨gone, queued, full ++ [current], ?_, held, ?_, filled.packets steady, ?_, ?_⟩
  · rw [flatten]
    exact accepted
  · rw [flatten]
    exact filled.shown
  · rw [← filled.length steady]
    exact needs_of_late (blank_hereditary settings) filled.late
  · rintro bytes chunks msgBytes rfl
    obtain ⟨valid, gives_up⟩ := readStep_gives_up h accepted held msgBytes
    rw [gives_up, flatten]
    rcases filled.add3 steady (messages_clear h) valid with
      ⟨eq, needs⟩ | ⟨queue', full', current', eq, filled', added⟩
    · exact iff_of_true ⟨_, eq⟩ needs
    · refine iff_of_false ?_ fun needs => ?_
      · rintro ⟨_, eq'⟩
        cases eq.symm.trans eq'
      · have steady' : Steady settings queue' := by
          have steady' := steady.add3 times bytes
          rwa [eq] at steady'
        have split := filled'.split steady'
        rw [added] at split
        have more := needs _ split
        rw [filled'.length steady'] at more
        exact absurd steady'.window.le (Nat.not_le_of_lt more)

/-- Two packets of ten bytes with two notes each, of which the second one has no status byte, and a
note at which the reader gave up. -/
theorem window_fewest_full : ∃ s : System 16 2,
    (s.queue.packets.map Writer.payload =
        [[0xbf, 0xff, 0x90, 0x40, 0x7f, 0x80, 0x41, 0x7f],
          [0x80, 0x81, 0x90, 0x42, 0x7f, 0x82, 0x43, 0x7f]] ∧
      s.queue.fifo.bytes = [0x90, 0x44, 0x7f]) ∧
    ∃ (gone queued : List Chunk) (parts : List (List Timed)),
      s.accepted = gone ++ parts.flatten.map chunkOf ++ queued ∧ s.queue.fifo.Holds queued ∧
      Shown millisecondClock s.queue.clock (parts.flatten.map Timed.time) ∧
      List.Forall₂ (Packed tenBytes) parts s.queue.packets ∧
      (parts.flatten ≠ [] →
        Needs (FitInto tenBytes.blank) parts.flatten s.queue.txPacketCount) ∧
      ∀ bytes chunks msgBytes, queued = .threeBytes bytes :: chunks →
        ((∃ queue, readStep millisecondClock s.queue msgBytes = .ret (.noTxPackets, queue)) ↔
          Needs (FitInto tenBytes.blank)
            (parts.flatten ++ [⟨bytes, millisecondClock s.queue.clock⟩]) (2 + 1)) := by
  obtain ⟨s, reached, state⟩ := System.exists_reachable millisecondClock tenBytes
    (System.permit (fun _ r => r.IsMessage) fun _ => True)
    (fun s => s.queue.packets.map Writer.payload =
        [[0xbf, 0xff, 0x90, 0x40, 0x7f, 0x80, 0x41, 0x7f],
          [0x80, 0x81, 0x90, 0x42, 0x7f, 0x82, 0x43, 0x7f]] ∧
      s.queue.fifo.bytes = [0x90, 0x44, 0x7f])
    (blankQueue 16 2 32)
    [.request (.addMsg ⟨0xc0, 1, 0⟩), .request (.addMsg ⟨0x90, 0x40, 0x7f⟩),
      .request (.addMsg ⟨0x90, 0x41, 0x7f⟩), .request (.addMsg ⟨0x90, 0x42, 0x7f⟩),
      .request (.addMsg ⟨0x90, 0x43, 0x7f⟩), .request (.addMsg ⟨0x90, 0x44, 0x7f⟩), .beginRead,
      .iterateRead, .packetSent, .iterateRead, .iterateRead, .iterateRead, .iterateRead,
      .iterateRead]
    (by decide +kernel)
  exact ⟨s, state, window_fewest reached⟩

end Run

end BleMidi.Queue
