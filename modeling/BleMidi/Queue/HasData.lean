/- Module: BleMidi/Queue/HasData
   source: ble_midi/src/tx_queue.c (set_has_tx_data, tx_queue_first_tx_packet,
     tx_queue_on_tx_packet_sent)
   digest: What the flag has_tx_data says about the first packet of the window. -/

import BleMidi.Queue.Conservation
import BleMidi.Queue.Termination

set_option autoImplicit false
set_option relaxedAutoImplicit false

namespace BleMidi.Queue

open BleMidi.Core.RingWindow
open BleMidi.Core.Runs
open BleMidi.Packet.Bytes
open BleMidi.Packet.PacketWriter
open BleMidi.Packet.WriterSpec
open TxQueue

variable {maxSize packetCount : Nat} [NeZero packetCount] {settings : Settings maxSize}
  {times : Nat → UInt16} {queue : TxQueue maxSize packetCount}

/-- Packets outside the window are empty, and packets in front of the current one are not. -/
structure Filled (queue : TxQueue maxSize packetCount) : Prop where
  front : ∀ w ∈ queue.front, w.txBufSize ≠ 0
  outside : ∀ i, queue.txPacketCount ≤ i → i < packetCount →
    (queue.txPackets (slot packetCount queue.firstTxPacketIdx i)).txBufSize = 0

/-- The window is a part of the ring, only its packets may have bytes, and the first one is handed
out if and only if it has some. -/
structure TellsTruth (queue : TxQueue maxSize packetCount) : Prop where
  window : Window queue
  outside : ∀ i, queue.txPacketCount ≤ i → i < packetCount →
    (queue.txPackets (slot packetCount queue.firstTxPacketIdx i)).txBufSize = 0
  hasTxData : queue.hasTxData = true ↔ (queue.txPackets queue.firstSlot).txBufSize ≠ 0
  firstTxPacket : queue.firstTxPacket =
    if (queue.txPackets queue.firstSlot).txBufSize ≠ 0 then some (queue.txPackets queue.firstSlot)
    else none

/-- What the functions of the queue keep, and the flag is set if and only if some packet of the
window has bytes. -/
structure Honest (queue : TxQueue maxSize packetCount) : Prop extends Filled queue where
  flag : queue.hasTxData = true ↔ queue.front ≠ [] ∨ queue.lastTxPacket.txBufSize ≠ 0

private theorem Window.front_length (h : Window queue) :
    queue.front.length + 1 = queue.txPacketCount := by
  have pos := h.pos
  rw [front, length_window]
  omega

theorem Window.front_eq_nil (h : Window queue) :
    queue.front = [] ↔ queue.txPacketCount = 1 := by
  have length := Window.front_length h
  rw [← List.length_eq_zero_iff]
  omega

/-- The first packet of the window has bytes if any of them has. -/
theorem Filled.first_iff (h : Filled queue) (hwindow : Window queue) :
    (queue.txPackets queue.firstSlot).txBufSize ≠ 0 ↔
      queue.front ≠ [] ∨ queue.lastTxPacket.txBufSize ≠ 0 := by
  obtain ⟨count, grown⟩ : ∃ count, queue.txPacketCount = count + 1 :=
    ⟨queue.txPacketCount - 1, by have := hwindow.pos; omega⟩
  have first : queue.packets.head? = some (queue.txPackets queue.firstSlot) := by
    unfold packets
    rw [grown, window_pop]
    rfl
  rw [hwindow.packets_eq] at first
  cases front : queue.front with
  | nil =>
    rw [front] at first
    obtain same := Option.some.inj first
    rw [← same]
    exact ⟨.inr, fun h => h.resolve_left fun some => some rfl⟩
  | cons w rest =>
    rw [front] at first
    obtain same := Option.some.inj first
    rw [← same]
    have written := h.front w (by rw [front]; exact List.mem_cons_self)
    exact ⟨fun _ => .inl (List.cons_ne_nil w rest), fun _ => written⟩

theorem Honest.tellsTruth (h : Honest queue) (hwindow : Window queue) : TellsTruth queue := by
  have flag := h.flag.trans (h.first_iff hwindow).symm
  refine ⟨hwindow, h.outside, flag, ?_⟩
  unfold firstTxPacket
  exact if_congr flag rfl rfl

theorem Honest.of_tellsTruth (h : TellsTruth queue) (hfilled : Filled queue) : Honest queue :=
  ⟨hfilled, h.hasTxData.trans (hfilled.first_iff h.window)⟩

section Steps

theorem Filled.setLastTxPacket (h : Filled queue) (hwindow : Window queue) (w : Writer maxSize) :
    Filled (queue.setLastTxPacket w) := by
  refine ⟨?_, ?_⟩
  · rw [hwindow.front_setLastTxPacket]
    exact h.front
  · intro i outside inside
    change queue.txPacketCount ≤ i at outside
    have pos := hwindow.pos
    change (Function.update queue.txPackets queue.lastSlot w
      (slot packetCount queue.firstTxPacketIdx i)).txBufSize = 0
    rw [lastSlot, Function.update_of_ne (slot_ne inside (by omega) (by omega))]
    exact h.outside i outside inside

theorem Filled.setHasTxData (h : Filled queue) (hasData : Bool) :
    Filled (queue.setHasTxData hasData) := ⟨h.front, h.outside⟩

theorem Filled.tick (h : Filled queue) : Filled queue.tick := ⟨h.front, h.outside⟩

theorem Filled.push (h : Filled queue) (hwindow : Window queue)
    (hlast : queue.lastTxPacket.txBufSize ≠ 0) (hlt : queue.txPacketCount < packetCount) :
    Filled queue.push := by
  refine ⟨?_, ?_⟩
  · rw [hwindow.front_push hlt]
    exact List.forall_mem_append.mpr ⟨h.front, List.forall_mem_singleton.mpr hlast⟩
  · rw [push_eq hlt]
    intro i outside inside
    change queue.txPacketCount + 1 ≤ i at outside
    change (Function.update queue.txPackets
      (slot packetCount queue.firstTxPacketIdx (queue.txPacketCount + 1 - 1)) _
      (slot packetCount queue.firstTxPacketIdx i)).txBufSize = 0
    rw [Function.update_of_ne (slot_ne inside (by omega) (by omega))]
    exact h.outside i (by omega) inside

theorem Filled.sent (h : Filled queue) (hwindow : Window queue) :
    Filled queue.onTxPacketSent.2 := by
  refine ⟨?_, ?_⟩
  · have case := hwindow.sent_case
    generalize queue.firstTxPacket = first at case
    generalize queue.onTxPacketSent.2 = queue' at case ⊢
    cases case with
    | none => exact h.front
    | only none =>
      change ∀ w ∈ (queue.setLastTxPacket _).front, _
      rw [hwindow.front_setLastTxPacket]
      exact h.front
    | first front _ _ =>
      intro w hw
      refine h.front w ?_
      rw [front]
      exact List.mem_cons_of_mem _ hw
  · cases flag : queue.hasTxData with
    | false =>
      rw [(onTxPacketSent_clear flag).2]
      exact h.outside
    | true =>
      rw [onTxPacketSent_eq flag]
      by_cases one : queue.txPacketCount ≤ 1
      · rw [if_pos one]
        intro i outside inside
        have pos := hwindow.pos
        change queue.txPacketCount ≤ i at outside
        change (Function.update queue.txPackets queue.firstSlot _
          (slot packetCount queue.firstTxPacketIdx i)).txBufSize = 0
        rw [firstSlot, Function.update_of_ne (slot_ne inside (by omega) (by omega))]
        exact h.outside i outside inside
      · rw [if_neg one]
        intro i outside inside
        change queue.txPacketCount - 1 ≤ i at outside
        change (Function.update queue.txPackets queue.firstSlot _
          (slot packetCount ((queue.firstTxPacketIdx + 1) % packetCount) i)).txBufSize = 0
        rw [slot_succ]
        by_cases last : i + 1 = packetCount
        · -- The slot behind all the others is the one of the packet that was sent.
          rw [last, slot_turn, firstSlot, Function.update_self]
          rfl
        · rw [firstSlot, Function.update_of_ne (slot_ne (by omega) (by omega) (by omega))]
          exact h.outside (i + 1) (by omega) (by omega)

theorem Honest.tick (h : Honest queue) : Honest queue.tick := ⟨h.toFilled.tick, h.flag⟩

theorem Honest.push (h : Honest queue) (hwindow : Window queue)
    (hlast : queue.lastTxPacket.txBufSize ≠ 0) (hlt : queue.txPacketCount < packetCount) :
    Honest queue.push := by
  refine ⟨h.toFilled.push hwindow hlast hlt, ?_⟩
  have set : queue.push.hasTxData = true := by
    rw [push_eq hlt]
    exact h.flag.mpr (.inr hlast)
  rw [set, hwindow.front_push hlt]
  exact ⟨fun _ => .inl (by simp), fun _ => rfl⟩

theorem Filled.written (h : Filled queue) (hflag : queue.hasTxData = true)
    (hlast : queue.lastTxPacket.txBufSize ≠ 0) : Honest queue :=
  ⟨h, ⟨fun _ => .inr hlast, fun _ => hflag⟩⟩

private theorem Filled.took (h : Filled queue) (hwindow : Window queue) {w : Writer maxSize}
    (hw : w.txBufSize ≠ 0) : Honest ((queue.setLastTxPacket w).setHasTxData true) := by
  refine ((h.setLastTxPacket hwindow w).setHasTxData true).written rfl ?_
  change (queue.setLastTxPacket w).lastTxPacket.txBufSize ≠ 0
  rw [lastTxPacket_setLastTxPacket]
  exact hw

/-- A three byte chunk that is added leaves bytes in the current packet, and the window only grows
when the current packet is full. -/
theorem Honest.add3 (times : Nat → UInt16) (h : Honest queue) (hsteady : Steady settings queue)
    (bytes : MessageBytes) : Honest (add3ByteChunkToTxPacket times queue bytes).2 := by
  have window := hsteady.window
  have ticked := hsteady.tick.window
  obtain ⟨took, full⟩ := addChunk_written hsteady.last bytes (times queue.clock)
  have case := add3_case times queue bytes
  generalize add3ByteChunkToTxPacket times queue bytes = r at case ⊢
  cases case with
  | added eq => exact h.toFilled.tick.took ticked (took _ eq)
  | full _ _ => exact h.tick
  | refused _ _ _ => exact h.tick
  | addedNext eq free eq' =>
    have free' : queue.tick.txPacketCount < packetCount := free
    have pushed := h.tick.push ticked (full _ eq) free'
    have reset : SteadyPacket settings (writerReset queue.nextTxPacket) :=
      SteadyPacket.reset _ (hsteady.packets _)
    exact pushed.toFilled.took (hsteady.tick.push free').window
      ((addChunk_written reset bytes (times queue.clock)).1 _ eq')
  | fullNext eq free _ => exact h.tick.push ticked (full _ eq) free
  | refusedNext eq free _ _ _ => exact h.tick.push ticked (full _ eq) free

omit [NeZero packetCount] in
private theorem setHasTxData_positive {count : Nat} (h : 0 < count) :
    (if 0 < count then queue.setHasTxData true else queue).hasTxData = true := by
  rw [if_pos h]
  rfl

private theorem addData_flag {bytes : List UInt8} {count : Nat}
    {queue' : TxQueue maxSize packetCount}
    (h : addDataBytesToTxPacket times queue bytes = (.ok count, queue')) (hcount : 0 < count) :
    queue'.hasTxData = true := by
  unfold addDataBytesToTxPacket at h
  rcases result : addDataBytesLoop times packetCount queue bytes 0 with ⟨code | total, q⟩
  · rw [result] at h
    cases h
  · rw [result] at h
    cases h
    exact setHasTxData_positive hcount

/-- A packet without bytes takes some data, so a clear flag does not outlast a call that adds
data. -/
theorem Honest.addData (times : Nat → UInt16) (h : Honest queue) (hsteady : Steady settings queue)
    (bytes : List UInt8) : Honest (addDataBytesToTxPacket times queue bytes).2 := by
  by_cases nonempty : bytes = []
  · rw [nonempty, addDataBytes_nil]
    exact h
  by_cases accepted : (∀ b ∈ bytes, isDataByte b = true) ∧ TakesData queue.lastTxPacket
  swap
  · rw [addData_unaccepted nonempty accepted]
    exact h.tick
  have rule := hsteady.addData times
    (R := fun q left => Filled q ∧ left.length ≤ bytes.length ∧
      (left.length = bytes.length → q.hasTxData = false → q.lastTxPacket.txBufSize = 0)) ?_ ?_ ?_
    ⟨h.toFilled, le_rfl, ?_⟩ nonempty accepted.1 accepted.2
  · obtain ⟨count, queue', eq, -, -, -, written, filled, -, clear⟩ := rule
    rw [eq]
    refine filled.written ?_ written
    by_cases some : 0 < count
    · exact addData_flag eq some
    · -- Nothing was added: the current packet had bytes before.
      obtain rfl : count = 0 := by omega
      by_contra off
      exact written (clear rfl (Bool.eq_false_iff.mpr off))
  · intro q left steady ⟨filled, most, clear⟩ _ _
    refine ⟨filled.tick.setLastTxPacket steady.tick.window _, ?_, ?_⟩
    · rw [List.length_drop]
      omega
    · intro same off
      have empty := clear (by rw [List.length_drop] at same; omega) off
      have max := steady.last.five_le
      have room : 0 < dataRoom q.lastTxPacket := by
        unfold dataRoom
        rw [if_pos empty, empty]
        change 0 < _ - 0 - 1
        omega
      have positive := List.length_pos_iff.mpr nonempty
      rw [List.length_drop] at same
      omega
  · intro q left steady ⟨filled, most, clear⟩ written free
    refine ⟨filled.push steady.window written free, most, ?_⟩
    intro same off
    rw [push_eq free] at off
    exact absurd (clear same off) written
  · intro q left ⟨filled, most, clear⟩
    refine ⟨filled.setHasTxData true, most, fun _ off => ?_⟩
    cases off
  · intro _ off
    by_contra some
    have set := h.flag.mpr (.inr some)
    rw [off] at set
    cases set

/-- The condition is exact: only a window of two packets whose second one is empty is left with a
flag that says otherwise. -/
theorem Honest.sent_iff (h : Honest queue) (hwindow : Window queue) :
    TellsTruth queue.onTxPacketSent.2 ↔
      ¬ (queue.txPacketCount = 2 ∧ queue.lastTxPacket.txBufSize = 0) := by
  have filled := h.toFilled.sent hwindow
  have window := (onTxPacketSent_frame queue).window hwindow
  have exact' : TellsTruth queue.onTxPacketSent.2 ↔ Honest queue.onTxPacketSent.2 :=
    ⟨fun truth => .of_tellsTruth truth filled, fun honest => honest.tellsTruth window⟩
  rw [exact']
  have length := Window.front_length hwindow
  have case := hwindow.sent_case
  generalize hfirst : queue.firstTxPacket = first at case
  generalize queue.onTxPacketSent.2 = queue' at case filled window ⊢
  cases case with
  | none =>
    refine ⟨fun _ ⟨two, _⟩ => ?_, fun _ => h⟩
    have set : queue.hasTxData = true := h.flag.mpr (.inl fun none => by simp [none, two] at length)
    rw [firstTxPacket, if_pos set] at hfirst
    cases hfirst
  | only none =>
    refine ⟨fun _ ⟨two, _⟩ => by simp [none, two] at length, fun _ => ⟨filled, ?_⟩⟩
    change false = true ↔ (queue.setLastTxPacket _).front ≠ [] ∨
      (queue.setLastTxPacket (writerReset queue.lastTxPacket)).lastTxPacket.txBufSize ≠ 0
    rw [hwindow.front_setLastTxPacket, none, lastTxPacket_setLastTxPacket]
    exact ⟨fun off => absurd off (by decide), fun some => absurd some (by simp [writerReset])⟩
  | first front last flag =>
    have set : queue.hasTxData = true := h.flag.mpr (.inl (by simp [front]))
    have two : queue'.front = [] ↔ queue.txPacketCount = 2 := by
      rw [front, List.length_cons] at length
      rw [← List.length_eq_zero_iff]
      omega
    rw [← last, ← two, not_and_or]
    refine ⟨fun honest => ?_, fun some => ⟨filled, ?_⟩⟩
    · exact honest.flag.mp (flag.trans set)
    · rw [flag, set]
      exact ⟨fun _ => some, fun _ => rfl⟩

end Steps

/-- The reader only fills packets, apart from the FIFO and the scratch buffer, while the packet size
is fixed. -/
theorem readStep_keeps (times : Nat → UInt16) {I : TxQueue maxSize packetCount → Prop}
    (hscratch : ∀ {queue : TxQueue maxSize packetCount} (fifo : Fifo) (remaining size : Nat)
      (buf : List UInt8), I queue → I { queue with
        fifo := fifo
        numRemainingDataBytes := remaining
        currSysexDataChunkSize := size
        sysexChunkScratchBuf := buf })
    (hadd3 : ∀ {queue : TxQueue maxSize packetCount} (bytes : MessageBytes), I queue →
      I (add3ByteChunkToTxPacket times queue bytes).2)
    (hdata : ∀ {queue : TxQueue maxSize packetCount} (bytes : List UInt8), I queue →
      I (addDataBytesToTxPacket times queue bytes).2)
    (h : I queue) {chunks : List Chunk} (hheld : queue.fifo.Holds chunks)
    (hchunks : ∀ chunk ∈ chunks, chunk.KeepsSize) (msgBytes : MessageBytes) :
    I (readStep times queue msgBytes).queue := by
  have case := readStep_case times hheld (fun chunk mem => (hchunks chunk mem).1) msgBytes
  generalize readStep times queue msgBytes = r at case ⊢
  cases case with
  | empty => exact h
  | remaining msgBytes _ =>
    have added := hdata queue.remainingData h
    rw [readRemaining]
    revert added
    rcases addDataBytesToTxPacket times queue queue.remainingData with
      ⟨code | _ | count, queue'⟩
    · exact id
    · exact id
    · exact fun added => hscratch queue'.fifo _ _ _ added
  | threeBytes bytes _ =>
    have added := hadd3 bytes h
    rcases read3ByteChunk_cases times queue bytes with stays | reads
    · rw [stays]
      exact added
    · rw [reads]
      exact hscratch _ _ _ _ added
  | data bytes msgBytes _ =>
    have loaded : I (queue.load bytes) := hscratch _ _ _ _ h
    have added := hdata bytes loaded
    revert added
    rcases addDataBytesToTxPacket times (queue.load bytes) bytes with
      ⟨code | _ | count, queue'⟩
    · exact fun added => hscratch _ _ _ _ added
    · exact id
    · exact fun added => hscratch _ _ _ _ added
  | packetSize size _ _ => exact (hchunks _ List.mem_cons_self).2.elim

theorem Honest.readStep (times : Nat → UInt16) (h : Honest queue)
    (hreadable : Readable settings queue) (msgBytes : MessageBytes) :
    Honest (readStep times queue msgBytes).queue := by
  obtain ⟨chunks, held, keeps⟩ := hreadable.chunks
  have kept : Steady settings (TxQueue.readStep times queue msgBytes).queue ∧
      Honest (TxQueue.readStep times queue msgBytes).queue := by
    refine readStep_keeps times (I := fun queue => Steady settings queue ∧ Honest queue) ?_ ?_ ?_
      ⟨hreadable.steady, h⟩ held keeps msgBytes
    · intro queue fifo remaining size buf ⟨steady, honest⟩
      exact ⟨steady.withScratch fifo remaining size buf,
        ⟨⟨honest.front, honest.outside⟩, honest.flag⟩⟩
    · intro queue bytes ⟨steady, honest⟩
      exact ⟨steady.add3 times bytes, honest.add3 times steady bytes⟩
    · intro queue bytes ⟨steady, honest⟩
      exact ⟨steady.addDataBytes times bytes, honest.addData times steady bytes⟩
  exact kept.2

/-- Calls that keep the packet size, and no notification for the first of two packets while the
second one is empty. -/
def System.permitSent (s : System maxSize packetCount) : Action → Prop
  | .request r => r.KeepsSize
  | .packetSent => ¬ (s.queue.txPacketCount = 2 ∧ s.queue.lastTxPacket.txBufSize = 0)
  | _ => True

instance : ∀ (s : System maxSize packetCount) (a : Action), Decidable (s.permitSent a)
  | _, .request r => inferInstanceAs (Decidable r.KeepsSize)
  | _, .packetSent => inferInstanceAs (Decidable (¬ (_ ∧ _)))
  | _, .beginRead => inferInstanceAs (Decidable True)
  | _, .iterateRead => inferInstanceAs (Decidable True)

theorem Honest.of_fresh (h : Fresh settings queue) : Honest queue := by
  have none : queue.front = [] := (Window.front_eq_nil h.steady.window).mpr h.single
  refine ⟨⟨?_, fun i _ _ => (h.empty _).1⟩, ?_⟩
  · rw [none]
    exact fun w hw => absurd hw List.not_mem_nil
  · rw [h.clear, none]
    have empty : queue.lastTxPacket.txBufSize = 0 := (h.empty _).1
    exact ⟨fun off => absurd off (by decide), fun some => absurd some (by simp [empty])⟩

/-- In a run whose notifications meet the condition, the flag always tells the truth. -/
theorem hasTxData_truthful {s : System maxSize packetCount}
    (h : System.Reachable times settings System.permitSent s) : TellsTruth s.queue := by
  obtain ⟨blank, started, hstart, run⟩ := h
  have readable {s : System maxSize packetCount}
      (reached : Reach (System.act times) System.permitSent (System.initial started) s) :
      Readable settings s.queue := by
    refine readable_run ⟨blank, started, hstart, reached.mono fun {s a} permitted => ?_⟩
    cases a with
    | request r => exact permitted
    | _ => trivial
  have honest : Honest s.queue := by
    induction run with
    | start => exact .of_fresh (System.start_fresh hstart)
    | @step s s' a reached permitted next ih =>
      have before := readable reached
      cases a with
      | request r =>
        rcases System.act_request next with rfl | ⟨count, fifo, -, -, rfl⟩
        · exact ih
        · exact ⟨⟨ih.front, ih.outside⟩, ih.flag⟩
      | beginRead =>
        rw [System.act_beginRead next]
        exact ih
      | iterateRead =>
        obtain ⟨msgBytes, reading, -, rfl⟩ := System.act_iterateRead next
        exact ih.readStep times before msgBytes
      | packetSent =>
        obtain rfl := System.act_packetSent next
        have window := before.steady.window
        exact .of_tellsTruth ((ih.sent_iff window).mpr permitted) (ih.toFilled.sent window)
  exact honest.tellsTruth (readable run).steady.window

/-- A sysex message whose end fits into the packet, and a notification behind it. -/
theorem hasTxData_truthful_sent : ∃ s : System 8 2,
    (s.sent = [[0xbf, 0xfe, 0xf0, 1, 2]] ∧
      s.queue.firstTxPacket.map Writer.payload = some [0x80, 3, 0x81, 0xf7]) ∧
    TellsTruth s.queue := by
  obtain ⟨s, reached, state⟩ := System.exists_reachable millisecondClock fiveBytes
    System.permitSent
    (fun s => s.sent = [[0xbf, 0xfe, 0xf0, 1, 2]] ∧
      s.queue.firstTxPacket.map Writer.payload = some [0x80, 3, 0x81, 0xf7])
    (blankQueue 8 2 32)
    [.request .addSysexStart, .request (.addSysexData [1, 2]), .beginRead, .iterateRead,
      .iterateRead, .iterateRead, .packetSent, .request (.addSysexData [3]),
      .request .addSysexEnd, .beginRead, .iterateRead, .iterateRead, .iterateRead]
    (by decide +kernel)
  exact ⟨s, state, hasTxData_truthful reached⟩

/-- The sysex end does not fit, and the packet that was added for it refuses it. When the first
packet has been sent, the empty one is handed out. -/
theorem hasTxData_lies : ∃ s : System 8 2,
    System.Reachable millisecondClock fiveBytes (System.permit
      (fun s r => r.Allowed (chunksOpen false s.accepted)) fun _ => True) s ∧
    s.reading = none ∧ s.sent = [[0xbf, 0xfe, 0xf0, 1, 2]] ∧
    s.queue.firstTxPacket.map Writer.payload = some [] ∧ ¬ TellsTruth s.queue := by
  obtain ⟨s, reached, idle, sent, first, size⟩ := System.exists_reachable millisecondClock fiveBytes
    (System.permit (fun s r => r.Allowed (chunksOpen false s.accepted)) fun _ => True)
    (fun s => s.reading = none ∧ s.sent = [[0xbf, 0xfe, 0xf0, 1, 2]] ∧
      s.queue.firstTxPacket.map Writer.payload = some [] ∧
      (s.queue.txPackets s.queue.firstSlot).txBufSize = 0)
    (blankQueue 8 2 32)
    [.request .addSysexStart, .request (.addSysexData [1, 2]), .request .addSysexEnd,
      .beginRead, .iterateRead, .iterateRead, .iterateRead, .iterateRead, .packetSent]
    (by decide +kernel)
  refine ⟨s, reached, idle, sent, first, fun truth => ?_⟩
  have none := truth.firstTxPacket
  rw [if_neg (not_not.mpr size)] at none
  rw [none] at first
  cases first

end BleMidi.Queue
