/- Module: BleMidi/Queue/Conservation
   source: ble_midi/src/tx_queue.c
   digest: What the queue does with accepted chunks while its packets take them. -/

import BleMidi.Queue.ChunkStream
import BleMidi.Queue.System

set_option autoImplicit false
set_option relaxedAutoImplicit false

namespace BleMidi.Queue

open BleMidi.Core.Runs
open BleMidi.Packet.Bytes
open BleMidi.Packet.Grammar
open BleMidi.Packet.PacketWriter
open BleMidi.Packet.WriterSpec
open BleMidi.Packet.PacketStream
open TxQueue

variable {maxSize packetCount : Nat} {settings : Settings maxSize}

/-- A chunk of a message that is no part of a sysex message. -/
def Chunk.IsMessage : Chunk → Prop
  | threeBytes bytes => bytes.byte0 ≠ sysexStart ∧ bytes.byte0 ≠ sysexEnd
  | _ => False

theorem Chunk.IsMessage.openBehind {chunk : Chunk} (h : chunk.IsMessage) (inSysex : Bool) :
    chunk.openBehind inSysex = inSysex := by
  cases chunk with
  | threeBytes bytes => simp only [Chunk.openBehind, if_neg h.1, if_neg h.2]
  | _ => exact h.elim

/-- All flags of the ring are the same. -/
def Flags (inSysex : Bool) (queue : TxQueue maxSize packetCount) : Prop :=
  EveryPacket (fun w => w.inSysexMsg = inSysex) queue

variable [NeZero packetCount] {times : Nat → UInt16}

/-- The packets sent and those of the window say `es`, and only the current one may be empty. -/
structure Holding (sent : List (List UInt8)) (es : List MidiEvent)
    (queue : TxQueue maxSize packetCount) : Prop where
  said : Says (sent ++ queue.front.map Writer.payload) queue.lastTxPacket es
  front : ∀ w ∈ queue.front, w.txBufSize ≠ 0

/-- The packets are as a chunk needs them to be taken now or later. -/
def Ready (times : Nat → UInt16) (queue : TxQueue maxSize packetCount) : Chunk → Prop
  | .threeBytes bytes =>
      FlagFits queue.lastTxPacket bytes ∧
        (addChunk bytes (times queue.clock) queue.lastTxPacket = (.packetFull, queue.lastTxPacket) →
          queue.txPacketCount < packetCount → FlagFits queue.nextTxPacket bytes)
  | .data _ => TakesData queue.lastTxPacket
  | .packetSize _ => True

namespace Holding

variable {sent : List (List UInt8)} {es es' : List MidiEvent}
  {queue : TxQueue maxSize packetCount}

theorem tick (h : Holding sent es queue) : Holding sent es queue.tick := ⟨h.said, h.front⟩

theorem setLastTxPacket (h : Holding sent es queue) (hwindow : Window queue) {w : Writer maxSize}
    (hw : Says (sent ++ queue.front.map Writer.payload) w es') :
    Holding sent es' (queue.setLastTxPacket w) := by
  have same : (queue.setLastTxPacket w).front = queue.front := hwindow.front_setLastTxPacket w
  constructor
  · rw [same, lastTxPacket_setLastTxPacket]
    exact hw
  · rw [same]
    exact h.front

theorem push (h : Holding sent es queue) (hsteady : Steady settings queue)
    (hlast : queue.lastTxPacket.txBufSize ≠ 0) (hlt : queue.txPacketCount < packetCount) :
    Holding sent es queue.push := by
  constructor
  · rw [hsteady.window.front_push hlt, List.map_append, ← List.append_assoc,
      lastTxPacket_push hlt]
    exact h.said.next (hsteady.packets _).fits.max_le
  · rw [hsteady.window.front_push hlt]
    intro w hw
    rcases List.mem_append.mp hw with hw | hw
    · exact h.front w hw
    · rw [List.mem_singleton.mp hw]
      exact hlast

/-- Data bytes are added to what the packets say, as many as there is room for. -/
theorem addData (times : Nat → UInt16) (h : Holding sent es queue) (hsteady : Steady settings queue)
    (hopen : streamOpen false es = true) {bytes : List UInt8} (hbytes : bytes ≠ [])
    (hdata : ∀ b ∈ bytes, isDataByte b = true) (htakes : TakesData queue.lastTxPacket) :
    ∃ count queue', addDataBytesToTxPacket times queue bytes = (.ok count, queue') ∧
      count ≤ bytes.length ∧ Steady settings queue' ∧ Frame queue queue' ∧
      queue'.lastTxPacket.txBufSize ≠ 0 ∧
      Holding sent (es ++ (bytes.take count).map .sysexData) queue' ∧
      ∀ inSysex, Flags inSysex queue → Flags inSysex queue' := by
  obtain ⟨count, queue', eq, most, steady, frame, written, ⟨added, split, holding⟩, flags⟩ :=
    hsteady.addData times
      (R := fun q left =>
        (∃ added, bytes = added ++ left ∧ Holding sent (es ++ added.map .sysexData) q) ∧
          ∀ inSysex, Flags inSysex queue → Flags inSysex q)
      (by
        intro q left steady ⟨⟨added, split, holding⟩, flags⟩ data room
        constructor
        · refine ⟨added ++ left.take (dataRoom q.lastTxPacket), ?_, ?_⟩
          · rw [List.append_assoc, List.take_append_drop]
            exact split
          · apply holding.tick.setLastTxPacket steady.tick.window
            rw [List.map_append, ← List.append_assoc]
            refine holding.said.addSysexData ?_ ?_ room
            · rw [streamOpen_append, streamOpen_sysexData]
              exact hopen
            · intro b hb
              exact data b (List.mem_of_mem_take hb)
        · intro inSysex all
          have ticked : Flags inSysex q.tick := flags inSysex all
          apply EveryPacket.setLastTxPacket ticked
          exact (putAll_inSysexMsg _ _).trans ticked.last)
      (by
        intro q left steady ⟨⟨added, split, holding⟩, flags⟩ written free
        refine ⟨⟨added, split, holding.push steady written free⟩, fun inSysex all => ?_⟩
        exact (flags inSysex all).push (fun w hw => hw) free)
      (fun ⟨⟨added, split, holding⟩, flags⟩ =>
        ⟨⟨added, split, ⟨holding.said, holding.front⟩⟩, flags⟩)
      ⟨⟨[], rfl, by simpa using h⟩, fun _ all => all⟩ hbytes hdata htakes
  have taken : added = bytes.take count := by
    have halves := List.take_append_drop count bytes
    exact List.append_cancel_right (split.symm.trans halves.symm)
  rw [taken] at holding
  exact ⟨count, queue', eq, most, steady, frame, written, holding, flags⟩

private theorem flags_setLastTxPacket {inSysex : Bool} {chunk : Chunk}
    (hchunk : packetCount = 1 ∨ chunk.IsMessage) (h : Flags inSysex queue) {w : Writer maxSize}
    (hw : w.inSysexMsg = chunk.openBehind inSysex) :
    Flags (chunk.openBehind inSysex) (queue.setLastTxPacket w) := by
  rcases hchunk with one | message
  · subst one
    intro i
    have last : i = queue.lastSlot := Subsingleton.elim _ _
    rw [last]
    exact (congrArg Writer.inSysexMsg (lastTxPacket_setLastTxPacket queue w)).trans hw
  · rw [message.openBehind] at hw ⊢
    exact EveryPacket.setLastTxPacket h hw

/-- A three byte chunk that is due is added to what the packets say, or there is no packet with
room for it. -/
theorem add3 (h : Holding sent es queue) (hsteady : Steady settings queue) {bytes : MessageBytes}
    (hallowed : (Chunk.threeBytes bytes).Allowed (streamOpen false es))
    (hready : Ready times queue (.threeBytes bytes)) :
    add3ByteChunkToTxPacket times queue bytes = (.noTxPackets, queue.tick) ∨
      ∃ queue', add3ByteChunkToTxPacket times queue bytes = (.success, queue') ∧
        queue'.lastTxPacket.txBufSize ≠ 0 ∧
        Holding sent (es ++ (Chunk.threeBytes bytes).events settings) queue' ∧
        (packetCount = 1 ∨ (Chunk.threeBytes bytes).IsMessage → ∀ inSysex, Flags inSysex queue →
          Flags ((Chunk.threeBytes bytes).openBehind inSysex) queue') := by
  obtain ⟨fits, nextFits⟩ := hready
  have last := hsteady.last
  have fullNonempty (eq : addChunk bytes (times queue.clock) queue.lastTxPacket =
      (.packetFull, queue.lastTxPacket)) : queue.lastTxPacket.txBufSize ≠ 0 := by
    rcases addChunk_cases hallowed last fits (times queue.clock) with ⟨-, written⟩ | ⟨_, success, -⟩
    · exact written
    · cases eq.symm.trans success
  have case := add3_case times queue bytes
  generalize add3ByteChunkToTxPacket times queue bytes = r at case ⊢
  cases case with
  | added eq =>
    rcases addChunk_cases hallowed last fits (times queue.clock) with
      ⟨full, -⟩ | ⟨w, success, taken⟩
    · cases eq.symm.trans full
    · obtain rfl := congrArg Prod.snd (eq.symm.trans success)
      have holding := h.tick.setLastTxPacket hsteady.tick.window (taken.said h.said rfl)
      refine .inr ⟨_, rfl, ?_, ⟨holding.said, holding.front⟩, fun chunk inSysex all => ?_⟩
      · exact (congrArg Writer.txBufSize (lastTxPacket_setLastTxPacket _ _)).trans_ne taken.written
      · have ticked : Flags inSysex queue.tick := all
        exact flags_setLastTxPacket chunk ticked (taken.flag.trans (by rw [all.last]))
  | full eq le => exact .inl rfl
  | refused failed other eq =>
    rcases addChunk_code hallowed last fits eq with code | code
    · exact absurd code other
    · exact absurd code failed
  | addedNext eq free eq' =>
    have written : queue.lastTxPacket.txBufSize ≠ 0 := fullNonempty eq
    have free' : queue.tick.txPacketCount < packetCount := free
    have pushed := h.tick.push hsteady.tick written free'
    have steady := hsteady.tick.push free'
    have current : queue.tick.push.lastTxPacket = writerReset queue.nextTxPacket :=
      lastTxPacket_push free'
    rw [← current] at eq'
    rcases addChunk_cases hallowed steady.last (by rw [current]; exact nextFits eq free)
      (times queue.clock) with ⟨full, -⟩ | ⟨w', success, taken⟩
    · cases eq'.symm.trans full
    · obtain rfl := congrArg Prod.snd (eq'.symm.trans success)
      have holding := pushed.setLastTxPacket steady.window (taken.said pushed.said rfl)
      refine .inr ⟨_, rfl, ?_, ⟨holding.said, holding.front⟩, fun chunk inSysex all => ?_⟩
      · exact (congrArg Writer.txBufSize (lastTxPacket_setLastTxPacket _ _)).trans_ne taken.written
      · have grown : Flags inSysex queue.tick.push :=
          EveryPacket.push (fun w hw => hw) (show Flags inSysex queue.tick from all) free'
        exact flags_setLastTxPacket chunk grown (taken.flag.trans (by rw [grown.last]))
  | fullNext eq free eq' =>
    rcases addChunk_cases hallowed (SteadyPacket.reset _ (hsteady.packets _)) (nextFits eq free)
      (times queue.clock) with ⟨-, written⟩ | ⟨w', success, -⟩
    · exact absurd rfl written
    · cases eq'.symm.trans success
  | refusedNext eq free failed other eq' =>
    rcases addChunk_code hallowed (SteadyPacket.reset _ (hsteady.packets _)) (nextFits eq free) eq'
      with code | code
    · exact absurd code other
    · exact absurd code failed

/-- A packet that is sent moves from the window to the packets sent. -/
theorem packetSent (h : Holding sent es queue) (hsteady : Steady settings queue)
    (hcurrent : queue.hasTxData = true → queue.lastTxPacket.txBufSize ≠ 0) :
    Holding (sent ++ (queue.firstTxPacket.map Writer.payload).toList) es queue.onTxPacketSent.2 ∧
      (∀ w, queue.firstTxPacket = some w → w.payload ≠ []) ∧
      (queue.onTxPacketSent.2.hasTxData = true →
        queue.onTxPacketSent.2.lastTxPacket.txBufSize ≠ 0) := by
  have written {w : Writer maxSize} (hw : SteadyPacket settings w) (hsize : w.txBufSize ≠ 0) :
      w.payload ≠ [] := by
    rw [ne_eq, payload_eq_nil (hw.fits.size_le.trans hw.fits.max_le)]
    exact hsize
  have flag {w : Writer maxSize} (popped : queue.firstTxPacket = some w) :
      queue.hasTxData = true := by
    by_contra clear
    rw [firstTxPacket, if_neg clear] at popped
    cases popped
  have said := h.said
  have front := h.front
  have case := hsteady.window.sent_case
  generalize queue.firstTxPacket = first at case flag ⊢
  generalize queue.onTxPacketSent.2 = queue' at case ⊢
  cases case with
  | none =>
    refine ⟨by simpa using h, ?_, hcurrent⟩
    intro w popped
    cases popped
  | only alone =>
    have none : ((queue.setLastTxPacket (writerReset queue.lastTxPacket)).setHasTxData
        false).front = [] := (hsteady.window.front_setLastTxPacket _).trans alone
    have last : ((queue.setLastTxPacket (writerReset queue.lastTxPacket)).setHasTxData
        false).lastTxPacket = writerReset queue.lastTxPacket :=
      lastTxPacket_setLastTxPacket queue (writerReset queue.lastTxPacket)
    refine ⟨⟨?_, ?_⟩, ?_, ?_⟩
    · rw [alone] at said
      rw [none, last]
      simpa using said.next hsteady.last.fits.max_le
    · rw [none]
      intro w hw
      cases hw
    · intro w popped
      cases popped
      exact written hsteady.last (hcurrent (flag rfl))
    · intro set
      cases set
  | @first w _ popped last same =>
    have inFront : w ∈ queue.front := by
      rw [popped]
      exact List.mem_cons_self
    rw [popped] at said
    refine ⟨⟨?_, ?_⟩, ?_, ?_⟩
    · rw [last]
      simpa using said
    · intro w' hw'
      apply front
      rw [popped]
      exact List.mem_cons_of_mem _ hw'
    · intro w' eq
      cases eq
      obtain ⟨i, rfl⟩ := Core.RingWindow.mem_window inFront
      exact written (hsteady.packets i) (front _ inFront)
    · intro set
      rw [last]
      exact hcurrent (same.symm.trans set)

end Holding

/-- The accepted chunks are what the packets say and the pending data, then the FIFO. -/
structure Conserves (settings : Settings maxSize) (s : System maxSize packetCount)
    (consumed queued : List Chunk) (data : List UInt8) (es : List MidiEvent) : Prop where
  steady : Steady settings s.queue
  accepted : s.accepted = consumed ++ queued
  bracketed : Bracketed false s.accepted
  fifo : s.queue.fifo.Holds queued
  pending : Pending s.queue data
  inside : data ≠ [] → chunksOpen false consumed = true
  heard : consumed.flatMap (Chunk.events settings) = es ++ data.map .sysexData
  holding : Holding s.sent es s.queue
  sent : ∀ packet ∈ s.sent, packet ≠ []
  current : s.queue.hasTxData = true → s.queue.lastTxPacket.txBufSize ≠ 0
  flags : packetCount = 1 ∨ (∀ chunk ∈ s.accepted, chunk.IsMessage) →
    Flags (chunksOpen false consumed) s.queue

namespace Conserves

variable {s : System maxSize packetCount} {consumed queued : List Chunk} {data : List UInt8}
  {es : List MidiEvent}

/-- What the packets say leaves a sysex message open exactly if the consumed chunks do. -/
theorem streamOpen_eq (h : Conserves settings s consumed queued data es) :
    streamOpen false es = chunksOpen false consumed := by
  rw [← streamOpen_flatMap settings, h.heard, streamOpen_append, streamOpen_sysexData]

/-- The chunk at the head of the FIFO belongs behind the consumed ones. -/
theorem allowed {chunk : Chunk} {chunks : List Chunk}
    (h : Conserves settings s consumed (chunk :: chunks) data es) :
    chunk.Allowed (chunksOpen false consumed) := by
  have bracketed := h.bracketed
  rw [h.accepted] at bracketed
  exact (bracketed_append.mp bracketed).2.1

private theorem tick (h : Conserves settings s consumed queued data es)
    (reading : Option MessageBytes) :
    Conserves settings { s with queue := s.queue.tick, reading := reading } consumed queued
      data es where
  steady := h.steady.tick
  accepted := h.accepted
  bracketed := h.bracketed
  fifo := h.fifo
  pending := h.pending.frame (Frame.tick _)
  inside := h.inside
  heard := h.heard
  holding := h.holding.tick
  sent := h.sent
  current := h.current
  flags := h.flags

/-- The pending data goes on into the packets, or the reader is stuck with it. -/
theorem readRemaining (times : Nat → UInt16)
    (h : Conserves settings s consumed queued data es)
    (hdata : data ≠ []) (msgBytes : MessageBytes) (reading : Option MessageBytes) :
    ∃ data' es', Conserves settings
      { s with queue := (TxQueue.readRemaining times s.queue msgBytes).queue, reading := reading }
      consumed queued data' es' := by
  by_cases takes : TakesData s.queue.lastTxPacket
  · obtain ⟨count, queue', eq, most, steady, frame, written, holding, flags⟩ :=
      h.holding.addData times h.steady (h.streamOpen_eq.trans (h.inside hdata)) hdata
        h.pending.valid takes
    have result : (TxQueue.readRemaining times s.queue msgBytes).queue =
        { queue' with numRemainingDataBytes := queue'.numRemainingDataBytes - count } := by
      rw [TxQueue.readRemaining, h.pending.bytes, eq]
      cases count <;> rfl
    rw [result]
    refine ⟨data.drop count, es ++ (data.take count).map .sysexData, ?_⟩
    exact {
      steady := steady.withScratch _ _ _ _
      accepted := h.accepted
      bracketed := h.bracketed
      fifo := frame.holds h.fifo
      pending := (h.pending.frame frame).drop most
      inside := fun _ => h.inside hdata
      heard := by
        rw [h.heard, List.append_assoc, ← List.map_append, List.take_append_drop]
      holding := ⟨holding.said, holding.front⟩
      sent := h.sent
      current := fun _ => written
      flags := fun uniform => flags _ (h.flags uniform) }
  · have result : (TxQueue.readRemaining times s.queue msgBytes).queue = s.queue.tick := by
      rw [TxQueue.readRemaining, h.pending.bytes, addData_refused hdata takes]
      rfl
    rw [result]
    exact ⟨data, es, h.tick reading⟩

private theorem readData {bytes : List UInt8} {chunks : List Chunk}
    (h : Conserves settings s consumed (.data bytes :: chunks) [] es)
    (htakes : TakesData s.queue.lastTxPacket) (msgBytes : MessageBytes)
    (reading : Option MessageBytes) :
    ∃ consumed' queued' data' es', Conserves settings
      { s with
        queue := (afterData bytes msgBytes
          (addDataBytesToTxPacket times (s.queue.load bytes) bytes)).queue
        reading := reading } consumed' queued' data' es' := by
  obtain ⟨inside, length, valid⟩ := h.allowed
  have nonempty : bytes ≠ [] := List.length_pos_iff.mp length.1
  have loadedSteady : Steady settings (s.queue.load bytes) := h.steady.withScratch _ _ _ _
  have loaded : Holding s.sent es (s.queue.load bytes) := ⟨h.holding.said, h.holding.front⟩
  obtain ⟨count, queue', eq, most, steady, frame, written, holding, flags⟩ :=
    loaded.addData times loadedSteady (h.streamOpen_eq.trans inside) nonempty valid
      htakes
  have heard : consumed.flatMap (Chunk.events settings) = es := by
    rw [h.heard]
    exact List.append_nil es
  rw [eq]
  cases count with
  | zero =>
    refine ⟨consumed, .data bytes :: chunks, [], es, ?_⟩
    exact {
      steady := steady
      accepted := h.accepted
      bracketed := h.bracketed
      fifo := frame.holds h.fifo
      pending := Pending.nil (frame.numRemainingDataBytes.trans h.pending.remaining)
      inside := h.inside
      heard := h.heard
      holding := by
        rw [List.take_zero, List.map_nil, List.append_nil] at holding
        exact holding
      sent := h.sent
      current := fun _ => written
      flags := fun uniform => flags _ (h.flags uniform) }
  | succ count =>
    refine ⟨consumed ++ [.data bytes], chunks, bytes.drop (count + 1),
      es ++ (bytes.take (count + 1)).map .sysexData, ?_⟩
    have openBehind : chunksOpen false (consumed ++ [.data bytes]) = chunksOpen false consumed :=
      chunksOpen_append _ _ _
    exact {
      steady := steady.withScratch _ _ _ _
      accepted := by
        rw [List.append_assoc]
        exact h.accepted
      bracketed := h.bracketed
      fifo := frame.holds_read h.fifo
      pending := Pending.ofChunk frame valid most _
      inside := fun _ => openBehind.trans inside
      heard := by
        rw [List.flatMap_append, List.flatMap_singleton, heard, List.append_assoc,
          ← List.map_append, List.take_append_drop]
        rfl
      holding := ⟨holding.said, holding.front⟩
      sent := h.sent
      current := fun _ => written
      flags := fun uniform => by
        rw [openBehind]
        exact flags _ (h.flags uniform) }

private theorem read3Byte {bytes : MessageBytes} {chunks : List Chunk}
    (h : Conserves settings s consumed (.threeBytes bytes :: chunks) [] es)
    (hready : Ready times s.queue (.threeBytes bytes)) (reading : Option MessageBytes) :
    ∃ consumed' queued' es', Conserves settings
      { s with queue := (read3ByteChunk times s.queue bytes).queue, reading := reading }
      consumed' queued' [] es' := by
  have allowed := h.allowed
  rw [← h.streamOpen_eq] at allowed
  have steady := h.steady.add3 times bytes
  have frame := add3_frame times s.queue bytes
  rcases h.holding.add3 h.steady allowed hready with eq | ⟨queue', eq, written, holding, flags⟩
  · have result : (read3ByteChunk times s.queue bytes).queue = s.queue.tick := by
      rw [read3ByteChunk, eq]
      rfl
    rw [result]
    exact ⟨consumed, _, es, h.tick reading⟩
  · have result : (read3ByteChunk times s.queue bytes).queue =
        { queue' with fifo := queue'.fifo.read 3 } := by
      rw [read3ByteChunk, eq]
      rfl
    rw [eq] at steady frame
    rw [result]
    refine ⟨consumed ++ [.threeBytes bytes], chunks,
      es ++ (Chunk.threeBytes bytes).events settings, ?_⟩
    have member : Chunk.threeBytes bytes ∈ s.accepted := by
      rw [h.accepted]
      exact List.mem_append_right _ List.mem_cons_self
    exact {
      steady := steady.withScratch _ _ _ _
      accepted := by
        rw [List.append_assoc]
        exact h.accepted
      bracketed := h.bracketed
      fifo := frame.holds_read h.fifo
      pending := Pending.nil (frame.numRemainingDataBytes.trans h.pending.remaining)
      inside := fun none => absurd rfl none
      heard := by
        rw [List.flatMap_append, List.flatMap_singleton, h.heard]
        simp
      holding := ⟨holding.said, holding.front⟩
      sent := h.sent
      current := fun _ => written
      flags := fun uniform => by
        rw [chunksOpen_append]
        exact flags (uniform.imp_right fun all => all _ member) _ (h.flags uniform) }

/-- An iteration of the reader, if the packets are ready for the chunk at the head of the FIFO. -/
theorem iterate (h : Conserves settings s consumed queued data es)
    (hready : ∀ chunk chunks, queued = chunk :: chunks → data = [] → Ready times s.queue chunk)
    (msgBytes : MessageBytes) (reading : Option MessageBytes) :
    ∃ consumed' queued' data' es', Conserves settings
      { s with queue := (readStep times s.queue msgBytes).queue, reading := reading }
      consumed' queued' data' es' := by
  cases queued with
  | nil =>
    rw [readStep_empty times h.fifo]
    exact ⟨consumed, [], data, es, { h with }⟩
  | cons chunk chunks =>
    by_cases hdata : data = []
    · subst hdata
      have idle : s.queue.numRemainingDataBytes = 0 := h.pending.remaining
      have ready := hready chunk chunks rfl rfl
      cases chunk with
      | threeBytes bytes =>
        rw [readStep_threeBytes times h.fifo h.allowed.wellFormed idle]
        obtain ⟨consumed', queued', es', conserves⟩ := h.read3Byte ready reading
        exact ⟨consumed', queued', [], es', conserves⟩
      | data bytes =>
        obtain ⟨msgBytes', eq⟩ :=
          readStep_data times h.fifo h.allowed.2.1.2 idle msgBytes
        rw [eq]
        exact h.readData ready msgBytes' reading
      | packetSize size => exact h.allowed.elim
    · have remaining : 0 < s.queue.numRemainingDataBytes := by
        rw [h.pending.remaining]
        exact List.length_pos_iff.mpr hdata
      rw [readStep_remaining times h.fifo remaining]
      obtain ⟨data', es', conserves⟩ := h.readRemaining times hdata msgBytes reading
      exact ⟨consumed, _, data', es', conserves⟩

theorem withReading (h : Conserves settings s consumed queued data es)
    (reading : Option MessageBytes) :
    Conserves settings { s with reading := reading } consumed queued data es :=
  { h with }

theorem request (h : Conserves settings s consumed queued data es) {chunk : Chunk}
    (hallowed : chunk.Allowed (chunksOpen false s.accepted)) {fifo : Fifo}
    (hfifo : fifo.bytes = s.queue.fifo.bytes ++ chunk.encode) :
    Conserves settings
      { s with queue := { s.queue with fifo := fifo }, accepted := s.accepted ++ [chunk] }
      consumed (queued ++ [chunk]) data es where
  steady := h.steady.withScratch _ _ _ _
  accepted := by
    rw [← List.append_assoc, ← h.accepted]
  bracketed := bracketed_append.mpr ⟨h.bracketed, hallowed, trivial⟩
  fifo := h.fifo.append hfifo
  pending := h.pending.withFifo fifo
  inside := h.inside
  heard := h.heard
  holding := ⟨h.holding.said, h.holding.front⟩
  sent := h.sent
  current := h.current
  flags := fun uniform => h.flags
    (uniform.imp_right fun all c hc => all c (List.mem_append_left _ hc))

/-- A packet that is sent leaves the window, and what the packets say stays the same. -/
theorem packetSent (h : Conserves settings s consumed queued data es) :
    Conserves settings
      { s with
        queue := s.queue.onTxPacketSent.2
        sent := s.sent ++ (s.queue.firstTxPacket.map Writer.payload).toList }
      consumed queued data es := by
  have frame := onTxPacketSent_frame s.queue
  obtain ⟨holding, first, current⟩ := h.holding.packetSent h.steady h.current
  exact {
    steady := ⟨frame.window h.steady.window, h.steady.packets.onTxPacketSent SteadyPacket.reset⟩
    accepted := h.accepted
    bracketed := h.bracketed
    fifo := frame.holds h.fifo
    pending := h.pending.frame frame
    inside := h.inside
    heard := h.heard
    holding := holding
    sent := by
      intro packet hpacket
      rcases List.mem_append.mp hpacket with hpacket | hpacket
      · exact h.sent packet hpacket
      · obtain ⟨w, popped, rfl⟩ := Option.map_eq_some_iff.mp (Option.mem_toList.mp hpacket)
        exact first w popped
    current := current
    flags := fun uniform => EveryPacket.onTxPacketSent (fun _ hw => hw) (h.flags uniform) }

end Conserves

/-- A call that a producer may make where a sysex message is open or not. -/
def Request.Allowed (inSysex : Bool) : Request → Prop
  | addMsg bytes => inSysex = false ∧ ValidMessage bytes
  | addSysexStart => inSysex = false
  | addSysexData bytes => inSysex = true ∧ bytes ≠ [] ∧ ∀ b ∈ bytes, isDataByte b = true
  | addSysexEnd => inSysex = true
  | addTxPacketSize _ => False

instance (inSysex : Bool) : DecidablePred (Request.Allowed inSysex)
  | .addMsg _ => inferInstanceAs (Decidable (_ ∧ _))
  | .addSysexStart => inferInstanceAs (Decidable (_ = _))
  | .addSysexData _ => inferInstanceAs (Decidable (_ ∧ _ ∧ _))
  | .addSysexEnd => inferInstanceAs (Decidable (_ = _))
  | .addTxPacketSize _ => inferInstanceAs (Decidable False)

theorem isMessage_of_valid {bytes : MessageBytes} (h : ValidMessage bytes) :
    (Chunk.threeBytes bytes).IsMessage := by
  constructor
  · intro start
    rw [ValidMessage, start] at h
    exact h.1 rfl
  · intro finish
    rw [ValidMessage, finish] at h
    exact h.1 rfl

omit [NeZero packetCount] in
theorem Request.chunk_allowed {inSysex : Bool} {r : Request} (h : r.Allowed inSysex)
    {queue queue' : TxQueue maxSize packetCount} {count : Nat}
    (hexec : r.exec queue = (.ok count, queue')) : (r.chunk count).Allowed inSysex := by
  cases r with
  | addMsg bytes =>
    have message := isMessage_of_valid h.2
    change (Chunk.threeBytes bytes).Allowed inSysex
    simp only [Chunk.Allowed, if_neg message.1, if_neg message.2]
    exact h
  | addSysexStart => exact h
  | addSysexData bytes =>
    obtain ⟨inside, nonempty, valid⟩ := h
    have wellFormed := Request.chunk_wellFormed (r := .addSysexData bytes) nonempty hexec
    exact ⟨inside, wellFormed, fun b hb => valid b (List.mem_of_mem_take hb)⟩
  | addSysexEnd => exact h
  | addTxPacketSize size => exact h.elim

theorem Fresh.conserves {queue : TxQueue maxSize packetCount} (h : Fresh settings queue) :
    Conserves settings (System.initial queue) [] [] [] [] := by
  have alone : queue.front = [] := by
    rw [front, h.single]
    exact Core.RingWindow.window_zero _ _
  obtain ⟨size, running, -⟩ := h.empty.last
  exact {
    steady := h.steady
    accepted := rfl
    bracketed := trivial
    fifo := h.fifo
    pending := Pending.nil h.remaining
    inside := fun none => absurd rfl none
    heard := rfl
    holding := by
      constructor
      · change Says ([] ++ queue.front.map Writer.payload) queue.lastTxPacket []
        rw [alone]
        exact Says.empty h.steady.last.fits size running
      · change ∀ w ∈ queue.front, _
        rw [alone]
        intro w hw
        cases hw
    sent := fun packet hpacket => absurd hpacket List.not_mem_nil
    current := by
      change queue.hasTxData = true → _
      rw [h.clear]
      intro set
      cases set
    flags := fun _ i => (h.empty i).2.2 }

/-- Runs with a property `P` of the accepted chunks, in which the producer keeps to the brackets
and the packets are ready for each chunk that is read. -/
theorem conserves_run {permits : System maxSize packetCount → Action → Prop} {P : Chunk → Prop}
    (hrequest : ∀ {s : System maxSize packetCount} {r : Request}, (∀ chunk ∈ s.accepted, P chunk) →
      permits s (.request r) →
      r.Allowed (chunksOpen false s.accepted) ∧ ∀ count, P (r.chunk count))
    (hread : ∀ {s : System maxSize packetCount} {consumed chunks : List Chunk} {chunk : Chunk}
      {es : List MidiEvent}, (∀ chunk ∈ s.accepted, P chunk) → permits s .iterateRead →
      Conserves settings s consumed (chunk :: chunks) [] es → Ready times s.queue chunk)
    {s : System maxSize packetCount} (h : System.Reachable times settings permits s) :
    (∀ chunk ∈ s.accepted, P chunk) ∧
      ∃ consumed queued data es, Conserves settings s consumed queued data es := by
  refine h.invariant (I := fun s => (∀ chunk ∈ s.accepted, P chunk) ∧
    ∃ consumed queued data es, Conserves settings s consumed queued data es) ?_ ?_
  · intro queue fresh
    exact ⟨fun chunk hchunk => absurd hchunk List.not_mem_nil, [], [], [], [], fresh.conserves⟩
  · rintro s s' a ⟨all, consumed, queued, data, es, conserves⟩ permitted next
    cases a with
    | request r =>
      obtain ⟨allowed, kept⟩ := hrequest all permitted
      rcases System.act_request next with rfl | ⟨count, fifo, exec, written, rfl⟩
      · exact ⟨all, consumed, queued, data, es, conserves⟩
      · refine ⟨?_, consumed, _, data, es,
          conserves.request (Request.chunk_allowed allowed exec) written⟩
        exact List.forall_mem_append.mpr ⟨all, List.forall_mem_singleton.mpr (kept count)⟩
    | beginRead =>
      rw [System.act_beginRead next]
      exact ⟨all, consumed, queued, data, es, conserves.withReading _⟩
    | iterateRead =>
      obtain ⟨msgBytes, reading, -, rfl⟩ := System.act_iterateRead next
      refine ⟨all, conserves.iterate ?_ msgBytes reading⟩
      rintro chunk chunks rfl rfl
      exact hread all permitted conserves
    | packetSent =>
      rw [System.act_packetSent next]
      exact ⟨all, consumed, queued, data, es, conserves.packetSent⟩

end BleMidi.Queue
