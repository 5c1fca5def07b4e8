/- Module: BleMidi/Queue/Resizing
   source: ble_midi/src/tx_queue.c (tx_queue_fifo_add_tx_packet_size, tx_queue_read_from_fifo)
   digest: Size requests among the chunks, and packets that get larger while they are in use. -/

import BleMidi.Queue.Delivery
import BleMidi.Queue.Sizes

set_option autoImplicit false
set_option relaxedAutoImplicit false

namespace BleMidi.Queue

open BleMidi.Core.RingWindow
open BleMidi.Packet.Grammar
open BleMidi.Packet.PacketParser
open BleMidi.Packet.PacketStream
open BleMidi.Packet.PacketWriter
open BleMidi.Packet.WriterSimulation
open BleMidi.Packet.WriterSpec
open TxQueue

variable {maxSize packetCount : Nat} {settings settings' : Settings maxSize}

/-- The chunks other than size requests. -/
def contents (chunks : List Chunk) : List Chunk := chunks.filter fun chunk => ¬ chunk.Resizes

theorem contents_append (chunks more : List Chunk) :
    contents (chunks ++ more) = contents chunks ++ contents more := List.filter_append chunks more

@[simp] theorem contents_packetSize (size : UInt16) (chunks : List Chunk) :
    contents (.packetSize size :: chunks) = contents chunks := rfl

theorem contents_cons {chunk : Chunk} (h : ¬ chunk.Resizes) (chunks : List Chunk) :
    contents (chunk :: chunks) = chunk :: contents chunks :=
  List.filter_cons_of_pos (decide_eq_true h)

theorem mem_contents {chunks : List Chunk} {chunk : Chunk} (h : chunk ∈ contents chunks) :
    chunk ∈ chunks := List.mem_of_mem_filter h

theorem chunksOpen_contents (inSysex : Bool) (chunks : List Chunk) :
    chunksOpen inSysex (contents chunks) = chunksOpen inSysex chunks := by
  induction chunks generalizing inSysex with
  | nil => rfl
  | cons chunk chunks ih =>
    by_cases resizes : chunk.Resizes
    · cases chunk with
      | packetSize size => exact ih inSysex
      | _ => exact resizes.elim
    · rw [contents_cons resizes]
      exact ih _

theorem events_contents (settings : Settings maxSize) (chunks : List Chunk) :
    (contents chunks).flatMap (Chunk.events settings) =
      chunks.flatMap (Chunk.events settings) := by
  induction chunks with
  | nil => rfl
  | cons chunk chunks ih =>
    by_cases resizes : chunk.Resizes
    · cases chunk with
      | packetSize size => exact ih
      | _ => exact resizes.elim
    · rw [contents_cons resizes, List.flatMap_cons, List.flatMap_cons, ih]

/-- Each size request asks for at least the size before it, and none for more than the last one. -/
def Rises (maxSize : Nat) (size last : UInt16) : List Chunk → Prop
  | [] => size ≤ last
  | .packetSize requested :: chunks =>
      size ≤ requested ∧ requested.toNat ≤ maxSize ∧ Rises maxSize requested last chunks
  | .threeBytes _ :: chunks => Rises maxSize size last chunks
  | .data _ :: chunks => Rises maxSize size last chunks

namespace Rises

variable {size last : UInt16} {chunks : List Chunk}

theorem le (h : Rises maxSize size last chunks) : size ≤ last := by
  induction chunks generalizing size with
  | nil => exact h
  | cons chunk chunks ih =>
    cases chunk with
    | packetSize requested => exact UInt16.le_trans h.1 (ih h.2.2)
    | threeBytes bytes => exact ih h
    | data bytes => exact ih h

theorem append (h : Rises maxSize size last chunks) {last' : UInt16} (hlast : last ≤ last')
    {chunk : Chunk} (hchunk : ∀ requested, chunk = .packetSize requested →
      last ≤ requested ∧ requested ≤ last' ∧ requested.toNat ≤ maxSize) :
    Rises maxSize size last' (chunks ++ [chunk]) := by
  induction chunks generalizing size with
  | nil =>
    cases chunk with
    | packetSize requested =>
      obtain ⟨least, most, fits⟩ := hchunk requested rfl
      exact ⟨UInt16.le_trans h least, fits, most⟩
    | threeBytes bytes => exact UInt16.le_trans h hlast
    | data bytes => exact UInt16.le_trans h hlast
  | cons first chunks ih =>
    cases first with
    | packetSize requested => exact ⟨h.1, h.2.1, ih h.2.2⟩
    | threeBytes bytes => exact ih h
    | data bytes => exact ih h

theorem mono (h : Rises maxSize size last chunks) {last' : UInt16} (hlast : last ≤ last') :
    Rises maxSize size last' chunks := by
  induction chunks generalizing size with
  | nil => exact UInt16.le_trans h hlast
  | cons chunk chunks ih =>
    cases chunk with
    | packetSize requested => exact ⟨h.1, h.2.1, ih h.2.2⟩
    | threeBytes bytes => exact ih h
    | data bytes => exact ih h

theorem tail {chunk : Chunk} (h : Rises maxSize size last (chunk :: chunks))
    (hchunk : ¬ chunk.Resizes) : Rises maxSize size last chunks := by
  cases chunk with
  | packetSize requested => exact absurd trivial hchunk
  | threeBytes bytes => exact h
  | data bytes => exact h

end Rises

/-- All packets get a size. -/
def TxQueue.resize (queue : TxQueue maxSize packetCount) (size : UInt16) :
    TxQueue maxSize packetCount :=
  { queue with txPackets := fun i => { queue.txPackets i with txBufMaxSize := size } }

/-- Settings whose packets are at least as large, and that agree otherwise. -/
structure Settings.Grows (settings settings' : Settings maxSize) : Prop where
  size : settings.txBufMaxSize ≤ settings'.txBufMaxSize
  runningStatusEnabled : settings'.runningStatusEnabled = settings.runningStatusEnabled
  noteOffAsNoteOn : settings'.noteOffAsNoteOn = settings.noteOffAsNoteOn

theorem Chunk.events_congr
    (hrunning : settings'.runningStatusEnabled = settings.runningStatusEnabled)
    (hnoteOff : settings'.noteOffAsNoteOn = settings.noteOffAsNoteOn) :
    Chunk.events settings' = Chunk.events settings := by
  funext chunk
  cases chunk with
  | threeBytes bytes =>
    unfold Chunk.events
    rw [hrunning, hnoteOff]
  | _ => rfl

private theorem carries_resize {openBefore : Bool} {w : Writer maxSize} {events : List Event}
    {size : UInt16} (h : Carries openBefore w events) (hsize : w.txBufMaxSize ≤ size)
    (hmax : size.toNat ≤ maxSize) : Carries openBefore { w with txBufMaxSize := size } events := by
  obtain ⟨fits, shown⟩ := h
  refine ⟨⟨Nat.le_trans fits.size_le hsize, hmax⟩, ?_⟩
  rcases shown with empty | ⟨t, body, s, view⟩
  · exact .inl empty
  · exact .inr ⟨t, body, s, view.payload, view.emits, view.clock, view.inStep, view.first,
      view.scanOk⟩

private theorem says_resize {finished : List (List UInt8)} {w : Writer maxSize}
    {es : List MidiEvent} {size : UInt16} (h : Says finished w es) (hsize : w.txBufMaxSize ≤ size)
    (hmax : size.toNat ≤ maxSize) : Says finished { w with txBufMaxSize := size } es := by
  obtain ⟨done, events, delivered, carries, eq⟩ := h.split
  exact ⟨done, events, delivered, carries_resize carries hsize hmax, eq⟩

variable [NeZero packetCount] {s : System maxSize packetCount}

theorem TxQueue.front_resize (queue : TxQueue maxSize packetCount) (size : UInt16) :
    (queue.resize size).front =
      queue.front.map fun w => { w with txBufMaxSize := size } := by
  unfold TxQueue.front window
  rw [List.map_map]
  rfl

theorem TxQueue.packets_resize (queue : TxQueue maxSize packetCount) (size : UInt16) :
    (queue.resize size).packets =
      queue.packets.map fun w => { w with txBufMaxSize := size } := by
  unfold TxQueue.packets window
  rw [List.map_map]
  rfl

theorem TxQueue.firstTxPacket_resize (queue : TxQueue maxSize packetCount) (size : UInt16) :
    (queue.resize size).firstTxPacket =
      queue.firstTxPacket.map fun w => { w with txBufMaxSize := size } := by
  unfold firstTxPacket
  change (if queue.hasTxData = true then _ else _) = _
  cases queue.hasTxData <;> rfl

theorem Conserves.resize {consumed queued : List Chunk} {data : List UInt8} {es : List MidiEvent}
    (h : Conserves settings s consumed queued data es) (hgrows : settings.Grows settings') :
    Conserves settings' { s with queue := s.queue.resize settings'.txBufMaxSize } consumed queued
      data es where
  steady := by
    refine ⟨h.steady.window.of_eq rfl rfl, fun i => ?_⟩
    have packet := h.steady.packets i
    refine ⟨rfl, packet.runningStatusEnabled.trans hgrows.runningStatusEnabled.symm,
      packet.noteOffAsNoteOn.trans hgrows.noteOffAsNoteOn.symm, ?_⟩
    have less := packet.size_le
    rw [packet.txBufMaxSize] at less
    exact Nat.le_trans less hgrows.size
  accepted := h.accepted
  bracketed := h.bracketed
  fifo := h.fifo
  pending := ⟨h.pending.remaining, h.pending.chunk, h.pending.bytes, h.pending.valid⟩
  inside := h.inside
  heard := by
    rw [Chunk.events_congr hgrows.runningStatusEnabled hgrows.noteOffAsNoteOn]
    exact h.heard
  holding := by
    have said := h.holding.said
    have last := h.steady.last.txBufMaxSize
    constructor
    · change Says (s.sent ++ (s.queue.resize settings'.txBufMaxSize).front.map Writer.payload)
        { s.queue.lastTxPacket with txBufMaxSize := settings'.txBufMaxSize } es
      rw [front_resize, List.map_map]
      refine says_resize said ?_ settings'.le_maxSize
      rw [last]
      exact hgrows.size
    · change ∀ w ∈ (s.queue.resize settings'.txBufMaxSize).front, w.txBufSize ≠ 0
      rw [front_resize]
      intro w hw
      obtain ⟨w', inFront, rfl⟩ := List.mem_map.mp hw
      exact h.holding.front w' inFront
  sent := h.sent
  current := h.current
  flags := h.flags

end BleMidi.Queue
