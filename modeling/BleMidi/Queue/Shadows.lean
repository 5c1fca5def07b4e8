/- Module: BleMidi/Queue/Shadows
   source: ble_midi/src/tx_queue.c (tx_queue_read_from_fifo)
   digest: A queue with size requests in its FIFO, beside one without them that loses nothing. -/

import BleMidi.Queue.InFlight
import BleMidi.Queue.Progress
import BleMidi.Queue.Resizing
import BleMidi.Queue.Unsized

set_option autoImplicit false
set_option relaxedAutoImplicit false

namespace BleMidi.Queue

open BleMidi.Core.Lockstep
open BleMidi.Packet.Grammar
open BleMidi.Packet.PacketStream
open BleMidi.Packet.PacketWriter
open BleMidi.Packet.WriterSpec
open TxQueue

variable {maxSize packetCount : Nat} [NeZero packetCount] {times : Nat → UInt16}
  {size : UInt16} {queued : List Chunk} {queue queue' : TxQueue maxSize packetCount}

/-- A queue and a twin without size requests in its FIFO. At first, the packets of the twin already
have the size whose request is at the head of the FIFO. -/
inductive Shadows (times : Nat → UInt16) (size : UInt16) (queued : List Chunk)
    (queue queue' : TxQueue maxSize packetCount) : Prop
  | sized : Framed queue queued [] → Framed queue' (contents queued) [] →
      Twins times times queue queue' → Shadows times size queued queue queue'
  | waiting {blank : TxQueue maxSize packetCount} {runningStatusEnabled noteOffAsNoteOn : Bool}
      {fifo : Fifo} {rest : List Chunk} :
      queue = { init blank runningStatusEnabled noteOffAsNoteOn with fifo := fifo } →
      Framed queue queued [] → Framed queue' (contents queued) [] →
      Twins times times (queue.resize size) queue' → queued = .packetSize size :: rest →
      Shadows times size queued queue queue'

namespace Shadows

omit [NeZero packetCount] in
theorem framed (h : Shadows times size queued queue queue') :
    Framed queue queued [] ∧ Framed queue' (contents queued) [] := by
  cases h with
  | sized framed framed' _ => exact ⟨framed, framed'⟩
  | waiting _ framed framed' _ _ => exact ⟨framed, framed'⟩

omit [NeZero packetCount] in
/-- A chunk at the end of the FIFO, and of the other one if it is no size request. -/
theorem append (h : Shadows times size queued queue queue') {chunk : Chunk}
    (hchunk : chunk.WellFormed) {fifo fifo' : Fifo}
    (hfifo : fifo.bytes = queue.fifo.bytes ++ chunk.encode)
    (hfifo' : fifo'.Holds (contents (queued ++ [chunk]))) :
    Shadows times size (queued ++ [chunk]) { queue with fifo := fifo }
      { queue' with fifo := fifo' } := by
  have wellFormed (c : Chunk) (hc : c ∈ contents (queued ++ [chunk])) : c.WellFormed :=
    (h.framed.1.append hchunk hfifo).wellFormed c (mem_contents hc)
  have held : fifo'.Holds (contents (queued ++ [chunk]) ++ []) := by
    rw [List.append_nil]
    exact hfifo'
  cases h with
  | sized framed framed' twins =>
    exact .sized (framed.append hchunk hfifo) (framed'.withFifo held wellFormed)
      (twins.withFifo _ _)
  | waiting initial framed framed' twins head =>
    subst initial head
    exact .waiting rfl (framed.append hchunk hfifo) (framed'.withFifo held wellFormed)
      (twins.withFifo fifo fifo') rfl

theorem same (h : Shadows times size queued queue queue') :
    queue'.packets.map Writer.payload = queue.packets.map Writer.payload ∧
      queue'.firstTxPacket.map Writer.payload = queue.firstTxPacket.map Writer.payload ∧
      queue'.remainingData = queue.remainingData := by
  cases h with
  | sized _ _ twins =>
    exact ⟨twins.packets_payload, twins.firstTxPacket_payload, twins.remainingData⟩
  | waiting _ _ _ twins _ =>
    refine ⟨?_, ?_, twins.remainingData⟩
    · rw [twins.packets_payload, packets_resize, List.map_map]
      rfl
    · rw [twins.firstTxPacket_payload, firstTxPacket_resize, Option.map_map]
      rfl

theorem packetSent (h : Shadows times size queued queue queue') :
    Shadows times size queued queue.onTxPacketSent.2 queue'.onTxPacketSent.2 := by
  cases h with
  | sized framed framed' twins => exact .sized framed.sent framed'.sent twins.sent.2
  | waiting initial framed framed' twins head =>
    have clear : queue.hasTxData = false := by
      rw [initial]
      rfl
    have clear' : queue'.hasTxData = false := twins.hasTxData.trans clear
    rw [(onTxPacketSent_clear clear).2, (onTxPacketSent_clear clear').2]
    exact .waiting initial framed framed' twins head

end Shadows

theorem readRemaining_fifo (times : Nat → UInt16) (queue : TxQueue maxSize packetCount)
    (msgBytes : MessageBytes) :
    (readRemaining times queue msgBytes).queue.fifo = queue.fifo := by
  have frame := addDataBytes_frame times queue queue.remainingData
  rw [readRemaining]
  revert frame
  rcases addDataBytesToTxPacket times queue queue.remainingData with ⟨code | _ | count, r⟩ <;>
    exact fun frame => frame.fifo

/-- Pending data that the packet takes leaves the chunks of the FIFO where they are. -/
theorem Framed.readRemaining (times : Nat → UInt16) (h : Framed queue queued [])
    (hremaining : 0 < queue.numRemainingDataBytes) (htakes : TakesData queue.lastTxPacket)
    (msgBytes : MessageBytes) :
    Framed (TxQueue.readRemaining times queue msgBytes).queue queued [] := by
  have iterates := h.remaining times hremaining htakes msgBytes
  have fifo := readRemaining_fifo times queue msgBytes
  have held := h.holds
  revert iterates fifo
  generalize TxQueue.readRemaining times queue msgBytes = r
  intro iterates fifo
  cases iterates with
  | returns _ framed => exact framed
  | adds _ _ framed => exact framed
  | reads cons took _ =>
    subst cons
    exact absurd (took.symm.trans fifo) (read_chunk_ne held _)

omit [NeZero packetCount] in
theorem Framed.resize (h : Framed queue queued []) (hidle : queue.numRemainingDataBytes = 0)
    (size : UInt16) : Framed (queue.resize size) queued [] := by
  obtain ⟨window, -, held, wellFormed, -⟩ := h
  refine ⟨window.of_eq rfl rfl, ⟨size, fun _ => rfl, fun positive => ?_⟩, held, wellFormed, [],
    Pending.nil hidle, Nat.zero_le _⟩
  exact absurd hidle (Nat.ne_of_gt positive)

/-- What a state with size requests has in common with one without them that loses nothing: the
same was accepted and sent, and the packets are no larger than the last requested size. -/
structure Follows (times : Nat → UInt16) (settings : Settings maxSize) (last : UInt16)
    (s t : System maxSize packetCount) (consumed queued : List Chunk) : Prop where
  shadows : Shadows times settings.txBufMaxSize queued s.queue t.queue
  rises : Rises maxSize settings.txBufMaxSize last queued
  accepted : s.accepted = consumed ++ queued
  sent : t.sent = s.sent
  conserves : ∃ data es,
    Conserves settings t (contents consumed) (contents queued) data es
  uniform : packetCount = 1 ∨ ∀ chunk ∈ t.accepted, chunk.IsMessage
  short : ∀ packet ∈ s.sent, packet.length ≤ settings.txBufMaxSize.toNat

namespace Follows

variable {settings : Settings maxSize} {last : UInt16} {s t : System maxSize packetCount}
  {consumed : List Chunk}

theorem withReading (h : Follows times settings last s t consumed queued)
    (reading : Option MessageBytes) :
    Follows times settings last { s with reading := reading } t consumed queued := { h with }

theorem accepted_eq (h : Follows times settings last s t consumed queued) :
    t.accepted = contents s.accepted := by
  obtain ⟨data, es, conserves⟩ := h.conserves
  rw [conserves.accepted, h.accepted, contents_append]

theorem append (h : Follows times settings last s t consumed queued) {chunk : Chunk}
    (hallowed : chunk.Allowed (chunksOpen false s.accepted))
    (huniform : packetCount = 1 ∨ chunk.IsMessage) {fifo : Fifo}
    (hfifo : fifo.bytes = s.queue.fifo.bytes ++ chunk.encode) :
    ∃ t', Follows times settings last
      { s with queue := { s.queue with fifo := fifo }, accepted := s.accepted ++ [chunk] } t'
      consumed (queued ++ [chunk]) := by
  obtain ⟨data, es, conserves⟩ := h.conserves
  have other : ¬ chunk.Resizes := by
    cases chunk with
    | packetSize size => exact hallowed.elim
    | _ => exact id
  have contents_eq : contents (queued ++ [chunk]) = contents queued ++ [chunk] := by
    rw [contents_append, contents_cons other]
    rfl
  have allowed : chunk.Allowed (chunksOpen false t.accepted) := by
    rw [h.accepted_eq, chunksOpen_contents]
    exact hallowed
  let fifo' : Fifo := ⟨_, t.queue.fifo.bytes ++ chunk.encode, le_rfl⟩
  have written : fifo'.bytes = t.queue.fifo.bytes ++ chunk.encode := rfl
  have conserves' := conserves.request allowed written
  rw [← contents_eq] at conserves'
  refine ⟨{ t with queue := { t.queue with fifo := fifo' }, accepted := t.accepted ++ [chunk] },
    h.shadows.append hallowed.wellFormed hfifo conserves'.fifo, ?_, ?_, h.sent,
    ⟨data, es, conserves'⟩, ?_, h.short⟩
  · refine h.rises.append (UInt16.le_refl last) ?_
    rintro requested rfl
    exact absurd trivial other
  · rw [← List.append_assoc, ← h.accepted]
  · rcases h.uniform with one | all
    · exact .inl one
    · refine huniform.imp_right fun message => ?_
      exact List.forall_mem_append.mpr ⟨all, List.forall_mem_singleton.mpr message⟩

theorem appendSize (h : Follows times settings last s t consumed queued) {requested : UInt16}
    (hlast : last ≤ requested) (hmax : requested.toNat ≤ maxSize) {fifo : Fifo}
    (hfifo : fifo.bytes = s.queue.fifo.bytes ++ (Chunk.packetSize requested).encode) :
    Follows times settings requested
      { s with
        queue := { s.queue with fifo := fifo }
        accepted := s.accepted ++ [.packetSize requested] } t consumed
      (queued ++ [.packetSize requested]) := by
  obtain ⟨data, es, conserves⟩ := h.conserves
  have contents_eq : contents (queued ++ [.packetSize requested]) = contents queued := by
    rw [contents_append]
    exact List.append_nil _
  rw [← contents_eq] at conserves
  have wellFormed : (Chunk.packetSize requested).WellFormed := trivial
  refine ⟨h.shadows.append wellFormed hfifo conserves.fifo, ?_, ?_, h.sent,
    ⟨data, es, conserves⟩, h.uniform, h.short⟩
  · refine h.rises.append hlast fun _ eq => ?_
    cases eq
    exact ⟨hlast, UInt16.le_refl requested, hmax⟩
  · rw [← List.append_assoc, ← h.accepted]

theorem mono (h : Follows times settings last s t consumed queued) {last' : UInt16}
    (hlast : last ≤ last') : Follows times settings last' s t consumed queued :=
  { h with rises := h.rises.mono hlast }

theorem packetSent (h : Follows times settings last s t consumed queued) :
    ∃ t', Follows times settings last
      { s with
        queue := s.queue.onTxPacketSent.2
        sent := s.sent ++ (s.queue.firstTxPacket.map Writer.payload).toList } t' consumed
      queued := by
  obtain ⟨data, es, conserves⟩ := h.conserves
  obtain ⟨-, first, -⟩ := h.shadows.same
  refine ⟨_, h.shadows.packetSent, h.rises, h.accepted, ?_, ⟨data, es, conserves.packetSent⟩,
    h.uniform, ?_⟩
  · rw [first, h.sent]
  · refine List.forall_mem_append.mpr ⟨h.short, fun packet hpacket => ?_⟩
    rw [← first] at hpacket
    obtain ⟨w, popped, rfl⟩ := Option.map_eq_some_iff.mp (Option.mem_toList.mp hpacket)
    have packet : SteadyPacket settings w := by
      unfold firstTxPacket at popped
      split at popped
      · cases popped
        exact conserves.steady.packets _
      · cases popped
    have fits := packet.fits
    rw [payload_length (fits.size_le.trans fits.max_le), ← packet.txBufMaxSize]
    exact fits.size_le

private theorem conserves_left {consumed' queued' left : List Chunk} {data : List UInt8}
    {es : List MidiEvent} (h : Conserves settings t consumed' queued' data es)
    (hframed : Framed t.queue (contents left) [])
    (haccepted : t.accepted = contents consumed ++ contents left) :
    Conserves settings t (contents consumed) (contents left) data es := by
  have bracketed := h.bracketed
  rw [h.accepted] at bracketed
  have wellFormed (chunk : Chunk) (hchunk : chunk ∈ queued') : chunk.WellFormed :=
    (bracketed_keepsSize (bracketed_append.mp bracketed).2 chunk hchunk).1
  have same : queued' = contents left := by
    rw [← Fifo.recognised_eq h.fifo wellFormed, hframed.recognised]
  subst same
  rw [← List.append_cancel_right (h.accepted.symm.trans haccepted)]
  exact h

private theorem readChunk {chunk : Chunk} {rest : List Chunk} {es : List MidiEvent}
    (h : Follows times settings last s t consumed (chunk :: rest))
    (hconserves : Conserves settings t (contents consumed) (contents (chunk :: rest)) [] es)
    (htwins : Twins times times s.queue t.queue) (hchunk : ¬ chunk.Resizes)
    (msgBytes : MessageBytes) (reading : Option MessageBytes) :
    ∃ t' consumed' queued', Follows times settings last
      { s with queue := (readStep times s.queue msgBytes).queue, reading := reading } t' consumed'
      queued' := by
  obtain ⟨framed, framed'⟩ := h.shadows.framed
  have head := contents_cons hchunk rest
  rw [head] at framed' hconserves
  have idle' : t.queue.numRemainingDataBytes = 0 := hconserves.pending.remaining
  have idle : s.queue.numRemainingDataBytes = 0 := htwins.remaining.symm.trans idle'
  have moving {q : TxQueue maxSize packetCount} (idle : q.numRemainingDataBytes = 0) :
      ¬ Stalled q := fun stalled => absurd idle (Nat.ne_of_gt stalled.2.1)
  have alike := htwins.readStep framed.window framed.holds framed'.holds
    (.inl ⟨rfl, framed.wellFormed _ List.mem_cons_self⟩) msgBytes msgBytes
  have iterates := framed.iterates times (.inl rfl) (moving idle) msgBytes
  have iterates' := framed'.iterates times (.inl rfl) (moving idle') msgBytes
  have ready (c : Chunk) (chunks : List Chunk) (queued : chunk :: contents rest = c :: chunks)
      (_ : ([] : List UInt8) = []) : Ready times t.queue c := by
    cases queued
    exact ready_of_uniform h.uniform hconserves
  obtain ⟨_, _, data', es', conserves'⟩ := hconserves.iterate ready msgBytes t.reading
  suffices moved : ∃ consumed' left, s.accepted = consumed' ++ left ∧
      Rises maxSize settings.txBufMaxSize last left ∧
      Framed (readStep times s.queue msgBytes).queue left [] ∧
      Framed (readStep times t.queue msgBytes).queue (contents left) [] ∧
      Twins times times (readStep times s.queue msgBytes).queue
        (readStep times t.queue msgBytes).queue by
    obtain ⟨consumed', left, accepted, rises, framed₁, framed₂, twins⟩ := moved
    refine ⟨{ t with queue := (readStep times t.queue msgBytes).queue }, consumed', left,
      .sized framed₁ framed₂ twins, rises, accepted, h.sent,
      ⟨data', es', conserves_left conserves' framed₂ ?_⟩, h.uniform, h.short⟩
    rw [← contents_append, ← accepted]
    exact h.accepted_eq
  revert alike iterates iterates'
  generalize readStep times s.queue msgBytes = r
  generalize readStep times t.queue msgBytes = r'
  intro alike iterates iterates'
  have stays : s.accepted = consumed ++ chunk :: rest := h.accepted
  have took : s.accepted = (consumed ++ [chunk]) ++ rest := by
    rw [List.append_assoc]
    exact h.accepted
  cases alike with
  | ret same =>
    cases iterates with
    | returns _ framed₁ =>
      cases iterates' with
      | returns _ framed₂ =>
        rw [← head] at framed₂
        exact ⟨consumed, chunk :: rest, stays, h.rises, framed₁, framed₂, same.2.twins⟩
  | next beside =>
    cases iterates with
    | adds _ less _ => exact absurd (idle ▸ less) (Nat.not_lt_zero _)
    | reads cons _ framed₁ =>
      cases cons
      cases iterates' with
      | adds _ less _ => exact absurd (idle' ▸ less) (Nat.not_lt_zero _)
      | reads cons' _ framed₂ =>
        cases cons'
        exact ⟨consumed ++ [chunk], rest, took, h.rises.tail hchunk, framed₁, framed₂, beside.twins⟩

private theorem readPending {data : List UInt8} {es : List MidiEvent}
    (h : Follows times settings last s t consumed queued)
    (hconserves : Conserves settings t (contents consumed) (contents queued) data es)
    (htwins : Twins times times s.queue t.queue) (hdata : data ≠ []) (hqueued : queued ≠ [])
    (msgBytes : MessageBytes) (reading : Option MessageBytes) :
    ∃ t', Follows times settings last
      { s with queue := (readStep times s.queue msgBytes).queue, reading := reading } t' consumed
      queued := by
  obtain ⟨framed, framed'⟩ := h.shadows.framed
  obtain ⟨chunk, rest, cons⟩ := List.exists_cons_of_ne_nil hqueued
  have held := framed.holds
  rw [cons] at held
  have positive := List.length_pos_iff.mpr hdata
  have remaining' : 0 < t.queue.numRemainingDataBytes := by
    rw [hconserves.pending.remaining]
    exact positive
  have remaining : 0 < s.queue.numRemainingDataBytes := by
    rw [← htwins.remaining]
    exact remaining'
  have accepted := h.accepted_eq
  have flags : t.queue.lastTxPacket.inSysexMsg = true :=
    (hconserves.flags h.uniform).last.trans (hconserves.inside hdata)
  have takes : TakesData s.queue.lastTxPacket := .inl (htwins.last.inSysexMsg.symm.trans flags)
  have alike := htwins.readRemaining framed.window msgBytes msgBytes
  have framed₁ := framed.readRemaining times remaining takes msgBytes
  have framed₂ := framed'.readRemaining times remaining' (.inl flags) msgBytes
  obtain ⟨data', es', conserves'⟩ := hconserves.readRemaining times hdata msgBytes t.reading
  rw [readStep_remaining times held remaining]
  refine ⟨{ t with queue := (readRemaining times t.queue msgBytes).queue },
    .sized framed₁ framed₂ ?_, h.rises, h.accepted, h.sent, ⟨data', es', conserves'⟩, h.uniform,
    h.short⟩
  change Twins times times (readRemaining times s.queue msgBytes).queue
    (readRemaining times t.queue msgBytes).queue
  revert alike
  generalize readRemaining times s.queue msgBytes = r
  generalize readRemaining times t.queue msgBytes = r'
  intro alike
  cases alike with
  | ret same => exact same.2.twins
  | next beside => exact beside.twins

omit [NeZero packetCount] in
private theorem granted_eq {requested : UInt16} (h : requested.toNat ≤ maxSize) :
    UInt16.ofNat (if maxSize < requested.toNat then maxSize else requested.toNat) = requested := by
  rw [if_neg (Nat.not_lt.mpr h), UInt16.ofNat_toNat]

private theorem readSize {requested : UInt16} {rest : List Chunk} {es : List MidiEvent}
    (h : Follows times settings last s t consumed (.packetSize requested :: rest))
    (hconserves : Conserves settings t (contents consumed) (contents rest) [] es)
    (htwins : Twins times times s.queue t.queue) (msgBytes : MessageBytes)
    (reading : Option MessageBytes) :
    ∃ settings' t', settings.Grows settings' ∧ Follows times settings' last
      { s with queue := (readStep times s.queue msgBytes).queue, reading := reading } t'
      (consumed ++ [.packetSize requested]) rest := by
  obtain ⟨framed, framed'⟩ := h.shadows.framed
  obtain ⟨grown, fits, rises⟩ := h.rises
  have idle' : t.queue.numRemainingDataBytes = 0 := hconserves.pending.remaining
  have idle : s.queue.numRemainingDataBytes = 0 := htwins.remaining.symm.trans idle'
  obtain ⟨msgBytes', eq⟩ := readStep_packetSize times framed.holds idle msgBytes
  have five_le : 5 ≤ requested.toNat := settings.five_le.trans grown
  let settings' : Settings maxSize :=
    ⟨requested, settings.runningStatusEnabled, settings.noteOffAsNoteOn, five_le, fits⟩
  have grows : settings.Grows settings' := ⟨grown, rfl, rfl⟩
  have framed₁ := framed.packetSize idle requested
  have twins := ((htwins.packetSize requested).twins.withFifo (s.queue.fifo.read 3) t.queue.fifo)
  have none : contents (consumed ++ [.packetSize requested]) = contents consumed := by
    rw [contents_append]
    exact List.append_nil _
  rw [eq, granted_eq fits]
  refine ⟨settings', { t with queue := t.queue.resize requested }, grows,
    .sized framed₁ (framed'.resize idle' requested) twins, rises, ?_, h.sent, ⟨[], es, ?_⟩,
    h.uniform, ?_⟩
  · rw [List.append_assoc]
    exact h.accepted
  · rw [none]
    exact hconserves.resize grows
  · exact fun packet hpacket => (h.short packet hpacket).trans grown

private theorem readFirstSize {blank : TxQueue maxSize packetCount}
    {runningStatusEnabled noteOffAsNoteOn : Bool} {fifo : Fifo} {rest : List Chunk}
    (h : Follows times settings last s t consumed (.packetSize settings.txBufMaxSize :: rest))
    (hinitial : s.queue = { init blank runningStatusEnabled noteOffAsNoteOn with fifo := fifo })
    (htwins : Twins times times (s.queue.resize settings.txBufMaxSize) t.queue)
    (msgBytes : MessageBytes) (reading : Option MessageBytes) :
    Follows times settings last
      { s with queue := (readStep times s.queue msgBytes).queue, reading := reading } t
      (consumed ++ [.packetSize settings.txBufMaxSize]) rest := by
  obtain ⟨framed, framed'⟩ := h.shadows.framed
  have idle : s.queue.numRemainingDataBytes = 0 := by
    rw [hinitial]
    rfl
  obtain ⟨msgBytes', eq⟩ := readStep_packetSize times framed.holds idle msgBytes
  have twins := htwins.withFifo (s.queue.fifo.read 3) t.queue.fifo
  obtain ⟨data, es, conserves⟩ := h.conserves
  have none : contents (consumed ++ [.packetSize settings.txBufMaxSize]) = contents consumed := by
    rw [contents_append]
    exact List.append_nil _
  rw [eq, granted_eq settings.le_maxSize]
  refine ⟨.sized (framed.packetSize idle _) framed' twins, h.rises.2.2, ?_, h.sent,
    ⟨data, es, ?_⟩, h.uniform, h.short⟩
  · rw [List.append_assoc]
    exact h.accepted
  · rw [none]
    exact conserves

theorem iterate (h : Follows times settings last s t consumed queued) (msgBytes : MessageBytes)
    (reading : Option MessageBytes) :
    ∃ settings' t' consumed' queued', settings.Grows settings' ∧ Follows times settings' last
      { s with queue := (readStep times s.queue msgBytes).queue, reading := reading } t' consumed'
      queued' := by
  have same : settings.Grows settings := ⟨UInt16.le_refl _, rfl, rfl⟩
  obtain ⟨data, es, conserves⟩ := h.conserves
  have shadows := h.shadows
  cases shadows with
  | waiting initial _ _ twins head =>
    subst head
    exact ⟨settings, t, _, _, same, h.readFirstSize initial twins msgBytes reading⟩
  | sized framed _ twins =>
    cases queued with
    | nil =>
      rw [readStep_empty times framed.holds]
      exact ⟨settings, t, consumed, [], same, h.withReading reading⟩
    | cons chunk rest =>
      by_cases hdata : data = []
      · subst hdata
        by_cases resizes : chunk.Resizes
        · cases chunk with
          | packetSize requested =>
            obtain ⟨settings', t', grows, follows⟩ := h.readSize conserves twins msgBytes reading
            exact ⟨settings', t', _, rest, grows, follows⟩
          | _ => exact resizes.elim
        · obtain ⟨t', consumed', queued', follows⟩ :=
            h.readChunk conserves twins resizes msgBytes reading
          exact ⟨settings, t', consumed', queued', same, follows⟩
      · obtain ⟨t', follows⟩ :=
          h.readPending conserves twins hdata (List.cons_ne_nil chunk rest) msgBytes reading
        exact ⟨settings, t', consumed, _, same, follows⟩

/-- The events that were accepted are those of the packets, the pending data and the FIFO. -/
theorem accounted (h : Follows times settings last s t consumed queued) :
    Accounted settings s consumed queued := by
  obtain ⟨data, es, conserves⟩ := h.conserves
  obtain ⟨packets, -, remaining⟩ := h.shadows.same
  obtain ⟨-, -, es, received, heard⟩ := Queue.accounted conserves
  refine ⟨h.accepted, h.shadows.framed.1.holds, es, ?_, ?_⟩
  · rw [← h.sent, ← packets]
    exact received
  · rw [← events_contents, ← remaining]
    exact heard

theorem start (blank : TxQueue maxSize packetCount) {fifo : Fifo}
    (hfifo : fifo.Holds [.packetSize settings.txBufMaxSize]) (reading : Option MessageBytes) :
    ∃ t, Follows times settings settings.txBufMaxSize
      { queue := { init blank settings.runningStatusEnabled settings.noteOffAsNoteOn with
          fifo := fifo }
        reading := reading
        accepted := [.packetSize settings.txBufMaxSize]
        sent := [] } t [] [.packetSize settings.txBufMaxSize] := by
  have framed := Framed.init blank settings.runningStatusEnabled settings.noteOffAsNoteOn
  have written : Framed
      { init blank settings.runningStatusEnabled settings.noteOffAsNoteOn with fifo := fifo }
      [.packetSize settings.txBufMaxSize] [] :=
    framed.withFifo hfifo (List.forall_mem_singleton.mpr trivial)
  have resized := framed.resize rfl settings.txBufMaxSize
  have fresh : Fresh settings
      ((init blank settings.runningStatusEnabled settings.noteOffAsNoteOn).resize
        settings.txBufMaxSize) := by
    refine ⟨⟨resized.window, fun i => ⟨rfl, rfl, rfl, Nat.zero_le _⟩⟩, fun i => ⟨rfl, rfl, rfl⟩,
      rfl, rfl, rfl, rfl⟩
  refine ⟨System.initial _, .waiting rfl written resized ?_ rfl, ?_, rfl, rfl,
    ⟨[], [], fresh.conserves⟩, .inr ?_, ?_⟩
  · exact (written.resize rfl settings.txBufMaxSize).twin blank.fifo.clear
  · exact ⟨UInt16.le_refl _, settings.le_maxSize, UInt16.le_refl _⟩
  · exact fun chunk hchunk => absurd hchunk List.not_mem_nil
  · exact fun packet hpacket => absurd hpacket List.not_mem_nil

end Follows

end BleMidi.Queue
