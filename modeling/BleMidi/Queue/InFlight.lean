/- Module: BleMidi/Queue/InFlight
   source: ble_midi/src/tx_queue.c (tx_queue_fifo_add_*, tx_queue_read_from_fifo)
   digest: The queue while a producer call is under way, beside one in which it has been made. -/

import BleMidi.Core.Simulation
import BleMidi.Queue.SplitData

set_option autoImplicit false
set_option relaxedAutoImplicit false

namespace BleMidi.Queue

open BleMidi.Core.Lockstep
open BleMidi.Core.Runs
open BleMidi.Core.Simulation
open BleMidi.Packet.PacketWriter
open BleMidi.Packet.WriterTwins
open TxQueue

variable {maxSize packetCount : Nat}

/-- A queue whose FIFO ends in what a call has written so far, and a twin whose FIFO already has the
chunks of the call. In front of them both hold the same chunks. -/
structure InFlight (times : Nat → UInt16) (written whole : List Chunk)
    (queue queue' : TxQueue maxSize packetCount) : Prop where
  twins : Twins times times queue queue'
  capacity : queue'.fifo.capacity = queue.fifo.capacity
  header : written = [] ∨ (∃ count, written = [.threeBytes (headerBytes count)]) ∧ whole ≠ []
  chunks : ∃ ahead, Framed queue ahead written ∧ Framed queue' (ahead ++ whole) []

theorem Fifo.eq_of_bytes {f g : Fifo} (hcapacity : f.capacity = g.capacity)
    (hbytes : f.bytes = g.bytes) : f = g := by
  obtain ⟨capacity, bytes, fits⟩ := f
  obtain ⟨capacity', bytes', fits'⟩ := g
  cases hcapacity
  cases hbytes
  rfl

theorem Framed.withFifo {queue : TxQueue maxSize packetCount} {queued tail : List Chunk}
    (h : Framed queue queued tail) {queued' tail' : List Chunk} {fifo : Fifo}
    (hheld : fifo.Holds (queued' ++ tail')) (hqueued : ∀ chunk ∈ queued', chunk.WellFormed) :
    Framed { queue with fifo := fifo } queued' tail' := by
  obtain ⟨window, uniform, -, -, data, pending, few⟩ := h
  exact ⟨window.of_eq rfl rfl, uniform, hheld, hqueued, data, pending.withFifo fifo, few⟩

theorem Request.exec_three {queue : TxQueue maxSize packetCount}
    (hspace : ¬ queue.fifo.getFreeSpace < 3) {r : Request} (hr : ∀ bytes, r ≠ .addSysexData bytes) :
    r.exec queue =
      (.ok 0, { queue with fifo := (queue.fifo.write (r.chunk 0).encode).2 }) := by
  have written {bytes : List UInt8} (length : bytes.length = 3) :
      returned (queue.write3ByteChunkToFifo bytes) =
        (.ok 0, { queue with fifo := (queue.fifo.write bytes).2 }) := by
    obtain ⟨count, -⟩ := Fifo.write_of_le (f := queue.fifo) (v := bytes) (by omega)
    unfold write3ByteChunkToFifo
    rw [if_neg hspace]
    change returned (if (queue.fifo.write bytes).1 = 3 then _ else _, _) = _
    rw [if_pos (count.trans length)]
    rfl
  cases r with
  | addMsg bytes => exact written rfl
  | addSysexStart => exact written rfl
  | addSysexData bytes => exact absurd rfl (hr bytes)
  | addSysexEnd => exact written rfl
  | addTxPacketSize size => exact written rfl

theorem Request.exec_data {queue : TxQueue maxSize packetCount}
    (hspace : ¬ queue.fifo.getFreeSpace ≤ sysexDataChunkHeaderSize) (bytes : List UInt8) :
    let count := numBytesToSend queue.fifo.getFreeSpace bytes.length
    (Request.addSysexData bytes).exec queue =
      (.ok count, { queue with
        fifo := ((queue.fifo.write (chunkHeader count)).2.write (bytes.take count)).2 }) ∧
      ((queue.fifo.write (chunkHeader count)).2.write (bytes.take count)).2.bytes =
        queue.fifo.bytes ++ (Chunk.data (bytes.take count)).encode := by
  dsimp only
  generalize hcount : numBytesToSend queue.fifo.getFreeSpace bytes.length = count
  have most : count ≤ bytes.length ∧ count + 3 ≤ queue.fifo.getFreeSpace := by
    unfold sysexDataChunkHeaderSize at hspace
    unfold numBytesToSend sysexDataChunkHeaderSize at hcount
    omega
  have three : (chunkHeader count).length = 3 := rfl
  have length : (bytes.take count).length = count := by
    rw [List.length_take]
    exact Nat.min_eq_left most.1
  obtain ⟨result, written, capacity⟩ :=
    Fifo.write_of_le (f := queue.fifo) (v := chunkHeader count) (by omega)
  generalize hfifo : (queue.fifo.write (chunkHeader count)).2 = fifo at written capacity ⊢
  have left : count ≤ fifo.getFreeSpace := by
    have room := most.2
    unfold Fifo.getFreeSpace at room ⊢
    rw [written, capacity, List.length_append, three]
    omega
  obtain ⟨result', written', -⟩ :=
    Fifo.write_of_le (f := fifo) (v := bytes.take count) (by rw [length]; exact left)
  have first : queue.fifo.write (chunkHeader count) = (3, fifo) :=
    Prod.ext (result.trans three) hfifo
  have second : fifo.write (bytes.take count) = (count, (fifo.write (bytes.take count)).2) :=
    Prod.ext (result'.trans length) rfl
  constructor
  · unfold chunkHeader at first
    change queue.fifoAddSysexData bytes = _
    unfold fifoAddSysexData
    rw [if_neg hspace]
    simp only [hcount, first]
    rw [second]
    rfl
  · rw [written', written, Chunk.encode_data most.1, List.append_assoc]

section Read

variable {times : Nat → UInt16} {queue queue' : TxQueue maxSize packetCount}

theorem read_eq_zero {fifo : Fifo} {chunk : Chunk} {chunks : List Chunk} {n : Nat}
    (h : fifo.Holds (chunk :: chunks)) (hread : fifo.read n = fifo) : n = 0 := by
  have length := congrArg (fun fifo => fifo.bytes.length) hread
  have positive := List.length_pos_iff.mpr chunk.encode_ne_nil
  have some : 0 < fifo.bytes.length := by
    rw [show fifo.bytes = _ from h, List.flatMap_cons, List.length_append]
    omega
  change (fifo.bytes.drop n).length = _ at length
  rw [List.length_drop] at length
  omega

theorem read_chunk_ne {fifo : Fifo} {chunk : Chunk} {chunks : List Chunk}
    (h : fifo.Holds (chunk :: chunks)) (c : Chunk) : fifo.read c.encode.length ≠ fifo := fun same =>
  c.encode_ne_nil (List.eq_nil_of_length_eq_zero (read_eq_zero h same))

/-- Iterations of readers that both find a chunk, and that do not stall, do the same to the chunks
in front of the call. -/
private theorem follow {written whole ahead : List Chunk} {r r' : ReadStep maxSize packetCount}
    {chunk chunk' : Chunk} {rest rest' : List Chunk}
    (hheld : queue.fifo.Holds (chunk :: rest)) (hheld' : queue'.fifo.Holds (chunk' :: rest'))
    (h : ReadsAlike times times queue queue' r r') (hiterates : Iterates queue ahead written r)
    (hiterates' : Iterates queue' (ahead ++ whole) [] r') :
    Beside times times queue queue' r.queue r'.queue ∧
      ∃ ahead', Framed r.queue ahead' written ∧ Framed r'.queue (ahead' ++ whole) [] := by
  cases h with
  | ret same =>
    cases hiterates with
    | returns _ framed =>
      cases hiterates' with
      | returns _ framed' => exact ⟨same.2, ahead, framed, framed'⟩
  | next beside =>
    refine ⟨beside, ?_⟩
    obtain ⟨-, n, read, read'⟩ := beside
    cases hiterates with
    | reads cons took framed =>
      subst cons
      cases hiterates' with
      | reads cons' took' framed' =>
        obtain ⟨rfl, rfl⟩ := List.cons.inj cons'
        exact ⟨_, framed, framed'⟩
      | adds same' _ _ =>
        -- The other reader has taken nothing, so this one has not either.
        obtain rfl := read_eq_zero hheld' (read'.symm.trans same')
        exact absurd (took.symm.trans read) (read_chunk_ne hheld _)
    | adds same _ framed =>
      cases hiterates' with
      | reads _ took' _ =>
        obtain rfl := read_eq_zero hheld (read.symm.trans same)
        exact absurd (took'.symm.trans read') (read_chunk_ne hheld' _)
      | adds _ _ framed' => exact ⟨ahead, framed, framed'⟩

variable [NeZero packetCount]

private theorem Twins.stalled (h : Twins times times queue queue') {chunk chunk' : Chunk}
    {rest rest' : List Chunk} (hheld : queue.fifo.Holds (chunk :: rest))
    (hheld' : queue'.fifo.Holds (chunk' :: rest')) : Stalled queue' ↔ Stalled queue := by
  have last : TakesData queue'.lastTxPacket ↔ TakesData queue.lastTxPacket := by
    unfold TakesData
    rw [h.last.inSysexMsg, h.last.txBufSize]
  unfold Stalled
  rw [hheld.isEmpty_cons, hheld'.isEmpty_cons, h.remaining, last]

namespace InFlight

variable {written whole : List Chunk}

private theorem moves (h : InFlight times written whole queue queue') {ahead : List Chunk}
    (framed : Framed queue ahead written) (framed' : Framed queue' (ahead ++ whole) [])
    (hheld : ahead ++ written ≠ []) (hmoves : ahead ≠ [] ∨ 0 < queue.numRemainingDataBytes)
    (msgBytes msgBytes' : MessageBytes) :
    InFlight times written whole (TxQueue.readStep times queue msgBytes).queue
      (TxQueue.readStep times queue' msgBytes').queue := by
  obtain ⟨chunk, rest, cons⟩ := List.exists_cons_of_ne_nil hheld
  have held := framed.held
  rw [cons] at held
  have nonempty : ahead ++ whole ≠ [] := by
    rcases h.header with none | ⟨-, some⟩
    · rw [none, List.append_nil] at hheld
      exact List.append_ne_nil_of_left_ne_nil hheld whole
    · exact List.append_ne_nil_of_right_ne_nil ahead some
  obtain ⟨chunk', rest', cons'⟩ := List.exists_cons_of_ne_nil nonempty
  have held' := framed'.holds
  rw [cons'] at held'
  by_cases stalled : Stalled queue
  · have stalled' := (Twins.stalled h.twins held held').mpr stalled
    obtain ⟨data, pending, -⟩ := framed.pending
    obtain ⟨data', pending', -⟩ := framed'.pending
    rw [stalled.readStep_eq times framed.held pending,
      stalled'.readStep_eq times framed'.held pending']
    exact ⟨h.twins.tick, h.capacity, h.header, ahead, framed.frame (Frame.tick queue) fun _ => id,
      framed'.frame (Frame.tick queue') fun _ => id⟩
  · have stalled' := mt (Twins.stalled h.twins held held').mp stalled
    have head : chunk = chunk' ∧ chunk.WellFormed ∨ 0 < queue.numRemainingDataBytes := by
      refine hmoves.imp_left fun some => ?_
      obtain ⟨first, more, rfl⟩ := List.exists_cons_of_ne_nil some
      obtain ⟨rfl, -⟩ := List.cons.inj cons
      obtain ⟨rfl, -⟩ := List.cons.inj cons'
      exact ⟨rfl, framed.wellFormed _ List.mem_cons_self⟩
    have together := h.twins.readStep framed.window held held' head msgBytes msgBytes'
    obtain ⟨⟨twins, n, read, read'⟩, chunks⟩ := follow held held' together
      (framed.iterates times (.inr hmoves) stalled msgBytes)
      (framed'.iterates times (.inl rfl) stalled' msgBytes')
    refine ⟨twins, ?_, h.header, chunks⟩
    rw [read, read']
    exact h.capacity

/-- An iteration of the reader finds nothing to do in front of the call, or an iteration of the
other reader does the same. -/
theorem readStep (h : InFlight times written whole queue queue') (msgBytes : MessageBytes) :
    InFlight times written whole (TxQueue.readStep times queue msgBytes).queue queue' ∨
      ∀ msgBytes', InFlight times written whole (TxQueue.readStep times queue msgBytes).queue
        (TxQueue.readStep times queue' msgBytes').queue := by
  obtain ⟨ahead, framed, framed'⟩ := h.chunks
  by_cases hheld : ahead ++ written = []
  · have held := framed.held
    rw [hheld] at held
    rw [readStep_empty times held]
    exact .inl h
  by_cases hmoves : ahead ≠ [] ∨ 0 < queue.numRemainingDataBytes
  · exact .inr fun msgBytes' => h.moves framed framed' hheld hmoves msgBytes msgBytes'
  -- A header without its data is looked at and left where it is.
  simp only [not_or, not_not, Nat.not_lt, Nat.le_zero_eq] at hmoves
  obtain ⟨rfl, idle⟩ := hmoves
  obtain ⟨⟨count, rfl⟩, -⟩ := h.header.resolve_left hheld
  obtain ⟨buf, eq⟩ := readStep_header times framed.held idle msgBytes
  have idle' := h.twins.remaining.trans idle
  rw [eq]
  obtain ⟨⟨packets, first, count, flag, -, clock⟩, capacity, header, -⟩ := h
  obtain ⟨window, ⟨size, uniform, -⟩, held, wellFormed, -⟩ := framed
  refine .inl ⟨⟨packets, first, count, flag, ⟨[], Pending.nil idle, Pending.nil idle'⟩, clock⟩,
    capacity, header, [], ⟨window.of_eq rfl rfl, ⟨size, uniform, ?_⟩, held, wellFormed, [],
      Pending.nil idle, Nat.zero_le _⟩, framed'⟩
  intro positive
  exact absurd idle (Nat.ne_of_gt positive)

theorem packetSent (h : InFlight times written whole queue queue') :
    InFlight times written whole queue.onTxPacketSent.2 queue'.onTxPacketSent.2 := by
  obtain ⟨twins, capacity, header, ahead, framed, framed'⟩ := h
  refine ⟨twins.sent.2, ?_, header, ahead, framed.sent, framed'.sent⟩
  rw [(onTxPacketSent_frame queue).fifo, (onTxPacketSent_frame queue').fifo]
  exact capacity

omit [NeZero packetCount] in
theorem fifo_eq (h : InFlight times [] [] queue queue') : queue'.fifo = queue.fifo := by
  obtain ⟨-, capacity, -, ahead, framed, framed'⟩ := h
  have held := framed.holds
  have held' := framed'.holds
  rw [List.append_nil] at held'
  have bytes : queue'.fifo.bytes = queue.fifo.bytes := Eq.trans held' (Eq.symm held)
  exact Fifo.eq_of_bytes capacity bytes

omit [NeZero packetCount] in
/-- A call that finds room has its chunk in the other FIFO at once. -/
theorem request (h : InFlight times [] [] queue queue') {chunk : Chunk} (hchunk : chunk.WellFormed)
    {fifo : Fifo} (hcapacity : fifo.capacity = queue'.fifo.capacity)
    (hfifo : fifo.bytes = queue'.fifo.bytes ++ chunk.encode) :
    InFlight times [] [chunk] queue { queue' with fifo := fifo } := by
  obtain ⟨twins, capacity, -, ahead, framed, framed'⟩ := h
  rw [List.append_nil] at framed'
  exact ⟨twins.withFifo queue.fifo fifo, hcapacity.trans capacity, .inl rfl, ahead, framed,
    framed'.append hchunk hfifo⟩

omit [NeZero packetCount] in
theorem writeChunk {chunk : Chunk} (h : InFlight times [] [chunk] queue queue')
    {fifo : Fifo} (hcapacity : fifo.capacity = queue.fifo.capacity)
    (hfifo : fifo.bytes = queue.fifo.bytes ++ chunk.encode) :
    InFlight times [] [] { queue with fifo := fifo } queue' := by
  obtain ⟨twins, capacity, -, ahead, framed, framed'⟩ := h
  have wellFormed := framed'.wellFormed chunk (List.mem_append_right _ List.mem_cons_self)
  refine ⟨twins.withFifo fifo queue'.fifo, capacity.trans hcapacity.symm, .inl rfl,
    ahead ++ [chunk], framed.append wellFormed hfifo, ?_⟩
  rw [List.append_nil]
  exact framed'

omit [NeZero packetCount] in
theorem writeHeader {chunk : Chunk} (h : InFlight times [] [chunk] queue queue') {count : Nat}
    {fifo : Fifo} (hcapacity : fifo.capacity = queue.fifo.capacity)
    (hfifo : fifo.bytes = queue.fifo.bytes ++ chunkHeader count) :
    InFlight times [.threeBytes (headerBytes count)] [chunk] { queue with fifo := fifo }
      queue' := by
  obtain ⟨twins, capacity, -, ahead, framed, framed'⟩ := h
  refine ⟨twins.withFifo fifo queue'.fifo, capacity.trans hcapacity.symm,
    .inr ⟨⟨count, rfl⟩, List.cons_ne_nil _ _⟩, ahead, framed.withFifo ?_ framed.wellFormed, framed'⟩
  rw [← headerBytes_encode] at hfifo
  exact framed.holds.append hfifo

omit [NeZero packetCount] in
theorem writeData {bytes : List UInt8} {count : Nat} (hlength : bytes.length = count)
    (h : InFlight times [.threeBytes (headerBytes count)] [.data bytes] queue queue') {fifo : Fifo}
    (hcapacity : fifo.capacity = queue.fifo.capacity)
    (hfifo : fifo.bytes = queue.fifo.bytes ++ bytes) :
    InFlight times [] [] { queue with fifo := fifo } queue' := by
  subst hlength
  obtain ⟨twins, capacity, -, ahead, framed, framed'⟩ := h
  refine ⟨twins.withFifo fifo queue'.fifo, capacity.trans hcapacity.symm, .inl rfl,
    ahead ++ [.data bytes], framed.withFifo ?_ framed'.wellFormed, ?_⟩
  · have held : queue.fifo.bytes = _ := framed.held
    unfold Fifo.Holds
    rw [hfifo, held, List.append_nil, List.flatMap_append, List.flatMap_append,
      List.flatMap_singleton, List.flatMap_singleton, List.append_assoc, headerBytes_encode]
    rfl
  · rw [List.append_nil]
    exact framed'

section System

variable {t : System maxSize packetCount} {P : System maxSize packetCount → Request → Prop}

/-- An iteration of the reader is matched by at most one iteration of the other one, whose call is
made first if there is none. -/
theorem iterate (h : InFlight times written whole queue t.queue) (msgBytes : MessageBytes) :
    ∃ t', Reach (System.act times) (System.permit P fun _ => True) t t' ∧
      InFlight times written whole (TxQueue.readStep times queue msgBytes).queue t'.queue ∧
      t'.accepted = t.accepted ∧ t'.sent = t.sent := by
  rcases h.readStep msgBytes with rests | moves
  · exact ⟨t, .start, rests, rfl, rfl⟩
  have reads {u : System maxSize packetCount} (hqueue : u.queue = t.queue)
      (hreading : u.reading ≠ none) : ∃ t', System.act times u .iterateRead = some t' ∧
        InFlight times written whole (TxQueue.readStep times queue msgBytes).queue t'.queue ∧
        t'.accepted = u.accepted ∧ t'.sent = u.sent := by
    obtain ⟨msgBytes', reading⟩ := Option.ne_none_iff_exists'.mp hreading
    have moved := moves msgBytes'
    simp only [System.act, reading, hqueue]
    revert moved
    rcases TxQueue.readStep times t.queue msgBytes' with ⟨code, r⟩ | ⟨r, more⟩ <;> intro moved
    · exact ⟨_, rfl, moved, rfl, rfl⟩
    · exact ⟨_, rfl, moved, rfl, rfl⟩
  cases reading : t.reading with
  | some msgBytes' =>
    obtain ⟨t', next, moved, accepted, sent⟩ := reads rfl (by simp [reading])
    exact ⟨t', reach_one (a := .iterateRead) trivial next, moved, accepted, sent⟩
  | none =>
    obtain ⟨t', next, moved, accepted, sent⟩ :=
      reads (u := { t with reading := some ⟨0, 0, 0⟩ }) rfl (Option.some_ne_none _)
    have begun : System.act times t .beginRead = some { t with reading := some ⟨0, 0, 0⟩ } := by
      simp only [System.act, reading]
    refine ⟨t', ?_, moved, accepted, sent⟩
    exact .step (a := .iterateRead) (reach_one (a := .beginRead) trivial begun) trivial next

theorem accept (h : InFlight times [] [] queue t.queue) {r : Request} (hr : r.WellFormed)
    (hpermit : P t r) {count : Nat} {fifo : Fifo}
    (hexec : r.exec t.queue = (.ok count, { t.queue with fifo := fifo }))
    (hcapacity : fifo.capacity = t.queue.fifo.capacity)
    (hfifo : fifo.bytes = t.queue.fifo.bytes ++ (r.chunk count).encode) :
    ∃ t', Reach (System.act times) (System.permit P fun _ => True) t t' ∧
      InFlight times [] [r.chunk count] queue t'.queue ∧
      t'.accepted = t.accepted ++ [r.chunk count] ∧ t'.sent = t.sent := by
  have next : System.act times t (.request r) = some { t with
      queue := { t.queue with fifo := fifo }, accepted := t.accepted ++ [r.chunk count] } := by
    simp only [System.act, hexec]
  exact ⟨_, reach_one (a := .request r) hpermit next,
    h.request (Request.chunk_wellFormed hr hexec) hcapacity hfifo, rfl, rfl⟩

end System

end InFlight

end Read

end BleMidi.Queue
