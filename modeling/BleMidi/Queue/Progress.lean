/- Module: BleMidi/Queue/Progress
   source: ble_midi/src/tx_queue.c (tx_queue_read_from_fifo, tx_queue_on_tx_packet_sent)
   digest: Reads that start with something to do come closer to the end of it. -/

import BleMidi.Queue.Delivery
import BleMidi.Queue.Drained
import BleMidi.Queue.HasData

set_option autoImplicit false
set_option relaxedAutoImplicit false

namespace BleMidi.Queue

open BleMidi.Core.Runs
open BleMidi.Packet.Bytes
open BleMidi.Packet.Grammar
open BleMidi.Packet.PacketStream
open BleMidi.Packet.PacketWriter
open BleMidi.Packet.WriterSpec
open TxQueue

variable {maxSize packetCount : Nat} {settings : Settings maxSize} [NeZero packetCount]
  {times : Nat → UInt16}

/-- Bytes outside the packets count twice, so that a packet that is started for them counts less. -/
def TxQueue.backlog (queue : TxQueue maxSize packetCount) : Nat :=
  2 * (queue.fifo.bytes.length + queue.numRemainingDataBytes) +
    if queue.hasTxData = true then queue.txPacketCount else 0

/-- Chunks between their brackets are well formed, and none of them changes the packet size. -/
theorem bracketed_keepsSize {inSysex : Bool} {chunks : List Chunk} (h : Bracketed inSysex chunks) :
    ∀ chunk ∈ chunks, chunk.KeepsSize := by
  induction chunks generalizing inSysex with
  | nil =>
    intro chunk hchunk
    cases hchunk
  | cons chunk chunks ih =>
    refine List.forall_mem_cons.mpr ⟨⟨h.1.wellFormed, ?_⟩, ih h.2⟩
    cases chunk with
    | packetSize size => exact h.1.elim
    | _ => trivial

/-- Valid calls in the order of the brackets, and without sysex messages if there are several
packets. -/
def Orderly (packetCount : Nat) (accepted : List Chunk) (r : Request) : Prop :=
  r.Allowed (chunksOpen false accepted) ∧ (packetCount = 1 ∨ r.IsMessage)

instance (packetCount : Nat) (accepted : List Chunk) :
    DecidablePred (Orderly packetCount accepted) :=
  fun _ => inferInstanceAs (Decidable (_ ∧ _))

/-- What orderly calls keep, with which the queue loses nothing. -/
structure Flows (settings : Settings maxSize) (s : System maxSize packetCount) : Prop where
  conserves : ∃ consumed queued data es, Conserves settings s consumed queued data es
  uniform : packetCount = 1 ∨ ∀ chunk ∈ s.accepted, chunk.IsMessage
  honest : Honest s.queue

/-- An iteration that returns has found the FIFO empty or the packets full, and one that goes on has
put something into a packet. -/
inductive LowersBacklog (queue : TxQueue maxSize packetCount) : ReadStep maxSize packetCount → Prop
  | returns {code : TxQueueError} {queue' : TxQueue maxSize packetCount} :
      queue'.backlog ≤ queue.backlog →
      (queue'.hasTxData = true ∨ queue' = queue ∧ queue.fifo.bytes = []) →
      LowersBacklog queue (.ret (code, queue'))
  | goes {queue' : TxQueue maxSize packetCount} {msgBytes : MessageBytes} :
      queue'.backlog < queue.backlog → queue'.hasTxData = true →
      LowersBacklog queue (.next (queue', msgBytes))

private theorem addData_single {queue : TxQueue maxSize packetCount} (times : Nat → UInt16)
    (hsingle : packetCount = 1) (hsteady : Steady settings queue) (hhonest : Honest queue)
    {bytes : List UInt8} (hbytes : bytes ≠ []) (hdata : ∀ b ∈ bytes, isDataByte b = true)
    (htakes : TakesData queue.lastTxPacket) :
    ∃ count queue', addDataBytesToTxPacket times queue bytes = (.ok count, queue') ∧
      count ≤ bytes.length ∧ Frame queue queue' ∧ queue'.hasTxData = true ∧
      queue.txPacketCount = 1 ∧ queue'.txPacketCount = 1 ∧
      (count = 0 → queue.hasTxData = true) := by
  obtain ⟨count, queue', eq, most, steady, frame, written⟩ :=
    hsteady.addData_some times hbytes hdata htakes
  have honest := hhonest.addData times hsteady bytes
  rw [eq] at honest
  have one {q : TxQueue maxSize packetCount} (window : Window q) : q.txPacketCount = 1 := by
    have := window.pos
    have := window.le
    omega
  refine ⟨count, queue', eq, most, frame, honest.flag.mpr (.inr written), one hsteady.window,
    one steady.window, ?_⟩
  rintro rfl
  by_contra off
  -- An empty packet has room for some data.
  have empty : queue.lastTxPacket.txBufSize = 0 := by
    by_contra some
    exact off (hhonest.flag.mpr (.inr some))
  have added := hsteady.addData_count times hdata htakes
  rw [eq] at added
  have none : 0 = min bytes.length queue.dataSpace := Except.ok.inj added
  have max := hsteady.last.five_le
  have room : 4 ≤ dataRoom queue.lastTxPacket := by
    unfold dataRoom
    rw [if_pos empty, empty]
    change 4 ≤ _ - 0 - 1
    omega
  have positive := List.length_pos_iff.mpr hbytes
  unfold dataSpace at none
  omega

theorem receiveAll_append_nil {inSysex : Bool} (packets : List (List UInt8)) :
    receiveAll inSysex (packets ++ [[]]) = receiveAll inSysex packets := by
  induction packets generalizing inSysex with
  | nil => rfl
  | cons packet packets ih =>
    rw [List.cons_append, receiveAll, receiveAll]
    simp only [ih]

namespace Flows

variable {s : System maxSize packetCount}

private theorem clear (h : Flows settings s) (hflag : s.queue.hasTxData = false) :
    s.queue.txPacketCount = 1 ∧ s.queue.lastTxPacket.txBufSize = 0 := by
  obtain ⟨consumed, queued, data, es, conserves⟩ := h.conserves
  have none := h.honest.flag.not.mp (by rw [hflag]; exact Bool.false_ne_true)
  rw [not_or, not_not, not_not] at none
  exact ⟨(Window.front_eq_nil conserves.steady.window).mp none.1, none.2⟩

private theorem single (h : Flows settings s) {consumed queued : List Chunk}
    (haccepted : s.accepted = consumed ++ queued)
    (hsysex : chunksOpen false consumed = true ∨ ∃ chunk ∈ queued, ¬ chunk.IsMessage) :
    packetCount = 1 := by
  refine h.uniform.resolve_right fun all => ?_
  rw [haccepted] at all
  rcases hsysex with opened | ⟨chunk, member, other⟩
  · rw [chunksOpen_messages fun c hc => all c (List.mem_append_left _ hc)] at opened
    cases opened
  · exact other (all chunk (List.mem_append_right _ member))

private theorem threeBytes (h : Flows settings s) {consumed chunks : List Chunk}
    {es : List MidiEvent} {bytes : MessageBytes}
    (conserves : Conserves settings s consumed (.threeBytes bytes :: chunks) [] es) :
    LowersBacklog s.queue (read3ByteChunk times s.queue bytes) := by
  have allowed := conserves.allowed
  rw [← conserves.streamOpen_eq] at allowed
  have ready : Ready times s.queue (.threeBytes bytes) := ready_of_uniform h.uniform conserves
  have added := conserves.holding.add3 conserves.steady allowed ready
  have case := add3_case times s.queue bytes
  have clear := h.clear
  have three : 3 ≤ s.queue.fifo.bytes.length := by
    rw [show s.queue.fifo.bytes = _ from conserves.fifo, List.flatMap_cons, List.length_append]
    exact Nat.le_add_right 3 _
  have rest : (s.queue.fifo.read 3).bytes.length = s.queue.fifo.bytes.length - 3 :=
    List.length_drop
  have took (q : TxQueue maxSize packetCount) (hfifo : q.fifo = s.queue.fifo)
      (hremaining : q.numRemainingDataBytes = s.queue.numRemainingDataBytes)
      (hcount : q.txPacketCount ≤ s.queue.txPacketCount + 1) :
      { q.setHasTxData true with fifo := q.fifo.read 3 }.backlog < s.queue.backlog := by
    unfold backlog
    change 2 * ((q.fifo.read 3).bytes.length + q.numRemainingDataBytes) +
      (if true = true then q.txPacketCount else 0) < _
    rw [hfifo, rest, hremaining, if_pos rfl]
    cases flag : s.queue.hasTxData with
    | true =>
      rw [if_pos rfl]
      omega
    | false =>
      obtain ⟨one, -⟩ := clear flag
      omega
  generalize result : add3ByteChunkToTxPacket times s.queue bytes = r at case
  cases case with
  | @added w eq =>
    rw [read3ByteChunk, result]
    exact .goes (took (s.queue.tick.setLastTxPacket w) rfl rfl (Nat.le_succ _)) rfl
  | @addedNext w eq free eq' =>
    have count : (s.queue.tick.push.setLastTxPacket w).txPacketCount ≤
        s.queue.txPacketCount + 1 := by
      rw [push_eq (show s.queue.tick.txPacketCount < packetCount from free)]
      exact le_rfl
    have frame := Frame.push (show s.queue.tick.txPacketCount < packetCount from free)
    rw [read3ByteChunk, result]
    exact .goes (took _ frame.fifo frame.numRemainingDataBytes count) rfl
  | full eq le =>
    rcases addChunk_cases allowed conserves.steady.last ready.1 (times s.queue.clock) with
      ⟨-, written⟩ | ⟨w, success, -⟩
    · rw [read3ByteChunk, result]
      exact .returns le_rfl (.inl (h.honest.flag.mpr (.inr written)))
    · cases eq.symm.trans success
  | fullNext eq free eq' =>
    -- An empty packet is never full.
    rcases added with same | ⟨queue', success, -⟩
    · have grown := congrArg (fun r => r.2.txPacketCount) (result.symm.trans same)
      rw [push_eq (show s.queue.tick.txPacketCount < packetCount from free)] at grown
      exact absurd grown (Nat.succ_ne_self _)
    · cases result.symm.trans success
  | refused _ _ _ =>
    rcases added with same | ⟨queue', success, -⟩
    · cases congrArg Prod.fst (result.symm.trans same)
    · cases congrArg Prod.fst (result.symm.trans success)
  | refusedNext _ _ _ _ _ =>
    rcases added with same | ⟨queue', success, -⟩
    · cases congrArg Prod.fst (result.symm.trans same)
    · cases congrArg Prod.fst (result.symm.trans success)

private theorem data (h : Flows settings s) {consumed chunks : List Chunk} {es : List MidiEvent}
    {bytes : List UInt8}
    (conserves : Conserves settings s consumed (.data bytes :: chunks) [] es)
    (msgBytes : MessageBytes) :
    LowersBacklog s.queue (afterData bytes msgBytes
      (addDataBytesToTxPacket times (s.queue.load bytes) bytes)) := by
  obtain ⟨inside, length, valid⟩ := conserves.allowed
  have nonempty : bytes ≠ [] := List.length_pos_iff.mp length.1
  have ready : Ready times s.queue (.data bytes) := ready_of_uniform h.uniform conserves
  have one := h.single conserves.accepted (.inr ⟨_, List.mem_cons_self, id⟩)
  have loaded : Steady settings (s.queue.load bytes) := conserves.steady.withScratch _ _ _ _
  have honest : Honest (s.queue.load bytes) :=
    ⟨⟨h.honest.front, h.honest.outside⟩, h.honest.flag⟩
  obtain ⟨count, queue', eq, most, frame, flag, before, after, zero⟩ :=
    addData_single times one loaded honest nonempty valid ready
  have fifo : queue'.fifo = s.queue.fifo := frame.fifo
  have remaining : queue'.numRemainingDataBytes = s.queue.numRemainingDataBytes :=
    frame.numRemainingDataBytes
  have idle : s.queue.numRemainingDataBytes = 0 := conserves.pending.remaining
  have old : s.queue.txPacketCount = 1 := before
  rw [eq]
  cases count with
  | zero =>
    refine .returns ?_ (.inl flag)
    have set : s.queue.hasTxData = true := zero rfl
    unfold backlog
    rw [fifo, remaining, flag, set, after, old]
  | succ count =>
    refine .goes ?_ flag
    have size : (Chunk.data bytes).encode.length = bytes.length + 3 := rfl
    have held : (Chunk.data bytes).encode.length ≤ s.queue.fifo.bytes.length := by
      rw [show s.queue.fifo.bytes = _ from conserves.fifo, List.flatMap_cons, List.length_append]
      exact Nat.le_add_right _ _
    have rest : (s.queue.fifo.read (Chunk.data bytes).encode.length).bytes.length =
        s.queue.fifo.bytes.length - (Chunk.data bytes).encode.length := List.length_drop
    unfold backlog
    change 2 * ((queue'.fifo.read _).bytes.length + (bytes.length - (count + 1))) +
      (if queue'.hasTxData = true then queue'.txPacketCount else 0) < _
    rw [fifo, rest, flag, after, if_pos rfl, idle]
    omega

private theorem remaining (h : Flows settings s) {consumed queued : List Chunk}
    {data : List UInt8} {es : List MidiEvent}
    (conserves : Conserves settings s consumed queued data es) (hdata : data ≠ [])
    (msgBytes : MessageBytes) : LowersBacklog s.queue (readRemaining times s.queue msgBytes) := by
  have inside := conserves.inside hdata
  have one := h.single conserves.accepted (.inl inside)
  have takes : TakesData s.queue.lastTxPacket :=
    .inl ((conserves.flags (.inl one)).last.trans inside)
  obtain ⟨count, queue', eq, most, frame, flag, before, after, zero⟩ :=
    addData_single times one conserves.steady h.honest hdata conserves.pending.valid takes
  rw [readRemaining, conserves.pending.bytes, eq]
  cases count with
  | zero =>
    refine .returns ?_ (.inl flag)
    unfold backlog
    rw [frame.fifo, frame.numRemainingDataBytes, flag, zero rfl, after, before]
  | succ count =>
    refine .goes ?_ flag
    have some := conserves.pending.remaining
    unfold backlog
    change 2 * (queue'.fifo.bytes.length + (queue'.numRemainingDataBytes - (count + 1))) +
      (if queue'.hasTxData = true then queue'.txPacketCount else 0) < _
    rw [frame.fifo, frame.numRemainingDataBytes, flag, after, if_pos rfl]
    omega

theorem advances (h : Flows settings s) (msgBytes : MessageBytes) :
    LowersBacklog s.queue (readStep times s.queue msgBytes) := by
  obtain ⟨consumed, queued, data, es, conserves⟩ := h.conserves
  have held := conserves.fifo
  cases queued with
  | nil =>
    rw [readStep_empty times held]
    exact .returns le_rfl (.inr ⟨rfl, held⟩)
  | cons chunk chunks =>
    by_cases idle : data = []
    · subst idle
      have none : s.queue.numRemainingDataBytes = 0 := conserves.pending.remaining
      cases chunk with
      | threeBytes bytes =>
        rw [readStep_threeBytes times held conserves.allowed.wellFormed none]
        exact h.threeBytes conserves
      | data bytes =>
        obtain ⟨msgBytes', eq⟩ := readStep_data times held conserves.allowed.2.1.2 none msgBytes
        rw [eq]
        exact h.data conserves msgBytes'
      | packetSize size => exact conserves.allowed.elim
    · have some : 0 < s.queue.numRemainingDataBytes := by
        rw [conserves.pending.remaining]
        exact List.length_pos_iff.mpr idle
      rw [readStep_remaining times held some]
      exact h.remaining conserves idle msgBytes

theorem iterate (h : Flows settings s) (msgBytes : MessageBytes) :
    Flows settings { s with queue := (readStep times s.queue msgBytes).queue } := by
  obtain ⟨consumed, queued, data, es, conserves⟩ := h.conserves
  have readable : Readable settings s.queue := by
    have bracketed := conserves.bracketed
    rw [conserves.accepted] at bracketed
    exact ⟨conserves.steady,
      ⟨queued, conserves.fifo, bracketed_keepsSize (bracketed_append.mp bracketed).2⟩,
      data, conserves.pending⟩
  refine ⟨?_, h.uniform, h.honest.readStep times readable msgBytes⟩
  refine conserves.iterate ?_ msgBytes s.reading
  rintro chunk chunks rfl rfl
  exact ready_of_uniform h.uniform conserves

/-- A call of the reader returns within as many iterations as there is left to do. It leaves a
packet to be sent if there was one or if it has found something in the FIFO. -/
theorem read (fuel : Nat) : ∀ {s : System maxSize packetCount} (msgBytes : MessageBytes),
    Flows settings s → s.queue.backlog < fuel →
    ∃ code queue', loop (readBody times) fuel (s.queue, msgBytes) = some (code, queue') ∧
      Flows settings { s with queue := queue' } ∧ queue'.backlog ≤ s.queue.backlog ∧
      (queue'.hasTxData = true ∨ queue' = s.queue ∧ s.queue.fifo.bytes = []) := by
  induction fuel with
  | zero =>
    intro s msgBytes _ hfuel
    exact absurd hfuel (Nat.not_lt_zero _)
  | succ fuel ih =>
    intro s msgBytes h hfuel
    have advances : LowersBacklog s.queue (readStep times s.queue msgBytes) := h.advances msgBytes
    have flows : Flows settings { s with queue := (readStep times s.queue msgBytes).queue } :=
      h.iterate msgBytes
    have body : readBody times (s.queue, msgBytes) = readStep times s.queue msgBytes := rfl
    rw [loop, body]
    generalize readStep times s.queue msgBytes = r at advances flows
    cases advances with
    | @returns code queue' le done => exact ⟨code, queue', rfl, flows, le, done⟩
    | @goes queue' msgBytes' less flag =>
      obtain ⟨code, queue'', returned, flows', le, done⟩ :=
        ih (s := { s with queue := queue' }) msgBytes' flows
          (show queue'.backlog < fuel by omega)
      refine ⟨code, queue'', returned, flows', le.trans (Nat.le_of_lt less), ?_⟩
      rcases done with set | ⟨same, -⟩
      · exact .inl set
      · rw [same]
        exact .inl flag

theorem packetSent (h : Flows settings s) (hflag : s.queue.hasTxData = true) :
    Flows settings { s with
        queue := s.queue.onTxPacketSent.2
        sent := s.sent ++ (s.queue.firstTxPacket.map Writer.payload).toList } ∧
      s.queue.onTxPacketSent.2.backlog < s.queue.backlog := by
  obtain ⟨consumed, queued, data, es, conserves⟩ := h.conserves
  have window := conserves.steady.window
  have truthful := h.honest.toFilled.sent window
  have frame := onTxPacketSent_frame s.queue
  refine ⟨⟨⟨consumed, queued, data, es, conserves.packetSent⟩, h.uniform, ?_⟩, ?_⟩
  · refine .of_tellsTruth ((h.honest.sent_iff window).mpr ?_) truthful
    rintro ⟨-, empty⟩
    exact conserves.current hflag empty
  · unfold backlog
    rw [frame.fifo, frame.numRemainingDataBytes, hflag, if_pos rfl, onTxPacketSent_eq hflag]
    have pos := window.pos
    by_cases one : s.queue.txPacketCount ≤ 1
    · rw [if_pos one]
      change _ + 0 < _
      omega
    · rw [if_neg one]
      change _ + (if s.queue.hasTxData = true then s.queue.txPacketCount - 1 else 0) < _
      rw [hflag, if_pos rfl]
      omega

/-- With nothing in the FIFO and no packet to be sent, everything has gone out. -/
theorem drained (h : Flows settings s) (hclosed : chunksOpen false s.accepted = false)
    (hfifo : s.queue.fifo.bytes = []) (hflag : s.queue.hasTxData = false) :
    s.queue.numRemainingDataBytes = 0 ∧
      receiveAll false s.sent = some (s.accepted.flatMap (Chunk.events settings)) := by
  obtain ⟨consumed, queued, data, es, conserves⟩ := h.conserves
  obtain ⟨one, empty⟩ := h.clear hflag
  have read : queued = [] := conserves.fifo.eq_nil (by rw [Fifo.isEmpty, hfifo]; rfl)
  have accepted := conserves.accepted
  rw [read, List.append_nil] at accepted
  have none : data = [] := by
    by_contra some
    have inside := conserves.inside some
    rw [← accepted, hclosed] at inside
    cases inside
  have remaining : s.queue.numRemainingDataBytes = 0 := by
    rw [conserves.pending.remaining, none]
    rfl
  obtain ⟨-, -, es', received, heard⟩ := accounted conserves
  have window := conserves.steady.window
  have fits := conserves.steady.last.fits
  have payload : s.queue.lastTxPacket.payload = [] :=
    (payload_eq_nil (fits.size_le.trans fits.max_le)).mpr empty
  rw [window.packets_eq, (Window.front_eq_nil window).mpr one, List.nil_append,
    List.map_singleton, payload, receiveAll_append_nil] at received
  rw [conserves.pending.bytes, none, List.map_nil, List.append_nil] at heard
  refine ⟨remaining, ?_⟩
  rw [received, accepted, heard]

theorem of_fresh {queue : TxQueue maxSize packetCount} (h : Fresh settings queue) :
    Flows settings (System.initial queue) :=
  ⟨⟨[], [], [], [], h.conserves⟩, .inr fun _ hchunk => absurd hchunk List.not_mem_nil,
    Honest.of_fresh h⟩

theorem request (h : Flows settings s) {r : Request} (hr : Orderly packetCount s.accepted r)
    {s' : System maxSize packetCount} (hact : s.act times (.request r) = some s') :
    Flows settings s' := by
  obtain ⟨⟨consumed, queued, data, es, conserves⟩, uniform, honest⟩ := h
  rcases System.act_request hact with rfl | ⟨count, fifo, exec, written, rfl⟩
  · exact ⟨⟨consumed, queued, data, es, conserves⟩, uniform, honest⟩
  · refine ⟨⟨consumed, _, data, es,
      conserves.request (Request.chunk_allowed hr.1 exec) written⟩, ?_,
      ⟨⟨honest.front, honest.outside⟩, honest.flag⟩⟩
    rcases hr.2 with one | message
    · exact .inl one
    · refine uniform.imp_right fun all =>
        List.forall_mem_append.mpr ⟨all, List.forall_mem_singleton.mpr ?_⟩
      cases r with
      | addMsg bytes => exact isMessage_of_valid message
      | _ => exact message.elim

end Flows

/-- Runs with orderly calls. -/
theorem flows_run {permits : System maxSize packetCount → Action → Prop}
    (hpermits : ∀ {s r}, permits s (.request r) → Orderly packetCount s.accepted r)
    {s : System maxSize packetCount} (h : System.Reachable times settings permits s) :
    Flows settings s := by
  refine h.invariant Flows.of_fresh ?_
  intro s s' a flows permitted next
  cases a with
  | request r => exact flows.request (hpermits permitted) next
  | beginRead =>
    rw [System.act_beginRead next]
    obtain ⟨⟨consumed, queued, data, es, conserves⟩, uniform, honest⟩ := flows
    exact ⟨⟨consumed, queued, data, es, conserves.withReading _⟩, uniform, honest⟩
  | iterateRead =>
    obtain ⟨msgBytes, reading, -, rfl⟩ := System.act_iterateRead next
    obtain ⟨⟨consumed, queued, data, es, conserves⟩, uniform, honest⟩ :=
      flows.iterate msgBytes
    exact ⟨⟨consumed, queued, data, es, conserves.withReading reading⟩, uniform, honest⟩
  | packetSent =>
    rw [System.act_packetSent next]
    cases flag : s.queue.hasTxData with
    | true => exact (flows.packetSent flag).1
    | false =>
      rw [(onTxPacketSent_clear flag).2, firstTxPacket, flag]
      change Flows settings { s with sent := s.sent ++ [] }
      rw [List.append_nil]
      exact flows

end BleMidi.Queue
