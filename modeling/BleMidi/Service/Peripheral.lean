/- Module: BleMidi/Service/Peripheral
   source: ble_midi/src/ble_midi.c (on_connected, on_disconnected, att_mtu_updated_cb,
     on_mtu_changed), ble_midi/src/ble_midi_context.c (ble_midi_context_reset)
   digest: Connections one after another, each of which gets what was accepted in it. -/

import BleMidi.Queue.Shadows
import BleMidi.Service.Connect
import BleMidi.Service.MtuUpdates

set_option autoImplicit false
set_option relaxedAutoImplicit false

namespace BleMidi.Service

open BleMidi.Core.Runs
open BleMidi.Packet.Grammar
open BleMidi.Packet.PacketStream
open BleMidi.Packet.PacketWriter
open BleMidi.Queue
open BleMidi.Queue.TxQueue

variable {maxSize packetCount : Nat}

/-- What was accepted and sent in a connection. -/
structure Log where
  accepted : List Chunk
  sent : List (List UInt8)

/-- The device with what was accepted and sent since its last reset, and the connections before. -/
structure Peripheral (maxSize packetCount : Nat) where
  device : BufferedDevice maxSize packetCount
  connected : Bool
  ended : List Log

/-- The actions of the device, and the end of a connection. -/
inductive PeripheralAction
  | device (a : BufferedAction)
  | onDisconnected
  deriving DecidableEq

/-- The MTU does not get smaller. -/
def NotSmaller (mtu : Option UInt16) (mtuSize : UInt16) : Prop := ∀ m ∈ mtu, m ≤ mtuSize

instance : ∀ mtu mtuSize, Decidable (NotSmaller mtu mtuSize)
  | none, _ => isTrue fun m hm => by cases hm
  | some m, mtuSize => decidable_of_iff (m ≤ mtuSize) (by simp [NotSmaller])

namespace Peripheral

def log (s : Peripheral maxSize packetCount) : Log :=
  ⟨s.device.system.accepted, s.device.system.sent⟩

def initial (queue : TxQueue maxSize packetCount) : Peripheral maxSize packetCount :=
  ⟨BufferedDevice.initial queue, false, []⟩

/-- A prefix of the accepted events was sent. -/
def Heard (settings : Settings maxSize) (log : Log) : Prop :=
  ∃ es rest, receiveAll false log.sent = some es ∧
    log.accepted.flatMap (Chunk.events settings) = es ++ rest

variable [NeZero packetCount] (times : Nat → UInt16) (settings : Settings maxSize)

/-- `on_disconnected` leaves the queue as it is, and a reader under way goes on behind a reset. -/
def act (s : Peripheral maxSize packetCount) :
    PeripheralAction → Option (Peripheral maxSize packetCount)
  | .device (.contextReset txRunningStatus txNoteOffAsNoteOn) =>
      (s.device.act times (.contextReset txRunningStatus txNoteOffAsNoteOn)).map fun device =>
        { device := { device with system := { device.system with accepted := [], sent := [] } }
          connected := true
          ended := s.ended ++ [s.log] }
  | .device a => (s.device.act times a).map fun device => { s with device := device }
  | .onDisconnected => some { s with connected := false }

/-- During a connection, orderly calls behind `on_mtu_changed` and an MTU that does not get smaller.
Otherwise any calls and iterations that write inside the buffers, but no packet is sent. -/
def Permits (s : Peripheral maxSize packetCount) : PeripheralAction → Prop
  | .device (.step (.request r)) =>
      s.connected = false ∨
        s.device.mtu.isSome = true ∧ Orderly packetCount s.device.system.accepted r
  | .device (.step .packetSent) => s.connected = true
  | .device (.step a) => s.connected = false → WritesInside s.device.system a
  | .device (.contextReset txRunningStatus txNoteOffAsNoteOn) =>
      txRunningStatus = settings.runningStatusEnabled ∧
        txNoteOffAsNoteOn = settings.noteOffAsNoteOn
  | .device (.onMtuChanged mtuSize) =>
      s.connected = false ∨ 23 ≤ mtuSize ∧ NotSmaller s.device.mtu mtuSize
  | .onDisconnected => True

instance (s : Peripheral maxSize packetCount) : DecidablePred (Permits settings s)
  | .device (.step (.request _)) => inferInstanceAs (Decidable (_ ∨ _ ∧ _))
  | .device (.step .packetSent) => inferInstanceAs (Decidable (_ = _))
  | .device (.step .beginRead) => inferInstanceAs (Decidable (_ → WritesInside _ .beginRead))
  | .device (.step .iterateRead) => inferInstanceAs (Decidable (_ → WritesInside _ .iterateRead))
  | .device (.contextReset _ _) => inferInstanceAs (Decidable (_ ∧ _))
  | .device (.onMtuChanged _) => inferInstanceAs (Decidable (_ ∨ _ ∧ _))
  | .onDisconnected => inferInstanceAs (Decidable True)

/-- A connection before its first size request, if the FIFO is not too small for any, and behind
it. -/
inductive Live (device : BufferedDevice maxSize packetCount) : Prop
  | fresh {blank : TxQueue maxSize packetCount} :
      device.system.queue =
        init blank settings.runningStatusEnabled settings.noteOffAsNoteOn →
      device.system.accepted = [] → device.system.sent = [] →
      (device.mtu = none ∨ device.system.queue.fifo.getFreeSpace < 3) → Live device
  | opened {mtuSize : UInt16} {settings' : Settings maxSize} {t : System maxSize packetCount}
      {consumed queued : List Chunk} :
      device.mtu = some mtuSize → 23 ≤ mtuSize →
      settings'.runningStatusEnabled = settings.runningStatusEnabled →
      settings'.noteOffAsNoteOn = settings.noteOffAsNoteOn →
      Follows times settings' (requestedSize maxSize mtuSize) device.system t consumed queued →
      Live device

variable {times settings} {s s' : Peripheral maxSize packetCount}

omit [NeZero packetCount] in
private theorem exec_full {queue : TxQueue maxSize packetCount} (h : queue.fifo.getFreeSpace < 3)
    (r : Request) : ∃ code, (r.exec queue).1 = .error code := by
  have three {bytes : List UInt8} (length : bytes.length = 3) :
      (Request.returned (queue.write3ByteChunkToFifo bytes)).1 = .error .fifoFull := by
    rw [write3_returned queue length, if_pos h]
  cases r with
  | addMsg bytes => exact ⟨_, three rfl⟩
  | addSysexStart => exact ⟨_, three rfl⟩
  | addSysexData bytes =>
    refine ⟨.fifoFull, ?_⟩
    change (queue.fifoAddSysexData bytes).1 = _
    unfold fifoAddSysexData sysexDataChunkHeaderSize
    rw [if_pos (Nat.le_of_lt h)]
  | addSysexEnd => exact ⟨_, three rfl⟩
  | addTxPacketSize size => exact ⟨_, three rfl⟩

private theorem onMtuChanged_accepts {device device' : BufferedDevice maxSize packetCount}
    {mtuSize : UInt16} (hact : device.act times (.onMtuChanged mtuSize) = some device') :
    device' = { device with mtu := some mtuSize } ∧ device.system.queue.fifo.getFreeSpace < 3 ∨
      ∃ fifo : Fifo, fifo.bytes = device.system.queue.fifo.bytes ++
          (Chunk.packetSize (requestedSize maxSize mtuSize)).encode ∧
        device' = ⟨{ device.system with
          queue := { device.system.queue with fifo := fifo }
          accepted :=
            device.system.accepted ++ [.packetSize (requestedSize maxSize mtuSize)] },
          some mtuSize⟩ := by
  have cases := BufferedDevice.onMtuChanged_cases hact
  obtain ⟨system, next, rfl⟩ := Option.map_eq_some_iff.mp hact
  rcases System.act_request next with rfl | ⟨count, fifo, exec, written, rfl⟩
  · rcases cases with ⟨-, full⟩ | ⟨-, -, fifo, queue, written⟩
    · exact .inl ⟨rfl, Nat.lt_of_not_le full⟩
    · have same : device.system.queue.fifo.bytes = fifo.bytes :=
        congrArg (fun queue : TxQueue maxSize packetCount => queue.fifo.bytes) queue
      have length := congrArg List.length (same.trans written)
      rw [List.length_append] at length
      exact absurd length (Nat.ne_of_lt (Nat.lt_add_of_pos_right (Nat.succ_pos 2)))
  · exact .inr ⟨fifo, written, rfl⟩

omit [NeZero packetCount] in
private theorem requestedSize_mono {mtu mtu' : UInt16} (hmtu : 23 ≤ mtu) (hle : mtu ≤ mtu') :
    requestedSize maxSize mtu ≤ requestedSize maxSize mtu' := by
  have least : 23 ≤ mtu.toNat := hmtu
  have le : mtu.toNat ≤ mtu'.toNat := hle
  rw [UInt16.le_iff_toNat_le, requestedSize_toNat (by omega), requestedSize_toNat (by omega)]
  omega

omit [NeZero packetCount] in
private theorem requestedSize_le {mtu : UInt16} (hmtu : 23 ≤ mtu) :
    (requestedSize maxSize mtu).toNat ≤ maxSize := by
  have least : 23 ≤ mtu.toNat := hmtu
  rw [requestedSize_toNat (by omega)]
  exact Nat.min_le_left _ _

namespace Live

variable {device device' : BufferedDevice maxSize packetCount}

private theorem request {r : Request} {system : System maxSize packetCount}
    (h : Live times settings device) (hmtu : device.mtu.isSome = true)
    (hr : Orderly packetCount device.system.accepted r)
    (hact : device.system.act times (.request r) = some system) :
    Live times settings { device with system := system } := by
  rcases System.act_request hact with rfl | ⟨count, fifo, exec, written, rfl⟩
  · exact h
  cases h with
  | fresh _ _ _ unasked =>
    have full := unasked.resolve_left fun none => by simp [none] at hmtu
    obtain ⟨code, failed⟩ := exec_full full r
    cases (congrArg Prod.fst exec).symm.trans failed
  | opened mtu least running noteOff follows =>
    have message : packetCount = 1 ∨ (r.chunk count).IsMessage := by
      refine hr.2.imp_right fun message => ?_
      cases r with
      | addMsg bytes => exact isMessage_of_valid message
      | _ => exact message.elim
    obtain ⟨t', follows'⟩ := follows.append (Request.chunk_allowed hr.1 exec) message written
    exact .opened mtu least running noteOff follows'

private theorem onMtuChanged {mtuSize : UInt16} (h : Live times settings device)
    (hmtu : 23 ≤ mtuSize) (hrises : NotSmaller device.mtu mtuSize)
    (hact : device.act times (.onMtuChanged mtuSize) = some device') :
    Live times settings device' := by
  rcases onMtuChanged_accepts hact with ⟨rfl, full⟩ | ⟨fifo, written, rfl⟩
  · cases h with
    | fresh queue accepted sent _ => exact .fresh queue accepted sent (.inr full)
    | opened mtu least running noteOff follows =>
      exact .opened rfl hmtu running noteOff
        (follows.mono (requestedSize_mono least (hrises _ mtu)))
  · cases h with
    | @fresh blank queue accepted sent _ =>
      have five_le : 5 ≤ maxSize := settings.five_le.trans settings.le_maxSize
      let settings' : Settings maxSize :=
        ⟨requestedSize maxSize mtuSize, settings.runningStatusEnabled, settings.noteOffAsNoteOn,
          five_le_requestedSize five_le hmtu, requestedSize_le hmtu⟩
      obtain ⟨⟨q, reading, accepts, sends⟩, mtu⟩ := device
      obtain rfl : q = _ := queue
      obtain rfl : accepts = [] := accepted
      obtain rfl : sends = [] := sent
      have held : fifo.Holds [.packetSize settings'.txBufMaxSize] := written
      obtain ⟨t, follows⟩ : ∃ t, Follows times settings' _ _ t _ _ :=
        Follows.start blank held reading
      refine .opened rfl hmtu ?_ ?_ follows
      · rfl
      · rfl
    | opened mtu least running noteOff follows =>
      exact .opened rfl hmtu running noteOff
        (follows.appendSize (requestedSize_mono least (hrises _ mtu)) (requestedSize_le hmtu)
          written)

private theorem step {a : Action} {system : System maxSize packetCount}
    (h : Live times settings device)
    (hrequest : ∀ r, a = .request r → device.mtu.isSome = true ∧
      Orderly packetCount device.system.accepted r)
    (hact : device.system.act times a = some system) :
    Live times settings { device with system := system } := by
  cases a with
  | request r => exact h.request (hrequest r rfl).1 (hrequest r rfl).2 hact
  | beginRead =>
    rw [System.act_beginRead hact]
    cases h with
    | fresh queue accepted sent unasked => exact .fresh queue accepted sent unasked
    | opened mtu least running noteOff follows =>
      exact .opened mtu least running noteOff (follows.withReading _)
  | iterateRead =>
    obtain ⟨msgBytes, reading, -, rfl⟩ := System.act_iterateRead hact
    cases h with
    | fresh queue accepted sent unasked =>
      have none : device.system.queue.fifo.Holds [] := by
        rw [queue]
        rfl
      rw [readStep_empty times none]
      exact .fresh queue accepted sent unasked
    | opened mtu least running noteOff follows =>
      obtain ⟨settings', t', consumed', queued', grows, follows'⟩ :=
        follows.iterate msgBytes reading
      exact .opened mtu least (grows.runningStatusEnabled.trans running)
        (grows.noteOffAsNoteOn.trans noteOff) follows'
  | packetSent =>
    rw [System.act_packetSent hact]
    cases h with
    | fresh queue accepted sent unasked =>
      have clear : device.system.queue.hasTxData = false := by
        rw [queue]
        rfl
      rw [(onTxPacketSent_clear clear).1, (onTxPacketSent_clear clear).2]
      exact .fresh queue accepted (by rw [sent]; rfl) unasked
    | opened mtu least running noteOff follows =>
      obtain ⟨t', follows'⟩ := follows.packetSent
      exact .opened mtu least running noteOff follows'

private theorem accounted (h : Live times settings device) :
    ∃ consumed queued, Accounted settings device.system consumed queued := by
  cases h with
  | fresh queue accepted sent unasked =>
    refine ⟨[], [], ?_, ?_, [], ?_, ?_⟩
    · exact accepted
    · rw [queue]
      rfl
    · rw [sent, queue]
      rfl
    · rw [queue]
      rfl
  | @opened mtuSize settings' t consumed queued mtu least running noteOff follows =>
    obtain ⟨accepted, fifo, es, received, heard⟩ := follows.accounted
    rw [Chunk.events_congr running noteOff] at heard
    exact ⟨consumed, queued, accepted, fifo, es, received, heard⟩

private theorem short (h : Live times settings device) :
    ∀ mtuSize ∈ device.mtu, ∀ packet ∈ device.system.sent,
      packet.length + 3 ≤ mtuSize.toNat := by
  intro mtuSize hmtu packet hpacket
  cases h with
  | fresh _ _ sent _ =>
    rw [sent] at hpacket
    cases hpacket
  | opened mtu least _ _ follows =>
    cases mtu.symm.trans hmtu
    have le : packet.length ≤ (requestedSize maxSize mtuSize).toNat :=
      (follows.short packet hpacket).trans follows.rises.le
    have least : 23 ≤ mtuSize.toNat := least
    rw [requestedSize_toNat (by omega)] at le
    omega

private theorem heard (h : Live times settings device) (connected : Bool) (ended : List Log) :
    Heard settings (log ⟨device, connected, ended⟩) := by
  obtain ⟨consumed, queued, accepted, -, es, received, heard⟩ := h.accounted
  obtain ⟨first, rest, sent, rfl⟩ := receiveAll_prefix received
  refine ⟨first, rest ++ device.system.queue.remainingData.map .sysexData ++
    queued.flatMap (Chunk.events settings), sent, ?_⟩
  change device.system.accepted.flatMap (Chunk.events settings) = _
  rw [accepted, List.flatMap_append, heard]
  simp only [List.append_assoc]

end Live

private theorem Heard.step {a : Action} {system : System maxSize packetCount}
    {device : BufferedDevice maxSize packetCount} {connected : Bool} {ended : List Log}
    (h : Heard settings (log ⟨device, connected, ended⟩)) (ha : a ≠ .packetSent)
    (hact : device.system.act times a = some system) (mtu : Option UInt16) :
    Heard settings (log ⟨⟨system, mtu⟩, connected, ended⟩) := by
  obtain ⟨es, rest, received, heard⟩ := h
  cases a with
  | request r =>
    rcases System.act_request hact with rfl | ⟨count, fifo, -, -, rfl⟩
    · exact ⟨es, rest, received, heard⟩
    · refine ⟨es, rest ++ (r.chunk count).events settings, received, ?_⟩
      change (device.system.accepted ++ [r.chunk count]).flatMap (Chunk.events settings) = _
      rw [List.flatMap_append, List.flatMap_singleton, ← List.append_assoc]
      exact congrArg (· ++ _) heard
  | beginRead =>
    rw [System.act_beginRead hact]
    exact ⟨es, rest, received, heard⟩
  | iterateRead =>
    obtain ⟨msgBytes, reading, -, rfl⟩ := System.act_iterateRead hact
    exact ⟨es, rest, received, heard⟩
  | packetSent => exact absurd rfl ha

/-- What is known of the current connection and of those before it. -/
structure Inv (times : Nat → UInt16) (settings : Settings maxSize)
    (s : Peripheral maxSize packetCount) : Prop where
  ended : ∀ log ∈ s.ended, Heard settings log
  live : s.connected = true → Live times settings s.device
  left : s.connected = false → Heard settings s.log

namespace Inv

private theorem log (h : Inv times settings s) : Heard settings s.log := by
  cases connected : s.connected with
  | true => exact (h.live connected).heard s.connected s.ended
  | false => exact h.left connected

private theorem step {a : Action} (h : Inv times settings s)
    (hpermits : s.Permits settings (.device (.step a)))
    (hact : s.act times (.device (.step a)) = some s') : Inv times settings s' := by
  obtain ⟨device, next, rfl⟩ := Option.map_eq_some_iff.mp hact
  obtain ⟨system, moved, rfl⟩ := Option.map_eq_some_iff.mp next
  refine ⟨h.ended, fun connected => (h.live connected).step ?_ moved,
    fun left => (h.left left).step ?_ moved s.device.mtu⟩
  · rintro r rfl
    refine hpermits.resolve_left fun left => ?_
    cases connected.symm.trans left
  · rintro rfl
    cases left.symm.trans hpermits

private theorem contextReset {txRunningStatus txNoteOffAsNoteOn : Bool}
    (h : Inv times settings s)
    (hpermits : s.Permits settings (.device (.contextReset txRunningStatus txNoteOffAsNoteOn)))
    (hact : s.act times (.device (.contextReset txRunningStatus txNoteOffAsNoteOn)) = some s') :
    Inv times settings s' := by
  obtain ⟨rfl, rfl⟩ := hpermits
  cases hact
  refine ⟨?_, fun _ => .fresh rfl rfl rfl (.inl rfl), fun left => by cases left⟩
  exact List.forall_mem_append.mpr ⟨h.ended, List.forall_mem_singleton.mpr h.log⟩

private theorem onMtuChanged {mtuSize : UInt16} (h : Inv times settings s)
    (hpermits : s.Permits settings (.device (.onMtuChanged mtuSize)))
    (hact : s.act times (.device (.onMtuChanged mtuSize)) = some s') : Inv times settings s' := by
  obtain ⟨device, next, rfl⟩ := Option.map_eq_some_iff.mp hact
  refine ⟨h.ended, fun connected => ?_, fun left => ?_⟩
  · obtain ⟨least, rises⟩ := hpermits.resolve_left fun left => by cases connected.symm.trans left
    exact (h.live connected).onMtuChanged least rises next
  · obtain ⟨system, moved, rfl⟩ := Option.map_eq_some_iff.mp next
    exact (h.left left).step (by rintro ⟨⟩) moved (some mtuSize)

private theorem run {queue : TxQueue maxSize packetCount}
    (h : Reach (act times) (Permits settings) (initial queue) s) : Inv times settings s := by
  refine h.invariant (I := Inv times settings) ⟨?_, ?_, fun _ => ⟨[], [], rfl, rfl⟩⟩ ?_
  · exact fun log hlog => absurd hlog List.not_mem_nil
  · exact fun connected => absurd connected Bool.false_ne_true
  · intro s s' a inv permitted next
    cases a with
    | device a =>
      cases a with
      | step a => exact inv.step permitted next
      | contextReset txRunningStatus txNoteOffAsNoteOn => exact inv.contextReset permitted next
      | onMtuChanged mtuSize => exact inv.onMtuChanged permitted next
    | onDisconnected =>
      cases next
      exact ⟨inv.ended, fun connected => absurd connected Bool.false_ne_true, fun _ => inv.log⟩

end Inv

/-- Whatever connections come one after another, in each of them a prefix of what was accepted in
it is sent, and nothing of another one. While one lasts, also when its MTU grows, nothing that it
accepted is lost, and its packets fit into the notifications. -/
theorem connections_accounted {queue : TxQueue maxSize packetCount}
    (h : Reach (act times) (Permits settings) (initial queue) s) :
    (∀ log ∈ s.ended, Heard settings log) ∧ (s.connected = true →
      (∃ consumed queued, Accounted settings s.device.system consumed queued) ∧
      ∀ mtuSize ∈ s.device.mtu, ∀ packet ∈ s.device.system.sent,
        packet.length + 3 ≤ mtuSize.toNat) := by
  have inv := Inv.run h
  exact ⟨inv.ended, fun connected =>
    ⟨(inv.live connected).accounted, (inv.live connected).short⟩⟩

/-- Packets of 20 bytes. -/
def twentyBytes : Settings 24 := ⟨20, true, true, by decide, by decide⟩

/-- A connection that ends in the middle of a sysex message and of a call of the reader, a message
behind its end, and a connection whose packet gets larger while it holds a message. -/
theorem connections_accounted_reconnect : ∃ s : Peripheral 24 1,
    (s.ended.map Log.sent = [[], [[0xbf, 0xfe, 0xf0, 1, 2]]] ∧ s.connected = true ∧
      s.device.mtu = some 26 ∧
      s.device.system.queue.packets.map Writer.payload = [[0x80, 0x80, 0x90, 60, 127]] ∧
      s.device.system.queue.fifo.bytes = [0x80, 60, 0]) ∧
    (∀ log ∈ s.ended, Heard twentyBytes log) ∧ (s.connected = true →
      (∃ consumed queued, Accounted twentyBytes s.device.system consumed queued) ∧
      ∀ mtuSize ∈ s.device.mtu, ∀ packet ∈ s.device.system.sent,
        packet.length + 3 ≤ mtuSize.toNat) := by
  obtain ⟨s, reached, state⟩ := exists_of_replay (act millisecondClock) (Permits twentyBytes)
    (initial (blankQueue 24 1 16))
    (fun s => s.ended.map Log.sent = [[], [[0xbf, 0xfe, 0xf0, 1, 2]]] ∧ s.connected = true ∧
      s.device.mtu = some 26 ∧
      s.device.system.queue.packets.map Writer.payload = [[0x80, 0x80, 0x90, 60, 127]] ∧
      s.device.system.queue.fifo.bytes = [0x80, 60, 0])
    [.device (.onMtuChanged 50), .device (.contextReset true true), .device (.onMtuChanged 23),
      .device (.step .beginRead), .device (.step .iterateRead),
      .device (.step (.request .addSysexStart)), .device (.step (.request (.addSysexData [1, 2]))),
      .device (.step .iterateRead), .device (.step .iterateRead), .device (.step .packetSent),
      .onDisconnected, .device (.step (.request (.addMsg ⟨0x90, 60, 127⟩))),
      .device (.contextReset true true), .device (.step .iterateRead), .device (.onMtuChanged 23),
      .device (.step (.request (.addMsg ⟨0x90, 60, 127⟩))), .device (.step .beginRead),
      .device (.step .iterateRead), .device (.step .iterateRead), .device (.onMtuChanged 26),
      .device (.step (.request (.addMsg ⟨0x80, 60, 0⟩))), .device (.step .iterateRead)]
    (by decide +kernel)
  exact ⟨s, state, connections_accounted reached⟩

end Peripheral

end BleMidi.Service
