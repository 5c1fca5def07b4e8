/- Module: BleMidi/Service/SampleReceive
   source: ble_midi/src/ble_midi.c (midi_write_cb), src/main.c (ble_midi_message_cb,
     midi_msg_work_cb, midi_msg_ringbuf), with CONFIG_ASSERT as in prj.conf
   digest: The byte ring between the parser and the work item is a bounded queue of messages. -/

import BleMidi.Core.Simulation
import BleMidi.Packet.Truncation
import BleMidi.Queue.Fifo

set_option autoImplicit false
set_option relaxedAutoImplicit false

namespace BleMidi.Service

open BleMidi.Core.Simulation
open BleMidi.Core.Transducer
open BleMidi.Packet.Bytes
open BleMidi.Packet.PacketParser
open BleMidi.Packet.PacketScan
open BleMidi.Packet.ParserRefinement
open BleMidi.Packet.Truncation (scanner_incremental)
open BleMidi.Queue

section Short

/-- A message has a status byte and at most two more. -/
def ShortMessage : Event → Prop
  | .midiMessage bytes _ => 1 ≤ bytes.length ∧ bytes.length ≤ 3
  | _ => True

variable {s s' : ScanState} {out : List Event} {rest unread : List UInt8} {reason : ScanEnd}

private theorem takeMessage_short {front : List UInt8} {count : Nat} (hfront : front ≠ [])
    (h : front.length + count ≤ 3) (hmove : takeMessage s front count rest = .more out s' unread) :
    ∀ e ∈ out, ShortMessage e := by
  unfold takeMessage at hmove
  split at hmove
  · cases hmove
  · cases hmove
    have positive := List.length_pos_of_ne_nil hfront
    rw [List.forall_mem_singleton]
    change 1 ≤ (front ++ rest.take count).length ∧ (front ++ rest.take count).length ≤ 3
    rw [List.length_append, List.length_take]
    omega

private theorem scanRunning_short {byte0 : UInt8}
    (hmove : scanRunning s byte0 rest = .more out s' unread) : ∀ e ∈ out, ShortMessage e := by
  unfold scanRunning at hmove
  have size := messageSize_le s.running
  split at hmove
  · cases hmove
  · refine takeMessage_short (by simp) ?_ hmove
    change 2 + ((messageSize s.running).toNat - 2) ≤ 3
    omega

private theorem scanStatus_short {status : UInt8}
    (hmove : scanStatus s status rest = .more out s' unread) : ∀ e ∈ out, ShortMessage e := by
  unfold scanStatus at hmove
  have size := messageSize_le status
  split at hmove
  · cases hmove
    exact List.forall_mem_singleton.mpr trivial
  · split at hmove
    · cases hmove
    · refine takeMessage_short (by simp) ?_ hmove
      change 1 + ((messageSize status).toNat - 1) ≤ 3
      omega

private theorem scanSysexStatus_short {byte0 status : UInt8}
    (hmove : scanSysexStatus s byte0 status rest = .more out s' unread) :
    ∀ e ∈ out, ShortMessage e := by
  unfold scanSysexStatus at hmove
  split at hmove
  · cases hmove
    exact List.forall_mem_singleton.mpr ⟨le_rfl, show 1 ≤ 3 by decide⟩
  · split at hmove
    · cases hmove
      exact List.forall_mem_singleton.mpr trivial
    · cases hmove

private theorem scanStep_short {b : UInt8} (hmove : scanStep s b rest = .more out s' unread) :
    ∀ e ∈ out, ShortMessage e := by
  unfold scanStep at hmove
  split at hmove
  · split at hmove
    · cases hmove
      exact List.forall_mem_singleton.mpr trivial
    · cases rest with
      | nil => cases hmove
      | cons status rest => exact scanSysexStatus_short hmove
  · split at hmove
    · exact scanRunning_short hmove
    · cases rest with
      | nil => cases hmove
      | cons byte1 rest =>
        simp only at hmove
        split at hmove
        · exact scanRunning_short hmove
        · exact scanStatus_short hmove

private theorem run_short (s : ScanState) (w : List UInt8) :
    ∀ e ∈ (run scanner s w).1, ShortMessage e := by
  apply run_induction (R := scanner) (P := fun _ _ result => ∀ e ∈ result.1, ShortMessage e)
  · intro s e he
    cases he
  · intro s b unread out reason hstop e he
    rw [scanner_incremental.silent hstop] at he
    cases he
  · intro s s' b unread rest out hmore ih
    exact List.forall_mem_append.mpr ⟨scanStep_short hmore, ih⟩

theorem callbacks_short (rxBuf : List UInt8) :
    ∀ e ∈ (parsePacket rxBuf).callbacks, ShortMessage e := by
  cases rxBuf with
  | nil =>
    intro e he
    cases he
  | cons header body =>
    rw [(parsePacket_scan header body).1]
    unfold scanPacket
    cases preScan body with
    | error code =>
      intro e he
      cases he
    | ok isSysexCont =>
      by_cases hheader : isStatusByte header = true
      · simp only [if_pos hheader]
        exact run_short _ _
      · simp only [if_neg hheader]
        intro e he
        cases he

end Short

/-- `midi_msg_ringbuf`, and the records that `midi_msg_work_cb` has logged. -/
structure SampleReceiver where
  midiMsgRingbuf : Fifo
  logged : List (List UInt8)

/-- `midi_write_cb` with a packet, and an iteration of the loop of `midi_msg_work_cb`. The two run
in different threads. -/
inductive ReceiveAction
  | midiWrite (buf : List UInt8)
  | midiMsgWork

/-- `data` of `ble_midi_message_cb` -/
def messageData (bytes : List UInt8) : List UInt8 :=
  UInt8.ofNat bytes.length :: (bytes ++ List.replicate (3 - bytes.length) 0)

namespace SampleReceiver

/-- `ble_midi_message_cb`. The assertion that the ring has taken the whole record may fail. -/
def bleMidiMessageCb (s : SampleReceiver) (bytes : List UInt8) : Option SampleReceiver :=
  let (numBytesWritten, midiMsgRingbuf) := s.midiMsgRingbuf.write (messageData bytes)
  if numBytesWritten = 4 then some { s with midiMsgRingbuf := midiMsgRingbuf } else none

/-- The callback for an event. Those for sysex messages do not touch the ring. -/
def callback (s : SampleReceiver) : Event → Option SampleReceiver
  | .midiMessage bytes _ => s.bleMidiMessageCb bytes
  | _ => some s

/-- `midi_write_cb`, for a write at offset 0 -/
def midiWriteCb (s : SampleReceiver) (buf : List UInt8) : Option SampleReceiver :=
  (parsePacket buf).callbacks.foldlM callback s

/-- A call of `ring_buf_get`, and what is done with 4 bytes. -/
def midiMsgWorkCb (s : SampleReceiver) : SampleReceiver :=
  let data := s.midiMsgRingbuf.peek 4
  let s := { s with midiMsgRingbuf := s.midiMsgRingbuf.read 4 }
  if data.length = 4 then { s with logged := s.logged ++ [data] } else s

def act (s : SampleReceiver) : ReceiveAction → Option SampleReceiver
  | .midiWrite buf => s.midiWriteCb buf
  | .midiMsgWork => some s.midiMsgWorkCb

/-- `RING_BUF_DECLARE(midi_msg_ringbuf, 128)` -/
def declared : SampleReceiver := ⟨⟨128, [], Nat.zero_le _⟩, []⟩

end SampleReceiver

/-- What the ring is for: a queue of at most `bound` messages, and those that have left it. -/
structure Inbox where
  bound : Nat
  waiting : List (List UInt8)
  logged : List (List UInt8)

namespace Inbox

/-- A message waits if there is room for one more. -/
def receive (b : Inbox) : Event → Option Inbox
  | .midiMessage bytes _ =>
      if b.waiting.length < b.bound then some { b with waiting := b.waiting ++ [bytes] } else none
  | _ => some b

def act (b : Inbox) : ReceiveAction → Option Inbox
  | .midiWrite buf => (parsePacket buf).callbacks.foldlM receive b
  | .midiMsgWork =>
      match b.waiting with
      | [] => some b
      | bytes :: waiting => some { b with waiting := waiting, logged := b.logged ++ [bytes] }

/-- The messages that have come in. -/
def messages (b : Inbox) : List (List UInt8) := b.logged ++ b.waiting

end Inbox

/-- The ring holds a record for each waiting message and nothing else. -/
structure Records (s : SampleReceiver) (b : Inbox) : Prop where
  capacity : s.midiMsgRingbuf.capacity = 4 * b.bound
  bytes : s.midiMsgRingbuf.bytes = b.waiting.flatMap messageData
  logged : s.logged = b.logged.map messageData
  short : ∀ bytes ∈ b.waiting, bytes.length ≤ 3

theorem messageData_length {bytes : List UInt8} (h : bytes.length ≤ 3) :
    (messageData bytes).length = 4 := by
  rw [messageData, List.length_cons, List.length_append, List.length_replicate]
  omega

private theorem records_length {waiting : List (List UInt8)}
    (h : ∀ bytes ∈ waiting, bytes.length ≤ 3) :
    (waiting.flatMap messageData).length = 4 * waiting.length := by
  induction waiting with
  | nil => rfl
  | cons bytes waiting ih =>
    obtain ⟨first, rest⟩ := List.forall_mem_cons.mp h
    rw [List.flatMap_cons, List.length_append, messageData_length first, ih rest, List.length_cons]
    omega

namespace Records

variable {s : SampleReceiver} {b : Inbox}

theorem getFreeSpace (h : Records s b) :
    s.midiMsgRingbuf.getFreeSpace = 4 * b.bound - 4 * b.waiting.length := by
  rw [Fifo.getFreeSpace, h.capacity, h.bytes, records_length h.short]

theorem callback (h : Records s b) {event : Event} (hevent : ShortMessage event) :
    Option.Rel Records (s.callback event) (b.receive event) := by
  cases event with
  | midiMessage bytes timestamp =>
    have length := messageData_length hevent.2
    have space := h.getFreeSpace
    change Option.Rel Records (if (s.midiMsgRingbuf.write (messageData bytes)).1 = 4 then _ else _)
      (if b.waiting.length < b.bound then _ else _)
    by_cases room : b.waiting.length < b.bound
    · obtain ⟨written, contents, kept⟩ :=
        Fifo.write_of_le (f := s.midiMsgRingbuf) (v := messageData bytes) (by omega)
      rw [if_pos (written.trans length), if_pos room]
      refine .some ⟨kept.trans h.capacity, ?_, h.logged, ?_⟩
      · refine contents.trans ?_
        rw [h.bytes, List.flatMap_append, List.flatMap_singleton]
      · exact List.forall_mem_append.mpr ⟨h.short, List.forall_mem_singleton.mpr hevent.2⟩
    · have full : s.midiMsgRingbuf.getFreeSpace = 0 := by omega
      have written : (s.midiMsgRingbuf.write (messageData bytes)).1 ≠ 4 := by
        change ((messageData bytes).take s.midiMsgRingbuf.getFreeSpace).length ≠ 4
        rw [full, List.take_zero]
        exact Nat.zero_ne_add_one 3
      rw [if_neg written, if_neg room]
      exact .none
  | sysexStart timestamp => exact .some h
  | sysexData dataByte => exact .some h
  | sysexEnd timestamp => exact .some h

theorem callbacks {events : List Event} (hevents : ∀ e ∈ events, ShortMessage e) :
    ∀ {s : SampleReceiver} {b : Inbox}, Records s b →
      Option.Rel Records (events.foldlM SampleReceiver.callback s)
        (events.foldlM Inbox.receive b) :=
  rel_foldlM fun h hevent => h.callback (hevents _ hevent)

theorem midiMsgWork (h : Records s b) :
    Option.Rel Records (some s.midiMsgWorkCb) (b.act .midiMsgWork) := by
  obtain ⟨bound, waiting, logged⟩ := b
  unfold SampleReceiver.midiMsgWorkCb Fifo.peek
  rw [h.bytes]
  cases waiting with
  | nil =>
    refine .some ⟨h.capacity, ?_, h.logged, h.short⟩
    change s.midiMsgRingbuf.bytes.drop 4 = []
    rw [h.bytes]
    rfl
  | cons bytes waiting =>
    obtain ⟨first, rest⟩ := List.forall_mem_cons.mp h.short
    have length := messageData_length first
    have data : ((bytes :: waiting).flatMap messageData).take 4 = messageData bytes := by
      rw [List.flatMap_cons, List.take_left' length]
    simp only [data, length, if_true]
    refine .some ⟨h.capacity, ?_, ?_, rest⟩
    · change s.midiMsgRingbuf.bytes.drop 4 = waiting.flatMap messageData
      rw [h.bytes, List.flatMap_cons, List.drop_left' length]
    · change s.logged ++ [messageData bytes] = (logged ++ [bytes]).map messageData
      rw [h.logged, List.map_append]
      rfl

theorem act (h : Records s b) (a : ReceiveAction) : Option.Rel Records (s.act a) (b.act a) := by
  cases a with
  | midiWrite buf => exact callbacks (callbacks_short buf) h
  | midiMsgWork => exact h.midiMsgWork

end Records

/-- The messages that a packet delivers. -/
def messagesOf (events : List Event) : List (List UInt8) :=
  events.filterMap fun
    | .midiMessage bytes _ => some bytes
    | _ => none

theorem messagesOf_flatMap (events : List Event) :
    messagesOf events = events.flatMap fun event => messagesOf [event] := by
  induction events with
  | nil => rfl
  | cons event events ih =>
    rw [List.flatMap_cons, ← ih]
    cases event <;> rfl

def ReceiveAction.messages : ReceiveAction → List (List UInt8)
  | .midiWrite buf => messagesOf (parsePacket buf).callbacks
  | .midiMsgWork => []

namespace Inbox

variable {b b' : Inbox}

/-- What a step of the queue does: nothing is lost or put in another place. -/
structure Takes (b b' : Inbox) (new : List (List UInt8)) : Prop where
  bound : b'.bound = b.bound
  messages : b'.messages = b.messages ++ new
  fits : b.waiting.length ≤ b.bound → b'.waiting.length ≤ b'.bound

theorem receive_takes (b b' : Inbox) (event : Event) (h : b.receive event = some b') :
    Takes b b' (messagesOf [event]) := by
  cases event with
  | midiMessage bytes timestamp =>
    change (if b.waiting.length < b.bound then _ else _) = _ at h
    split at h
    · rename_i room
      cases h
      refine ⟨rfl, (List.append_assoc _ _ _).symm, fun _ => ?_⟩
      rw [List.length_append]
      exact room
    · cases h
  | sysexStart timestamp =>
    cases h
    exact ⟨rfl, (List.append_nil _).symm, id⟩
  | sysexData dataByte =>
    cases h
    exact ⟨rfl, (List.append_nil _).symm, id⟩
  | sysexEnd timestamp =>
    cases h
    exact ⟨rfl, (List.append_nil _).symm, id⟩

theorem Takes.trans {b'' : Inbox} {new new' : List (List UInt8)} (h : Takes b b' new)
    (h' : Takes b' b'' new') : Takes b b'' (new ++ new') := by
  refine ⟨h'.bound.trans h.bound, ?_, fun fits => h'.fits (h.fits fits)⟩
  rw [h'.messages, h.messages, List.append_assoc]

theorem takes_run {α : Type} {step : Inbox → α → Option Inbox} {new : α → List (List UInt8)}
    (hstep : ∀ b b' a, step b a = some b' → Takes b b' (new a)) {actions : List α} :
    ∀ {b b' : Inbox}, actions.foldlM step b = some b' → Takes b b' (actions.flatMap new) := by
  induction actions with
  | nil =>
    intro b b' h
    cases h
    exact ⟨rfl, (List.append_nil _).symm, id⟩
  | cons a actions ih =>
    intro b b' h
    rw [List.foldlM_cons] at h
    obtain ⟨next, first, rest⟩ := Option.bind_eq_some_iff.mp h
    rw [List.flatMap_cons]
    exact (hstep _ _ _ first).trans (ih rest)

theorem act_takes (b b' : Inbox) (a : ReceiveAction) (h : b.act a = some b') :
    Takes b b' a.messages := by
  cases a with
  | midiWrite buf =>
    rw [ReceiveAction.messages, messagesOf_flatMap]
    exact takes_run receive_takes h
  | midiMsgWork =>
    obtain ⟨bound, waiting, logged⟩ := b
    cases waiting with
    | nil =>
      cases h
      exact ⟨rfl, (List.append_nil _).symm, id⟩
    | cons bytes waiting =>
      cases h
      refine ⟨rfl, ?_, Nat.le_of_succ_le⟩
      simp [messages, ReceiveAction.messages]

end Inbox

/-- Whatever packets come in and whenever the work item runs, the ring of 128 bytes behaves as a
queue of 32 messages: every message is logged whole, in order and once, and the assertion fails
exactly when a message comes in while 32 are waiting. -/
theorem midiMsgRingbuf_refines (actions : List ReceiveAction) :
    Option.Rel Records (actions.foldlM SampleReceiver.act SampleReceiver.declared)
        (actions.foldlM Inbox.act ⟨32, [], []⟩) ∧
      ∀ b, actions.foldlM Inbox.act ⟨32, [], []⟩ = some b →
        b.messages = actions.flatMap ReceiveAction.messages ∧ b.waiting.length ≤ 32 := by
  constructor
  · have start : Records SampleReceiver.declared ⟨32, [], []⟩ :=
      ⟨rfl, rfl, rfl, fun _ mem => absurd mem (List.not_mem_nil)⟩
    exact rel_foldlM (fun h _ => h.act _) start
  · intro b hb
    have takes : Inbox.Takes ⟨32, [], []⟩ b (actions.flatMap ReceiveAction.messages) :=
      Inbox.takes_run Inbox.act_takes hb
    exact ⟨takes.messages, (takes.fits (Nat.zero_le _)).trans_eq takes.bound⟩

end BleMidi.Service
