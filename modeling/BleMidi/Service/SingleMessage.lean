/- Module: BleMidi/Service/SingleMessage
   source: ble_midi/src/ble_midi.c (ble_midi_tx_msg, ble_midi_tx_sysex_start, ble_midi_tx_sysex_end,
     send_packet), with CONFIG_BLE_MIDI_TX_MODE_SINGLE_MSG
   digest: What the return value of a call says about its packet. -/

import BleMidi.Core.Runs
import BleMidi.Packet.PacketStream
import BleMidi.Packet.RoundTrip

set_option autoImplicit false
set_option relaxedAutoImplicit false

namespace BleMidi.Service

open BleMidi.Core.Runs
open BleMidi.Core.Transducer
open BleMidi.Packet.Bytes
open BleMidi.Packet.PacketParser
open BleMidi.Packet.PacketScan
open BleMidi.Packet.Grammar
open BleMidi.Packet.PacketWriter
open BleMidi.Packet.PacketStream
open BleMidi.Packet.WriterSpec
open BleMidi.Packet.WriterPieces
open BleMidi.Packet.WriterSimulation
open BleMidi.Packet.RoundTrip

variable {maxSize : Nat}

/-- `context.tx_writer`, and the packets that `bt_gatt_notify_cb` was given, each with what it
returned. -/
structure SingleMessage (maxSize : Nat) where
  txWriter : Writer maxSize
  handed : List (List UInt8 × Int)
  deriving DecidableEq

/-- A transmission without its time. -/
inductive Transmission
  | msg (bytes : MessageBytes)
  | sysexStart
  | sysexEnd
  deriving DecidableEq

def Transmission.IsMsg : Transmission → Prop
  | .msg _ => True
  | _ => False

instance : DecidablePred Transmission.IsMsg
  | .msg _ => inferInstanceAs (Decidable True)
  | .sysexStart => inferInstanceAs (Decidable False)
  | .sysexEnd => inferInstanceAs (Decidable False)

/-- A call at a time, and what `bt_gatt_notify_cb` returns in it. -/
structure TxCall where
  transmission : Transmission
  timestamp : UInt16
  result : Int
  deriving DecidableEq

namespace SingleMessage

/-- `send_packet` for the first bytes of `tx_buf`. -/
def sendPacket (s : SingleMessage maxSize) (numBytes : Nat) (result : Int) :
    Int × SingleMessage maxSize :=
  (result, { s with handed := s.handed ++ [(s.txWriter.txBuf.toList.take numBytes, result)] })

/-- A packet for one call of the writer. What the writer returns is not looked at. -/
def sendAlone (s : SingleMessage maxSize) (add : Writer maxSize → PacketError × Writer maxSize)
    (result : Int) : Int × SingleMessage maxSize :=
  let txWriter := (add (writerReset s.txWriter)).2
  { s with txWriter := txWriter }.sendPacket txWriter.txBufSize.toNat result

def txMsg (s : SingleMessage maxSize) (bytes : MessageBytes) (timestamp : UInt16) (result : Int) :
    Int × SingleMessage maxSize :=
  s.sendAlone (fun w => writerAddMsg w bytes timestamp) result

def txSysexStart (s : SingleMessage maxSize) (timestamp : UInt16) (result : Int) :
    Int × SingleMessage maxSize :=
  s.sendAlone (fun w => writerStartSysexMsg w timestamp) result

def txSysexEnd (s : SingleMessage maxSize) (timestamp : UInt16) (result : Int) :
    Int × SingleMessage maxSize :=
  s.sendAlone (fun w => writerEndSysexMsg w timestamp) result

def exec (s : SingleMessage maxSize) (c : TxCall) : Int × SingleMessage maxSize :=
  match c.transmission with
  | .msg bytes => s.txMsg bytes c.timestamp c.result
  | .sysexStart => s.txSysexStart c.timestamp c.result
  | .sysexEnd => s.txSysexEnd c.timestamp c.result

/-- The packets that the transport has accepted. -/
def accepted (s : SingleMessage maxSize) : List (List UInt8) :=
  (s.handed.filter fun p => p.2 = 0).map Prod.fst

/-- The event that a call is to send. -/
def eventOf (s : SingleMessage maxSize) : Transmission → MidiEvent
  | .msg bytes =>
      .message (delivered s.txWriter.runningStatusEnabled s.txWriter.noteOffAsNoteOn bytes)
  | .sysexStart => .sysexStart
  | .sysexEnd => .sysexEnd

/-- A return value that says what happened to the event: with 0, one packet with it is accepted,
and with an error nothing is, and the sysex message stays open or closed. -/
structure Honest (s : SingleMessage maxSize) (c : TxCall) : Prop where
  success : (s.exec c).1 = 0 → ∃ packet, (s.exec c).2.handed = s.handed ++ [(packet, 0)] ∧
    packet ≠ [] ∧ receive s.txWriter.inSysexMsg packet = some [s.eventOf c.transmission]
  failure : (s.exec c).1 ≠ 0 → (s.exec c).2.accepted = s.accepted ∧
    (s.exec c).2.txWriter.inSysexMsg = s.txWriter.inSysexMsg

/-- The writer can put the event into a packet of its own. A real-time message inside a sysex
message comes without the packet header. -/
def Encodes (s : SingleMessage maxSize) : Transmission → Prop
  | .msg bytes => s.txWriter.inSysexMsg = false ∧ ValidMessage bytes
  | .sysexStart => s.txWriter.inSysexMsg = false
  | .sysexEnd => s.txWriter.inSysexMsg = true

instance (s : SingleMessage maxSize) : DecidablePred s.Encodes
  | .msg _ => inferInstanceAs (Decidable (_ ∧ _))
  | .sysexStart => inferInstanceAs (Decidable (_ = false))
  | .sysexEnd => inferInstanceAs (Decidable (_ = true))

/-- The transport refuses what the writer cannot encode, and it accepts the start and the end of
a sysex message that the writer can encode. -/
def Suits (s : SingleMessage maxSize) (c : TxCall) : Prop :=
  (c.result = 0 → s.Encodes c.transmission) ∧
    (c.result ≠ 0 → s.Encodes c.transmission → c.transmission.IsMsg)

instance (s : SingleMessage maxSize) (c : TxCall) : Decidable (s.Suits c) :=
  inferInstanceAs (Decidable ((_ → _) ∧ (_ → _ → _)))

/-- The state behind a call. -/
def step (s : SingleMessage maxSize) (c : TxCall) : SingleMessage maxSize := (s.exec c).2

/-- The events of the calls of a run that return 0. -/
def sent (s : SingleMessage maxSize) : List TxCall → List MidiEvent
  | [] => []
  | c :: cs =>
      (if (s.exec c).1 = 0 then [s.eventOf c.transmission] else []) ++ sent (s.exec c).2 cs

/-- The largest packet has room for a message and fits into the buffer. -/
structure Sized (s : SingleMessage maxSize) : Prop where
  five_le : 5 ≤ s.txWriter.txBufMaxSize.toNat
  le_max : s.txWriter.txBufMaxSize.toNat ≤ maxSize

variable {s : SingleMessage maxSize} {c : TxCall}

/-- The writer with the packet of the call. -/
def packed (s : SingleMessage maxSize) (c : TxCall) : Writer maxSize :=
  (s.exec c).2.txWriter

theorem exec_eq (s : SingleMessage maxSize) (c : TxCall) :
    s.exec c = (c.result, ⟨s.packed c, s.handed ++ [((s.packed c).payload, c.result)]⟩) := by
  obtain ⟨transmission, timestamp, result⟩ := c
  cases transmission <;> rfl

private theorem hasRoom_reset {w : Writer maxSize} {bytes : List UInt8}
    (h : bytes.length ≤ w.txBufMaxSize.toNat) : HasRoom (writerReset w) bytes := by
  change 0 + bytes.length ≤ w.txBufMaxSize.toNat
  omega

/-- A packet for an event that the writer can encode. The flag follows the event. -/
theorem packed_encodes (hsized : s.Sized) (c : TxCall) (h : s.Encodes c.transmission) :
    receive s.txWriter.inSysexMsg (s.packed c).payload = some [s.eventOf c.transmission] ∧
      (s.packed c).inSysexMsg =
        midiOpenBehind s.txWriter.inSysexMsg (s.eventOf c.transmission) := by
  have carries (openBefore : Bool) : Carries openBefore (writerReset s.txWriter) [] :=
    carries_reset openBefore hsized.le_max
  obtain ⟨transmission, t, result⟩ := c
  cases transmission with
  | msg bytes =>
    obtain ⟨flag, valid⟩ := h
    have closed : (writerReset s.txWriter).inSysexMsg = false := flag
    have room : HasRoom (writerReset s.txWriter)
        (messageBytesToAppend (writerReset s.txWriter) bytes t) := by
      have tail := messageTail_length_le (writerReset s.txWriter) bytes t
      have length : (messageBytesToAppend (writerReset s.txWriter) bytes t).length =
          (messageTail (writerReset s.txWriter) bytes t).length + 1 := rfl
      have five := hsized.five_le
      exact hasRoom_reset (by omega)
    have written : s.packed ⟨.msg bytes, t, result⟩ = _ :=
      congrArg Prod.snd ((writerAddMsg_outside closed valid t).trans (if_pos room))
    rw [written, flag]
    exact ⟨receive_of_carries ((carries false).addMsg rfl valid room),
      (putAll_inSysexMsg _ _).trans closed⟩
  | sysexStart =>
    have flag : s.txWriter.inSysexMsg = false := h
    have closed : ¬ (writerReset s.txWriter).inSysexMsg = true := (Bool.not_eq_true _).mpr h
    have room : HasRoom (writerReset s.txWriter) (statusBytes (writerReset s.txWriter) t 0xf0) :=
      hasRoom_reset ((by decide : 3 ≤ 5).trans hsized.five_le)
    have written : s.packed ⟨.sysexStart, t, result⟩ = _ :=
      congrArg Prod.snd ((writerStartSysexMsg_eq (writerReset s.txWriter) t).trans
        ((if_neg closed).trans (if_pos room)))
    rw [written, flag]
    exact ⟨receive_of_carries ((carries false).startSysexMsg rfl room), rfl⟩
  | sysexEnd =>
    have flag : s.txWriter.inSysexMsg = true := h
    have room : HasRoom (writerReset s.txWriter) (statusBytes (writerReset s.txWriter) t 0xf7) :=
      hasRoom_reset ((by decide : 3 ≤ 5).trans hsized.five_le)
    have written : s.packed ⟨.sysexEnd, t, result⟩ = _ :=
      congrArg Prod.snd ((writerEndSysexMsg_eq (writerReset s.txWriter) t).trans
        ((if_pos flag).trans (if_pos room)))
    rw [written, flag]
    exact ⟨receive_of_carries ((carries true).endSysexMsg rfl room), rfl⟩

/-- A start and an end of a sysex message that the writer can encode change the flag. -/
private theorem keeps_iff {transmission : Transmission} (h : s.Encodes transmission) :
    midiOpenBehind s.txWriter.inSysexMsg (s.eventOf transmission) = s.txWriter.inSysexMsg ↔
      transmission.IsMsg := by
  cases transmission with
  | msg bytes => exact iff_of_true rfl trivial
  | sysexStart =>
    have closed : s.txWriter.inSysexMsg = false := h
    simp [eventOf, midiOpenBehind, Transmission.IsMsg, closed]
  | sysexEnd =>
    have opened : s.txWriter.inSysexMsg = true := h
    simp [eventOf, midiOpenBehind, Transmission.IsMsg, opened]

private theorem receive_headless {header rt : UInt8} (hheader : isStatusByte header = true)
    (hrt : isRealtimeMessage rt = true) : receive true [header, rt] = none := by
  have status : ¬ isDataByte rt = true := by
    rw [not_isDataByte.mpr (isStatusByte_of_realtime hrt)]
    exact Bool.false_ne_true
  have stops : scanner.step (startState true header) rt [] =
      .stop [] (.failed .unexpectedEndOfData) := by
    change (if isDataByte rt then _ else _) = _
    rw [if_neg status]
  rw [receive, if_pos hheader, run_stop stops]

/-- The packet of a call that the writer refuses is empty, and that of a real-time message inside a
sysex message has no header. -/
private theorem packed_refused (hsized : s.Sized) (c : TxCall) (h : ¬ s.Encodes c.transmission) :
    (s.packed c).inSysexMsg = s.txWriter.inSysexMsg ∧
      receive s.txWriter.inSysexMsg (s.packed c).payload ≠ some [s.eventOf c.transmission] := by
  have empty (kept : s.packed c = writerReset s.txWriter) :
      (s.packed c).inSysexMsg = s.txWriter.inSysexMsg ∧
        receive s.txWriter.inSysexMsg (s.packed c).payload ≠ some [s.eventOf c.transmission] := by
    rw [kept, writerReset_payload]
    exact ⟨rfl, by simp [receive]⟩
  obtain ⟨transmission, t, result⟩ := c
  cases transmission with
  | msg bytes =>
    by_cases flag : (writerReset s.txWriter).inSysexMsg = true
    · have inside := writerAddMsg_inside flag bytes t
      by_cases rt : isRealtimeMessage bytes.byte0 = true
      · have room : HasRoom (writerReset s.txWriter) [timestampByte t, bytes.byte0] :=
          hasRoom_reset ((by decide : 2 ≤ 5).trans hsized.five_le)
        have written : s.packed ⟨.msg bytes, t, result⟩ =
            (writerReset s.txWriter).putAll [timestampByte t, bytes.byte0] :=
          congrArg Prod.snd (inside.trans ((if_pos rt).trans (if_pos room)))
        have headless := receive_headless (isStatusByte_timestampByte t) rt
        rw [written, room.payload hsized.le_max, writerReset_payload,
          show s.txWriter.inSysexMsg = true from flag, List.nil_append, headless]
        exact ⟨(putAll_inSysexMsg _ _).trans flag, by simp⟩
      · exact empty (congrArg Prod.snd (inside.trans (if_neg rt)))
    · have closed : (writerReset s.txWriter).inSysexMsg = false := (Bool.not_eq_true _).mp flag
      obtain ⟨code, -, -, refused⟩ :=
        writerAddMsg_invalid closed (fun valid => h ⟨closed, valid⟩) t
      exact empty (congrArg Prod.snd refused)
  | sysexStart =>
    have opened : s.txWriter.inSysexMsg = true := (Bool.not_eq_false _).mp h
    exact empty (congrArg Prod.snd
      ((writerStartSysexMsg_eq (writerReset s.txWriter) t).trans (if_pos opened)))
  | sysexEnd =>
    exact empty (congrArg Prod.snd
      ((writerEndSysexMsg_eq (writerReset s.txWriter) t).trans (if_neg h)))

private theorem added_txBufMaxSize {w : Writer maxSize} {bytes : List UInt8}
    {f : Writer maxSize → Writer maxSize} (hf : ∀ w', (f w').txBufMaxSize = w'.txBufMaxSize) :
    (added w bytes f).2.txBufMaxSize = w.txBufMaxSize := by
  unfold added
  split
  · exact (hf _).trans (putAll_txBufMaxSize _ _)
  · rfl

private theorem packed_txBufMaxSize (s : SingleMessage maxSize) (c : TxCall) :
    (s.packed c).txBufMaxSize = s.txWriter.txBufMaxSize := by
  obtain ⟨transmission, t, result⟩ := c
  cases transmission with
  | msg bytes =>
    change (writerAddMsg (writerReset s.txWriter) bytes t).2.txBufMaxSize = _
    by_cases flag : (writerReset s.txWriter).inSysexMsg = true
    · rw [writerAddMsg_inside flag]
      split
      · exact added_txBufMaxSize fun _ => rfl
      · rfl
    · have closed := (Bool.not_eq_true _).mp flag
      by_cases valid : ValidMessage bytes
      · rw [writerAddMsg_outside closed valid]
        exact added_txBufMaxSize fun _ => rfl
      · obtain ⟨code, -, -, refused⟩ := writerAddMsg_invalid closed valid t
        rw [refused]
        rfl
  | sysexStart =>
    change (writerStartSysexMsg (writerReset s.txWriter) t).2.txBufMaxSize = _
    rw [writerStartSysexMsg_eq]
    split
    · rfl
    · exact added_txBufMaxSize fun _ => rfl
  | sysexEnd =>
    change (writerEndSysexMsg (writerReset s.txWriter) t).2.txBufMaxSize = _
    rw [writerEndSysexMsg_eq]
    split
    · exact added_txBufMaxSize fun _ => rfl
    · rfl

theorem exec_txBufMaxSize (s : SingleMessage maxSize) (c : TxCall) :
    (s.exec c).2.txWriter.txBufMaxSize = s.txWriter.txBufMaxSize := by
  rw [exec_eq]
  exact packed_txBufMaxSize s c

theorem Sized.exec (h : s.Sized) (c : TxCall) : (s.exec c).2.Sized := by
  have size := exec_txBufMaxSize s c
  refine ⟨?_, ?_⟩
  · rw [size]
    exact h.five_le
  · rw [size]
    exact h.le_max

theorem accepted_exec (s : SingleMessage maxSize) (c : TxCall) :
    (s.exec c).2.accepted =
      s.accepted ++ if c.result = 0 then [(s.packed c).payload] else [] := by
  rw [exec_eq]
  unfold accepted
  rw [List.filter_append, List.map_append]
  by_cases success : c.result = 0 <;> simp [success]

/-- A call is honest exactly when the answer of the transport suits it. -/
theorem honest_iff (hsized : s.Sized) (c : TxCall) : s.Honest c ↔ s.Suits c := by
  have returns : (s.exec c).1 = c.result := by rw [exec_eq]
  have flag : (s.exec c).2.txWriter = s.packed c := rfl
  have handed : (s.exec c).2.handed = s.handed ++ [((s.packed c).payload, c.result)] := by
    rw [exec_eq]
  constructor
  · rintro ⟨success, failure⟩
    rw [returns] at success failure
    constructor
    · intro zero
      by_contra refused
      obtain ⟨packet, sent, -, received⟩ := success zero
      rw [handed, List.append_cancel_left_eq] at sent
      obtain rfl : (s.packed c).payload = packet :=
        congrArg Prod.fst (List.singleton_injective sent)
      exact (packed_refused hsized c refused).2 received
    · intro nonzero encodes
      have kept : (s.packed c).inSysexMsg = s.txWriter.inSysexMsg := (failure nonzero).2
      exact (keeps_iff encodes).mp ((packed_encodes hsized c encodes).2.symm.trans kept)
  · rintro ⟨accepts, refuses⟩
    constructor
    · intro zero
      rw [returns] at zero
      have received := (packed_encodes hsized c (accepts zero)).1
      refine ⟨(s.packed c).payload, by rw [handed, zero], ?_, received⟩
      intro empty
      rw [empty] at received
      simp [receive] at received
    · intro nonzero
      rw [returns] at nonzero
      constructor
      · rw [accepted_exec, if_neg nonzero, List.append_nil]
      · rw [flag]
        by_cases encodes : s.Encodes c.transmission
        · have kept := (keeps_iff encodes).mpr (refuses nonzero encodes)
          exact (packed_encodes hsized c encodes).2.trans kept
        · exact (packed_refused hsized c encodes).1

/-- A call that failed honestly can be repeated, and it succeeds once the transport accepts. -/
theorem Honest.retry (h : s.Honest c) (hsized : s.Sized) (hfailed : (s.exec c).1 ≠ 0)
    (hencodes : s.Encodes c.transmission) (timestamp : UInt16) :
    let again : TxCall := ⟨c.transmission, timestamp, 0⟩
    ((s.exec c).2.exec again).1 = 0 ∧ (s.exec c).2.Honest again := by
  intro again
  have encodes : (s.exec c).2.Encodes c.transmission := by
    have kept := (h.failure hfailed).2
    cases transmission : c.transmission with
    | msg bytes =>
      rw [transmission] at hencodes
      exact ⟨kept.trans hencodes.1, hencodes.2⟩
    | sysexStart =>
      rw [transmission] at hencodes
      exact kept.trans hencodes
    | sysexEnd =>
      rw [transmission] at hencodes
      exact kept.trans hencodes
  refine ⟨by rw [exec_eq], (honest_iff (hsized.exec c) again).mpr ⟨fun _ => encodes, ?_⟩⟩
  exact fun nonzero => absurd rfl nonzero

/-- The return values of a run say what happened exactly when each answer of the transport
suits. -/
theorem throughout_honest_iff (hsized : s.Sized) (calls : List TxCall) :
    EachStep step Honest s calls ↔ EachStep step Suits s calls :=
  eachStep_congr calls (fun _ sized _ => sized.exec _) (fun _ sized => honest_iff sized _) hsized

/-- A device without running status, with packets of 20 bytes. -/
private def freshSingle : SingleMessage 64 := ⟨freshWriter blankWriter false false 20, []⟩

/-- A sysex message with a clock inside that the transport refuses, and a note that is repeated. -/
theorem throughout_honest_mixed : EachStep step Honest freshSingle
    [⟨.sysexStart, 10, 0⟩, ⟨.msg ⟨0xf8, 0, 0⟩, 11, -12⟩, ⟨.sysexEnd, 12, 0⟩,
      ⟨.msg ⟨0x90, 60, 127⟩, 13, -12⟩, ⟨.msg ⟨0x90, 60, 127⟩, 14, 0⟩] :=
  (throughout_honest_iff ⟨by decide, by decide⟩ _).mpr (by decide +kernel)

/-- A sysex end without a start, a sysex start that is repeated after a failure, and a clock inside
a sysex message: they return 0, and the transport has got an empty packet or one without a
header. -/
theorem throughout_honest_fails :
    let lone := [⟨.sysexEnd, 10, 0⟩]
    let repeated := [⟨.sysexStart, 10, -12⟩, ⟨.sysexStart, 11, 0⟩]
    let clock := [⟨.sysexStart, 10, 0⟩, ⟨.msg ⟨0xf8, 0, 0⟩, 11, 0⟩]
    (lone.foldl step freshSingle).handed = [([], 0)] ∧
      (repeated.foldl step freshSingle).handed = [([0x80, 0x8a, 0xf0], -12), ([], 0)] ∧
      (clock.foldl step freshSingle).handed = [([0x80, 0x8a, 0xf0], 0), ([0x8b, 0xf8], 0)] ∧
      ¬ EachStep step Honest freshSingle lone ∧ ¬ EachStep step Honest freshSingle repeated ∧
      ¬ EachStep step Honest freshSingle clock := by
  have sized : freshSingle.Sized := ⟨by decide, by decide⟩
  refine ⟨by decide +kernel, by decide +kernel, by decide +kernel, ?_, ?_, ?_⟩
  · intro honest
    exact absurd ((honest_iff sized _).mp honest.1) (by decide +kernel)
  · intro honest
    exact absurd ((honest_iff sized _).mp honest.1) (by decide +kernel)
  · intro honest
    exact absurd ((honest_iff (sized.exec _) _).mp honest.2.1) (by decide +kernel)

/-- The accepted packets of such a run, for a receiver that carries an open sysex message over, are
the events of the calls that returned 0. -/
theorem accepted_run (hsized : s.Sized) {calls : List TxCall} (h : EachStep step Suits s calls) :
    ∃ packets, (calls.foldl step s).accepted = s.accepted ++ packets ∧
      receiveAll s.txWriter.inSysexMsg packets = some (s.sent calls) := by
  induction calls generalizing s with
  | nil => exact ⟨[], (List.append_nil _).symm, rfl⟩
  | cons c calls ih =>
    obtain ⟨⟨accepts, refuses⟩, later⟩ := h
    obtain ⟨packets, accepted, received⟩ := ih (hsized.exec c) later
    have returns : (s.exec c).1 = c.result := by rw [exec_eq]
    by_cases zero : c.result = 0
    · obtain ⟨packet, flag⟩ := packed_encodes hsized c (accepts zero)
      refine ⟨(s.packed c).payload :: packets, ?_, ?_⟩
      · rw [List.foldl_cons, step, accepted, accepted_exec, if_pos zero, List.append_assoc]
        rfl
      · rw [receiveAll, packet, Option.bind_some, sent, if_pos (returns.trans zero)]
        have rest :
            receiveAll (streamOpen s.txWriter.inSysexMsg [s.eventOf c.transmission]) packets =
              some ((s.exec c).2.sent calls) := by
          rw [← received]
          exact congrArg (receiveAll · packets) flag.symm
        rw [rest]
        rfl
    · refine ⟨packets, ?_, ?_⟩
      · rw [List.foldl_cons, step, accepted, accepted_exec, if_neg zero, List.append_nil]
      · rw [sent, if_neg (returns.trans_ne zero), List.nil_append, ← received]
        have kept := ((honest_iff hsized c).mpr ⟨accepts, refuses⟩).failure (returns.trans_ne zero)
        rw [kept.2]

end SingleMessage

end BleMidi.Service
