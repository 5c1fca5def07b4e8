/- Module: BleMidi/Service/SampleTransfer
   source: src/main.c (tx_done_cb, main), with CONFIG_BLE_MIDI_TX_MODE_SINGLE_MSG as in prj.conf
   digest: What the sample application sends: chords, short sysex messages, and a long one in
     chunks. -/

import BleMidi.Service.SingleStream

set_option autoImplicit false
set_option relaxedAutoImplicit false

namespace BleMidi.Service

open BleMidi.Core.Runs
open BleMidi.Packet.Bytes
open BleMidi.Packet.Grammar
open BleMidi.Packet.PacketStream
open BleMidi.Packet.PacketWriter
open BleMidi.Packet.WriterSpec
open BleMidi.Packet.WriterPieces
open BleMidi.Packet.CallOrder
open BleMidi.Packet.RoundTrip
open BleMidi.Packet.Truncation (deliveries)

variable {maxSize : Nat}

/-- `SYSEX_TX_MESSAGE_SIZE` -/
def sysexTxMessageSize : Int := 20000

/-- `SYSEX_TX_MAX_CHUNK_SIZE` -/
def sysexTxMaxChunkSize : Int := 130

/-- The fields of `struct sample_app_state_t` that decide what is sent, and the device. -/
structure SampleApp (maxSize : Nat) where
  device : SingleDevice maxSize
  sysexTxDataByteCount : Int
  sysexTxInProgress : Bool

/-- What the application is called with. The calls that it makes happen at the given times and get
the given answers of the transport. -/
inductive SampleEvent
  | txDone (timestamp : UInt16) (result : Int)
  | button (buttonEventCode : UInt8) (answers : Fin 3 → UInt16 × Int)
  | onMtuChanged (mtuSize : UInt16)

namespace SampleApp

/-- `sysex_tx_chunk`, as `tx_done_cb` fills it. -/
def sysexTxChunk (s : SampleApp maxSize) : List UInt8 :=
  (List.range sysexTxMaxChunkSize.toNat).map fun i : Nat =>
    UInt8.ofInt ((s.sysexTxDataByteCount + (i : Int)).tmod 128)

/-- `num_bytes_to_send` -/
def numBytesToSend (s : SampleApp maxSize) : Int :=
  let numBytesLeft := sysexTxMessageSize - s.sysexTxDataByteCount
  if numBytesLeft < sysexTxMaxChunkSize then numBytesLeft else sysexTxMaxChunkSize

def txDoneCb (s : SampleApp maxSize) (timestamp : UInt16) (result : Int) : SampleApp maxSize :=
  if s.sysexTxInProgress then
    if s.sysexTxDataByteCount = sysexTxMessageSize then
      { s with
        device := s.device.step (.transmit ⟨.sysexEnd, timestamp, result⟩)
        sysexTxInProgress := false }
    else
      let bytes := s.sysexTxChunk.take s.numBytesToSend.toNat
      { s with
        device := s.device.step (.transmitData bytes timestamp result)
        sysexTxDataByteCount :=
          s.sysexTxDataByteCount + (s.device.single.txSysexData bytes timestamp result).1 }
  else s

/-- `data_bytes` -/
def dataBytes : List UInt8 := [0x10, 0x11, 0x12, 0x13, 0x14, 0x15, 0x16, 0x17, 0x18, 0x19]

/-- The call for the `i`-th answer. -/
def answered (answers : Fin 3 → UInt16 × Int) (i : Fin 3) (transmission : Transmission) :
    SingleAction :=
  .transmit ⟨transmission, (answers i).1, (answers i).2⟩

/-- The calls that a button makes while no long sysex message is in progress. -/
def buttonCalls (buttonIdx buttonDown : UInt8) (answers : Fin 3 → UInt16 × Int) :
    List SingleAction :=
  if buttonIdx = 0 then
    let statusByte : UInt8 := if buttonDown ≠ 0 then 0x90 else 0x80
    [answered answers 0 (.msg ⟨statusByte, 0x48, 0x7f⟩),
      answered answers 1 (.msg ⟨statusByte, 0x4c, 0x7f⟩),
      answered answers 2 (.msg ⟨statusByte, 0x4f, 0x7f⟩)]
  else if buttonIdx = 1 ∧ buttonDown ≠ 0 then
    [answered answers 0 .sysexStart, .transmitData dataBytes (answers 1).1 (answers 1).2,
      answered answers 2 .sysexEnd]
  else if buttonIdx = 2 ∧ buttonDown ≠ 0 then [answered answers 0 .sysexStart]
  else []

/-- An event of `button_event_q` in the loop of `main`. -/
def button (s : SampleApp maxSize) (buttonEventCode : UInt8) (answers : Fin 3 → UInt16 × Int) :
    SampleApp maxSize :=
  let buttonIdx := buttonEventCode &&& 0x3
  let buttonDown := buttonEventCode >>> 2
  if s.sysexTxInProgress then s
  else
    let device := (buttonCalls buttonIdx buttonDown answers).foldl SingleDevice.step s.device
    if buttonIdx = 2 ∧ buttonDown ≠ 0 then ⟨device, 0, true⟩ else { s with device := device }

def act (s : SampleApp maxSize) : SampleEvent → SampleApp maxSize
  | .txDone timestamp result => s.txDoneCb timestamp result
  | .button buttonEventCode answers => s.button buttonEventCode answers
  | .onMtuChanged mtuSize => { s with device := s.device.step (.onMtuChanged mtuSize) }

/-- The transport takes the starts and ends of sysex messages, and the MTU leaves room for a
message. -/
def Accepts (s : SampleApp maxSize) : SampleEvent → Prop
  | .txDone _ result =>
      s.sysexTxInProgress = true → s.sysexTxDataByteCount = sysexTxMessageSize → result = 0
  | .button buttonEventCode answers =>
      let buttonIdx := buttonEventCode &&& 0x3
      s.sysexTxInProgress = false → buttonEventCode >>> 2 ≠ 0 →
        (buttonIdx = 1 → (answers 0).2 = 0 ∧ (answers 2).2 = 0) ∧
          (buttonIdx = 2 → (answers 0).2 = 0)
  | .onMtuChanged mtuSize => 8 ≤ mtuSize.toNat

instance (s : SampleApp maxSize) : DecidablePred s.Accepts
  | .txDone _ _ => inferInstanceAs (Decidable (_ = true → _ = _ → _ = (0 : Int)))
  | .button buttonEventCode answers => inferInstanceAs (Decidable
      (s.sysexTxInProgress = false → buttonEventCode >>> 2 ≠ 0 →
        (buttonEventCode &&& 0x3 = 1 → (answers 0).2 = 0 ∧ (answers 2).2 = 0) ∧
          (buttonEventCode &&& 0x3 = 2 → (answers 0).2 = 0)))
  | .onMtuChanged mtuSize => inferInstanceAs (Decidable (8 ≤ mtuSize.toNat))

end SampleApp

/-- `count` bytes of the long sysex message, from the one with the index `first` on. -/
def sysexBytes (first count : Nat) : List UInt8 :=
  (List.range count).map fun i => UInt8.ofNat ((first + i) % 128)

/-- The bytes of chunks in a row, each without its last byte. -/
def cutData (first : Nat) : List Nat → List UInt8
  | [] => []
  | n :: chunks => sysexBytes first (n - 1) ++ cutData (first + n) chunks

theorem cutData_append (first : Nat) (chunks : List Nat) (n : Nat) :
    cutData first (chunks ++ [n]) =
      cutData first chunks ++ sysexBytes (first + chunks.sum) (n - 1) := by
  induction chunks generalizing first with
  | nil => simp [cutData]
  | cons m chunks ih =>
    rw [List.cons_append, cutData, ih, cutData, List.append_assoc, List.sum_cons, Nat.add_assoc]

/-- One byte of each chunk is missing. -/
theorem cutData_length (first : Nat) {chunks : List Nat} (h : ∀ n ∈ chunks, 1 ≤ n) :
    (cutData first chunks).length + chunks.length = chunks.sum := by
  induction chunks generalizing first with
  | nil => rfl
  | cons n chunks ih =>
    obtain ⟨some, rest⟩ := List.forall_mem_cons.mp h
    have behind := ih (first + n) rest
    rw [cutData, List.length_append, List.length_cons, List.sum_cons, sysexBytes, List.length_map,
      List.length_range]
    omega

/-- Chunks of the long sysex message. -/
structure Chunks (chunks : List Nat) : Prop where
  sizes : ∀ n ∈ chunks, 1 ≤ n ∧ n ≤ sysexTxMaxChunkSize.toNat
  total : chunks.sum ≤ sysexTxMessageSize.toNat

/-- A note of the chord, on or off. -/
structure IsNote (m : MessageBytes) : Prop where
  status : m.byte0 = 0x90 ∨ m.byte0 = 0x80
  key : m.byte1 = 0x48 ∨ m.byte1 = 0x4c ∨ m.byte1 = 0x4f
  velocity : m.byte2 = 0x7f

/-- What a receiver hears of the application between long sysex messages. -/
inductive SampleStream (runningStatusEnabled noteOffAsNoteOn : Bool) : List MidiEvent → Prop
  | nil : SampleStream runningStatusEnabled noteOffAsNoteOn []
  | note {es : List MidiEvent} {m : MessageBytes} :
      SampleStream runningStatusEnabled noteOffAsNoteOn es → IsNote m →
      SampleStream runningStatusEnabled noteOffAsNoteOn
        (es ++ [.message (delivered runningStatusEnabled noteOffAsNoteOn m)])
  | shortSysex {es : List MidiEvent} {count : Nat} :
      SampleStream runningStatusEnabled noteOffAsNoteOn es → count < SampleApp.dataBytes.length →
      SampleStream runningStatusEnabled noteOffAsNoteOn (es ++
        .sysexStart :: ((SampleApp.dataBytes.take count).map .sysexData ++ [.sysexEnd]))
  | longSysex {es : List MidiEvent} {chunks : List Nat} :
      SampleStream runningStatusEnabled noteOffAsNoteOn es → Chunks chunks →
      (chunks.sum : Int) = sysexTxMessageSize →
      SampleStream runningStatusEnabled noteOffAsNoteOn (es ++
        .sysexStart :: ((cutData 0 chunks).map .sysexData ++ [.sysexEnd]))

/-- What a receiver has heard, when a long sysex message is in progress or not, with its byte
count. -/
inductive SampleState (runningStatusEnabled noteOffAsNoteOn : Bool) :
    Bool → Int → List MidiEvent → Prop
  | idle {count : Int} {es : List MidiEvent} :
      SampleStream runningStatusEnabled noteOffAsNoteOn es →
      SampleState runningStatusEnabled noteOffAsNoteOn false count es
  | transfer {es : List MidiEvent} {chunks : List Nat} :
      SampleStream runningStatusEnabled noteOffAsNoteOn es → Chunks chunks →
      SampleState runningStatusEnabled noteOffAsNoteOn true (chunks.sum : Nat)
        (es ++ .sysexStart :: (cutData 0 chunks).map .sysexData)

section Settings

variable {w w' : Writer maxSize}

/-- The flags that `ble_midi_writer_init` has set. -/
structure SameSettings (w w' : Writer maxSize) : Prop where
  runningStatusEnabled : w'.runningStatusEnabled = w.runningStatusEnabled
  noteOffAsNoteOn : w'.noteOffAsNoteOn = w.noteOffAsNoteOn

private theorem sameSettings_of_effect {c : Call} (h : Effect w c w') : SameSettings w w' := by
  cases h with
  | refused => exact ⟨rfl, rfl⟩
  | realtime => exact ⟨putAll_runningStatusEnabled _ _, putAll_noteOffAsNoteOn _ _⟩
  | message => exact ⟨putAll_runningStatusEnabled _ _, putAll_noteOffAsNoteOn _ _⟩
  | sysexStart => exact ⟨putAll_runningStatusEnabled _ _, putAll_noteOffAsNoteOn _ _⟩
  | sysexEnd => exact ⟨putAll_runningStatusEnabled _ _, putAll_noteOffAsNoteOn _ _⟩
  | sysexData => exact ⟨putAll_runningStatusEnabled _ _, putAll_noteOffAsNoteOn _ _⟩
  | sysexMsg => exact ⟨putAll_runningStatusEnabled _ _, putAll_noteOffAsNoteOn _ _⟩

private theorem sameSettings_call {c : Call} (hshort : Short c)
    (hmax : w.txBufMaxSize.toNat ≤ maxSize) : SameSettings w (c.exec (writerReset w)).2 := by
  rcases exec_outcome (writerReset_fits hmax) hshort with ⟨code, refused⟩ | ⟨-, effect⟩
  · rw [refused]
    exact ⟨rfl, rfl⟩
  · obtain ⟨enabled, asNoteOn⟩ := sameSettings_of_effect effect
    exact ⟨enabled, asNoteOn⟩

private theorem sameSettings_exec {s : SingleMessage maxSize} (hsized : s.Sized) (c : TxCall) :
    SameSettings s.txWriter (s.exec c).2.txWriter := by
  obtain ⟨transmission, timestamp, result⟩ := c
  cases transmission with
  | msg bytes =>
    have same := sameSettings_call (c := .addMsg bytes timestamp) trivial hsized.le_max
    rw [Call.exec, returned_snd] at same
    exact same
  | sysexStart =>
    have same := sameSettings_call (c := .startSysexMsg timestamp) trivial hsized.le_max
    rw [Call.exec, returned_snd] at same
    exact same
  | sysexEnd =>
    have same := sameSettings_call (c := .endSysexMsg timestamp) trivial hsized.le_max
    rw [Call.exec, returned_snd] at same
    exact same

private theorem sameSettings_data {s : SingleMessage maxSize} (hsized : s.Sized)
    (bytes : List UInt8) (timestamp : UInt16) (result : Int) :
    SameSettings s.txWriter (s.txSysexData bytes timestamp result).2.txWriter := by
  by_cases some : bytes = []
  · rw [some, SingleDevice.txSysexData_nil]
    exact ⟨rfl, rfl⟩
  · rw [SingleDevice.txSysexData_txWriter s some]
    exact sameSettings_call (c := .addSysexData bytes timestamp) trivial hsized.le_max

end Settings

theorem IsNote.valid {m : MessageBytes} (h : IsNote m) : ValidMessage m := by
  obtain ⟨byte0, byte1, byte2⟩ := m
  obtain ⟨status, key, rfl⟩ := h
  rcases status with rfl | rfl <;> rcases key with rfl | rfl | rfl <;> decide

/-- What is sent from one state of the device to another. -/
structure Transmits (s s' : SingleDevice maxSize) (es : List MidiEvent) : Prop where
  sized : s'.single.Sized
  settings : SameSettings s.single.txWriter s'.single.txWriter
  speaks : ∃ packets, s'.single.accepted = s.single.accepted ++ packets ∧
    Speaks packets s.single.txWriter.inSysexMsg es s'.single.txWriter.inSysexMsg

namespace Transmits

variable {s s' s'' : SingleDevice maxSize} {es es' : List MidiEvent}

theorem refl (hsized : s.single.Sized) : Transmits s s [] :=
  ⟨hsized, ⟨rfl, rfl⟩, [], (List.append_nil _).symm, Speaks.nil _⟩

theorem trans (h : Transmits s s' es) (h' : Transmits s' s'' es') :
    Transmits s s'' (es ++ es') := by
  obtain ⟨packets, accepted, speaks⟩ := h.speaks
  obtain ⟨packets', accepted', speaks'⟩ := h'.speaks
  refine ⟨h'.sized, ⟨?_, ?_⟩, packets ++ packets', ?_, speaks.append speaks'⟩
  · exact h'.settings.runningStatusEnabled.trans h.settings.runningStatusEnabled
  · exact h'.settings.noteOffAsNoteOn.trans h.settings.noteOffAsNoteOn
  · rw [accepted', accepted, List.append_assoc]

theorem step (hmax : 5 ≤ maxSize) (hsized : s.single.Sized) {a : SingleAction}
    (h : s.Orderly a) : Transmits s (s.step a) (s.reports a) := by
  obtain ⟨sized, speaks⟩ := SingleDevice.step_speaks hmax hsized h
  refine ⟨sized, ?_, speaks⟩
  cases a with
  | onMtuChanged mtuSize => exact ⟨rfl, rfl⟩
  | onConnected txRunningStatus txNoteOffAsNoteOn mtuSize => exact h.elim
  | transmit c => exact sameSettings_exec hsized c
  | transmitData bytes timestamp result => exact sameSettings_data hsized bytes timestamp result

theorem opened (h : Transmits s s' es) :
    s'.single.txWriter.inSysexMsg = streamOpen s.single.txWriter.inSysexMsg es := by
  obtain ⟨packets, -, speaks⟩ := h.speaks
  exact speaks.opened

theorem closed (h : Transmits s s' es) (hclosed : s.single.txWriter.inSysexMsg = false)
    (hes : streamOpen false es = false) : s'.single.txWriter.inSysexMsg = false := by
  rw [h.opened, hclosed]
  exact hes

private theorem reports_transmit (s : SingleDevice maxSize) (c : TxCall) :
    s.reports (.transmit c) =
      if c.result = 0 then [s.single.eventOf c.transmission] else [] := by
  rw [SingleDevice.reports, SingleMessage.exec_eq]

theorem note (hmax : 5 ≤ maxSize) (hsized : s.single.Sized)
    (hclosed : s.single.txWriter.inSysexMsg = false) {m : MessageBytes} (hm : ValidMessage m)
    (timestamp : UInt16) (result : Int) :
    Transmits s (s.step (.transmit ⟨.msg m, timestamp, result⟩))
      (if result = 0 then [.message (delivered s.single.txWriter.runningStatusEnabled
        s.single.txWriter.noteOffAsNoteOn m)] else []) := by
  have orderly : s.Orderly (.transmit ⟨.msg m, timestamp, result⟩) :=
    ⟨fun _ => ⟨hclosed, hm⟩, fun _ _ => trivial⟩
  have transmits := Transmits.step hmax hsized orderly
  rw [reports_transmit] at transmits
  exact transmits

theorem sysexStart (hmax : 5 ≤ maxSize) (hsized : s.single.Sized)
    (hclosed : s.single.txWriter.inSysexMsg = false) (timestamp : UInt16) {result : Int}
    (hresult : result = 0) :
    Transmits s (s.step (.transmit ⟨.sysexStart, timestamp, result⟩)) [.sysexStart] := by
  have orderly : s.Orderly (.transmit ⟨.sysexStart, timestamp, result⟩) :=
    ⟨fun _ => hclosed, fun nonzero => absurd hresult nonzero⟩
  have transmits := Transmits.step hmax hsized orderly
  rw [reports_transmit, if_pos hresult] at transmits
  exact transmits

theorem sysexEnd (hmax : 5 ≤ maxSize) (hsized : s.single.Sized)
    (hopen : s.single.txWriter.inSysexMsg = true) (timestamp : UInt16) {result : Int}
    (hresult : result = 0) :
    Transmits s (s.step (.transmit ⟨.sysexEnd, timestamp, result⟩)) [.sysexEnd] := by
  have orderly : s.Orderly (.transmit ⟨.sysexEnd, timestamp, result⟩) :=
    ⟨fun _ => hopen, fun nonzero => absurd hresult nonzero⟩
  have transmits := Transmits.step hmax hsized orderly
  rw [reports_transmit, if_pos hresult] at transmits
  exact transmits

/-- A data call returns 0 or the number of bytes that it sends and one more. -/
theorem sysexData (hmax : 5 ≤ maxSize) (hsized : s.single.Sized)
    (hopen : s.single.txWriter.inSysexMsg = true) {bytes : List UInt8} (hbytes : bytes ≠ [])
    (hdata : ∀ b ∈ bytes, isDataByte b = true) (timestamp : UInt16) (result : Int) :
    ∃ n : Nat, n ≤ bytes.length ∧ (s.single.txSysexData bytes timestamp result).1 = n ∧
      Transmits s (s.step (.transmitData bytes timestamp result))
        ((bytes.take (n - 1)).map .sysexData) := by
  have orderly : s.Orderly (.transmitData bytes timestamp result) := fun _ => hopen
  have transmits := Transmits.step hmax hsized orderly
  have five := hsized.five_le
  obtain ⟨returned, -⟩ :=
    SingleMessage.txSysexData_eq (by omega) hsized.le_max hbytes hdata timestamp result
  have counted : ∃ n : Nat, n ≤ bytes.length ∧
      (s.single.txSysexData bytes timestamp result).1 = n := by
    by_cases success : result = 0
    · rw [if_pos success] at returned
      exact ⟨_, Nat.min_le_left _ _, returned⟩
    · rw [if_neg success] at returned
      exact ⟨0, Nat.zero_le _, returned⟩
  obtain ⟨n, le, count⟩ := counted
  refine ⟨n, le, count, ?_⟩
  have taken : (((n : Int) - 1).toNat) = n - 1 := by omega
  rw [SingleDevice.reports, count, taken] at transmits
  exact transmits

end Transmits

private theorem chunk_take {s : SampleApp maxSize} {first : Nat}
    (hcount : s.sysexTxDataByteCount = first) {n : Nat} (hn : n ≤ sysexTxMaxChunkSize.toNat) :
    s.sysexTxChunk.take n = sysexBytes first n := by
  have same (i : Nat) :
      UInt8.ofInt (((first : Int) + i).tmod 128) = UInt8.ofNat ((first + i) % 128) := by
    have whole : ((first : Int) + i).tmod 128 = ((first + i) % 128 : Nat) :=
      (Int.ofNat_tmod (first + i) 128).symm
    rw [whole]
    apply UInt8.toNat_inj.mp
    rw [UInt8.ofInt, UInt8.toNat_ofNat', UInt8.toNat_ofNat']
    omega
  unfold SampleApp.sysexTxChunk sysexBytes
  rw [hcount, ← List.map_take, List.take_range, Nat.min_eq_left hn]
  exact List.map_congr_left fun i _ => same i

private theorem sysexBytes_data (first count : Nat) :
    ∀ b ∈ sysexBytes first count, isDataByte b = true := by
  intro b hb
  obtain ⟨i, -, rfl⟩ := List.mem_map.mp hb
  have small : (first + i) % 128 < 128 := Nat.mod_lt _ (by decide)
  rw [isDataByte, decide_eq_true_eq, UInt8.lt_iff_toNat_lt, UInt8.toNat_ofNat']
  change (first + i) % 128 % 256 < 128
  omega

theorem sysexBytes_length (first count : Nat) : (sysexBytes first count).length = count := by
  rw [sysexBytes, List.length_map, List.length_range]

private theorem sysexBytes_take {first count n : Nat} (h : n ≤ count) :
    (sysexBytes first count).take n = sysexBytes first n := by
  unfold sysexBytes
  rw [← List.map_take, List.take_range, Nat.min_eq_left h]

private theorem numBytesToSend_eq {s : SampleApp maxSize} {total : Nat}
    (htotal : s.sysexTxDataByteCount = total) (hle : total ≤ sysexTxMessageSize.toNat)
    (hcount : s.sysexTxDataByteCount ≠ sysexTxMessageSize) :
    ∃ n : Nat, s.numBytesToSend = n ∧ 0 < n ∧ n ≤ sysexTxMaxChunkSize.toNat ∧
      total + n ≤ sysexTxMessageSize.toNat := by
  rw [htotal] at hcount
  simp only [SampleApp.numBytesToSend, htotal, sysexTxMessageSize, sysexTxMaxChunkSize] at *
  by_cases last : (20000 : Int) - total < 130
  · rw [if_pos last]
    exact ⟨20000 - total, by omega, by omega, by omega, by omega⟩
  · rw [if_neg last]
    exact ⟨130, rfl, by omega, by omega, by omega⟩

/-- The application and what it has sent: a sysex message is open exactly while the long one is in
progress. -/
structure Sends (runningStatusEnabled noteOffAsNoteOn : Bool) (s : SampleApp maxSize)
    (es : List MidiEvent) : Prop where
  sized : s.device.single.Sized
  enabled : s.device.single.txWriter.runningStatusEnabled = runningStatusEnabled
  asNoteOn : s.device.single.txWriter.noteOffAsNoteOn = noteOffAsNoteOn
  flag : s.device.single.txWriter.inSysexMsg = s.sysexTxInProgress
  state : SampleState runningStatusEnabled noteOffAsNoteOn s.sysexTxInProgress
    s.sysexTxDataByteCount es

namespace Sends

variable {runningStatusEnabled noteOffAsNoteOn : Bool} {s : SampleApp maxSize}
  {es new : List MidiEvent} {device : SingleDevice maxSize} {inProgress : Bool} {count : Int}

theorem next (h : Sends runningStatusEnabled noteOffAsNoteOn s es)
    (htransmits : Transmits s.device device new)
    (hflag : device.single.txWriter.inSysexMsg = inProgress)
    (hstate : SampleState runningStatusEnabled noteOffAsNoteOn inProgress count (es ++ new)) :
    Sends runningStatusEnabled noteOffAsNoteOn ⟨device, count, inProgress⟩ (es ++ new) :=
  ⟨htransmits.sized, htransmits.settings.runningStatusEnabled.trans h.enabled,
    htransmits.settings.noteOffAsNoteOn.trans h.asNoteOn, hflag, hstate⟩

theorem idle (h : Sends runningStatusEnabled noteOffAsNoteOn s es)
    (hidle : s.sysexTxInProgress = false) :
    SampleStream runningStatusEnabled noteOffAsNoteOn es ∧
      s.device.single.txWriter.inSysexMsg = false := by
  have state := h.state
  rw [hidle] at state
  cases state with
  | idle stream => exact ⟨stream, h.flag.trans hidle⟩

theorem transfer (h : Sends runningStatusEnabled noteOffAsNoteOn s es)
    (hprogress : s.sysexTxInProgress = true) :
    s.device.single.txWriter.inSysexMsg = true ∧ ∃ before chunks,
      SampleStream runningStatusEnabled noteOffAsNoteOn before ∧ Chunks chunks ∧
      s.sysexTxDataByteCount = (chunks.sum : Nat) ∧
      es = before ++ .sysexStart :: (cutData 0 chunks).map .sysexData := by
  refine ⟨h.flag.trans hprogress, ?_⟩
  have state := h.state
  rw [hprogress] at state
  generalize s.sysexTxDataByteCount = count at state ⊢
  cases state with
  | transfer stream sizes => exact ⟨_, _, stream, sizes, rfl, rfl⟩

private theorem txDone_end (hmax : 5 ≤ maxSize)
    (h : Sends runningStatusEnabled noteOffAsNoteOn s es) (hprogress : s.sysexTxInProgress = true)
    (hcount : s.sysexTxDataByteCount = sysexTxMessageSize) (timestamp : UInt16) :
    ∃ new, Transmits s.device (s.txDoneCb timestamp 0).device new ∧
      Sends runningStatusEnabled noteOffAsNoteOn (s.txDoneCb timestamp 0) (es ++ new) := by
  obtain ⟨opened, before, chunks, stream, sizes, total, rfl⟩ := h.transfer hprogress
  have transmits := Transmits.sysexEnd hmax h.sized opened timestamp (Eq.refl (0 : Int))
  rw [SampleApp.txDoneCb, if_pos hprogress, if_pos hcount]
  refine ⟨_, transmits, h.next transmits (transmits.opened.trans rfl) ?_⟩
  have long := SampleStream.longSysex stream sizes (total.symm.trans hcount)
  rw [List.append_assoc]
  exact .idle long

private theorem txDone_chunk (hmax : 5 ≤ maxSize)
    (h : Sends runningStatusEnabled noteOffAsNoteOn s es) (hprogress : s.sysexTxInProgress = true)
    (hcount : s.sysexTxDataByteCount ≠ sysexTxMessageSize) (timestamp : UInt16) (result : Int) :
    ∃ new, Transmits s.device (s.txDoneCb timestamp result).device new ∧
      Sends runningStatusEnabled noteOffAsNoteOn (s.txDoneCb timestamp result) (es ++ new) := by
  obtain ⟨opened, before, chunks, stream, sizes, total, rfl⟩ := h.transfer hprogress
  obtain ⟨n, numBytes, some, most, fits⟩ := numBytesToSend_eq total sizes.total hcount
  have handed : s.sysexTxChunk.take s.numBytesToSend.toNat = sysexBytes chunks.sum n := by
    rw [numBytes, Int.toNat_natCast]
    exact chunk_take total most
  have nonempty : sysexBytes chunks.sum n ≠ [] := by
    apply List.ne_nil_of_length_pos
    rw [sysexBytes_length]
    exact some
  obtain ⟨k, le, returned, transmits⟩ := Transmits.sysexData hmax h.sized opened nonempty
    (sysexBytes_data _ _) timestamp result
  rw [sysexBytes_length] at le
  rw [sysexBytes_take (Nat.sub_le_of_le_add (Nat.le_succ_of_le le))] at transmits
  rw [SampleApp.txDoneCb, if_pos hprogress, if_neg hcount, handed]
  have still := transmits.opened.trans (by rw [opened, streamOpen_sysexData])
  refine ⟨_, transmits, h.next transmits (still.trans hprogress.symm) ?_⟩
  rw [returned, hprogress]
  cases k with
  | zero =>
    rw [total]
    simpa [sysexBytes] using SampleState.transfer stream sizes
  | succ k =>
    have grown : Chunks (chunks ++ [k + 1]) := by
      refine ⟨List.forall_mem_append.mpr ⟨sizes.sizes, ?_⟩, ?_⟩
      · exact List.forall_mem_singleton.mpr ⟨Nat.succ_le_succ (Nat.zero_le k), le.trans most⟩
      · rw [List.sum_append, List.sum_singleton]
        omega
    have state := SampleState.transfer stream grown
    rw [cutData_append, List.sum_append, List.sum_singleton, Nat.zero_add, Nat.cast_add,
      ← total] at state
    simpa using state

private theorem notes (hmax : 5 ≤ maxSize) {calls : List SingleAction}
    (hcalls : ∀ a ∈ calls, ∃ m timestamp result,
      IsNote m ∧ a = .transmit ⟨.msg m, timestamp, result⟩)
    (hsized : device.single.Sized) (hclosed : device.single.txWriter.inSysexMsg = false)
    (henabled : device.single.txWriter.runningStatusEnabled = runningStatusEnabled)
    (hasNoteOn : device.single.txWriter.noteOffAsNoteOn = noteOffAsNoteOn)
    (h : SampleStream runningStatusEnabled noteOffAsNoteOn es) :
    ∃ new, Transmits device (calls.foldl SingleDevice.step device) new ∧
      streamOpen false new = false ∧
      SampleStream runningStatusEnabled noteOffAsNoteOn (es ++ new) := by
  induction calls generalizing device es with
  | nil => exact ⟨[], .refl hsized, rfl, by rwa [List.append_nil]⟩
  | cons a calls ih =>
    obtain ⟨⟨m, timestamp, result, note, rfl⟩, later⟩ := List.forall_mem_cons.mp hcalls
    have first := Transmits.note hmax hsized hclosed note.valid timestamp result
    rw [henabled, hasNoteOn] at first
    have said : ∃ new, Transmits device
        (device.step (.transmit ⟨.msg m, timestamp, result⟩)) new ∧
        streamOpen false new = false ∧
        SampleStream runningStatusEnabled noteOffAsNoteOn (es ++ new) := by
      by_cases success : result = 0
      · rw [if_pos success] at first
        exact ⟨_, first, rfl, h.note note⟩
      · rw [if_neg success] at first
        exact ⟨_, first, rfl, by rwa [List.append_nil]⟩
    obtain ⟨new, transmits, closes, stream⟩ := said
    obtain ⟨rest, transmits', closes', stream'⟩ := ih later transmits.sized
      (transmits.closed hclosed closes)
      (transmits.settings.runningStatusEnabled.trans henabled)
      (transmits.settings.noteOffAsNoteOn.trans hasNoteOn) stream
    refine ⟨new ++ rest, transmits.trans transmits', ?_, ?_⟩
    · rw [streamOpen_append, closes, closes']
    · rwa [← List.append_assoc]

private theorem shortSysex (hmax : 5 ≤ maxSize) (hsized : device.single.Sized)
    (hclosed : device.single.txWriter.inSysexMsg = false) (answers : Fin 3 → UInt16 × Int)
    (hstart : (answers 0).2 = 0) (hend : (answers 2).2 = 0)
    (h : SampleStream runningStatusEnabled noteOffAsNoteOn es) :
    ∃ new, Transmits device
      ([SampleApp.answered answers 0 .sysexStart,
        .transmitData SampleApp.dataBytes (answers 1).1 (answers 1).2,
        SampleApp.answered answers 2 .sysexEnd].foldl SingleDevice.step device) new ∧
      streamOpen false new = false ∧
      SampleStream runningStatusEnabled noteOffAsNoteOn (es ++ new) := by
  have first := Transmits.sysexStart hmax hsized hclosed (answers 0).1 hstart
  have opened := first.opened
  rw [hclosed] at opened
  have valid : SampleApp.dataBytes.all isDataByte = true := by decide
  obtain ⟨n, le, -, second⟩ := Transmits.sysexData hmax first.sized opened
    (show SampleApp.dataBytes ≠ [] by decide) (List.all_eq_true.mp valid) (answers 1).1
    (answers 1).2
  have still := second.opened
  rw [opened, streamOpen_sysexData] at still
  have third := Transmits.sysexEnd hmax second.sized still (answers 2).1 hend
  have short : n - 1 < SampleApp.dataBytes.length := by
    change n ≤ 10 at le
    change n - 1 < 10
    omega
  refine ⟨_, (first.trans second).trans third, ?_, ?_⟩
  · rw [streamOpen_append]
    rfl
  · have stream := h.shortSysex short
    simpa using stream

private theorem longSysex (hmax : 5 ≤ maxSize)
    (h : Sends runningStatusEnabled noteOffAsNoteOn s es) (hidle : s.sysexTxInProgress = false)
    (answers : Fin 3 → UInt16 × Int) (hstart : (answers 0).2 = 0) :
    ∃ new, Transmits s.device
      ([SampleApp.answered answers 0 .sysexStart].foldl SingleDevice.step s.device) new ∧
      Sends runningStatusEnabled noteOffAsNoteOn
        ⟨[SampleApp.answered answers 0 .sysexStart].foldl SingleDevice.step s.device, 0, true⟩
        (es ++ new) := by
  obtain ⟨stream, closed⟩ := h.idle hidle
  have transmits := Transmits.sysexStart hmax h.sized closed (answers 0).1 hstart
  have none : Chunks [] := ⟨by simp, Nat.zero_le _⟩
  have state := SampleState.transfer stream none
  exact ⟨_, transmits, h.next transmits transmits.opened state⟩

private theorem chord_notes (buttonDown : UInt8) (answers : Fin 3 → UInt16 × Int) :
    ∀ a ∈ SampleApp.buttonCalls 0 buttonDown answers, ∃ m timestamp result,
      IsNote m ∧ a = .transmit ⟨.msg m, timestamp, result⟩ := by
  have note {key : UInt8} (hkey : key = 0x48 ∨ key = 0x4c ∨ key = 0x4f) (i : Fin 3) :
      ∃ m timestamp result, IsNote m ∧
        SampleApp.answered answers i
          (.msg ⟨if buttonDown ≠ 0 then 0x90 else 0x80, key, 0x7f⟩) =
            .transmit ⟨.msg m, timestamp, result⟩ := by
    refine ⟨_, _, _, ⟨?_, hkey, rfl⟩, rfl⟩
    by_cases down : buttonDown ≠ 0
    · exact .inl (if_pos down)
    · exact .inr (if_neg down)
  intro a ha
  rw [SampleApp.buttonCalls, if_pos rfl] at ha
  rcases List.mem_cons.mp ha with rfl | ha
  · exact note (.inl rfl) 0
  rcases List.mem_cons.mp ha with rfl | ha
  · exact note (.inr (.inl rfl)) 1
  · rw [List.mem_singleton.mp ha]
    exact note (.inr (.inr rfl)) 2

private theorem button (hmax : 5 ≤ maxSize) (h : Sends runningStatusEnabled noteOffAsNoteOn s es)
    {buttonEventCode : UInt8} {answers : Fin 3 → UInt16 × Int}
    (haccepts : s.Accepts (.button buttonEventCode answers)) :
    ∃ new, Transmits s.device (s.button buttonEventCode answers).device new ∧
      Sends runningStatusEnabled noteOffAsNoteOn (s.button buttonEventCode answers)
        (es ++ new) := by
  have unchanged : ∃ new, Transmits s.device s.device new ∧
      Sends runningStatusEnabled noteOffAsNoteOn s (es ++ new) :=
    ⟨[], .refl h.sized, by rwa [List.append_nil]⟩
  by_cases hprogress : s.sysexTxInProgress = true
  · rw [SampleApp.button, if_pos hprogress]
    exact unchanged
  have hidle : s.sysexTxInProgress = false := (Bool.not_eq_true _).mp hprogress
  obtain ⟨stream, closed⟩ := h.idle hidle
  have stays {device : SingleDevice maxSize} {new : List MidiEvent}
      (sent : Transmits s.device device new ∧ streamOpen false new = false ∧
        SampleStream runningStatusEnabled noteOffAsNoteOn (es ++ new)) :
      Sends runningStatusEnabled noteOffAsNoteOn { s with device := device } (es ++ new) := by
    obtain ⟨transmits, closes, stream'⟩ := sent
    refine h.next transmits ((transmits.closed closed closes).trans hidle.symm) ?_
    rw [hidle]
    exact .idle stream'
  have accepts := haccepts hidle
  unfold SampleApp.button
  generalize buttonEventCode &&& 0x3 = buttonIdx at accepts ⊢
  generalize buttonEventCode >>> 2 = buttonDown at accepts ⊢
  rw [if_neg hprogress]
  by_cases chord : buttonIdx = 0
  · subst chord
    obtain ⟨new, sent⟩ := notes hmax (chord_notes buttonDown answers) h.sized closed h.enabled
      h.asNoteOn stream
    exact ⟨new, sent.1, stays sent⟩
  by_cases down : buttonDown ≠ 0
  swap
  · have none : SampleApp.buttonCalls buttonIdx buttonDown answers = [] := by
      simp [SampleApp.buttonCalls, chord, down]
    simp only [none, down, and_false, if_false]
    exact unchanged
  obtain ⟨short, long⟩ := accepts down
  by_cases first : buttonIdx = 1
  · subst first
    obtain ⟨new, sent⟩ := shortSysex hmax h.sized closed answers (short rfl).1 (short rfl).2 stream
    have calls : SampleApp.buttonCalls 1 buttonDown answers =
        [SampleApp.answered answers 0 .sysexStart,
          .transmitData SampleApp.dataBytes (answers 1).1 (answers 1).2,
          SampleApp.answered answers 2 .sysexEnd] := by
      simp [SampleApp.buttonCalls, down]
    rw [calls]
    exact ⟨new, sent.1, stays sent⟩
  by_cases second : buttonIdx = 2
  · subst second
    have calls : SampleApp.buttonCalls 2 buttonDown answers =
        [SampleApp.answered answers 0 .sysexStart] := by
      simp [SampleApp.buttonCalls, down]
    simp only [calls, down, ne_eq, not_false_eq_true, and_self, if_true]
    exact longSysex hmax h hidle answers (long rfl)
  · have none : SampleApp.buttonCalls buttonIdx buttonDown answers = [] := by
      simp [SampleApp.buttonCalls, chord, first, second]
    simp only [none, second, false_and, if_false]
    exact unchanged

/-- One event for the application. -/
theorem act (hmax : 5 ≤ maxSize) (h : Sends runningStatusEnabled noteOffAsNoteOn s es)
    {event : SampleEvent} (haccepts : s.Accepts event) :
    ∃ new, Transmits s.device (s.act event).device new ∧
      Sends runningStatusEnabled noteOffAsNoteOn (s.act event) (es ++ new) := by
  cases event with
  | txDone timestamp result =>
    by_cases hprogress : s.sysexTxInProgress = true
    swap
    · have same : s.act (.txDone timestamp result) = s := if_neg hprogress
      rw [same]
      exact ⟨[], .refl h.sized, by rwa [List.append_nil]⟩
    by_cases hcount : s.sysexTxDataByteCount = sysexTxMessageSize
    · obtain rfl : result = 0 := haccepts hprogress hcount
      exact txDone_end hmax h hprogress hcount timestamp
    · exact txDone_chunk hmax h hprogress hcount timestamp result
  | button buttonEventCode answers => exact button hmax h haccepts
  | onMtuChanged mtuSize =>
    have transmits := Transmits.step hmax h.sized (a := .onMtuChanged mtuSize) haccepts
    have same := h.next transmits h.flag
      (show SampleState _ _ s.sysexTxInProgress s.sysexTxDataByteCount (es ++ []) by
        rw [List.append_nil]
        exact h.state)
    exact ⟨[], transmits, same⟩

/-- A run of events. -/
theorem run (hmax : 5 ≤ maxSize) (h : Sends runningStatusEnabled noteOffAsNoteOn s es)
    {events : List SampleEvent} (haccepts : EachStep SampleApp.act SampleApp.Accepts s events) :
    ∃ new, Transmits s.device (events.foldl SampleApp.act s).device new ∧
      Sends runningStatusEnabled noteOffAsNoteOn (events.foldl SampleApp.act s) (es ++ new) := by
  induction events generalizing s es with
  | nil => exact ⟨[], .refl h.sized, by rwa [List.append_nil]⟩
  | cons event events ih =>
    obtain ⟨accepts, later⟩ := haccepts
    obtain ⟨new, transmits, sends⟩ := act hmax h accepts
    obtain ⟨rest, transmits', sends'⟩ := ih sends later
    refine ⟨new ++ rest, transmits.trans transmits', ?_⟩
    rw [← List.append_assoc]
    exact sends'

end Sends

namespace SampleApp

/-- The application at the start of a connection, with no long sysex message in progress. -/
def connected (s : SingleDevice maxSize) (txRunningStatus txNoteOffAsNoteOn : Bool)
    (mtuSize : UInt16) (sysexTxDataByteCount : Int) : SampleApp maxSize :=
  ⟨s.step (.onConnected txRunningStatus txNoteOffAsNoteOn mtuSize), sysexTxDataByteCount, false⟩

/-- Whatever buttons are pressed in a connection, and whenever a notification is done, a receiver
hears the notes that the transport took, short sysex messages and long ones of which each chunk
misses its last byte, one after another, and the beginning of the long one that is in progress. The
parser of the library hears the same without the sysex ends. -/
theorem sample_speaks (hmax : 5 ≤ maxSize) (s : SingleDevice maxSize)
    (txRunningStatus txNoteOffAsNoteOn : Bool) {mtuSize : UInt16} (hmtu : 8 ≤ mtuSize.toNat)
    (sysexTxDataByteCount : Int) {events : List SampleEvent}
    (h : EachStep act Accepts
      (connected s txRunningStatus txNoteOffAsNoteOn mtuSize sysexTxDataByteCount) events) :
    let app := events.foldl act
      (connected s txRunningStatus txNoteOffAsNoteOn mtuSize sysexTxDataByteCount)
    ∃ packets es, app.device.single.accepted = s.single.accepted ++ packets ∧
      receiveAll false packets = some es ∧
      packets.flatMap deliveries = es.filter HeardAlone ∧
      SampleState txRunningStatus txNoteOffAsNoteOn app.sysexTxInProgress
        app.sysexTxDataByteCount es := by
  intro app
  have start : Sends txRunningStatus txNoteOffAsNoteOn
      (connected s txRunningStatus txNoteOffAsNoteOn mtuSize sysexTxDataByteCount) [] :=
    ⟨SingleDevice.sized_onMtuChanged hmax _ hmtu, rfl, rfl, rfl, .idle .nil⟩
  obtain ⟨es, transmits, sends⟩ := start.run hmax h
  obtain ⟨packets, accepted, speaks⟩ := transmits.speaks
  exact ⟨packets, es, accepted, speaks.received, speaks.delivered, sends.state⟩

/-- A chord of which the transport refuses a note, a short sysex message, and two chunks of a long
one. -/
theorem sample_speaks_progress :
    let start := connected (⟨⟨freshWriter blankWriter false false 64, []⟩, none⟩ : SingleDevice 64)
      false true 67 7
    let app := [SampleEvent.button 4 fun i => (10, if i = 1 then -12 else 0),
      .button 5 fun _ => (11, 0), .button 6 fun _ => (12, 0), .txDone 13 0,
      .button 4 fun _ => (14, 0), .txDone 15 (-12), .txDone 16 0].foldl act start
    app.sysexTxDataByteCount = 126 ∧
    ∃ packets es, app.device.single.accepted = [] ++ packets ∧
      receiveAll false packets = some es ∧
      packets.flatMap deliveries = es.filter HeardAlone ∧
      SampleState false true app.sysexTxInProgress app.sysexTxDataByteCount es :=
  ⟨by decide +kernel, sample_speaks (by decide) _ false true (by decide) 7 (by decide +kernel)⟩

end SampleApp

end BleMidi.Service
