/- Module: BleMidi/Service/Producers
   source: ble_midi/src/tx_queue.c (tx_queue_fifo_add_*), ble_midi/src/ble_midi.c (on_mtu_changed,
     on_connected)
   digest: The application and the Bluetooth callbacks write to one FIFO without a lock. -/

import BleMidi.Core.Runs
import BleMidi.Queue.Chunks

set_option autoImplicit false
set_option relaxedAutoImplicit false

namespace BleMidi.Service

open BleMidi.Core.Runs
open BleMidi.Queue
open BleMidi.Queue.TxQueue

/-- The packet size that `on_mtu_changed` requests, as `tx_queue_fifo_add_tx_packet_size` gets it.
The maximum is `BLE_MIDI_TX_PACKET_MAX_SIZE`. -/
def requestedSize (maxSize : Nat) (mtuSize : UInt16) : UInt16 :=
  let txBufSizeNew : Int := mtuSize.toNat - 3
  UInt16.ofInt (if (maxSize : Int) < txBufSizeNew then maxSize else txBufSizeNew)

/-- An MTU that leaves room for a packet is passed on, up to the maximum. -/
theorem requestedSize_toNat {maxSize : Nat} {mtuSize : UInt16} (h : 3 ≤ mtuSize.toNat) :
    (requestedSize maxSize mtuSize).toNat = min maxSize (mtuSize.toNat - 3) := by
  have bound := UInt16.toNat_lt mtuSize
  have value : (if (maxSize : Int) < (mtuSize.toNat : Int) - 3 then (maxSize : Int)
      else (mtuSize.toNat : Int) - 3) = (min maxSize (mtuSize.toNat - 3) : Nat) := by
    split <;> omega
  have size : requestedSize maxSize mtuSize =
      UInt16.ofInt (min maxSize (mtuSize.toNat - 3) : Nat) := congrArg UInt16.ofInt value
  rw [size, UInt16.ofInt, UInt16.toNat_ofNat']
  omega

/-- Where a call of `tx_queue_fifo_add_sysex_data` is: behind its free-space check or behind the
write of its chunk header. -/
inductive DataCall
  | idle
  | checked (bytes : List UInt8) (count : Nat)
  | headed (bytes : List UInt8) (count : Nat)
  deriving DecidableEq

/-- Where a callback of the Bluetooth thread is: in front of `fifo_clear`, of the free-space check
or of the write of a size request. -/
inductive Callback
  | idle
  | clearing (size : UInt16)
  | requesting (size : UInt16)
  | checked (size : UInt16)
  deriving DecidableEq

/-- The FIFO, the two threads that write to it, and the chunks of the calls that have made their
last write since the FIFO was cleared. -/
structure Producers where
  fifo : Fifo
  dataCall : DataCall
  callback : Callback
  written : List Chunk

/-- The calls that start, and the atomic FIFO operations. -/
inductive ProducerAction
  | addSysexData (bytes : List UInt8)
  | writeHeader
  | writeData
  | onMtuChanged (mtuSize : UInt16)
  | onConnected (mtuSize : UInt16)
  | clear
  | checkSpace
  | writeSize
  deriving DecidableEq

/-- The bytes that a call has written while it is under way. -/
def DataCall.header : DataCall → List UInt8
  | headed _ count => chunkHeader count
  | _ => []

namespace Producers

def initial (fifo : Fifo) : Producers := ⟨fifo.clear, .idle, .idle, []⟩

/-- `fifo_get_free_space` at the start of `tx_queue_fifo_add_sysex_data`. -/
def addSysexData (s : Producers) (bytes : List UInt8) : Option Producers :=
  match s.dataCall with
  | .idle =>
      let fifoSpaceLeft := s.fifo.getFreeSpace
      if fifoSpaceLeft ≤ sysexDataChunkHeaderSize then some s
      else some { s with
        dataCall := .checked bytes (numBytesToSend fifoSpaceLeft bytes.length) }
  | _ => none

def writeHeader (s : Producers) : Option Producers :=
  match s.dataCall with
  | .checked bytes count =>
      let (headerWriteResult, fifo) := s.fifo.write (chunkHeader count)
      some { s with
        fifo := fifo
        dataCall :=
          if headerWriteResult = sysexDataChunkHeaderSize then .headed bytes count else .idle }
  | _ => none

def writeData (s : Producers) : Option Producers :=
  match s.dataCall with
  | .headed bytes count =>
      some { s with
        fifo := (s.fifo.write (bytes.take count)).2
        dataCall := .idle
        written := s.written ++ [.data (bytes.take count)] }
  | _ => none

def clear (s : Producers) : Option Producers :=
  match s.callback with
  | .clearing size =>
      some { s with fifo := s.fifo.clear, callback := .requesting size, written := [] }
  | _ => none

def checkSpace (s : Producers) : Option Producers :=
  match s.callback with
  | .requesting size =>
      some { s with callback := if s.fifo.getFreeSpace < 3 then .idle else .checked size }
  | _ => none

/-- The chunk of a size request counts as written when any of its bytes is. -/
def writeSize (s : Producers) : Option Producers :=
  match s.callback with
  | .checked size =>
      let (writeResult, fifo) := s.fifo.write (Chunk.packetSize size).encode
      some { s with
        fifo := fifo
        callback := .idle
        written := if writeResult = 0 then s.written else s.written ++ [.packetSize size] }
  | _ => none

/-- A callback starts when the one before has ended. -/
def enter (s : Producers) (callback : Callback) : Option Producers :=
  if s.callback = .idle then some { s with callback := callback } else none

def act (maxSize : Nat) (s : Producers) : ProducerAction → Option Producers
  | .addSysexData bytes => s.addSysexData bytes
  | .writeHeader => s.writeHeader
  | .writeData => s.writeData
  | .onMtuChanged mtuSize => s.enter (.requesting (requestedSize maxSize mtuSize))
  | .onConnected mtuSize => s.enter (.clearing (requestedSize maxSize mtuSize))
  | .clear => s.clear
  | .checkSpace => s.checkSpace
  | .writeSize => s.writeSize

/-- The header of a data call whose data is still to be written. -/
def trailing (s : Producers) : List UInt8 := s.dataCall.header

/-- The FIFO holds whole chunks, and behind them at most a header that waits for its data. -/
def Whole (s : Producers) : Prop :=
  s.fifo.bytes = s.written.flatMap Chunk.encode ∨
    s.fifo.bytes = s.written.flatMap Chunk.encode ++ s.trailing

instance : DecidablePred Whole := fun _ => inferInstanceAs (Decidable (_ ∨ _))

/-- A write finds room for all of its bytes, or the write of three bytes for none of them, and
the Bluetooth thread neither clears the FIFO nor stores a chunk behind a header that waits for its
data. -/
def Undisturbed (s : Producers) : ProducerAction → Prop
  | .writeHeader => s.fifo.getFreeSpace = 0 ∨ 3 ≤ s.fifo.getFreeSpace
  | .writeData =>
      match s.dataCall with
      | .headed bytes count => (bytes.take count).length ≤ s.fifo.getFreeSpace
      | _ => True
  | .clear => s.trailing = []
  | .writeSize =>
      s.fifo.getFreeSpace = 0 ∨ s.trailing = [] ∧ 3 ≤ s.fifo.getFreeSpace
  | _ => True

instance (s : Producers) : DecidablePred s.Undisturbed
  | .writeHeader => inferInstanceAs (Decidable (_ ∨ _))
  | .writeData => by
      unfold Undisturbed
      cases s.dataCall <;> infer_instance
  | .clear => inferInstanceAs (Decidable (s.trailing = []))
  | .writeSize => inferInstanceAs (Decidable (_ ∨ _ ∧ _))
  | .addSysexData _ => inferInstanceAs (Decidable True)
  | .onMtuChanged _ => inferInstanceAs (Decidable True)
  | .onConnected _ => inferInstanceAs (Decidable True)
  | .checkSpace => inferInstanceAs (Decidable True)

/-- What the steps keep. The count of a data call is that of the bytes it writes. -/
structure Inv (s : Producers) : Prop where
  bytes : s.fifo.bytes = s.written.flatMap Chunk.encode ++ s.trailing
  count : ∀ bytes count, s.dataCall = .checked bytes count ∨ s.dataCall = .headed bytes count →
    count ≤ bytes.length

theorem Inv.whole {s : Producers} (h : s.Inv) : s.Whole := .inr h.bytes

private theorem written_append (written : List Chunk) (chunk : Chunk) :
    (written ++ [chunk]).flatMap Chunk.encode = written.flatMap Chunk.encode ++ chunk.encode := by
  rw [List.flatMap_append, List.flatMap_singleton]

/-- What an action can do. -/
inductive Does (s : Producers) : ProducerAction → Producers → Prop
  | full {bytes : List UInt8} : Does s (.addSysexData bytes) s
  | space {bytes : List UInt8} {count : Nat} : s.dataCall = .idle → count ≤ bytes.length →
      Does s (.addSysexData bytes) { s with dataCall := .checked bytes count }
  | header {bytes : List UInt8} {count : Nat} : s.dataCall = .checked bytes count →
      3 ≤ s.fifo.getFreeSpace → Does s .writeHeader { s with
        fifo := (s.fifo.write (chunkHeader count)).2
        dataCall := .headed bytes count }
  | headerCut {bytes : List UInt8} {count : Nat} : s.dataCall = .checked bytes count →
      s.fifo.getFreeSpace < 3 → Does s .writeHeader { s with
        fifo := (s.fifo.write (chunkHeader count)).2
        dataCall := .idle }
  | data {bytes : List UInt8} {count : Nat} : s.dataCall = .headed bytes count →
      Does s .writeData { s with
        fifo := (s.fifo.write (bytes.take count)).2
        dataCall := .idle
        written := s.written ++ [.data (bytes.take count)] }
  | callback {a : ProducerAction} {callback : Callback} : a ≠ .writeHeader → a ≠ .writeData →
      a ≠ .clear → a ≠ .writeSize → Does s a { s with callback := callback }
  | clear {callback : Callback} : Does s .clear { s with
      fifo := s.fifo.clear
      callback := callback
      written := [] }
  | size {size : UInt16} : 0 < s.fifo.getFreeSpace → Does s .writeSize { s with
      fifo := (s.fifo.write (Chunk.packetSize size).encode).2
      callback := .idle
      written := s.written ++ [.packetSize size] }
  | sizeLost {size : UInt16} : s.fifo.getFreeSpace = 0 → Does s .writeSize { s with
      fifo := (s.fifo.write (Chunk.packetSize size).encode).2
      callback := .idle }

private theorem write_count (fifo : Fifo) {bytes : List UInt8} (h : bytes.length = 3) :
    (fifo.write bytes).1 = min fifo.getFreeSpace 3 := by
  change (bytes.take fifo.getFreeSpace).length = _
  rw [List.length_take, h]

theorem act_does {maxSize : Nat} {s s' : Producers} {a : ProducerAction}
    (h : s.act maxSize a = some s') : s.Does a s' := by
  cases a with
  | addSysexData bytes =>
    change s.addSysexData bytes = some s' at h
    unfold addSysexData at h
    cases idle : s.dataCall with
    | idle =>
      simp only [idle] at h
      by_cases full : s.fifo.getFreeSpace ≤ sysexDataChunkHeaderSize
      · rw [if_pos full] at h
        cases h
        exact .full
      · rw [if_neg full] at h
        cases h
        exact .space idle ((Nat.min_le_left _ _).trans (Nat.min_le_left _ _))
    | checked bytes count => simp [idle] at h
    | headed bytes count => simp [idle] at h
  | writeHeader =>
    change s.writeHeader = some s' at h
    unfold writeHeader at h
    cases call : s.dataCall with
    | checked bytes count =>
      simp only [call, write_count s.fifo (show (chunkHeader count).length = 3 from rfl),
        sysexDataChunkHeaderSize] at h
      cases h
      by_cases space : 3 ≤ s.fifo.getFreeSpace
      · rw [if_pos (by omega)]
        exact .header call space
      · rw [if_neg (by omega)]
        exact .headerCut call (by omega)
    | idle => simp [call] at h
    | headed bytes count => simp [call] at h
  | writeData =>
    change s.writeData = some s' at h
    unfold writeData at h
    cases call : s.dataCall with
    | headed bytes count =>
      simp only [call] at h
      cases h
      exact .data call
    | idle => simp [call] at h
    | checked bytes count => simp [call] at h
  | onMtuChanged mtuSize =>
    change (if _ then _ else _) = some s' at h
    split at h
    · cases h
      exact .callback (by simp) (by simp) (by simp) (by simp)
    · cases h
  | onConnected mtuSize =>
    change (if _ then _ else _) = some s' at h
    split at h
    · cases h
      exact .callback (by simp) (by simp) (by simp) (by simp)
    · cases h
  | clear =>
    change s.clear = some s' at h
    unfold clear at h
    split at h
    · cases h
      exact .clear
    · cases h
  | checkSpace =>
    change s.checkSpace = some s' at h
    unfold checkSpace at h
    split at h
    · cases h
      exact .callback (by simp) (by simp) (by simp) (by simp)
    · cases h
  | writeSize =>
    change s.writeSize = some s' at h
    unfold writeSize at h
    split at h
    · rename_i size _
      simp only [write_count s.fifo (show (Chunk.packetSize size).encode.length = 3 from rfl)] at h
      cases h
      by_cases full : s.fifo.getFreeSpace = 0
      · rw [if_pos (by omega)]
        exact .sizeLost full
      · rw [if_neg (by omega)]
        exact .size (Nat.pos_of_ne_zero full)
    · cases h

private theorem write_all {fifo : Fifo} {bytes : List UInt8}
    (h : bytes.length ≤ fifo.getFreeSpace) : (fifo.write bytes).2.bytes = fifo.bytes ++ bytes :=
  (Fifo.write_of_le h).2.1

private theorem write_none {fifo : Fifo} (h : fifo.getFreeSpace = 0) (bytes : List UInt8) :
    (fifo.write bytes).2.bytes = fifo.bytes := by
  change fifo.bytes ++ bytes.take fifo.getFreeSpace = _
  rw [h, List.take_zero, List.append_nil]

private theorem trailing_eq {s : Producers} {call : DataCall} (h : s.dataCall = call) :
    s.trailing = call.header :=
  congrArg DataCall.header h

private theorem header_cases (call : DataCall) :
    call.header = [] ∨ ∃ count, call.header = chunkHeader count := by
  cases call with
  | headed bytes count => exact .inr ⟨count, rfl⟩
  | _ => exact .inl rfl

/-- A step that is not disturbed keeps the chunks of the FIFO whole. -/
theorem Inv.step {s s' : Producers} {a : ProducerAction} (h : s.Inv) (hclean : s.Undisturbed a)
    (hdoes : s.Does a s') : s'.Inv := by
  obtain ⟨whole, count⟩ := h
  cases hdoes with
  | full => exact ⟨whole, count⟩
  | space idle le =>
    refine ⟨?_, ?_⟩
    · rw [trailing_eq idle] at whole
      exact whole
    · rintro _ _ (eq | eq)
      · cases eq
        exact le
      · cases eq
  | @header bytes n call space =>
    refine ⟨?_, ?_⟩
    · rw [trailing_eq call, show DataCall.header _ = [] from rfl, List.append_nil] at whole
      change (s.fifo.write (chunkHeader n)).2.bytes = _ ++ chunkHeader n
      rw [write_all (show (chunkHeader n).length ≤ _ from space), whole]
    · rintro _ _ (eq | eq)
      · cases eq
      · cases eq
        exact count _ _ (.inl call)
  | headerCut call less =>
    have full : s.fifo.getFreeSpace = 0 := hclean.resolve_right (Nat.not_le.mpr less)
    refine ⟨?_, ?_⟩
    · rw [trailing_eq call] at whole
      exact (write_none full _).trans whole
    · rintro _ _ (eq | eq) <;> cases eq
  | @data bytes n call =>
    have space : (bytes.take n).length ≤ s.fifo.getFreeSpace := by
      unfold Undisturbed at hclean
      rw [call] at hclean
      exact hclean
    refine ⟨?_, ?_⟩
    · rw [trailing_eq call] at whole
      change (s.fifo.write (bytes.take n)).2.bytes = (s.written ++ _).flatMap _ ++ []
      rw [write_all space, whole, written_append, Chunk.encode_data (count _ _ (.inr call)),
        List.append_nil, List.append_assoc]
      rfl
    · rintro _ _ (eq | eq) <;> cases eq
  | callback _ _ _ _ => exact ⟨whole, count⟩
  | clear =>
    refine ⟨?_, count⟩
    change [] = [] ++ s.trailing
    rw [show s.trailing = [] from hclean]
    rfl
  | @size size some =>
    obtain ⟨none, space⟩ : s.trailing = [] ∧ 3 ≤ s.fifo.getFreeSpace :=
      hclean.resolve_left (Nat.ne_of_gt some)
    refine ⟨?_, count⟩
    change (s.fifo.write (Chunk.packetSize size).encode).2.bytes = _ ++ s.trailing
    rw [write_all (show (Chunk.packetSize size).encode.length ≤ _ from space), written_append,
      whole, none, List.append_nil, List.append_nil]
  | sizeLost full => exact ⟨(write_none full _).trans whole, count⟩

/-- The condition is exact: any other write leaves a chunk in the FIFO that is not whole. -/
theorem Inv.whole_iff {s s' : Producers} {a : ProducerAction} (h : s.Inv) (hdoes : s.Does a s')
    (ha : a ≠ .clear) : s'.Whole ↔ s.Undisturbed a := by
  refine ⟨fun whole' => ?_, fun clean => (h.step clean hdoes).whole⟩
  obtain ⟨whole, count⟩ := h
  cases hdoes with
  | full => trivial
  | space _ _ => trivial
  | header _ space => exact .inr space
  | @headerCut bytes n call less =>
    have stored : s.fifo.bytes ++ (chunkHeader n).take s.fifo.getFreeSpace = s.fifo.bytes := by
      rw [trailing_eq call] at whole
      have same : s.fifo.bytes ++ (chunkHeader n).take s.fifo.getFreeSpace =
          s.written.flatMap Chunk.encode ++ [] := by
        rcases whole' with whole' | whole'
        · exact whole'.trans (List.append_nil _).symm
        · exact whole'
      exact same.trans whole.symm
    have none := List.append_right_eq_self.mp stored
    have length := congrArg List.length none
    rw [List.length_take] at length
    have three : (chunkHeader n).length = 3 := rfl
    rw [three, List.length_nil] at length
    exact .inl (by omega)
  | @data bytes n call =>
    have stored : s.fifo.bytes ++ (bytes.take n).take s.fifo.getFreeSpace =
        (s.written ++ [Chunk.data (bytes.take n)]).flatMap Chunk.encode := by
      rcases whole' with whole' | whole'
      · exact whole'
      · exact whole'.trans (List.append_nil _)
    rw [written_append, Chunk.encode_data (count _ _ (.inr call)), whole, trailing_eq call,
      ← List.append_assoc] at stored
    have length := congrArg List.length (List.append_cancel_left stored)
    rw [List.length_take] at length
    unfold Undisturbed
    rw [call]
    change (bytes.take n).length ≤ _
    omega
  | callback header data _ size =>
    cases a with
    | writeHeader => exact absurd rfl header
    | writeData => exact absurd rfl data
    | writeSize => exact absurd rfl size
    | clear => exact absurd rfl ha
    | _ => trivial
  | clear => exact absurd rfl ha
  | @size size some =>
    have enc : (Chunk.packetSize size).encode.length = 3 := rfl
    have stored : s.trailing ++ (Chunk.packetSize size).encode.take s.fifo.getFreeSpace =
        (Chunk.packetSize size).encode ∨
        s.trailing ++ (Chunk.packetSize size).encode.take s.fifo.getFreeSpace =
        (Chunk.packetSize size).encode ++ s.trailing := by
      refine whole'.imp (fun same => ?_) (fun same => ?_)
      · change s.fifo.bytes ++ _ = (s.written ++ [Chunk.packetSize size]).flatMap _ at same
        rw [whole, written_append, List.append_assoc] at same
        exact List.append_cancel_left same
      · change s.fifo.bytes ++ _ = (s.written ++ [Chunk.packetSize size]).flatMap _ ++ s.trailing
          at same
        rw [whole, written_append, List.append_assoc, List.append_assoc] at same
        exact List.append_cancel_left same
    rcases header_cases s.dataCall with none | ⟨n, header⟩
    · have none : s.trailing = [] := none
      rw [none, List.append_nil, List.nil_append, or_self] at stored
      have length := congrArg List.length stored
      rw [List.length_take] at length
      exact .inr ⟨none, by omega⟩
    · rw [show s.trailing = chunkHeader n from header] at stored
      rcases stored with stored | stored
      · have length := congrArg List.length stored
        rw [List.length_append, List.length_take, enc] at length
        change 3 + _ = 3 at length
        omega
      · have first : sysexDataChunkId = txMaxPacketSizeChunkId := (List.cons.inj stored).1
        exact absurd first (by decide)
  | sizeLost full => exact .inl full

/-- A FIFO that is cleared behind a header gets data without one. -/
theorem whole_cleared {s s₁ s₂ : Producers} {bytes : List UInt8} {count : Nat}
    (hcall : s.dataCall = .headed bytes count) (hclear : s.clear = some s₁)
    (hdata : s₁.writeData = some s₂) : ¬ s₂.Whole := by
  unfold clear at hclear
  split at hclear
  · cases hclear
    unfold writeData at hdata
    simp only [hcall] at hdata
    cases hdata
    intro whole
    have stored : (bytes.take count).take s.fifo.clear.getFreeSpace =
        (Chunk.data (bytes.take count)).encode := by
      rcases whole with same | same
      · exact same.trans (List.append_nil _)
      · exact same.trans ((List.append_nil _).trans (List.append_nil _))
    have length := congrArg List.length stored
    rw [List.length_take] at length
    change _ = (bytes.take count).length + 3 at length
    omega
  · cases hclear

variable {maxSize packetCount : Nat}

/-- The three operations of a data call that nothing interrupts are the call. -/
theorem addSysexData_alone (queue : TxQueue maxSize packetCount) {s : Producers}
    (hidle : s.dataCall = .idle) (hfifo : s.fifo = queue.fifo) (bytes : List UInt8)
    (hspace : sysexDataChunkHeaderSize < queue.fifo.getFreeSpace) :
    ∃ s₁ s₂ s₃, s.addSysexData bytes = some s₁ ∧ s₁.writeHeader = some s₂ ∧
      s₂.writeData = some s₃ ∧ s₃.fifo = (queue.fifoAddSysexData bytes).2.fifo := by
  unfold sysexDataChunkHeaderSize at hspace
  generalize hcount : numBytesToSend queue.fifo.getFreeSpace bytes.length = count
  have header : (queue.fifo.write (chunkHeader count)).1 = 3 := by
    rw [write_count queue.fifo rfl]
    omega
  refine ⟨{ s with dataCall := .checked bytes count },
    { s with
      fifo := (queue.fifo.write (chunkHeader count)).2
      dataCall := .headed bytes count },
    { s with
      fifo := ((queue.fifo.write (chunkHeader count)).2.write (bytes.take count)).2
      dataCall := .idle
      written := s.written ++ [.data (bytes.take count)] }, ?_, ?_, rfl, ?_⟩
  · unfold addSysexData
    simp only [hidle, hfifo]
    rw [if_neg (by unfold sysexDataChunkHeaderSize; omega), hcount]
  · unfold writeHeader
    simp only [hfifo, header]
    rfl
  · unfold fifoAddSysexData
    rw [if_neg (by unfold sysexDataChunkHeaderSize; omega), hcount]
    change _ = TxQueue.fifo (Prod.snd (if (queue.fifo.write (chunkHeader count)).1 = 3 then _
      else _))
    rw [if_pos header]
    rfl

/-- The two operations of a size request that nothing interrupts are the call. -/
theorem onMtuChanged_alone (queue : TxQueue maxSize packetCount) {s : Producers}
    (hfifo : s.fifo = queue.fifo) {size : UInt16} (hrequest : s.callback = .requesting size)
    (hspace : 3 ≤ queue.fifo.getFreeSpace) :
    ∃ s₁ s₂, s.checkSpace = some s₁ ∧ s₁.writeSize = some s₂ ∧
      s₂.fifo = (queue.fifoAddTxPacketSize size).2.fifo := by
  have space : ¬ queue.fifo.getFreeSpace < 3 := Nat.not_lt.mpr hspace
  refine ⟨{ s with callback := .checked size }, _, ?_, rfl, ?_⟩
  · unfold checkSpace
    simp only [hrequest, hfifo]
    rw [if_neg space]
  · unfold fifoAddTxPacketSize write3ByteChunkToFifo
    rw [if_neg space]
    change (s.fifo.write _).2 = (queue.fifo.write _).2
    rw [hfifo]
    rfl

/-- In a run whose writes find room and are not disturbed by the Bluetooth thread, the FIFO always
holds whole chunks, and behind them at most a header that waits for its data. -/
theorem whole_run {fifo : Fifo} {s : Producers}
    (h : Reach (act maxSize) Undisturbed (initial fifo) s) : s.Whole := by
  have inv : s.Inv := by
    refine h.invariant ⟨rfl, ?_⟩ ?_
    · rintro bytes count (eq | eq) <;> cases eq
    · intro s s' a inv clean next
      exact inv.step clean (act_does next)
  exact inv.whole

/-- A connection while the data of a call waits for its header, and a call behind it. -/
theorem whole_run_connected : ∃ s : Producers,
    (s.fifo.bytes = [0x0c, 20, 0, 0x0d, 2, 0] ∧ s.callback = .requesting 244) ∧ s.Whole := by
  obtain ⟨s, reached, state⟩ := exists_of_replay (act 512) Undisturbed
    (initial ⟨16, [], Nat.zero_le _⟩)
    (fun s => s.fifo.bytes = [0x0c, 20, 0, 0x0d, 2, 0] ∧ s.callback = .requesting 244)
    [.addSysexData [1, 2, 3], .onConnected 23, .clear, .checkSpace, .writeHeader, .writeData,
      .writeSize, .onConnected 23, .clear, .checkSpace, .writeSize, .addSysexData [4, 5],
      .writeHeader, .onMtuChanged 247]
    (by decide +kernel)
  exact ⟨s, state, whole_run reached⟩

/-- A size request between the header and the data of a chunk: the reader will take it for data. -/
theorem whole_run_fails : ∃ s : Producers,
    Reach (act 512) (fun _ _ => True) (initial ⟨16, [], Nat.zero_le _⟩) s ∧
    s.fifo.bytes = [0x0d, 2, 0, 0x0c, 20, 0, 1, 2] ∧ s.dataCall = .idle ∧ ¬ s.Whole :=
  exists_of_replay (act 512) (fun _ _ => True) (initial ⟨16, [], Nat.zero_le _⟩)
    (fun s => s.fifo.bytes = [0x0d, 2, 0, 0x0c, 20, 0, 1, 2] ∧ s.dataCall = .idle ∧ ¬ s.Whole)
    [.addSysexData [1, 2], .writeHeader, .onMtuChanged 23, .checkSpace, .writeSize, .writeData]
    (by decide +kernel)

end Producers

end BleMidi.Service
