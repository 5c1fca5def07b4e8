/- Module: BleMidi/Service/SingleMtu
   source: ble_midi/src/ble_midi.c (on_mtu_changed, on_connected, ble_midi_tx_*), with
     CONFIG_BLE_MIDI_TX_MODE_SINGLE_MSG
   digest: Which values of the MTU keep the packets inside their buffer. -/

import BleMidi.Core.Runs
import BleMidi.Packet.CallOrder
import BleMidi.Service.Producers
import BleMidi.Service.SingleData

set_option autoImplicit false
set_option relaxedAutoImplicit false

namespace BleMidi.Service

open BleMidi.Core.Runs
open BleMidi.Packet.Bytes
open BleMidi.Packet.PacketWriter
open BleMidi.Packet.WriterSpec
open BleMidi.Packet.RoundTrip
open BleMidi.Packet.CallOrder

variable {maxSize : Nat}

/-- The MTU of the most recent `on_mtu_changed` behind `ble_midi_writer_init`, beside the device. -/
structure SingleDevice (maxSize : Nat) where
  single : SingleMessage maxSize
  mtu : Option UInt16

/-- What may happen to a device: a new MTU, which may have any value, a connection, whose error code
is not looked at, and the calls that transmit. -/
inductive SingleAction
  | onMtuChanged (mtuSize : UInt16)
  | onConnected (txRunningStatus txNoteOffAsNoteOn : Bool) (mtuSize : UInt16)
  | transmit (c : TxCall)
  | transmitData (bytes : List UInt8) (timestamp : UInt16) (result : Int)
  deriving DecidableEq

def SingleAction.Transmits : SingleAction → Prop
  | .transmit _ => True
  | .transmitData _ _ _ => True
  | _ => False

namespace SingleDevice

/-- `on_mtu_changed`: the size goes through `int` and back to `uint16_t`. -/
def onMtuChanged (s : SingleDevice maxSize) (mtuSize : UInt16) : SingleDevice maxSize where
  single := { s.single with
    txWriter := { s.single.txWriter with txBufMaxSize := requestedSize maxSize mtuSize } }
  mtu := some mtuSize

/-- The part of `on_connected` in front of its `on_mtu_changed`. -/
def contextReset (s : SingleDevice maxSize) (txRunningStatus txNoteOffAsNoteOn : Bool) :
    SingleDevice maxSize where
  single := { s.single with
    txWriter := writerInit s.single.txWriter txRunningStatus txNoteOffAsNoteOn }
  mtu := none

def step (s : SingleDevice maxSize) : SingleAction → SingleDevice maxSize
  | .onMtuChanged mtuSize => s.onMtuChanged mtuSize
  | .onConnected txRunningStatus txNoteOffAsNoteOn mtuSize =>
      (s.contextReset txRunningStatus txNoteOffAsNoteOn).onMtuChanged mtuSize
  | .transmit c => { s with single := (s.single.exec c).2 }
  | .transmitData bytes timestamp result =>
      { s with single := (s.single.txSysexData bytes timestamp result).2 }

/-- An action of a device that goes on, which it does not behind a write outside `tx_buf`: what that
overwrites is not modelled. -/
def act (s : SingleDevice maxSize) (a : SingleAction) : Option (SingleDevice maxSize) :=
  if (s.step a).single.txWriter.txBufSize.toNat ≤ maxSize then some (s.step a) else none

/-- The device behind an action, as long as nothing is written outside `tx_buf`. -/
def actInside (s : Option (SingleDevice maxSize)) (a : SingleAction) :
    Option (SingleDevice maxSize) :=
  s.bind fun s => s.act a

/-- A transmission writes inside `tx_buf`, and when it returns the writer keeps to its packet and
the packet to the buffer. -/
def InBounds (s : SingleDevice maxSize) (a : SingleAction) : Prop :=
  a.Transmits → ∃ s' ∈ s.act a, Fits s'.single.txWriter

/-- The MTU in force is at least 3, or the `uint16_t` that `mtu_size - 3` wraps around to is no
larger than the buffer. -/
def LimitOk (s : SingleDevice maxSize) : Prop :=
  ∀ mtuSize ∈ s.mtu, 3 ≤ mtuSize.toNat ∨ mtuSize.toNat + 65533 ≤ maxSize

instance (s : SingleDevice maxSize) : Decidable s.LimitOk :=
  @Option.decidableForallMem UInt16
    (fun mtuSize : UInt16 => 3 ≤ mtuSize.toNat ∨ mtuSize.toNat + 65533 ≤ maxSize) _ s.mtu

/-- Something is transmitted with an MTU that is in order. A call without data bytes leaves the
packet of the call before it in the writer, which must not be longer than the maximum size by
then. -/
def Suits (s : SingleDevice maxSize) : SingleAction → Prop
  | .transmit _ => s.LimitOk
  | .transmitData bytes _ _ => s.LimitOk ∧
      (bytes = [] → s.single.txWriter.txBufSize.toNat ≤ s.single.txWriter.txBufMaxSize.toNat)
  | _ => True

instance (s : SingleDevice maxSize) : DecidablePred s.Suits
  | .transmit _ => inferInstanceAs (Decidable s.LimitOk)
  | .transmitData _ _ _ => inferInstanceAs (Decidable (_ ∧ (_ → _ ≤ _)))
  | .onMtuChanged _ => inferInstanceAs (Decidable True)
  | .onConnected _ _ _ => inferInstanceAs (Decidable True)

/-- The maximum size of a packet goes with the MTU. Without one it fits the buffer. -/
structure Follows (s : SingleDevice maxSize) : Prop where
  requested : ∀ mtuSize ∈ s.mtu,
    s.single.txWriter.txBufMaxSize = requestedSize maxSize mtuSize
  initial : s.mtu = none → s.single.txWriter.txBufMaxSize.toNat ≤ maxSize

variable {s : SingleDevice maxSize}

theorem act_eq_step {s' : SingleDevice maxSize} {a : SingleAction} (h : s.act a = some s') :
    s' = s.step a := by
  by_cases inside : (s.step a).single.txWriter.txBufSize.toNat ≤ maxSize
  · rw [act, if_pos inside] at h
    exact (Option.some.inj h).symm
  · rw [act, if_neg inside] at h
    cases h

theorem inBounds_iff_fits (s : SingleDevice maxSize) (a : SingleAction) :
    s.InBounds a ↔ (a.Transmits → Fits (s.step a).single.txWriter) := by
  refine imp_congr_right fun _ => ?_
  constructor
  · rintro ⟨s', next, fits⟩
    rw [← act_eq_step next]
    exact fits
  · intro fits
    exact ⟨s.step a, if_pos (fits.size_le.trans fits.max_le), fits⟩

/-- A requested size fits the buffer unless the subtraction wraps around. -/
theorem requestedSize_le_iff (mtuSize : UInt16) :
    (requestedSize maxSize mtuSize).toNat ≤ maxSize ↔
      3 ≤ mtuSize.toNat ∨ mtuSize.toNat + 65533 ≤ maxSize := by
  by_cases least : 3 ≤ mtuSize.toNat
  · rw [requestedSize_toNat least]
    omega
  · have small : ¬ (maxSize : Int) < (mtuSize.toNat : Int) - 3 := by omega
    have size : requestedSize maxSize mtuSize = UInt16.ofInt ((mtuSize.toNat : Int) - 3) :=
      congrArg UInt16.ofInt (if_neg small)
    have wraps : (requestedSize maxSize mtuSize).toNat = mtuSize.toNat + 65533 := by
      rw [size, UInt16.ofInt, UInt16.toNat_ofNat']
      omega
    rw [wraps]
    omega

theorem Follows.le_iff (h : s.Follows) :
    s.single.txWriter.txBufMaxSize.toNat ≤ maxSize ↔ s.LimitOk := by
  unfold LimitOk
  cases mtu : s.mtu with
  | none => exact iff_of_true (h.initial mtu) (by simp)
  | some mtuSize =>
    rw [h.requested mtuSize mtu, requestedSize_le_iff]
    simp

private theorem sendData_txWriter (s : SingleMessage maxSize) (addResult : Except PacketError Nat)
    (result : Int) : (s.sendData addResult result).2.txWriter = s.txWriter := by
  cases addResult <;> rfl

/-- A call with data bytes leaves the writer as `ble_midi_writer_add_sysex_data` does. -/
theorem txSysexData_txWriter (s : SingleMessage maxSize) {bytes : List UInt8}
    (hbytes : bytes ≠ []) (timestamp : UInt16) (result : Int) :
    (s.txSysexData bytes timestamp result).2.txWriter =
      (writerAddSysexData (writerReset s.txWriter) bytes timestamp).2 := by
  have positive := List.length_pos_of_ne_nil hbytes
  rw [SingleMessage.txSysexData, if_neg (by omega), sendData_txWriter]

theorem txSysexData_nil (s : SingleMessage maxSize) (timestamp : UInt16) (result : Int) :
    s.txSysexData [] timestamp result = (invalidArgument, s) := rfl

theorem txSysexData_txBufMaxSize (s : SingleMessage maxSize) (bytes : List UInt8)
    (timestamp : UInt16) (result : Int) :
    (s.txSysexData bytes timestamp result).2.txWriter.txBufMaxSize = s.txWriter.txBufMaxSize := by
  by_cases hbytes : bytes = []
  · rw [hbytes, txSysexData_nil]
  · rw [txSysexData_txWriter s hbytes, writerAddSysexData_txBufMaxSize]
    rfl

/-- The maximum size goes on to go with the MTU. -/
theorem Follows.step (h : s.Follows) (a : SingleAction) : (s.step a).Follows := by
  have changed (s : SingleDevice maxSize) (mtuSize : UInt16) :
      (s.onMtuChanged mtuSize).Follows := by
    constructor
    · intro mtuSize' mem
      rw [← Option.some.inj mem]
      rfl
    · intro none
      cases none
  cases a with
  | onMtuChanged mtuSize => exact changed s mtuSize
  | onConnected txRunningStatus txNoteOffAsNoteOn mtuSize => exact changed _ mtuSize
  | transmit c =>
    have size := SingleMessage.exec_txBufMaxSize s.single c
    exact ⟨fun mtuSize mem => size.trans (h.requested mtuSize mem),
      fun none => size ▸ h.initial none⟩
  | transmitData bytes timestamp result =>
    have size := txSysexData_txBufMaxSize s.single bytes timestamp result
    exact ⟨fun mtuSize mem => size.trans (h.requested mtuSize mem),
      fun none => size ▸ h.initial none⟩

private theorem fits_call {w : Writer maxSize} {c : Call} (hshort : Short c)
    (hmax : w.txBufMaxSize.toNat ≤ maxSize) : Fits (c.exec (writerReset w)).2 := by
  have start := writerReset_fits hmax
  rcases exec_outcome start hshort with ⟨code, refused⟩ | ⟨-, effect⟩
  · rw [refused]
    exact start
  · exact (effect.appends start).1

private theorem fits_transmit (s : SingleMessage maxSize) (c : TxCall)
    (hmax : s.txWriter.txBufMaxSize.toNat ≤ maxSize) : Fits (s.exec c).2.txWriter := by
  obtain ⟨transmission, timestamp, result⟩ := c
  cases transmission with
  | msg bytes =>
    have fits := fits_call (c := .addMsg bytes timestamp) trivial hmax
    rw [Call.exec, returned_snd] at fits
    exact fits
  | sysexStart =>
    have fits := fits_call (c := .startSysexMsg timestamp) trivial hmax
    rw [Call.exec, returned_snd] at fits
    exact fits
  | sysexEnd =>
    have fits := fits_call (c := .endSysexMsg timestamp) trivial hmax
    rw [Call.exec, returned_snd] at fits
    exact fits

/-- A transmission returns in bounds exactly when it suits the MTU. -/
theorem Follows.inBounds_iff (h : s.Follows) (a : SingleAction) : s.InBounds a ↔ s.Suits a := by
  refine (inBounds_iff_fits s a).trans ?_
  cases a with
  | onMtuChanged mtuSize => exact iff_of_true (fun transmits => transmits.elim) trivial
  | onConnected txRunningStatus txNoteOffAsNoteOn mtuSize =>
    exact iff_of_true (fun transmits => transmits.elim) trivial
  | transmit c =>
    refine Iff.trans ?_ h.le_iff
    constructor
    · intro inBounds
      rw [← SingleMessage.exec_txBufMaxSize s.single c]
      exact (inBounds trivial).max_le
    · intro hmax _
      exact fits_transmit s.single c hmax
  | transmitData bytes timestamp result =>
    by_cases hbytes : bytes = []
    · subst hbytes
      constructor
      · intro inBounds
        have fits : Fits s.single.txWriter := inBounds trivial
        exact ⟨h.le_iff.mp fits.max_le, fun _ => fits.size_le⟩
      · rintro ⟨limit, size⟩ _
        exact ⟨size rfl, h.le_iff.mpr limit⟩
    · have suits : s.Suits (.transmitData bytes timestamp result) ↔ s.LimitOk :=
        and_iff_left fun empty => absurd empty hbytes
      rw [suits, ← h.le_iff]
      constructor
      · intro inBounds
        rw [← txSysexData_txBufMaxSize s.single bytes timestamp result]
        exact (inBounds trivial).max_le
      · intro hmax _
        change Fits (s.single.txSysexData bytes timestamp result).2.txWriter
        rw [txSysexData_txWriter s.single hbytes]
        exact fits_call (c := .addSysexData bytes timestamp) trivial hmax

/-- Every transmission of a run writes inside `tx_buf` and returns in bounds exactly when every
transmission suits the MTU. A device that writes outside it is not followed any further. -/
theorem inBounds_run_iff {w : Writer maxSize} (hmax : w.txBufMaxSize.toNat ≤ maxSize)
    (actions : List SingleAction) :
    EachStep actInside (fun s a => ∀ t ∈ s, t.InBounds a) (some ⟨⟨w, []⟩, none⟩) actions ↔
      EachStep actInside (fun s a => ∀ t ∈ s, t.Suits a) (some ⟨⟨w, []⟩, none⟩) actions := by
  have start : ∀ t ∈ some (⟨⟨w, []⟩, none⟩ : SingleDevice maxSize), t.Follows := by
    intro t mem
    obtain rfl := Option.some.inj mem
    exact ⟨fun _ mem => absurd mem (by simp), fun _ => hmax⟩
  refine eachStep_congr (I := fun s : Option (SingleDevice maxSize) => ∀ t ∈ s, t.Follows) actions
    ?_ ?_ start
  · intro s a _ h _ t mem
    obtain ⟨s', before, next⟩ := Option.bind_eq_some_iff.mp mem
    rw [act_eq_step next]
    exact (h s' before).step a
  · intro s a _ h
    exact forall₂_congr fun t mem => (h t mem).inBounds_iff a

/-- A connection with the smallest MTU and more data than its packets hold. -/
theorem inBounds_run_small :
    EachStep actInside (fun s a => ∀ t ∈ s, t.InBounds a)
      (some (⟨⟨freshWriter blankWriter false false 64, []⟩, none⟩ : SingleDevice 64))
      [.onConnected false false 23, .transmit ⟨.sysexStart, 10, 0⟩,
        .transmitData (List.replicate 30 1) 11 0, .onMtuChanged 4, .transmitData [1] 12 0] :=
  (inBounds_run_iff (by decide) _).mpr (by decide +kernel)

/-- A connection without a channel, whose MTU is 0, makes the limit 65533 for a buffer of 64. A
smaller MTU leaves a packet behind that is longer than its maximum size. Neither run writes outside
the buffer. -/
theorem inBounds_run_fails :
    let start : SingleDevice 64 := ⟨⟨freshWriter blankWriter false false 64, []⟩, none⟩
    let wrapped := [.onConnected false false 0, .transmit ⟨.msg ⟨0x90, 60, 127⟩, 10, 0⟩]
    let stale := [.onConnected false false 23, .transmit ⟨.msg ⟨0x90, 60, 127⟩, 10, 0⟩,
      .onMtuChanged 4, .transmitData [] 11 0]
    let sizes (s : SingleDevice 64) :=
      (s.single.txWriter.txBufMaxSize, s.single.txWriter.txBufSize)
    (wrapped.foldl actInside (some start)).map sizes = some (65533, 5) ∧
      (stale.foldl actInside (some start)).map sizes = some (1, 5) ∧
      ¬ EachStep actInside (fun s a => ∀ t ∈ s, t.InBounds a) (some start) wrapped ∧
      ¬ EachStep actInside (fun s a => ∀ t ∈ s, t.InBounds a) (some start) stale := by
  intro start wrapped stale sizes
  refine ⟨by decide +kernel, by decide +kernel, ?_, ?_⟩
  · rintro ⟨-, inBounds, -⟩
    have fits := (inBounds_iff_fits _ _).mp (inBounds (start.step wrapped[0]) rfl) trivial
    exact absurd fits.max_le (by decide +kernel)
  · rintro ⟨-, -, -, inBounds, -⟩
    have fits := (inBounds_iff_fits _ _).mp
      (inBounds (((start.step stale[0]).step stale[1]).step stale[2]) rfl) trivial
    exact absurd fits.size_le (by decide +kernel)

end SingleDevice

end BleMidi.Service
