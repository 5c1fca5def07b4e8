/- Module: BleMidi/Packet/Operations
   source: ble_midi/src/ble_midi_packet.c (ble_midi_writer_*)
   digest: Operations in any order keep to the packet, and one that fails changes nothing. -/

import BleMidi.Packet.CallOrder

set_option autoImplicit false
set_option relaxedAutoImplicit false

namespace BleMidi.Packet.Operations

open BleMidi.Packet.Bytes
open BleMidi.Packet.PacketWriter
open BleMidi.Packet.WriterSpec
open BleMidi.Packet.WriterPieces
open BleMidi.Packet.WriterSimulation
open BleMidi.Packet.RoundTrip
open BleMidi.Packet.CallOrder

variable {maxSize : Nat}

/-- An operation of the writer. Behind `ble_midi_writer_init` the maximum size of the packet may be
set to another one. -/
inductive Operation
  | init (runningStatusEnabled noteOffAsNoteOn : Bool) (txBufMaxSize : Option UInt16)
  | reset
  | call (c : Call)
  deriving DecidableEq

/-- The operations without a return value never fail. -/
def Operation.exec (w : Writer maxSize) :
    Operation → Except PacketError Nat × Writer maxSize
  | .init runningStatusEnabled noteOffAsNoteOn none =>
      (.ok 0, writerInit w runningStatusEnabled noteOffAsNoteOn)
  | .init runningStatusEnabled noteOffAsNoteOn (some txBufMaxSize) =>
      (.ok 0, freshWriter w runningStatusEnabled noteOffAsNoteOn txBufMaxSize)
  | .reset => (.ok 0, writerReset w)
  | .call c => c.exec w

/-- The maximum size is one of the buffer, and an `int` can count the bytes of an argument. -/
def Operation.Allowed (maxSize : Nat) : Operation → Prop
  | .init _ _ (some txBufMaxSize) => txBufMaxSize.toNat ≤ maxSize
  | .call (.addSysexMsg bytes _) => bytes.length < 2 ^ 31 - 3
  | .call (.addSysexData dataBytes _) => dataBytes.length < 2 ^ 31
  | _ => True

instance (maxSize : Nat) : DecidablePred (Operation.Allowed maxSize)
  | .init _ _ (some _) => inferInstanceAs (Decidable (_ ≤ _))
  | .init _ _ none => inferInstanceAs (Decidable True)
  | .reset => inferInstanceAs (Decidable True)
  | .call (.addMsg _ _) => inferInstanceAs (Decidable True)
  | .call (.startSysexMsg _) => inferInstanceAs (Decidable True)
  | .call (.addSysexData _ _) => inferInstanceAs (Decidable (_ < _))
  | .call (.endSysexMsg _) => inferInstanceAs (Decidable True)
  | .call (.addSysexMsg _ _) => inferInstanceAs (Decidable (_ < _))

/-- The writer behind a sequence of operations. -/
def writerBehind (w : Writer maxSize) (ops : List Operation) : Writer maxSize :=
  ops.foldl (fun w op => (op.exec w).2) w

/-- The packet is in bounds, whichever operation comes next leaves the writer alone if it fails, and
a call that succeeds appends to the packet. -/
structure Contained (w : Writer maxSize) : Prop where
  fits : Fits w
  failure : ∀ op : Operation, op.Allowed maxSize → ∀ code, (op.exec w).1 = .error code →
    (op.exec w).2 = w
  success : ∀ c : Call, (Operation.call c).Allowed maxSize → ∀ count, (c.exec w).1 = .ok count →
    ∃ bytes, (c.exec w).2.payload = w.payload ++ bytes

variable {w : Writer maxSize} {op : Operation}

theorem short_of_allowed {c : Call} (h : (Operation.call c).Allowed maxSize) : Short c := by
  cases c with
  | addSysexMsg bytes t => exact h
  | addMsg m t => trivial
  | startSysexMsg t => trivial
  | addSysexData bytes t => trivial
  | endSysexMsg t => trivial

theorem fits_init (w : Writer maxSize) (runningStatusEnabled noteOffAsNoteOn : Bool) :
    Fits (writerInit w runningStatusEnabled noteOffAsNoteOn) := by
  constructor
  · exact Nat.zero_le _
  · change (UInt16.ofNat maxSize).toNat ≤ maxSize
    rw [UInt16.toNat_ofNat']
    exact Nat.mod_le _ _

theorem fits_exec (h : Fits w) (hallowed : op.Allowed maxSize) : Fits (op.exec w).2 := by
  cases op with
  | init runningStatusEnabled noteOffAsNoteOn txBufMaxSize =>
    cases txBufMaxSize with
    | none => exact fits_init w runningStatusEnabled noteOffAsNoteOn
    | some limit => exact ⟨Nat.zero_le _, hallowed⟩
  | reset => exact writerReset_fits h.max_le
  | call c =>
    change Fits (c.exec w).2
    rcases exec_outcome h (short_of_allowed hallowed) with ⟨code, refused⟩ | ⟨-, effect⟩
    · rw [refused]
      exact h
    · exact (effect.appends h).1

theorem Contained.of_fits (h : Fits w) : Contained w := by
  refine ⟨h, ?_, ?_⟩
  · intro op hallowed code failed
    cases op with
    | init runningStatusEnabled noteOffAsNoteOn txBufMaxSize => cases txBufMaxSize <;> cases failed
    | reset => cases failed
    | call c =>
      change (c.exec w).1 = .error code at failed
      change (c.exec w).2 = w
      rcases exec_outcome h (short_of_allowed hallowed) with ⟨code', refused⟩ | ⟨⟨count, ok⟩, -⟩
      · rw [refused]
      · cases ok.symm.trans failed
  · intro c hallowed count ok
    rcases exec_outcome h (short_of_allowed hallowed) with ⟨code, refused⟩ | ⟨-, effect⟩
    · rw [refused] at ok
      cases ok
    · exact (effect.appends h).2

private theorem fits_run (ops : List Operation) (hops : ∀ op ∈ ops, op.Allowed maxSize) :
    ∀ {w : Writer maxSize}, Fits w → Fits (writerBehind w ops) := by
  induction ops with
  | nil =>
    intro w h
    exact h
  | cons op ops ih =>
    intro w h
    rw [List.forall_mem_cons] at hops
    exact ih hops.2 (fits_exec h hops.1)

/-- Operations in any order keep the packet in bounds, and each of them is atomic. -/
theorem contained_run (hstart : Fits w) {ops : List Operation}
    (hops : ∀ op ∈ ops, op.Allowed maxSize) : Contained (writerBehind w ops) :=
  .of_fits (fits_run ops hops hstart)

/-- A message that fits a packet of 6 bytes, and one behind it that does not. -/
theorem contained_run_six : Contained (writerBehind blankWriter
    [.init true false (some 6), .call (.addMsg ⟨0x90, 60, 100⟩ 7),
      .call (.addMsg ⟨0xb0, 1, 2⟩ 7)]) :=
  contained_run ⟨by decide, by decide⟩ (by decide)

end BleMidi.Packet.Operations
