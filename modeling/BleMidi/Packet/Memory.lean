/- Module: BleMidi/Packet/Memory
   source: ble_midi/src/ble_midi_packet.h (struct ble_midi_writer_t),
     ble_midi/src/ble_midi_packet.c (tx_buf[tx_buf_size++] = byte)
   digest: The bytes of packets in memory, which are those of the writers inside tx_buf. -/

import BleMidi.Packet.PacketWriter

set_option autoImplicit false
set_option relaxedAutoImplicit false

namespace BleMidi.Packet.Memory

open BleMidi.Packet.PacketWriter

variable {maxSize packetCount : Nat}

/-- The `uint16_t` at an address, with its low byte first. -/
def load16 (memory : List UInt8) (address : Nat) : UInt16 :=
  UInt16.ofNat ((memory.getD address 0).toNat + 256 * (memory.getD (address + 1) 0).toNat)

def store16 (memory : List UInt8) (address : Nat) (value : UInt16) : List UInt8 :=
  (memory.set address value.toUInt8).set (address + 1) (value >>> 8).toUInt8

/-- The two bytes of a `uint16_t`. -/
def littleEndian (value : UInt16) : List UInt8 := [value.toUInt8, (value >>> 8).toUInt8]

/-- An `int` flag. -/
def flagBytes (flag : Bool) : List UInt8 := [if flag then 1 else 0, 0, 0, 0]

/-- The fields behind `tx_buf_size`, with the padding in front of the `int` fields. -/
def laterFields (w : Writer maxSize) : List UInt8 :=
  [w.prevStatusByte, w.prevRunningStatusByte] ++ littleEndian w.prevTimestamp ++
    [if w.inSysexMsg then 1 else 0, 0, 0, 0] ++ flagBytes w.runningStatusEnabled ++
    flagBytes w.noteOffAsNoteOn

/-- `struct ble_midi_writer_t` on a little endian machine with an `int` of four bytes, where
`BLE_MIDI_TX_PACKET_MAX_SIZE` is a multiple of four. -/
def object (w : Writer maxSize) : List UInt8 :=
  w.txBuf.toList ++ (littleEndian w.txBufMaxSize ++ (littleEndian w.txBufSize ++ laterFields w))

def objectSize (maxSize : Nat) : Nat := maxSize + 20

/-- The array `tx_packets`. -/
def ring (packets : Fin packetCount → Writer maxSize) : List UInt8 :=
  (List.finRange packetCount).flatMap fun i => object (packets i)

/-- The address of a packet of the array. -/
def packetAddress (maxSize : Nat) (i : Fin packetCount) : Nat := i.val * objectSize maxSize

/-- `tx_buf[tx_buf_size++] = byte` for the packet at an address. Compilers write the new size back
before they store the byte. -/
def append (maxSize address : Nat) (memory : List UInt8) (byte : UInt8) : List UInt8 :=
  let size := load16 memory (address + (maxSize + 2))
  (store16 memory (address + (maxSize + 2)) (size + 1)).set (address + size.toNat) byte

/-- The loop of `ble_midi_writer_add_sysex_data`. -/
def appendAll (maxSize address : Nat) (memory bytes : List UInt8) : List UInt8 :=
  bytes.foldl (append maxSize address) memory

/-- `tx_buf_size` and that many bytes from the start of `tx_buf` on. -/
def handedOut (maxSize address : Nat) (memory : List UInt8) : UInt16 × List UInt8 :=
  let size := load16 memory (address + (maxSize + 2))
  (size, (memory.drop address).take size.toNat)

private theorem load16_littleEndian (before after : List UInt8) (value : UInt16) :
    load16 (before ++ (littleEndian value ++ after)) before.length = value := by
  have bound := UInt16.toNat_lt value
  have low : (before ++ (littleEndian value ++ after)).getD before.length 0 = value.toUInt8 := by
    simp [littleEndian]
  have high : (before ++ (littleEndian value ++ after)).getD (before.length + 1) 0 =
      (value >>> 8).toUInt8 := by
    simp [littleEndian]
  rw [load16, low, high]
  apply UInt16.toNat_inj.mp
  simp only [UInt16.toNat_ofNat', UInt16.toNat_toUInt8, UInt16.toNat_shiftRight,
    UInt16.reduceToNat, Nat.shiftRight_eq_div_pow, Nat.reduceMod, Nat.reducePow]
  omega

private theorem store16_littleEndian (before after : List UInt8) (value value' : UInt16) :
    store16 (before ++ (littleEndian value ++ after)) before.length value' =
      before ++ (littleEndian value' ++ after) := by
  simp [store16, littleEndian]

theorem object_length (w : Writer maxSize) : (object w).length = objectSize maxSize := by
  simp [object, objectSize, littleEndian, laterFields, flagBytes]

private theorem split_size (before after : List UInt8) (w : Writer maxSize) :
    ∃ front, front.length = before.length + (maxSize + 2) ∧
      before ++ (object w ++ after) =
        front ++ (littleEndian w.txBufSize ++ (laterFields w ++ after)) := by
  refine ⟨before ++ (w.txBuf.toList ++ littleEndian w.txBufMaxSize), ?_, ?_⟩
  · simp [littleEndian]
  · simp [object]

theorem load16_size (before after : List UInt8) (w : Writer maxSize) :
    load16 (before ++ (object w ++ after)) (before.length + (maxSize + 2)) = w.txBufSize := by
  obtain ⟨front, length, memory⟩ := split_size before after w
  rw [memory, ← length, load16_littleEndian]

theorem append_object (before after : List UInt8) {w : Writer maxSize}
    (hinside : w.txBufSize.toNat < maxSize) (byte : UInt8) :
    append maxSize before.length (before ++ (object w ++ after)) byte =
      before ++ (object (w.put byte) ++ after) := by
  have position : w.txBufSize.toNat < w.txBuf.toList.length := by simpa using hinside
  have counted : store16 (before ++ (object w ++ after)) (before.length + (maxSize + 2))
      (w.txBufSize + 1) =
        before ++ (w.txBuf.toList ++ (littleEndian w.txBufMaxSize ++
          (littleEndian (w.txBufSize + 1) ++ (laterFields w ++ after)))) := by
    have written := store16_littleEndian
      (before ++ (w.txBuf.toList ++ littleEndian w.txBufMaxSize)) (laterFields w ++ after)
      w.txBufSize (w.txBufSize + 1)
    simpa [object, littleEndian] using written
  have stored : (w.put byte).txBuf.toList = w.txBuf.toList.set w.txBufSize.toNat byte := by
    simp [Writer.put]
  have put : object (w.put byte) ++ after =
      w.txBuf.toList.set w.txBufSize.toNat byte ++ (littleEndian w.txBufMaxSize ++
        (littleEndian (w.txBufSize + 1) ++ (laterFields w ++ after))) := by
    rw [object, stored, List.append_assoc, List.append_assoc, List.append_assoc]
    rfl
  rw [append, load16_size, counted, List.set_append_right _ _ (Nat.le_add_right _ _),
    Nat.add_sub_cancel_left, List.set_append_left _ _ position, put]

theorem appendAll_object (before after bytes : List UInt8) {w : Writer maxSize}
    (hinside : w.txBufSize.toNat + bytes.length ≤ maxSize) :
    appendAll maxSize before.length (before ++ (object w ++ after)) bytes =
      before ++ (object (w.putAll bytes) ++ after) := by
  induction bytes generalizing w with
  | nil => rfl
  | cons byte bytes ih =>
    rw [List.length_cons] at hinside
    have next : (w.put byte).txBufSize.toNat + bytes.length ≤ maxSize := by
      simp only [Writer.put, UInt16.toNat_add, UInt16.reduceToNat]
      omega
    change appendAll maxSize before.length (append maxSize before.length _ byte) bytes = _
    rw [append_object before after (by omega), ih next]
    rfl

private theorem split_ring (packets : Fin packetCount → Writer maxSize) (i : Fin packetCount) :
    ∃ before after, before.length = packetAddress maxSize i ∧
      ∀ w, ring (Function.update packets i w) = before ++ (object w ++ after) := by
  obtain ⟨first, rest, split⟩ := List.append_of_mem (List.mem_finRange i)
  have once : (first ++ i :: rest).Nodup := split ▸ List.nodup_finRange packetCount
  obtain ⟨-, later, apart⟩ := List.nodup_append.mp once
  have index : first.length = i.val := by
    have bound : first.length < (List.finRange packetCount).length := by
      rw [split, List.length_append, List.length_cons]
      omega
    have found : (List.finRange packetCount)[first.length] = i := by
      simp [split]
    rw [List.getElem_finRange] at found
    exact congrArg Fin.val found
  refine ⟨first.flatMap fun j => object (packets j), rest.flatMap fun j => object (packets j), ?_,
    fun w => ?_⟩
  · rw [List.length_flatMap, packetAddress, ← index]
    simp [object_length]
  · have kept {l : List (Fin packetCount)} (hl : i ∉ l) :
        (l.flatMap fun j => object (Function.update packets i w j)) =
          l.flatMap fun j => object (packets j) := by
      refine List.flatMap_congr fun j hj => ?_
      rw [Function.update_of_ne (ne_of_mem_of_not_mem hj hl)]
    have out : i ∉ first := fun mem => apart i mem i List.mem_cons_self rfl
    rw [ring, split, List.flatMap_append, List.flatMap_cons, kept out,
      kept (List.nodup_cons.mp later).1, Function.update_self]

theorem appendAll_ring (packets : Fin packetCount → Writer maxSize) (i : Fin packetCount)
    {bytes : List UInt8} (hinside : (packets i).txBufSize.toNat + bytes.length ≤ maxSize) :
    appendAll maxSize (packetAddress maxSize i) (ring packets) bytes =
      ring (Function.update packets i ((packets i).putAll bytes)) := by
  obtain ⟨before, after, address, memory⟩ := split_ring packets i
  have start : ring packets = before ++ (object (packets i) ++ after) := by
    rw [← memory (packets i), Function.update_eq_self]
  rw [start, memory, ← address, appendAll_object before after bytes hinside]

/-- A packet that is not longer than `tx_buf` is handed out as the writer has it. -/
theorem handedOut_ring (packets : Fin packetCount → Writer maxSize) (i : Fin packetCount)
    (hinside : (packets i).txBufSize.toNat ≤ maxSize) :
    handedOut maxSize (packetAddress maxSize i) (ring packets) =
      ((packets i).txBufSize, (packets i).payload) := by
  obtain ⟨before, after, address, memory⟩ := split_ring packets i
  have start : ring packets = before ++ (object (packets i) ++ after) := by
    rw [← memory (packets i), Function.update_eq_self]
  have inside : (packets i).txBufSize.toNat ≤ (packets i).txBuf.toList.length := by
    simpa using hinside
  rw [handedOut, start, ← address, load16_size, List.drop_left, object, List.append_assoc,
    List.take_append_of_le_length inside]
  rfl

end BleMidi.Packet.Memory
