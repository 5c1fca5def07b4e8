/- Module: BleMidi/Queue/Chunks
   source: ble_midi/src/tx_queue.c (tx_queue_fifo_add_*)
   digest: The chunks that the producer calls put into the FIFO, and how they are read back. -/

import BleMidi.Queue.TxQueue

set_option autoImplicit false
set_option relaxedAutoImplicit false

namespace BleMidi.Queue

open BleMidi.Packet.PacketWriter
open TxQueue

variable {maxSize packetCount : Nat}

/-- A chunk of the FIFO: three message bytes (also a sysex start or end), sysex data, or a packet
size request. -/
inductive Chunk
  | threeBytes (bytes : MessageBytes)
  | data (bytes : List UInt8)
  | packetSize (size : UInt16)
  deriving DecidableEq, Repr

namespace Chunk

def encode : Chunk → List UInt8
  | threeBytes bytes => [bytes.byte0, bytes.byte1, bytes.byte2]
  | data bytes =>
      sysexDataChunkId :: UInt8.ofNat (bytes.length &&& 0xff) ::
        UInt8.ofNat ((bytes.length >>> 8) &&& 0xff) :: bytes
  | packetSize size =>
      [txMaxPacketSizeChunkId, (size &&& 0xff).toUInt8, ((size >>> 8) &&& 0xff).toUInt8]

/-- Status bytes start three byte chunks, and data chunks are neither empty nor too long. -/
def WellFormed : Chunk → Prop
  | threeBytes bytes => 128 ≤ bytes.byte0
  | data bytes => 1 ≤ bytes.length ∧ bytes.length ≤ sysexDataChunkMaxByteCount
  | packetSize _ => True

instance : DecidablePred WellFormed
  | threeBytes bytes => inferInstanceAs (Decidable (128 ≤ bytes.byte0))
  | data bytes =>
      inferInstanceAs (Decidable (1 ≤ bytes.length ∧ bytes.length ≤ sysexDataChunkMaxByteCount))
  | packetSize _ => inferInstanceAs (Decidable True)

theorem encode_ne_nil (chunk : Chunk) : chunk.encode ≠ [] := by
  cases chunk <;> simp [encode]

end Chunk

/-- The header of a sysex data chunk. -/
def chunkHeader (count : Nat) : List UInt8 :=
  [sysexDataChunkId, UInt8.ofNat (count &&& 0xff), UInt8.ofNat ((count >>> 8) &&& 0xff)]

theorem Chunk.encode_data {bytes : List UInt8} {count : Nat} (h : count ≤ bytes.length) :
    (Chunk.data (bytes.take count)).encode = chunkHeader count ++ bytes.take count := by
  rw [Chunk.encode, List.length_take, Nat.min_eq_left h]
  rfl

/-- The bytes of the FIFO as chunks. -/
def Fifo.Holds (fifo : Fifo) (chunks : List Chunk) : Prop :=
  fifo.bytes = chunks.flatMap Chunk.encode

theorem word_eq (lsb msb : UInt8) : word lsb msb = msb.toNat * 256 + lsb.toNat := by
  have small : lsb.toNat < 2 ^ 8 := UInt8.toNat_lt lsb
  unfold word
  rw [Nat.or_comm, Nat.shiftLeft_eq, Nat.mul_comm, ← Nat.two_pow_add_eq_or_of_lt small,
    Nat.mul_comm]

private theorem and_255 (n : Nat) : n &&& 0xff = n % 256 := Nat.and_two_pow_sub_one_eq_mod n 8

theorem word_count {n : Nat} (h : n < 2 ^ 16) :
    word (UInt8.ofNat (n &&& 0xff)) (UInt8.ofNat ((n >>> 8) &&& 0xff)) = n := by
  rw [word_eq, and_255, and_255, Nat.shiftRight_eq_div_pow]
  simp only [UInt8.toNat_ofNat']
  omega

theorem word_size (size : UInt16) :
    word (size &&& 0xff).toUInt8 ((size >>> 8) &&& 0xff).toUInt8 = size.toNat := by
  have bound := UInt16.toNat_lt size
  rw [word_eq]
  simp only [UInt16.toNat_toUInt8, UInt16.toNat_and, UInt16.toNat_shiftRight, UInt16.reduceToNat,
    Nat.reduceMod, and_255, Nat.shiftRight_eq_div_pow]
  omega

/-- A call of the producer API. -/
inductive Request
  | addMsg (bytes : MessageBytes)
  | addSysexStart
  | addSysexData (bytes : List UInt8)
  | addSysexEnd
  | addTxPacketSize (size : UInt16)
  deriving DecidableEq

namespace Request

/-- An error code as an error, success as 0. -/
def returned (r : TxQueueError × TxQueue maxSize packetCount) :
    Except TxQueueError Nat × TxQueue maxSize packetCount :=
  match r with
  | (.success, queue) => (.ok 0, queue)
  | (code, queue) => (.error code, queue)

/-- The return value of a call, 0 or the number of data bytes accepted on success. -/
def exec (queue : TxQueue maxSize packetCount) :
    Request → Except TxQueueError Nat × TxQueue maxSize packetCount
  | addMsg bytes => returned (queue.fifoAddMsg bytes)
  | addSysexStart => returned queue.fifoAddSysexStart
  | addSysexData bytes => queue.fifoAddSysexData bytes
  | addSysexEnd => returned queue.fifoAddSysexEnd
  | addTxPacketSize size => returned (queue.fifoAddTxPacketSize size)

/-- The chunk of a call that returned `count`. -/
def chunk (count : Nat) : Request → Chunk
  | addMsg bytes => .threeBytes bytes
  | addSysexStart => .threeBytes ⟨sysexStart, 0, 0⟩
  | addSysexData bytes => .data (bytes.take count)
  | addSysexEnd => .threeBytes ⟨sysexEnd, 0, 0⟩
  | addTxPacketSize size => .packetSize size

end Request

/-- What a call does: nothing, or it appends its chunk to the FIFO. -/
def Appends (queue : TxQueue maxSize packetCount) (chunk : Nat → Chunk)
    (r : Except TxQueueError Nat × TxQueue maxSize packetCount) : Prop :=
  (∃ code, r = (.error code, queue)) ∨
    ∃ count fifo, r = (.ok count, { queue with fifo := fifo }) ∧
      fifo.bytes = queue.fifo.bytes ++ (chunk count).encode

private theorem write3_appends (queue : TxQueue maxSize packetCount) {c : Chunk}
    {bytes : List UInt8} (hc : c.encode = bytes) (hlen : bytes.length = 3) :
    Appends queue (fun _ => c) (Request.returned (queue.write3ByteChunkToFifo bytes)) := by
  by_cases space : queue.fifo.getFreeSpace < 3
  · refine .inl ⟨.fifoFull, ?_⟩
    rw [write3ByteChunkToFifo, if_pos space]
    rfl
  · obtain ⟨count, written, -⟩ := Fifo.write_of_le (f := queue.fifo) (v := bytes) (by omega)
    refine .inr ⟨0, (queue.fifo.write bytes).2, ?_, by rw [written, hc]⟩
    rw [write3ByteChunkToFifo, if_neg space]
    change Request.returned (if (queue.fifo.write bytes).1 = 3 then _ else _, _) = _
    rw [count, if_pos hlen]
    rfl

private theorem addSysexData_appends (queue : TxQueue maxSize packetCount) (bytes : List UInt8) :
    (∃ code, queue.fifoAddSysexData bytes = (.error code, queue)) ∨
      ∃ count fifo, queue.fifoAddSysexData bytes = (.ok count, { queue with fifo := fifo }) ∧
        fifo.bytes = queue.fifo.bytes ++ (Chunk.data (bytes.take count)).encode ∧
        count ≤ bytes.length ∧ count ≤ sysexDataChunkMaxByteCount ∧ (bytes ≠ [] → 1 ≤ count) := by
  unfold fifoAddSysexData
  by_cases space : queue.fifo.getFreeSpace ≤ sysexDataChunkHeaderSize
  · exact .inl ⟨.fifoFull, if_pos space⟩
  rw [if_neg space]
  generalize hcount : numBytesToSend queue.fifo.getFreeSpace bytes.length = count
  unfold numBytesToSend at hcount
  unfold sysexDataChunkHeaderSize at space hcount
  have small : (bytes.take count).length = count := by
    rw [List.length_take]
    omega
  generalize hheader : [sysexDataChunkId, UInt8.ofNat (count &&& 0xff),
    UInt8.ofNat ((count >>> 8) &&& 0xff)] = header
  have three : header.length = 3 := by rw [← hheader]; rfl
  obtain ⟨number, written, capacity⟩ :=
    Fifo.write_of_le (f := queue.fifo) (v := header) (by omega)
  generalize hfifo : (queue.fifo.write header).2 = fifo at written capacity
  have left : fifo.getFreeSpace = queue.fifo.getFreeSpace - 3 := by
    unfold Fifo.getFreeSpace
    rw [written, capacity, List.length_append, three]
    omega
  obtain ⟨number', written', -⟩ :=
    Fifo.write_of_le (f := fifo) (v := bytes.take count) (by omega)
  have first : queue.fifo.write header = (3, fifo) := Prod.ext (number.trans three) hfifo
  have second : fifo.write (bytes.take count) = (count, (fifo.write (bytes.take count)).2) :=
    Prod.ext (number'.trans small) rfl
  refine .inr ⟨count, (fifo.write (bytes.take count)).2, ?_, ?_, by omega, by omega, ?_⟩
  · simp only [hheader, first]
    rw [second]
    rfl
  · rw [written', written, Chunk.encode, small, List.append_assoc, ← hheader]
    rfl
  · intro nonempty
    have := List.length_pos_iff.mpr nonempty
    unfold sysexDataChunkMaxByteCount at hcount
    omega

/-- Every producer call leaves the queue alone or appends its chunk to the FIFO. -/
theorem Request.exec_appends (queue : TxQueue maxSize packetCount) (r : Request) :
    Appends queue (fun count => r.chunk count) (r.exec queue) := by
  cases r with
  | addMsg bytes => exact write3_appends queue rfl rfl
  | addSysexStart => exact write3_appends queue rfl rfl
  | addSysexData bytes =>
    rcases addSysexData_appends queue bytes with failed | ⟨count, fifo, exec, written, -⟩
    · exact .inl failed
    · exact .inr ⟨count, fifo, exec, written⟩
  | addSysexEnd => exact write3_appends queue rfl rfl
  | addTxPacketSize size => exact write3_appends queue rfl rfl

/-- A request whose chunk is well formed: a status byte, or at least one data byte. -/
def Request.WellFormed : Request → Prop
  | addMsg bytes => 128 ≤ bytes.byte0
  | addSysexData bytes => bytes ≠ []
  | _ => True

instance : DecidablePred Request.WellFormed
  | .addMsg bytes => inferInstanceAs (Decidable (128 ≤ bytes.byte0))
  | .addSysexData bytes => inferInstanceAs (Decidable (bytes ≠ []))
  | .addSysexStart => inferInstanceAs (Decidable True)
  | .addSysexEnd => inferInstanceAs (Decidable True)
  | .addTxPacketSize _ => inferInstanceAs (Decidable True)

theorem Request.chunk_wellFormed {queue queue' : TxQueue maxSize packetCount} {r : Request}
    (h : r.WellFormed) {count : Nat} (hexec : r.exec queue = (.ok count, queue')) :
    (r.chunk count).WellFormed := by
  cases r with
  | addMsg bytes => exact h
  | addSysexStart => exact (by decide : (128 : UInt8) ≤ sysexStart)
  | addSysexData bytes =>
    rcases addSysexData_appends queue bytes with ⟨code, failed⟩ |
      ⟨count', fifo, exec, -, most, limit, least⟩
    · cases hexec.symm.trans failed
    · have same : count = count' := Except.ok.inj (congrArg Prod.fst (hexec.symm.trans exec))
      have length : (bytes.take count).length = count := by
        rw [List.length_take]
        omega
      have positive := least h
      exact ⟨by omega, by omega⟩
  | addSysexEnd => exact (by decide : (128 : UInt8) ≤ sysexEnd)
  | addTxPacketSize size => trivial

end BleMidi.Queue
