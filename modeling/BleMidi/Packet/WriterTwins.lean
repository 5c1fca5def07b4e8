/- Module: BleMidi/Packet/WriterTwins
   source: ble_midi/src/ble_midi_packet.c (ble_midi_writer_*)
   digest: The bytes of the buffer behind the end of a packet do not matter. -/

import BleMidi.Packet.WriterSpec

set_option autoImplicit false
set_option relaxedAutoImplicit false

namespace BleMidi.Packet.WriterTwins

open BleMidi.Packet.Bytes
open BleMidi.Packet.PacketWriter
open BleMidi.Packet.WriterSpec

variable {maxSize : Nat}

/-- Two writers that differ at most in the bytes of the buffer behind the packet. -/
structure Alike (w w' : Writer maxSize) : Prop where
  fields : ∃ txBuf, w' = { w with txBuf := txBuf }
  payload : w'.payload = w.payload

namespace Alike

variable {w w' : Writer maxSize}

theorem refl (w : Writer maxSize) : Alike w w := ⟨⟨w.txBuf, rfl⟩, rfl⟩

theorem txBufSize (h : Alike w w') : w'.txBufSize = w.txBufSize := by
  obtain ⟨⟨txBuf, rfl⟩, -⟩ := h
  rfl

theorem txBufMaxSize (h : Alike w w') : w'.txBufMaxSize = w.txBufMaxSize := by
  obtain ⟨⟨txBuf, rfl⟩, -⟩ := h
  rfl

theorem inSysexMsg (h : Alike w w') : w'.inSysexMsg = w.inSysexMsg := by
  obtain ⟨⟨txBuf, rfl⟩, -⟩ := h
  rfl

theorem header (h : Alike w w') (timestamp : UInt16) :
    w'.header timestamp = w.header timestamp := by
  obtain ⟨⟨txBuf, rfl⟩, -⟩ := h
  rfl

theorem hasRoom (h : Alike w w') (bytes : List UInt8) : HasRoom w' bytes ↔ HasRoom w bytes := by
  obtain ⟨⟨txBuf, rfl⟩, -⟩ := h
  exact Iff.rfl

private theorem put_payload_eq (w : Writer maxSize) (byte : UInt8) :
    (w.put byte).payload =
      if w.txBufSize.toNat + 1 < 2 ^ 16 then
        if w.txBufSize.toNat < maxSize then w.payload ++ [byte] else w.payload
      else [] := by
  have length : w.txBuf.toList.length = maxSize := by simp
  have written : (w.put byte).txBuf.toList = w.txBuf.toList.set w.txBufSize.toNat byte := by
    simp [Writer.put]
  by_cases small : w.txBufSize.toNat + 1 < 2 ^ 16
  · have size : (w.put byte).txBufSize.toNat = w.txBufSize.toNat + 1 :=
      putAll_size (show w.txBufSize.toNat + [byte].length < 2 ^ 16 from small)
    rw [if_pos small, Writer.payload, size, written]
    by_cases inside : w.txBufSize.toNat < maxSize
    · have position : w.txBufSize.toNat < w.txBuf.toList.length := by omega
      rw [if_pos inside, List.take_add_one, List.take_set_of_le le_rfl,
        List.getElem?_set_self position]
      rfl
    · rw [if_neg inside, List.set_eq_of_length_le (by omega), Writer.payload,
        List.take_of_length_le (by omega), List.take_of_length_le (by omega)]
  · have bound := UInt16.toNat_lt w.txBufSize
    have zero : (w.put byte).txBufSize.toNat = 0 := by
      simp only [Writer.put, UInt16.toNat_add, UInt16.reduceToNat]
      omega
    rw [if_neg small, Writer.payload, zero, List.take_zero]

theorem put (h : Alike w w') (byte : UInt8) : Alike (w.put byte) (w'.put byte) := by
  have size := h.txBufSize
  obtain ⟨⟨txBuf, rfl⟩, payload⟩ := h
  refine ⟨⟨txBuf.setIfInBounds w.txBufSize.toNat byte, rfl⟩, ?_⟩
  rw [put_payload_eq, put_payload_eq, payload]

theorem putAll (h : Alike w w') (bytes : List UInt8) :
    Alike (w.putAll bytes) (w'.putAll bytes) := by
  induction bytes generalizing w w' with
  | nil => exact h
  | cons byte bytes ih => exact ih (h.put byte)

/-- The same change of the fields other than the buffer and the size. -/
theorem update (h : Alike w w') {f : Writer maxSize → Writer maxSize}
    (hf : ∀ (w : Writer maxSize) txBuf, f { w with txBuf := txBuf } = { f w with txBuf := txBuf })
    (hbuf : ∀ w : Writer maxSize, (f w).txBuf = w.txBuf ∧ (f w).txBufSize = w.txBufSize) :
    Alike (f w) (f w') := by
  have same (w : Writer maxSize) : (f w).payload = w.payload := by
    rw [Writer.payload, (hbuf w).1, (hbuf w).2]
    rfl
  refine ⟨?_, by rw [same, same, h.payload]⟩
  obtain ⟨⟨txBuf, rfl⟩, -⟩ := h
  exact ⟨txBuf, hf w txBuf⟩

theorem reset (h : Alike w w') : Alike (writerReset w) (writerReset w') := by
  refine ⟨?_, ?_⟩
  · obtain ⟨⟨txBuf, rfl⟩, -⟩ := h
    exact ⟨txBuf, rfl⟩
  · rw [writerReset_payload, writerReset_payload]

theorem setMaxSize (h : Alike w w') (size : UInt16) :
    Alike { w with txBufMaxSize := size } { w' with txBufMaxSize := size } :=
  h.update (f := fun w => { w with txBufMaxSize := size }) (fun _ _ => rfl) fun _ => ⟨rfl, rfl⟩

theorem added (h : Alike w w') (bytes : List UInt8) {f : Writer maxSize → Writer maxSize}
    (hf : ∀ {w w'}, Alike w w' → Alike (f w) (f w')) :
    (added w bytes f).1 = (WriterSpec.added w' bytes f).1 ∧
      Alike (WriterSpec.added w bytes f).2 (WriterSpec.added w' bytes f).2 := by
  unfold WriterSpec.added
  by_cases room : HasRoom w bytes
  · rw [if_pos room, if_pos ((h.hasRoom bytes).mpr room)]
    exact ⟨rfl, hf (h.putAll bytes)⟩
  · rw [if_neg room, if_neg fun room' => room ((h.hasRoom bytes).mp room')]
    exact ⟨rfl, h⟩

theorem startSysexMsg (h : Alike w w') (timestamp : UInt16) :
    (writerStartSysexMsg w timestamp).1 = (writerStartSysexMsg w' timestamp).1 ∧
      Alike (writerStartSysexMsg w timestamp).2 (writerStartSysexMsg w' timestamp).2 := by
  have bytes : statusBytes w' timestamp 0xf0 = statusBytes w timestamp 0xf0 := by
    rw [statusBytes, h.header]
    rfl
  rw [writerStartSysexMsg_eq, writerStartSysexMsg_eq, h.inSysexMsg, bytes]
  cases w.inSysexMsg with
  | true => exact ⟨rfl, h⟩
  | false => exact h.added _ fun h => h.update (f := fun w => { w with
      inSysexMsg := true, prevRunningStatusByte := 0 }) (fun _ _ => rfl) fun _ => ⟨rfl, rfl⟩

theorem endSysexMsg (h : Alike w w') (timestamp : UInt16) :
    (writerEndSysexMsg w timestamp).1 = (writerEndSysexMsg w' timestamp).1 ∧
      Alike (writerEndSysexMsg w timestamp).2 (writerEndSysexMsg w' timestamp).2 := by
  have bytes : statusBytes w' timestamp 0xf7 = statusBytes w timestamp 0xf7 := by
    rw [statusBytes, h.header]
    rfl
  rw [writerEndSysexMsg_eq, writerEndSysexMsg_eq, h.inSysexMsg, bytes]
  cases w.inSysexMsg with
  | false => exact ⟨rfl, h⟩
  | true =>
    rw [if_pos rfl, if_pos rfl]
    exact h.added _ fun h => h.update (f := fun w => { w with inSysexMsg := false })
      (fun _ _ => rfl) fun _ => ⟨rfl, rfl⟩

theorem addMsg (h : Alike w w') (m : MessageBytes) (timestamp : UInt16) :
    (writerAddMsg w m timestamp).1 = (writerAddMsg w' m timestamp).1 ∧
      Alike (writerAddMsg w m timestamp).2 (writerAddMsg w' m timestamp).2 := by
  have flag' := h.inSysexMsg
  cases flag : w.inSysexMsg with
  | true =>
    rw [flag] at flag'
    rw [writerAddMsg_inside flag, writerAddMsg_inside flag']
    by_cases realtime : isRealtimeMessage m.byte0 = true
    · rw [if_pos realtime, if_pos realtime]
      exact h.added _ fun h => h
    · rw [if_neg realtime, if_neg realtime]
      exact ⟨rfl, h⟩
  | false =>
    rw [flag] at flag'
    by_cases valid : ValidMessage m
    · have bytes : messageBytesToAppend w' m timestamp = messageBytesToAppend w m timestamp := by
        obtain ⟨⟨txBuf, rfl⟩, -⟩ := h
        rfl
      have kept (v : Writer maxSize) : remember w' m timestamp v = remember w m timestamp v := by
        obtain ⟨⟨txBuf, rfl⟩, -⟩ := h
        rfl
      rw [writerAddMsg_outside flag valid, writerAddMsg_outside flag' valid, bytes, funext kept]
      exact h.added _ fun h => h.update (f := remember w m timestamp) (fun _ _ => rfl)
        fun _ => ⟨rfl, rfl⟩
    · unfold writerAddMsg
      rw [flag, flag', if_neg Bool.false_ne_true, if_neg Bool.false_ne_true]
      by_cases size : messageSize m.byte0 = 0
      · simp only [size, if_true]
        exact ⟨trivial, h⟩
      · have data : (!isDataByte m.byte1 || !isDataByte m.byte2) = true := by
          by_contra both
          simp only [Bool.or_eq_true, Bool.not_eq_true', not_or, Bool.not_eq_false] at both
          exact valid ⟨size, both.1, both.2⟩
        simp only [size, if_false, data, if_true]
        exact ⟨trivial, h⟩

/-- Both packets take the same number of data bytes, or both refuse them. -/
theorem addSysexData (h : Alike w w') (bytes : List UInt8) (timestamp : UInt16) :
    (writerAddSysexData w bytes timestamp).1 = (writerAddSysexData w' bytes timestamp).1 ∧
      Alike (writerAddSysexData w bytes timestamp).2 (writerAddSysexData w' bytes timestamp).2 := by
  have headed := h.putAll (w.header timestamp)
  unfold writerAddSysexData
  rw [h.inSysexMsg, h.txBufSize, h.txBufMaxSize, h.header]
  by_cases refused : (!w.inSysexMsg && decide (0 < w.txBufSize)) = true
  · rw [if_pos refused, if_pos refused]
    exact ⟨rfl, h⟩
  by_cases invalid : (!bytes.all isDataByte) = true
  · rw [if_neg refused, if_neg refused, if_pos invalid, if_pos invalid]
    exact ⟨rfl, h⟩
  by_cases tiny : w.txBufSize = 0 ∧ w.txBufMaxSize < 1
  · rw [if_neg refused, if_neg refused, if_neg invalid, if_neg invalid, if_pos tiny, if_pos tiny]
    exact ⟨rfl, h⟩
  · rw [if_neg refused, if_neg refused, if_neg invalid, if_neg invalid, if_neg tiny, if_neg tiny]
    have count : (w'.putAll (w.header timestamp)).numDataBytesToAdd bytes.length =
        (w.putAll (w.header timestamp)).numDataBytesToAdd bytes.length := by
      rw [Writer.numDataBytesToAdd, Writer.room, headed.txBufSize, headed.txBufMaxSize]
      rfl
    simp only [count]
    exact ⟨trivial, headed.putAll _⟩

end Alike

end BleMidi.Packet.WriterTwins
