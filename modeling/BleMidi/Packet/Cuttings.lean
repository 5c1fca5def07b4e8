/- Module: BleMidi/Packet/Cuttings
   source: ble_midi/src/ble_midi_packet.c, test/ble_midi_packet_test.c (test_multi_packet_sysex)
   digest: The packets of a sysex message do not depend on how its data is cut into chunks. -/

import BleMidi.Core.Chunking
import BleMidi.Packet.RoundTrip

set_option autoImplicit false
set_option relaxedAutoImplicit false

namespace BleMidi.Packet.Cuttings

open BleMidi.Core.Chunking
open BleMidi.Packet.Bytes
open BleMidi.Packet.PacketWriter
open BleMidi.Packet.WriterSpec
open BleMidi.Packet.RoundTrip

variable {maxSize : Nat}

/-- The packets finished so far, the writer and the sum of the counts returned so far. -/
structure Feed (maxSize : Nat) where
  packets : List (List UInt8)
  writer : Writer maxSize
  count : Nat
  deriving DecidableEq

/-- Keep the packet and begin the next one. -/
def Feed.finishPacket (s : Feed maxSize) : Feed maxSize :=
  { s with packets := s.packets ++ [s.writer.payload], writer := writerReset s.writer }

/-- The packet is not full. -/
def Feed.HasSpace (s : Feed maxSize) : Prop := s.writer.txBufSize < s.writer.txBufMaxSize

instance (s : Feed maxSize) : Decidable s.HasSpace := inferInstanceAs (Decidable (_ < _))

/-- Write a chunk. A partial write finishes the packet and the rest of the chunk follows. -/
def feedChunk (timestamp : UInt16) : Nat → Feed maxSize → List UInt8 → Option (Feed maxSize)
  | 0, _, _ => none
  | fuel + 1, s, bytes =>
      match writerAddSysexData s.writer bytes timestamp with
      | (.error _, _) => none
      | (.ok count, w) =>
          let written : Feed maxSize := ⟨s.packets, w, s.count + count⟩
          if count < bytes.length then
            feedChunk timestamp fuel written.finishPacket (bytes.drop count)
          else some written

/-- Start a sysex message and write the chunks. The first write of a chunk may add no byte, every
other one adds at least one. -/
def feedChunks (startTime timestamp : UInt16) (w : Writer maxSize) (chunks : List (List UInt8)) :
    Option (Feed maxSize) :=
  match writerStartSysexMsg w startTime with
  | (.success, w') =>
      chunks.foldlM (fun s chunk => feedChunk timestamp (chunk.length + 1) s chunk) ⟨[], w', 0⟩
  | _ => none

/-- One data byte by itself: it goes into the next packet if this one is full. -/
def writeByte (timestamp : UInt16) (s : Feed maxSize) (byte : UInt8) : Feed maxSize :=
  let s := if s.HasSpace then s else s.finishPacket
  { s with
    writer := s.writer.putAll (s.writer.header timestamp ++ [byte])
    count := s.count + 1 }

/-- A sysex message is open, and a packet has room for a header and a data byte. -/
structure Feeding (s : Feed maxSize) : Prop where
  flag : s.writer.inSysexMsg = true
  size_le : s.writer.txBufSize.toNat ≤ s.writer.txBufMaxSize.toNat
  two_le : 2 ≤ s.writer.txBufMaxSize.toNat

theorem foldl_writeByte_count (timestamp : UInt16) (bytes : List UInt8) :
    ∀ s : Feed maxSize, (bytes.foldl (writeByte timestamp) s).count = s.count + bytes.length := by
  induction bytes with
  | nil =>
    intro s
    rfl
  | cons byte bytes ih =>
    intro s
    have first : (writeByte timestamp s byte).count = s.count + 1 := by
      unfold writeByte
      by_cases space : s.HasSpace
      · rw [if_pos space]
      · rw [if_neg space]
        rfl
    rw [List.foldl_cons, ih, first, List.length_cons]
    omega

/-- The state behind bytes that fit, with the header if it is due. -/
def Feed.fill (s : Feed maxSize) (timestamp : UInt16) (bytes : List UInt8) : Feed maxSize :=
  { s with
    writer := s.writer.putAll (s.writer.header timestamp ++ bytes)
    count := s.count + bytes.length }

section Fill

variable {s : Feed maxSize} {timestamp : UInt16}

theorem hasSpace_iff : s.HasSpace ↔ s.writer.txBufSize.toNat < s.writer.txBufMaxSize.toNat :=
  UInt16.lt_iff_toNat_lt

theorem finishPacket_hasSpace (hmax : 0 < s.writer.txBufMaxSize.toNat) :
    s.finishPacket.HasSpace := hasSpace_iff.mpr hmax

theorem writeByte_space (h : s.HasSpace) (byte : UInt8) :
    writeByte timestamp s byte = s.fill timestamp [byte] := by
  unfold writeByte
  rw [if_pos h]
  rfl

theorem writeByte_full (h : ¬ s.HasSpace) (byte : UInt8) :
    writeByte timestamp s byte = s.finishPacket.fill timestamp [byte] := by
  unfold writeByte
  rw [if_neg h]
  rfl

theorem header_of_written (w : Writer maxSize) (h : w.txBufSize ≠ 0) (timestamp : UInt16) :
    w.header timestamp = [] := if_neg h

theorem fill_written {bytes : List UInt8} (hbytes : bytes ≠ [])
    (hroom : HasRoom s.writer (s.writer.header timestamp ++ bytes)) :
    (s.fill timestamp bytes).writer.txBufSize ≠ 0 := by
  have size := hroom.size
  have positive := List.length_pos_of_ne_nil hbytes
  intro empty
  change (s.fill timestamp bytes).writer.txBufSize.toNat = _ at size
  rw [empty, List.length_append] at size
  simp at size
  omega

theorem fill_nil (h : s.writer.txBufSize ≠ 0) : s.fill timestamp [] = s := by
  unfold Feed.fill
  rw [header_of_written _ h]
  rfl

theorem fill_fill {bytes rest : List UInt8} (hbytes : bytes ≠ [])
    (hroom : HasRoom s.writer (s.writer.header timestamp ++ bytes)) :
    (s.fill timestamp bytes).fill timestamp rest = s.fill timestamp (bytes ++ rest) := by
  have header := header_of_written _ (fill_written hbytes hroom) timestamp
  unfold Feed.fill at header ⊢
  simp only [header, List.nil_append, List.length_append, ← putAll_append, List.append_assoc,
    Nat.add_assoc]

theorem foldl_writeByte_room (bytes : List UInt8) :
    ∀ {s : Feed maxSize}, bytes ≠ [] →
      HasRoom s.writer (s.writer.header timestamp ++ bytes) →
      bytes.foldl (writeByte timestamp) s = s.fill timestamp bytes := by
  induction bytes with
  | nil =>
    intro s hbytes _
    exact absurd rfl hbytes
  | cons byte rest ih =>
    intro s _ hroom
    have enough : s.writer.txBufSize.toNat +
        (s.writer.header timestamp ++ byte :: rest).length ≤ s.writer.txBufMaxSize.toNat := hroom
    rw [List.length_append, List.length_cons] at enough
    have space : s.HasSpace := hasSpace_iff.mpr (by omega)
    have first : HasRoom s.writer (s.writer.header timestamp ++ [byte]) := by
      unfold HasRoom
      rw [List.length_append, List.length_singleton]
      omega
    rw [List.foldl_cons, writeByte_space space]
    by_cases last : rest = []
    · rw [last]
      rfl
    · have written := fill_written (List.cons_ne_nil byte []) first
      have left : HasRoom (s.fill timestamp [byte]).writer
          ((s.fill timestamp [byte]).writer.header timestamp ++ rest) := by
        rw [header_of_written _ written, List.nil_append]
        unfold HasRoom Feed.fill
        rw [first.size, putAll_txBufMaxSize, List.length_append, List.length_singleton]
        omega
      rw [ih last left, fill_fill (List.cons_ne_nil byte []) first]
      rfl

theorem foldl_writeByte_full (hmax : 0 < s.writer.txBufMaxSize.toNat)
    (hfull : ¬ s.HasSpace) {bytes : List UInt8}
    (hbytes : bytes ≠ []) :
    bytes.foldl (writeByte timestamp) s = bytes.foldl (writeByte timestamp) s.finishPacket := by
  obtain ⟨byte, rest, rfl⟩ := List.exists_cons_of_ne_nil hbytes
  rw [List.foldl_cons, List.foldl_cons, writeByte_full hfull,
    writeByte_space (finishPacket_hasSpace hmax)]

end Fill

namespace Feeding

variable {s : Feed maxSize}

theorem max_pos (h : Feeding s) : 0 < s.writer.txBufMaxSize.toNat :=
  Nat.lt_of_lt_of_le Nat.zero_lt_two h.two_le

theorem finishPacket (h : Feeding s) : Feeding s.finishPacket :=
  ⟨h.flag, Nat.zero_le _, h.two_le⟩

theorem fill (h : Feeding s) {timestamp : UInt16} {bytes : List UInt8}
    (hroom : HasRoom s.writer (s.writer.header timestamp ++ bytes)) :
    Feeding (s.fill timestamp bytes) := by
  unfold Feed.fill
  refine ⟨?_, ?_, ?_⟩
  · rw [putAll_inSysexMsg]
    exact h.flag
  · rw [hroom.size, putAll_txBufMaxSize]
    exact hroom
  · rw [putAll_txBufMaxSize]
    exact h.two_le

/-- A packet that is not full has room for a byte and for a header that is due. -/
theorem hasRoom (h : Feeding s) (hspace : s.HasSpace) (timestamp : UInt16) (byte : UInt8) :
    HasRoom s.writer (s.writer.header timestamp ++ [byte]) := by
  have two := h.two_le
  have space := hasSpace_iff.mp hspace
  unfold HasRoom
  rw [List.length_append, header_length, List.length_singleton]
  by_cases empty : s.writer.txBufSize = 0
  · rw [if_pos empty, empty, UInt16.toNat_zero]
    omega
  · rw [if_neg empty]
    omega

theorem writeByte (h : Feeding s) (timestamp : UInt16) (byte : UInt8) :
    Feeding (writeByte timestamp s byte) := by
  by_cases space : s.HasSpace
  · rw [writeByte_space space]
    exact h.fill (h.hasRoom space timestamp byte)
  · rw [writeByte_full space]
    have next := h.finishPacket
    exact next.fill (next.hasRoom (finishPacket_hasSpace h.max_pos) timestamp byte)

end Feeding

theorem fill_full {s : Feed maxSize} (h : Feeding s) {timestamp : UInt16} {bytes : List UInt8}
    (hroom : HasRoom s.writer (s.writer.header timestamp ++ bytes))
    (hlength : bytes.length = dataRoom s.writer) :
    ¬ (s.fill timestamp bytes).HasSpace := by
  have size := h.size_le
  have two := h.two_le
  rw [hasSpace_iff]
  unfold Feed.fill
  rw [hroom.size, putAll_txBufMaxSize, List.length_append, header_length, hlength, dataRoom]
  by_cases empty : s.writer.txBufSize = 0
  · rw [if_pos empty, empty, UInt16.toNat_zero]
    omega
  · rw [if_neg empty]
    omega

theorem dataRoom_eq_zero {s : Feed maxSize} (h : Feeding s) :
    dataRoom s.writer = 0 ↔ ¬ s.HasSpace := by
  have two := h.two_le
  rw [hasSpace_iff, dataRoom]
  by_cases empty : s.writer.txBufSize = 0
  · rw [if_pos empty, empty, UInt16.toNat_zero]
    omega
  · rw [if_neg empty]
    omega

theorem foldl_writeByte_rest {s : Feed maxSize} (h : Feeding s) {timestamp : UInt16}
    {bytes : List UInt8}
    (hroom : HasRoom s.writer (s.writer.header timestamp ++ bytes.take (dataRoom s.writer)))
    (hpartly : dataRoom s.writer < bytes.length) :
    bytes.foldl (writeByte timestamp) s =
      (bytes.drop (dataRoom s.writer)).foldl (writeByte timestamp)
        (s.fill timestamp (bytes.take (dataRoom s.writer))).finishPacket := by
  have rest : bytes.drop (dataRoom s.writer) ≠ [] := by
    rw [ne_eq, List.drop_eq_nil_iff]
    omega
  by_cases full : dataRoom s.writer = 0
  · have full' := (dataRoom_eq_zero h).mp full
    have written : s.writer.txBufSize ≠ 0 := by
      intro empty
      rw [hasSpace_iff, empty] at full'
      exact full' h.max_pos
    rw [full, List.drop_zero] at rest ⊢
    rw [List.take_zero, fill_nil written, foldl_writeByte_full h.max_pos full' rest]
  · have some : bytes.take (dataRoom s.writer) ≠ [] := by
      rw [ne_eq, List.take_eq_nil_iff]
      rintro (none | rfl)
      · exact full none
      · exact rest List.drop_nil
    have length : (bytes.take (dataRoom s.writer)).length = dataRoom s.writer := by
      rw [List.length_take]
      omega
    have full' := fill_full h hroom length
    conv_lhs => rw [← List.take_append_drop (dataRoom s.writer) bytes]
    rw [List.foldl_append, foldl_writeByte_room _ some hroom,
      foldl_writeByte_full (h.fill hroom).max_pos full' rest]

theorem feedChunk_eq (timestamp : UInt16) (fuel : Nat) :
    ∀ {s : Feed maxSize} {bytes : List UInt8}, Feeding s → bytes ≠ [] →
      (∀ b ∈ bytes, isDataByte b = true) →
      bytes.length + (if s.HasSpace then 0 else 1) ≤ fuel →
      feedChunk timestamp fuel s bytes = some (bytes.foldl (writeByte timestamp) s) := by
  induction fuel with
  | zero =>
    intro s bytes _ hbytes _ hfuel
    exact absurd (List.length_eq_zero_iff.mp (by omega)) hbytes
  | succ fuel ih =>
    intro s bytes h hbytes hdata hfuel
    obtain ⟨add, hroom⟩ := writerAddSysexData_eq h.size_le (.inl h.flag) hdata h.max_pos timestamp
    rw [feedChunk, add]
    simp only
    by_cases partly : dataRoom s.writer < bytes.length
    · have count : min bytes.length (dataRoom s.writer) = dataRoom s.writer :=
        Nat.min_eq_right (Nat.le_of_lt partly)
      have length : (bytes.take (dataRoom s.writer)).length = dataRoom s.writer := by
        rw [List.length_take, Nat.min_comm, count]
      have written : (⟨s.packets, s.writer.putAll (s.writer.header timestamp ++
          bytes.take (dataRoom s.writer)), s.count + dataRoom s.writer⟩ : Feed maxSize) =
            s.fill timestamp (bytes.take (dataRoom s.writer)) := by
        unfold Feed.fill
        rw [length]
      have rest : bytes.drop (dataRoom s.writer) ≠ [] := by
        rw [ne_eq, List.drop_eq_nil_iff]
        omega
      have next := (h.fill hroom).finishPacket
      have space := finishPacket_hasSpace (h.fill hroom).max_pos
      have enough : (bytes.drop (dataRoom s.writer)).length + 0 ≤ fuel := by
        rw [List.length_drop]
        by_cases space : s.HasSpace
        · have := (dataRoom_eq_zero h).not.mpr (not_not.mpr space)
          rw [if_pos space] at hfuel
          omega
        · rw [if_neg space] at hfuel
          omega
      rw [if_pos (by rwa [count]), count, written, foldl_writeByte_rest h hroom partly]
      exact ih next rest (fun b hb => hdata b (List.mem_of_mem_drop hb)) (by rwa [if_pos space])
    · have count : min bytes.length (dataRoom s.writer) = bytes.length :=
        Nat.min_eq_left (by omega)
      have all : bytes.take (dataRoom s.writer) = bytes := List.take_of_length_le (by omega)
      rw [all] at hroom
      rw [count, if_neg (Nat.lt_irrefl _), all, foldl_writeByte_room bytes hbytes hroom]
      rfl

theorem symbolwise (timestamp : UInt16) :
    Symbolwise (fun (s : Feed maxSize) chunk => feedChunk timestamp (chunk.length + 1) s chunk)
      (writeByte timestamp) Feeding (fun b => isDataByte b = true) := by
  refine ⟨?_, fun byte h => h.writeByte timestamp byte⟩
  intro s chunk h nonempty valid
  refine feedChunk_eq timestamp _ h nonempty valid ?_
  split
  · exact Nat.le_succ _
  · exact Nat.le_refl _

theorem startSysexMsg_feeding (w : Writer maxSize) (runningStatusEnabled noteOffAsNoteOn : Bool)
    {txBufMaxSize : UInt16} (hmin : 3 ≤ txBufMaxSize.toNat) (startTime : UInt16) :
    ∃ w', writerStartSysexMsg (freshWriter w runningStatusEnabled noteOffAsNoteOn txBufMaxSize)
        startTime = (.success, w') ∧ Feeding ⟨[], w', 0⟩ := by
  have room : HasRoom (freshWriter w runningStatusEnabled noteOffAsNoteOn txBufMaxSize)
      (statusBytes (freshWriter w runningStatusEnabled noteOffAsNoteOn txBufMaxSize) startTime
        0xf0) := by
    unfold HasRoom statusBytes
    rw [List.length_append, header_length]
    exact hmin
  rw [writerStartSysexMsg_eq]
  refine ⟨_, if_pos room, ⟨rfl, ?_, ?_⟩⟩
  · change (Writer.putAll _ _).txBufSize.toNat ≤ (Writer.putAll _ _).txBufMaxSize.toNat
    rw [room.size, putAll_txBufMaxSize]
    exact room
  · change 2 ≤ (Writer.putAll _ _).txBufMaxSize.toNat
    rw [putAll_txBufMaxSize]
    exact Nat.le_of_succ_le hmin

/-- The packets and the writer behind the data of a sysex message are the same for all ways of
cutting the data into chunks, and the counts add up to its length. -/
theorem feedChunks_cuttings (w : Writer maxSize) (runningStatusEnabled noteOffAsNoteOn : Bool)
    {txBufMaxSize : UInt16} (hmin : 3 ≤ txBufMaxSize.toNat) (startTime timestamp : UInt16)
    {data : List UInt8} (hdata : ∀ b ∈ data, isDataByte b = true)
    {chunks chunks' : List (List UInt8)} (hchunks : Cutting data chunks)
    (hchunks' : Cutting data chunks') :
    ∃ packets w',
      feedChunks startTime timestamp
          (freshWriter w runningStatusEnabled noteOffAsNoteOn txBufMaxSize) chunks =
        some ⟨packets, w', data.length⟩ ∧
      feedChunks startTime timestamp
          (freshWriter w runningStatusEnabled noteOffAsNoteOn txBufMaxSize) chunks' =
        some ⟨packets, w', data.length⟩ := by
  obtain ⟨w1, start, feeding⟩ :=
    startSysexMsg_feeding w runningStatusEnabled noteOffAsNoteOn hmin startTime
  have fed {cs : List (List UInt8)} (hcs : Cutting data cs) :
      feedChunks startTime timestamp
          (freshWriter w runningStatusEnabled noteOffAsNoteOn txBufMaxSize) cs =
        some (data.foldl (writeByte timestamp) ⟨[], w1, 0⟩) := by
    unfold feedChunks
    rw [start]
    exact (symbolwise timestamp).foldlM_cutting feeding hcs hdata
  have count := foldl_writeByte_count timestamp data ⟨[], w1, 0⟩
  rw [Nat.zero_add] at count
  refine ⟨(data.foldl (writeByte timestamp) ⟨[], w1, 0⟩).packets,
    (data.foldl (writeByte timestamp) ⟨[], w1, 0⟩).writer, ?_, ?_⟩
  · rw [fed hchunks, ← count]
  · rw [fed hchunks', ← count]

/-- Eight data bytes in packets of five bytes, all at once and with a cut where a packet ends. -/
theorem feedChunks_cuttings_eight :
    ∃ packets w',
      feedChunks 100 101 (freshWriter blankWriter true true 5) [[0, 1, 2, 3, 4, 5, 6, 7]] =
        some ⟨packets, w', 8⟩ ∧
      feedChunks 100 101 (freshWriter blankWriter true true 5) [[0, 1], [2], [3, 4, 5, 6, 7]] =
        some ⟨packets, w', 8⟩ :=
  have valid : ∀ b ∈ ([0, 1, 2, 3, 4, 5, 6, 7] : List UInt8), isDataByte b = true :=
    List.all_eq_true.mp rfl
  feedChunks_cuttings blankWriter true true (by decide) 100 101 valid (by decide) (by decide)

end BleMidi.Packet.Cuttings
