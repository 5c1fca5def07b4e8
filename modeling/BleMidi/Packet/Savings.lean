/- Module: BleMidi/Packet/Savings
   source: ble_midi/src/ble_midi_packet.c (ble_midi_writer_*)
   digest: A writer with running status takes what one without takes, in no more bytes. -/

import BleMidi.Packet.CallOrder

set_option autoImplicit false
set_option relaxedAutoImplicit false

namespace BleMidi.Packet.Savings

open BleMidi.Packet.Bytes
open BleMidi.Packet.PacketWriter
open BleMidi.Packet.WriterSpec
open BleMidi.Packet.WriterPieces
open BleMidi.Packet.RoundTrip
open BleMidi.Packet.CallOrder

variable {maxSize : Nat}

/-- What a call returns that does all it is asked to. -/
def wholeCount : Call → Nat
  | .addSysexData dataBytes _ => dataBytes.length
  | _ => 0

/-- The call succeeds and leaves nothing to do. -/
def Completes (w : Writer maxSize) (c : Call) : Prop := (c.exec w).1 = .ok (wholeCount c)

instance (w : Writer maxSize) : DecidablePred (Completes w) :=
  fun _ => inferInstanceAs (Decidable (_ = _))

def AllComplete (w : Writer maxSize) : List Call → Prop
  | [] => True
  | c :: cs => Completes w c ∧ AllComplete (c.exec w).2 cs

instance decidableAllComplete (w : Writer maxSize) : ∀ cs, Decidable (AllComplete w cs)
  | [] => inferInstanceAs (Decidable True)
  | c :: cs =>
      have := decidableAllComplete (c.exec w).2 cs
      inferInstanceAs (Decidable (Completes w c ∧ _))

/-- Two writers of the same sysex message, the second one without running status, and the first one
with no more bytes in its packet. -/
structure Slimmer (w w' : Writer maxSize) : Prop where
  fits : Fits w
  fits' : Fits w'
  disabled : w'.runningStatusEnabled = false
  unset : w'.prevRunningStatusByte = 0
  size_le : w.txBufSize.toNat ≤ w'.txBufSize.toNat
  empty_iff : w.txBufSize = 0 ↔ w'.txBufSize = 0
  txBufMaxSize : w.txBufMaxSize = w'.txBufMaxSize
  inSysexMsg : w.inSysexMsg = w'.inSysexMsg

variable {w w' : Writer maxSize}

section Message

private theorem tail_length_le (hdisabled : w'.runningStatusEnabled = false)
    (hunset : w'.prevRunningStatusByte = 0) {m : MessageBytes} (hm : ValidMessage m) (t : UInt16) :
    (messageTail w m t).length ≤ (messageTail w' m t).length := by
  have choice : w'.choose m.byte0 m.byte2 = ⟨m.byte0, m.byte2, 0⟩ := by
    rw [Writer.choose, hdisabled]
    rfl
  have other : w'.isRunningStatus m.byte0 = false := by
    rw [Writer.isRunningStatus, hunset, beq_eq_false_iff_ne]
    intro zero
    rw [ValidMessage, zero] at hm
    exact hm.1 rfl
  have whole : messageTail w' m t =
      timestampByte t :: m.byte0 :: sentData w' m := by
    rw [messageTail, choice]
    simp [Writer.skipMsgTimestamp, Writer.skipStatusByte, other]
  have data : (sentData w m).length = (sentData w' m).length := by
    rw [sentData, sentData, List.length_take, List.length_take]
    rfl
  have single (p : Prop) [Decidable p] (b : UInt8) :
      (if p then [] else [b] : List UInt8).length ≤ 1 := by
    split <;> simp
  have time := single (w.skipMsgTimestamp (w.choose m.byte0 m.byte2).statusByte t = true)
    (timestampByte t)
  have status := single (w.skipStatusByte (w.choose m.byte0 m.byte2).statusByte = true)
    (w.choose m.byte0 m.byte2).statusByte
  rw [whole, messageTail, List.length_append, List.length_append, List.length_cons,
    List.length_cons, data]
  omega

end Message

namespace Slimmer

/-- Of the bytes of a call the first writer adds no more than the second one, behind the same
header. -/
private theorem header_length_eq (h : Slimmer w w') (t : UInt16) :
    (w.header t).length = (w'.header t).length := by
  rw [header_length, header_length]
  exact if_congr h.empty_iff rfl rfl

private theorem headed_length (h : Slimmer w w') (t : UInt16) (bytes : List UInt8) :
    (w.header t ++ bytes).length = (w'.header t ++ bytes).length := by
  rw [List.length_append, List.length_append, h.header_length_eq t]

/-- Both writers add bytes, the first one no more than the second, and then change what they
remember. -/
private theorem wrote (h : Slimmer w w') {bytes bytes' : List UInt8}
    (hle : bytes.length ≤ bytes'.length) (hnone : bytes.length = 0 → bytes'.length = 0)
    (room : HasRoom w bytes) (room' : HasRoom w' bytes') {f f' : Writer maxSize → Writer maxSize}
    (hf : ∀ v, (f v).txBufSize = v.txBufSize ∧ (f v).txBufMaxSize = v.txBufMaxSize)
    (hf' : ∀ v, (f' v).txBufSize = v.txBufSize ∧ (f' v).txBufMaxSize = v.txBufMaxSize)
    (hdisabled : ∀ v, v.runningStatusEnabled = false → (f' v).runningStatusEnabled = false)
    (hunset : ∀ v, v.prevRunningStatusByte = 0 → (f' v).prevRunningStatusByte = 0)
    (hflag : ∀ v v', v.inSysexMsg = v'.inSysexMsg → (f v).inSysexMsg = (f' v').inSysexMsg) :
    Slimmer (f (w.putAll bytes)) (f' (w'.putAll bytes')) := by
  have size_le := h.size_le
  have empty_iff := h.empty_iff
  rw [← UInt16.toNat_inj, ← UInt16.toNat_inj] at empty_iff
  have fits := room.fits h.fits.max_le
  have fits' := room'.fits h.fits'.max_le
  refine ⟨⟨?_, ?_⟩, ⟨?_, ?_⟩, ?_, ?_, ?_, ?_, ?_, ?_⟩
  · rw [(hf _).1, (hf _).2]
    exact fits.size_le
  · rw [(hf _).2]
    exact fits.max_le
  · rw [(hf' _).1, (hf' _).2]
    exact fits'.size_le
  · rw [(hf' _).2]
    exact fits'.max_le
  · exact hdisabled _ ((putAll_runningStatusEnabled _ _).trans h.disabled)
  · exact hunset _ ((putAll_prevRunningStatusByte _ _).trans h.unset)
  · rw [(hf _).1, (hf' _).1, room.size, room'.size]
    omega
  · rw [(hf _).1, (hf' _).1, ← UInt16.toNat_inj, ← UInt16.toNat_inj, room.size, room'.size]
    change w.txBufSize.toNat = 0 ↔ w'.txBufSize.toNat = 0 at empty_iff
    change w.txBufSize.toNat + bytes.length = 0 ↔ w'.txBufSize.toNat + bytes'.length = 0
    omega
  · rw [(hf _).2, (hf' _).2, putAll_txBufMaxSize, putAll_txBufMaxSize, h.txBufMaxSize]
  · exact hflag _ _ (by rw [putAll_inSysexMsg, putAll_inSysexMsg, h.inSysexMsg])

private theorem added (h : Slimmer w w') {bytes bytes' : List UInt8}
    (hle : bytes.length ≤ bytes'.length) (hnone : bytes.length = 0 → bytes'.length = 0)
    {f f' : Writer maxSize → Writer maxSize}
    (hf : ∀ v, (f v).txBufSize = v.txBufSize ∧ (f v).txBufMaxSize = v.txBufMaxSize)
    (hf' : ∀ v, (f' v).txBufSize = v.txBufSize ∧ (f' v).txBufMaxSize = v.txBufMaxSize)
    (hdisabled : ∀ v, v.runningStatusEnabled = false → (f' v).runningStatusEnabled = false)
    (hunset : ∀ v, v.prevRunningStatusByte = 0 → (f' v).prevRunningStatusByte = 0)
    (hflag : ∀ v v', v.inSysexMsg = v'.inSysexMsg → (f v).inSysexMsg = (f' v').inSysexMsg)
    (hok : (returned (WriterSpec.added w' bytes' f')).1 = .ok 0) :
    (returned (WriterSpec.added w bytes f)).1 = .ok 0 ∧
      Slimmer (returned (WriterSpec.added w bytes f)).2
        (returned (WriterSpec.added w' bytes' f')).2 := by
  have size_le := h.size_le
  by_cases room' : HasRoom w' bytes'
  · have room : HasRoom w bytes := by
      unfold HasRoom at room' ⊢
      rw [h.txBufMaxSize]
      omega
    rw [WriterSpec.added, WriterSpec.added, if_pos room, if_pos room']
    exact ⟨rfl, h.wrote hle hnone room room' hf hf' hdisabled hunset hflag⟩
  · rw [WriterSpec.added, if_neg room'] at hok
    cases hok

private theorem addMsg (h : Slimmer w w') {m : MessageBytes} {t : UInt16}
    (hok : Completes w' (.addMsg m t)) : Completes w (.addMsg m t) ∧
      Slimmer ((Call.addMsg m t).exec w).2 ((Call.addMsg m t).exec w').2 := by
  unfold Completes at hok ⊢
  simp only [Call.exec] at hok ⊢
  have same := h.inSysexMsg
  cases flag : w'.inSysexMsg with
  | true =>
    rw [flag] at same
    rw [writerAddMsg_inside flag] at hok ⊢
    rw [writerAddMsg_inside same]
    by_cases realtime : isRealtimeMessage m.byte0 = true
    · rw [if_pos realtime] at hok ⊢
      rw [if_pos realtime]
      exact h.added le_rfl id (fun _ => ⟨rfl, rfl⟩) (fun _ => ⟨rfl, rfl⟩)
        (fun _ disabled => disabled) (fun _ unset => unset) (fun _ _ flags => flags) hok
    · rw [if_neg realtime] at hok
      cases hok
  | false =>
    rw [flag] at same
    by_cases valid : ValidMessage m
    swap
    · obtain ⟨code, failed, -, eq⟩ := writerAddMsg_invalid flag valid t
      rw [eq] at hok
      cases code
      · exact absurd rfl failed
      all_goals cases hok
    rw [writerAddMsg_outside flag valid] at hok ⊢
    rw [writerAddMsg_outside same valid]
    have cleared : (w'.choose m.byte0 m.byte2).runningStatusByte = 0 := by
      rw [Writer.choose, h.disabled]
      rfl
    have le : (messageBytesToAppend w m t).length ≤ (messageBytesToAppend w' m t).length := by
      change (w.header t ++ messageTail w m t).length ≤ (w'.header t ++ messageTail w' m t).length
      rw [List.length_append, List.length_append, h.header_length_eq t]
      exact Nat.add_le_add_left (tail_length_le h.disabled h.unset valid t) _
    have some : messageBytesToAppend w m t ≠ [] := by
      intro none
      exact messageTail_ne_nil w valid t (List.append_eq_nil_iff.mp none).2
    have positive (none : (messageBytesToAppend w m t).length = 0) :
        (messageBytesToAppend w' m t).length = 0 := absurd (List.length_eq_zero_iff.mp none) some
    exact h.added le positive (fun _ => ⟨rfl, rfl⟩) (fun _ => ⟨rfl, rfl⟩)
      (fun _ disabled => disabled) (fun _ _ => cleared) (fun _ _ flags => flags) hok

private theorem startSysexMsg (h : Slimmer w w') {t : UInt16}
    (hok : Completes w' (.startSysexMsg t)) : Completes w (.startSysexMsg t) ∧
      Slimmer ((Call.startSysexMsg t).exec w).2 ((Call.startSysexMsg t).exec w').2 := by
  unfold Completes at hok ⊢
  simp only [Call.exec] at hok ⊢
  rw [writerStartSysexMsg_eq] at hok ⊢
  rw [writerStartSysexMsg_eq, h.inSysexMsg]
  by_cases flag : w'.inSysexMsg = true
  · rw [if_pos flag] at hok
    cases hok
  · rw [if_neg flag] at hok ⊢
    rw [if_neg flag]
    have same := h.headed_length t [timestampByte t, 0xf0]
    exact h.added same.le same.symm.trans (fun _ => ⟨rfl, rfl⟩) (fun _ => ⟨rfl, rfl⟩)
      (fun _ disabled => disabled) (fun _ _ => rfl) (fun _ _ _ => rfl) hok

private theorem endSysexMsg (h : Slimmer w w') {t : UInt16}
    (hok : Completes w' (.endSysexMsg t)) : Completes w (.endSysexMsg t) ∧
      Slimmer ((Call.endSysexMsg t).exec w).2 ((Call.endSysexMsg t).exec w').2 := by
  unfold Completes at hok ⊢
  simp only [Call.exec] at hok ⊢
  rw [writerEndSysexMsg_eq] at hok ⊢
  rw [writerEndSysexMsg_eq, h.inSysexMsg]
  by_cases flag : w'.inSysexMsg = true
  · rw [if_pos flag] at hok ⊢
    rw [if_pos flag]
    have same := h.headed_length t [timestampByte t, 0xf7]
    exact h.added same.le same.symm.trans (fun _ => ⟨rfl, rfl⟩) (fun _ => ⟨rfl, rfl⟩)
      (fun _ disabled => disabled) (fun _ unset => unset) (fun _ _ _ => rfl) hok
  · rw [if_neg flag] at hok
    cases hok

private theorem addSysexMsg (h : Slimmer w w') {bytes : List UInt8} {t : UInt16}
    (hshort : Short (.addSysexMsg bytes t)) (hok : Completes w' (.addSysexMsg bytes t)) :
    Completes w (.addSysexMsg bytes t) ∧
      Slimmer ((Call.addSysexMsg bytes t).exec w).2 ((Call.addSysexMsg bytes t).exec w').2 := by
  unfold Completes at hok ⊢
  simp only [Call.exec] at hok ⊢
  rcases writerAddSysexMsg_cases w' t hshort with ⟨data, rfl, valid, eq⟩ | ⟨code, failed, eq⟩
  · rw [eq] at hok ⊢
    rw [writerAddSysexMsg_eq w t valid hshort]
    have same := h.headed_length t (timestampByte t :: 0xf0 :: (data ++ [timestampByte t, 0xf7]))
    exact h.added same.le same.symm.trans (fun _ => ⟨rfl, rfl⟩) (fun _ => ⟨rfl, rfl⟩)
      (fun _ disabled => disabled) (fun _ _ => rfl) (fun _ _ flags => flags) hok
  · rw [eq] at hok
    cases code
    · exact absurd rfl failed
    all_goals cases hok

private theorem addSysexData (h : Slimmer w w') {bytes : List UInt8} {t : UInt16}
    (hok : Completes w' (.addSysexData bytes t)) : Completes w (.addSysexData bytes t) ∧
      Slimmer ((Call.addSysexData bytes t).exec w).2 ((Call.addSysexData bytes t).exec w').2 := by
  have size_le := h.size_le
  rcases addSysexData_cases h.fits' bytes t with ⟨code, refused⟩ | ⟨taken, data, room', eq'⟩
  · rw [Completes, refused] at hok
    cases hok
  have whole : bytes.length ≤ dataRoom w' := by
    rw [Completes, eq'] at hok
    have count : min bytes.length (dataRoom w') = bytes.length := Except.ok.inj hok
    omega
  have roomier : dataRoom w' ≤ dataRoom w := by
    rw [dataRoom, dataRoom, h.txBufMaxSize, if_congr h.empty_iff rfl rfl]
    omega
  have taken' : w.inSysexMsg = true ∨ w.txBufSize = 0 := by
    rw [h.inSysexMsg, h.empty_iff]
    exact taken
  have positive : 0 < w.txBufMaxSize.toNat := by
    have size := room'.size
    unfold HasRoom at room'
    rw [List.length_append, header_length] at room'
    rw [h.txBufMaxSize]
    by_cases empty : w'.txBufSize = 0
    · rw [if_pos empty] at room'
      omega
    · have written := mt UInt16.toNat_inj.mp empty
      change ¬ w'.txBufSize.toNat = 0 at written
      omega
  obtain ⟨eq, room⟩ := writerAddSysexData_eq h.fits.size_le taken' data positive t
  have all := List.take_of_length_le whole
  have all' := List.take_of_length_le (whole.trans roomier)
  rw [all] at room' eq'
  rw [all', Nat.min_eq_left (whole.trans roomier)] at eq
  rw [all'] at room
  have same := h.headed_length t bytes
  have wrote : Slimmer (id (w.putAll (w.header t ++ bytes)))
      (id (w'.putAll (w'.header t ++ bytes))) :=
    h.wrote same.le same.symm.trans room room' (fun _ => ⟨rfl, rfl⟩) (fun _ => ⟨rfl, rfl⟩)
      (fun _ disabled => disabled) (fun _ unset => unset) (fun _ _ flags => flags)
  refine ⟨congrArg Prod.fst eq, ?_⟩
  rw [eq']
  change Slimmer (writerAddSysexData w bytes t).2 _
  rw [eq]
  exact wrote

/-- What the second writer completes, the first one completes as well. -/
theorem exec (h : Slimmer w w') {c : Call} (hshort : Short c) (hok : Completes w' c) :
    Completes w c ∧ Slimmer (c.exec w).2 (c.exec w').2 := by
  cases c with
  | addMsg m t => exact h.addMsg hok
  | startSysexMsg t => exact h.startSysexMsg hok
  | addSysexData bytes t => exact h.addSysexData hok
  | endSysexMsg t => exact h.endSysexMsg hok
  | addSysexMsg bytes t => exact h.addSysexMsg hshort hok

theorem run {cs : List Call} (hshort : ∀ c ∈ cs, Short c) :
    ∀ {w w' : Writer maxSize}, Slimmer w w' → AllComplete w' cs →
      AllComplete w cs ∧ Slimmer (writerAfter w cs) (writerAfter w' cs) := by
  induction cs with
  | nil =>
    intro w w' h _
    exact ⟨trivial, h⟩
  | cons c cs ih =>
    intro w w' h hall
    obtain ⟨first, later⟩ := List.forall_mem_cons.mp hshort
    obtain ⟨completes, slimmer⟩ := h.exec first hall.1
    obtain ⟨rest, slimmer'⟩ := ih later slimmer hall.2
    exact ⟨⟨completes, rest⟩, slimmer'⟩

theorem fresh (w w' : Writer maxSize) (runningStatusEnabled noteOffAsNoteOn noteOffAsNoteOn' : Bool)
    {txBufMaxSize : UInt16} (hmax : txBufMaxSize.toNat ≤ maxSize) :
    Slimmer (freshWriter w runningStatusEnabled noteOffAsNoteOn txBufMaxSize)
      (freshWriter w' false noteOffAsNoteOn' txBufMaxSize) :=
  ⟨⟨Nat.zero_le _, hmax⟩, ⟨Nat.zero_le _, hmax⟩, rfl, rfl, le_rfl, Iff.rfl, rfl, rfl⟩

end Slimmer

/-- Running status never costs anything: calls that all complete on a writer without it all
complete on a writer with it, in any order, and leave no more bytes in the packet. -/
theorem runningStatus_saves (w w' : Writer maxSize) (noteOffAsNoteOn noteOffAsNoteOn' : Bool)
    {txBufMaxSize : UInt16} (hmax : txBufMaxSize.toNat ≤ maxSize) {cs : List Call}
    (hshort : ∀ c ∈ cs, Short c)
    (hall : AllComplete (freshWriter w' false noteOffAsNoteOn' txBufMaxSize) cs) :
    AllComplete (freshWriter w true noteOffAsNoteOn txBufMaxSize) cs ∧
      (writerAfter (freshWriter w true noteOffAsNoteOn txBufMaxSize) cs).txBufSize.toNat ≤
        (writerAfter (freshWriter w' false noteOffAsNoteOn' txBufMaxSize) cs).txBufSize.toNat := by
  have slimmer := Slimmer.fresh w w' true noteOffAsNoteOn noteOffAsNoteOn' hmax
  obtain ⟨all, slimmer'⟩ := slimmer.run hshort hall
  exact ⟨all, slimmer'.size_le⟩

/-- Two note ons and a note off, as a note on, with a sysex message behind them, in a packet of 18
bytes. -/
theorem runningStatus_saves_notes :
    AllComplete (freshWriter blankWriter true true 18) [.addMsg ⟨0x90, 60, 100⟩ 7,
        .addMsg ⟨0x90, 62, 100⟩ 7, .addMsg ⟨0x80, 60, 64⟩ 9, .startSysexMsg 9,
        .addSysexData [1, 2] 9] ∧
      (writerAfter (freshWriter blankWriter true true 18) [.addMsg ⟨0x90, 60, 100⟩ 7,
        .addMsg ⟨0x90, 62, 100⟩ 7, .addMsg ⟨0x80, 60, 64⟩ 9, .startSysexMsg 9,
        .addSysexData [1, 2] 9]).txBufSize.toNat ≤
      (writerAfter (freshWriter blankWriter false true 18) [.addMsg ⟨0x90, 60, 100⟩ 7,
        .addMsg ⟨0x90, 62, 100⟩ 7, .addMsg ⟨0x80, 60, 64⟩ 9, .startSysexMsg 9,
        .addSysexData [1, 2] 9]).txBufSize.toNat :=
  runningStatus_saves blankWriter blankWriter true true (by decide) (by decide) (by decide +kernel)

end BleMidi.Packet.Savings
