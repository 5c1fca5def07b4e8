/- Module: BleMidi/Packet/CallOrder
   source: ble_midi/src/ble_midi_packet.c (ble_midi_writer_*, ble_midi_parse_packet)
   digest: Calls in any order, and those that make the parser reject the packet. -/

import BleMidi.Packet.RoundTrip

set_option autoImplicit false
set_option relaxedAutoImplicit false

namespace BleMidi.Packet.CallOrder

open BleMidi.Core.Transducer
open BleMidi.Packet.Bytes
open BleMidi.Packet.PacketParser
open BleMidi.Packet.PacketScan
open BleMidi.Packet.ParserRefinement
open BleMidi.Packet.Segments
open BleMidi.Packet.Timestamps
open BleMidi.Packet.PacketWriter
open BleMidi.Packet.WriterSpec
open BleMidi.Packet.WriterPieces
open BleMidi.Packet.WriterSimulation
open BleMidi.Packet.RoundTrip

variable {maxSize : Nat}

/-- The bytes of a whole sysex message. -/
def IsSysexMessage (bytes : List UInt8) : Prop :=
  bytes = sysexMessage (bytes.drop 1).dropLast ∧
    ∀ b ∈ (bytes.drop 1).dropLast, isDataByte b = true

instance : DecidablePred IsSysexMessage := fun _ => inferInstanceAs (Decidable (_ ∧ _))

/-- The packet has a data byte behind its header, which makes it a continuation packet. -/
def StartsWithData (w : Writer maxSize) : Prop := (w.payload[1]?).any isDataByte = true

instance : DecidablePred (@StartsWithData maxSize) :=
  fun _ => inferInstanceAs (Decidable (_ = true))

/-- Calls with valid arguments that find room in the packet, though the sysex message in it is still
open: a whole sysex message, and behind data at the start of the packet also a sysex start or
a message that is not real-time. -/
def Misplaced (w : Writer maxSize) : Call → Prop
  | .addMsg messageBytes timestamp =>
      StartsWithData w ∧ ValidMessage messageBytes ∧ isRealtimeMessage messageBytes.byte0 = false ∧
        HasRoom w (messageBytesToAppend w messageBytes timestamp)
  | .startSysexMsg timestamp => StartsWithData w ∧ HasRoom w (statusBytes w timestamp 0xf0)
  | .addSysexMsg bytes timestamp =>
      (StartsWithData w ∨ w.inSysexMsg = true) ∧ IsSysexMessage bytes ∧
        HasRoom w (w.header timestamp ++ sysexMsgBytes bytes timestamp)
  | _ => False

instance (w : Writer maxSize) : DecidablePred (Misplaced w)
  | .addMsg _ _ => inferInstanceAs (Decidable (_ ∧ _ ∧ _ ∧ _))
  | .startSysexMsg _ => inferInstanceAs (Decidable (_ ∧ _))
  | .addSysexMsg _ _ => inferInstanceAs (Decidable ((_ ∨ _) ∧ _ ∧ _))
  | .addSysexData _ _ => inferInstanceAs (Decidable False)
  | .endSysexMsg _ => inferInstanceAs (Decidable False)

/-- No call of the sequence is misplaced. -/
def WellPlaced (w : Writer maxSize) : List Call → Prop
  | [] => True
  | c :: cs => ¬ Misplaced w c ∧ WellPlaced (c.exec w).2 cs

instance decidableWellPlaced (w : Writer maxSize) : ∀ cs, Decidable (WellPlaced w cs)
  | [] => inferInstanceAs (Decidable True)
  | c :: cs =>
      have := decidableWellPlaced (c.exec w).2 cs
      inferInstanceAs (Decidable (¬ Misplaced w c ∧ _))

/-- A whole sysex message is shorter than an `int` can count. -/
def Short : Call → Prop
  | .addSysexMsg bytes _ => bytes.length < 2 ^ 31 - 3
  | _ => True

instance : DecidablePred Short
  | .addMsg _ _ => inferInstanceAs (Decidable True)
  | .startSysexMsg _ => inferInstanceAs (Decidable True)
  | .addSysexMsg _ _ => inferInstanceAs (Decidable (_ < _))
  | .addSysexData _ _ => inferInstanceAs (Decidable True)
  | .endSysexMsg _ => inferInstanceAs (Decidable True)

/-- The parser comes to `s` behind the packet so far, if it starts inside or outside a sysex
message. -/
structure Comes (inside : Bool) (w : Writer maxSize) (t : UInt16) (body : List UInt8)
    (s : ScanState) : Prop where
  payload : w.payload = headerByte t :: body
  emits : ∃ out, Emits scanner (enter inside t) body out s
  inStep : InStep w s

/-- A packet that starts outside sysex messages. The writer knows whether one is open in it. -/
def Plain (w : Writer maxSize) : Prop :=
  (w.payload = [] ∧ w.prevRunningStatusByte = 0 ∧ w.inSysexMsg = false) ∨
    ∃ t body s, Comes false w t body s ∧ s.inSysex = w.inSysexMsg ∧ ScanOk w s body

/-- A packet that starts with data. The writer takes it for a packet without an open sysex
message. -/
def Continued (w : Writer maxSize) : Prop :=
  (w.inSysexMsg = false ∧ w.prevRunningStatusByte = 0) ∧
    ∃ t d body s, Comes true w t (d :: body) s ∧ isDataByte d = true ∧ s.inSysex = true

/-- The parser reads the packet without an error. -/
structure Healthy (w : Writer maxSize) : Prop where
  fits : Fits w
  read : Plain w ∨ Continued w

/-- The parser rejects the packet, whatever is appended to it. -/
structure Broken (w : Writer maxSize) : Prop where
  fits : Fits w
  rejected : ∃ t body, w.payload = headerByte t :: body ∧ ∀ rest, ∃ events,
    scanPacket (headerByte t) (body ++ rest) = (events, .failed .invalidStatusByte)

/-- What a call does to the writer. -/
inductive Effect (w : Writer maxSize) : Call → Writer maxSize → Prop
  | refused {c : Call} : Effect w c w
  | realtime {m : MessageBytes} {t : UInt16} : w.inSysexMsg = true →
      isRealtimeMessage m.byte0 = true → HasRoom w [timestampByte t, m.byte0] →
      Effect w (.addMsg m t) (w.putAll [timestampByte t, m.byte0])
  | message {m : MessageBytes} {t : UInt16} : w.inSysexMsg = false → ValidMessage m →
      HasRoom w (messageBytesToAppend w m t) →
      Effect w (.addMsg m t) (remember w m t (w.putAll (messageBytesToAppend w m t)))
  | sysexStart {t : UInt16} : w.inSysexMsg = false → HasRoom w (statusBytes w t 0xf0) →
      Effect w (.startSysexMsg t)
        { w.putAll (statusBytes w t 0xf0) with inSysexMsg := true, prevRunningStatusByte := 0 }
  | sysexEnd {t : UInt16} : w.inSysexMsg = true → HasRoom w (statusBytes w t 0xf7) →
      Effect w (.endSysexMsg t) { w.putAll (statusBytes w t 0xf7) with inSysexMsg := false }
  | sysexData {bytes : List UInt8} {t : UInt16} : w.inSysexMsg = true ∨ w.txBufSize = 0 →
      (∀ b ∈ bytes, isDataByte b = true) → HasRoom w (w.header t ++ bytes.take (dataRoom w)) →
      Effect w (.addSysexData bytes t) (w.putAll (w.header t ++ bytes.take (dataRoom w)))
  | sysexMsg {data : List UInt8} {t : UInt16} : (∀ b ∈ data, isDataByte b = true) →
      HasRoom w (w.header t ++ (timestampByte t :: 0xf0 :: (data ++ [timestampByte t, 0xf7]))) →
      Effect w (.addSysexMsg (sysexMessage data) t)
        { w.putAll (w.header t ++ (timestampByte t :: 0xf0 :: (data ++ [timestampByte t, 0xf7])))
          with prevRunningStatusByte := 0 }

variable {w w' : Writer maxSize}

/-- The pre-scan of what is read so far decides that the packet continues nothing. -/
theorem preScan_of_scanOk {s : ScanState} {body : List UInt8} (h : ScanOk w s body) :
    preScan body = .ok false := by
  rcases h with settles | ⟨passes, -⟩
  · simpa using settles []
  · simpa using passes []

theorem Plain.not_startsWithData (h : Plain w) : ¬ StartsWithData w := by
  unfold StartsWithData
  rcases h with ⟨empty, -⟩ | ⟨t, body, s, comes, -, scanOk⟩
  · simp [empty]
  · rw [comes.payload]
    cases body with
    | nil => simp
    | cons d body =>
      intro data
      have continues := preScan_data (show isDataByte d = true by simpa using data) body
      cases continues.symm.trans (preScan_of_scanOk scanOk)

theorem Continued.startsWithData (h : Continued w) : StartsWithData w := by
  obtain ⟨-, t, d, body, s, comes, data, -⟩ := h
  unfold StartsWithData
  rw [comes.payload]
  simpa using data

private theorem Continued.header_nil (h : Continued w) (hfits : Fits w) (t : UInt16) :
    w.header t = [] := by
  obtain ⟨-, t0, d, body, s, comes, -⟩ := h
  refine if_neg ?_
  rw [← payload_eq_nil (hfits.size_le.trans hfits.max_le), comes.payload]
  exact List.cons_ne_nil _ _

private theorem scan_from {inside : Bool} {t : UInt16} {body : List UInt8} {s : ScanState}
    {out : List Event} (rest : List UInt8) (hscan : preScan (body ++ rest) = .ok inside)
    (hemits : Emits scanner (enter inside t) body out s) :
    scanPacket (headerByte t) (body ++ rest) =
      (out ++ (run scanner s rest).1, (run scanner s rest).2) := by
  have start : startState inside (headerByte t) = enter inside t := by
    rw [startState, high_headerByte]
    rfl
  rw [scanPacket, hscan]
  refine (if_pos (isStatusByte_headerByte t)).trans ?_
  rw [start]
  exact hemits rest

theorem Healthy.parse (h : Healthy w) (hwritten : w.payload ≠ []) :
    (parsePacket w.payload).halt = .returned .success := by
  have reads {inside : Bool} {t : UInt16} {body : List UInt8} {s : ScanState}
      (comes : Comes inside w t body s) (hscan : preScan body = .ok inside) :
      (parsePacket w.payload).halt = .returned .success := by
    obtain ⟨out, emits⟩ := comes.emits
    have scanned := scan_from [] (by rwa [List.append_nil]) emits
    rw [List.append_nil, run_nil] at scanned
    have ends := (parsePacket_scan (headerByte t) body).2
    rw [scanned] at ends
    rw [comes.payload]
    exact ends.1
  rcases h.read with (⟨empty, -⟩ | ⟨t, body, s, comes, -, scanOk⟩) |
    ⟨-, t, d, body, s, comes, data, -⟩
  · exact absurd empty hwritten
  · exact reads comes (preScan_of_scanOk scanOk)
  · exact reads comes (preScan_data data body)

theorem Broken.parse (h : Broken w) :
    (parsePacket w.payload).halt = .returned .invalidStatusByte := by
  obtain ⟨t, body, payload, rejected⟩ := h.rejected
  obtain ⟨events, scanned⟩ := rejected []
  rw [List.append_nil] at scanned
  have ends := (parsePacket_scan (headerByte t) body).2
  rw [scanned] at ends
  rw [payload]
  exact ends.1

theorem Broken.append (h : Broken w) (hfits : Fits w') {bytes : List UInt8}
    (hpayload : w'.payload = w.payload ++ bytes) : Broken w' := by
  obtain ⟨t, body, payload, rejected⟩ := h.rejected
  refine ⟨hfits, t, body ++ bytes, ?_, ?_⟩
  · rw [hpayload, payload, List.cons_append]
  · intro rest
    rw [List.append_assoc]
    exact rejected _

/-- A piece is appended to a packet that starts outside sysex messages, behind a header that is
due. -/
private theorem Plain.append {t : UInt16} {bytes : List UInt8} (h : Plain w)
    (hpayload : w'.payload = w.payload ++ (w.header t ++ bytes)) (hfits : Fits w)
    (hpiece : ∀ s, s.inSysex = w.inSysexMsg → InStep w s →
      ∃ es s', Piece w w' s bytes es s' ∧ w'.inSysexMsg = openAfter w.inSysexMsg es) :
    Plain w' := by
  have empty_iff := payload_eq_nil (hfits.size_le.trans hfits.max_le)
  have open' {s s' : ScanState} {es : List Event} (hs : s.inSysex = w.inSysexMsg)
      (piece : Piece w w' s bytes es s') (flag : w'.inSysexMsg = openAfter w.inSysexMsg es) :
      s'.inSysex = w'.inSysexMsg := by
    have clock := congrArg Receiver.inSysex piece.clock
    rw [after_inSysex] at clock
    rw [flag, ← hs]
    exact clock
  right
  rcases h with ⟨empty, unset, closed⟩ | ⟨t0, body, s, comes, flag, scanOk⟩
  · obtain ⟨es, s', piece, flag'⟩ := hpiece (enter false t) closed.symm (.inl unset)
    refine ⟨t, bytes, s', ⟨?_, ⟨_, piece.emits⟩, piece.inStep⟩, open' closed.symm piece flag',
      piece.scanOk unset rfl⟩
    rw [hpayload, empty, Writer.header, if_pos (empty_iff.mp empty)]
    rfl
  · obtain ⟨es, s', piece, flag'⟩ := hpiece s flag comes.inStep
    obtain ⟨out, emits⟩ := comes.emits
    have written : w.txBufSize ≠ 0 := by
      rw [ne_eq, ← empty_iff, comes.payload]
      exact List.cons_ne_nil _ _
    refine ⟨t0, body ++ bytes, s', ⟨?_, ⟨_, emits.trans piece.emits⟩, piece.inStep⟩,
      open' flag piece flag', ?_⟩
    · rw [hpayload, comes.payload, Writer.header, if_neg written]
      rfl
    · rcases scanOk with settles | ⟨passes, unset, between⟩
      · exact .inl (settles.append bytes)
      · rcases piece.scanOk unset between with settles | ⟨passes', rest⟩
        · exact .inl (passes.append_settles settles)
        · exact .inr ⟨passes.append passes', rest⟩

/-- A status byte that is neither real-time nor a sysex end breaks a packet with an open sysex
message. -/
private theorem Comes.broken {inside : Bool} {t : UInt16} {body : List UInt8} {s : ScanState}
    (h : Comes inside w t body s) (hopen : s.inSysex = true)
    (hscan : ∀ rest, preScan (body ++ rest) = .ok inside) (hfits : Fits w') {t' : UInt16}
    {status : UInt8} {more : List UInt8}
    (hpayload : w'.payload = w.payload ++ timestampByte t' :: status :: more)
    (hrealtime : isRealtimeMessage status = false) (hend : status ≠ 0xf7) : Broken w' := by
  obtain ⟨out, emits⟩ := h.emits
  refine ⟨hfits, t, body ++ timestampByte t' :: status :: more, ?_, ?_⟩
  · rw [hpayload, h.payload]
    rfl
  · intro rest
    have stops (after : List UInt8) : run scanner s (timestampByte t' :: status :: after) =
        ([], .failed .invalidStatusByte) := by
      apply run_stop
      have timed : isDataByte (timestampByte t') = false :=
        not_isDataByte.mpr (isStatusByte_timestampByte t')
      change scanStep s (timestampByte t') (status :: after) = _
      rw [scanStep, if_pos hopen, if_neg (by simp [timed])]
      rw [scanSysexStatus, if_neg (by simp [hrealtime]), if_neg hend]
    refine ⟨out ++ [], ?_⟩
    rw [List.append_assoc, scan_from _ (hscan _) emits]
    simp only [List.cons_append, stops]

theorem written_eq (w' : Writer maxSize) (hfits : Fits w) {bytes : List UInt8}
    (hroom : HasRoom w bytes) (hsame : SameBuffer w' (w.putAll bytes)) :
    w'.payload = w.payload ++ bytes ∧ Fits w' := by
  have fits := hroom.fits hfits.max_le
  refine ⟨?_, ?_, ?_⟩
  · rw [← hroom.payload hfits.max_le]
    unfold Writer.payload
    rw [hsame.txBufSize, hsame.txBuf]
  · rw [hsame.txBufSize, hsame.txBufMaxSize]
    exact fits.size_le
  · rw [hsame.txBufMaxSize]
    exact fits.max_le

private theorem exec_added {c : Call} (bytes : List UInt8) (f : Writer maxSize → Writer maxSize)
    (hexec : c.exec w = returned (added w bytes f)) :
    (c.exec w).2 = if HasRoom w bytes then f (w.putAll bytes) else w := by
  rw [hexec, added]
  split <;> rfl

private theorem exec_refused {c : Call} {code : PacketError} (hexec : c.exec w = returned (code, w))
    (hcode : code ≠ .success) : c.exec w = (.error code, w) := by
  rw [hexec]
  cases code
  · exact absurd rfl hcode
  all_goals rfl

/-- Data is refused, or as much of it is added as there is room for. -/
theorem addSysexData_cases (h : Fits w) (bytes : List UInt8) (t : UInt16) :
    (∃ code, (Call.addSysexData bytes t).exec w = (.error code, w)) ∨
      (w.inSysexMsg = true ∨ w.txBufSize = 0) ∧ (∀ b ∈ bytes, isDataByte b = true) ∧
        HasRoom w (w.header t ++ bytes.take (dataRoom w)) ∧
        (Call.addSysexData bytes t).exec w = (.ok (min bytes.length (dataRoom w)),
          w.putAll (w.header t ++ bytes.take (dataRoom w))) := by
  rw [Call.exec]
  by_cases data : ∀ b ∈ bytes, isDataByte b = true
  swap
  · exact .inl (writerAddSysexData_invalid w data t)
  by_cases taken : w.inSysexMsg = true ∨ w.txBufSize = 0
  swap
  · rw [not_or, Bool.not_eq_true] at taken
    exact .inl ⟨_, writerAddSysexData_refused taken.1 taken.2 bytes t⟩
  by_cases positive : 0 < w.txBufMaxSize.toNat
  · obtain ⟨eq, room⟩ := writerAddSysexData_eq h.size_le taken data positive t
    exact .inr ⟨taken, data, room, eq⟩
  · left
    have none : w.txBufMaxSize.toNat = 0 := by omega
    have empty : w.txBufSize.toNat = 0 := Nat.le_zero.mp (none ▸ h.size_le)
    exact ⟨_, writerAddSysexData_full (UInt16.toNat_inj.mp empty) (UInt16.toNat_inj.mp none)
      data t⟩

/-- Each call is refused with an error, or it succeeds and has its effect because there is room for
its bytes. -/
theorem exec_outcome (h : Fits w) {c : Call} (hshort : Short c) :
    (∃ code, c.exec w = (.error code, w)) ∨
      (∃ count, (c.exec w).1 = .ok count) ∧ Effect w c (c.exec w).2 := by
  have adds (bytes : List UInt8) {f : Writer maxSize → Writer maxSize}
      (hexec : c.exec w = returned (added w bytes f))
      (heffect : HasRoom w bytes → Effect w c (f (w.putAll bytes))) :
      (∃ code, c.exec w = (.error code, w)) ∨
        (∃ count, (c.exec w).1 = .ok count) ∧ Effect w c (c.exec w).2 := by
    rw [hexec, added]
    split
    · rename_i room
      exact .inr ⟨⟨0, rfl⟩, heffect room⟩
    · exact .inl ⟨.packetFull, rfl⟩
  cases c with
  | addMsg m t =>
    cases flag : w.inSysexMsg with
    | true =>
      by_cases realtime : isRealtimeMessage m.byte0 = true
      · refine adds [timestampByte t, m.byte0] (f := id) ?_ (.realtime flag realtime)
        rw [Call.exec, writerAddMsg_inside flag, if_pos realtime]
      · refine .inl ⟨.invalidStatusByte, exec_refused ?_ (by decide)⟩
        rw [Call.exec, writerAddMsg_inside flag, if_neg realtime]
    | false =>
      by_cases valid : ValidMessage m
      · exact adds _ (congrArg returned (writerAddMsg_outside flag valid t)) (.message flag valid)
      · obtain ⟨code, failed, -, eq⟩ := writerAddMsg_invalid flag valid t
        exact .inl ⟨code, exec_refused (congrArg returned eq) failed⟩
  | startSysexMsg t =>
    cases flag : w.inSysexMsg with
    | true =>
      refine .inl ⟨.alreadyInSysexSequence, exec_refused ?_ (by decide)⟩
      rw [Call.exec, writerStartSysexMsg_eq, if_pos flag]
    | false =>
      refine adds (statusBytes w t 0xf0) (f := fun w' =>
        { w' with inSysexMsg := true, prevRunningStatusByte := 0 }) ?_ (.sysexStart flag)
      rw [Call.exec, writerStartSysexMsg_eq, if_neg (by simp [flag])]
  | endSysexMsg t =>
    cases flag : w.inSysexMsg with
    | true =>
      refine adds (statusBytes w t 0xf7) (f := fun w' => { w' with inSysexMsg := false }) ?_
        (.sysexEnd flag)
      rw [Call.exec, writerEndSysexMsg_eq, if_pos flag]
    | false =>
      refine .inl ⟨.notInSysexSequence, exec_refused ?_ (by decide)⟩
      rw [Call.exec, writerEndSysexMsg_eq, if_neg (by simp [flag])]
  | addSysexData bytes t =>
    rcases addSysexData_cases h bytes t with refused | ⟨taken, data, room, eq⟩
    · exact .inl refused
    · rw [eq]
      exact .inr ⟨⟨_, rfl⟩, .sysexData taken data room⟩
  | addSysexMsg bytes t =>
    rcases writerAddSysexMsg_cases w t hshort with ⟨data, rfl, valid, eq⟩ | ⟨code, failed, eq⟩
    · exact adds _ (congrArg returned eq) (.sysexMsg valid)
    · exact .inl ⟨code, exec_refused (congrArg returned eq) failed⟩

private theorem exec_effect (h : Fits w) {c : Call} (hshort : Short c) :
    Effect w c (c.exec w).2 := by
  rcases exec_outcome h hshort with ⟨code, refused⟩ | ⟨-, effect⟩
  · rw [refused]
    exact .refused
  · exact effect

private theorem Healthy.opened (h : Healthy w) (hopen : w.inSysexMsg = true) :
    w.txBufSize ≠ 0 ∧ Plain w ∧ ∃ t body s, Comes false w t body s ∧ s.inSysex = true ∧
      Settles body := by
  rcases h.read with plain | ⟨⟨closed, -⟩, -⟩
  swap
  · cases hopen.symm.trans closed
  rcases plain with ⟨-, -, closed⟩ | ⟨t, body, s, comes, flag, scanOk⟩
  · cases hopen.symm.trans closed
  have inside : s.inSysex = true := flag.trans hopen
  refine ⟨?_, .inr ⟨t, body, s, comes, flag, scanOk⟩, t, body, s, comes, inside, ?_⟩
  · rw [ne_eq, ← payload_eq_nil (h.fits.size_le.trans h.fits.max_le), comes.payload]
    exact List.cons_ne_nil _ _
  · rcases scanOk with settles | ⟨-, -, outside⟩
    · exact settles
    · cases inside.symm.trans outside

private theorem Healthy.startSysexMsg (h : Healthy w) {t : UInt16}
    (hclosed : w.inSysexMsg = false) (hroom : HasRoom w (statusBytes w t 0xf0))
    (hplaced : ¬ Misplaced w (.startSysexMsg t)) :
    Healthy { w.putAll (statusBytes w t 0xf0) with
      inSysexMsg := true, prevRunningStatusByte := 0 } := by
  obtain ⟨payload, fits⟩ := written_eq { w.putAll (statusBytes w t 0xf0) with
    inSysexMsg := true, prevRunningStatusByte := 0 } h.fits hroom ⟨rfl, rfl, rfl⟩
  refine ⟨fits, .inl ?_⟩
  have plain : Plain w := by
    rcases h.read with plain | continued
    · exact plain
    · exact absurd ⟨continued.startsWithData, hroom⟩ hplaced
  refine plain.append payload h.fits fun s hs _ => ?_
  exact ⟨_, _, piece_sysexStart (hs.trans hclosed) t rfl, by rw [hclosed]; rfl⟩

private theorem Healthy.endSysexMsg (h : Healthy w) {t : UInt16} (hopen : w.inSysexMsg = true)
    (hroom : HasRoom w (statusBytes w t 0xf7)) :
    Healthy { w.putAll (statusBytes w t 0xf7) with inSysexMsg := false } := by
  obtain ⟨payload, fits⟩ := written_eq { w.putAll (statusBytes w t 0xf7) with
    inSysexMsg := false } h.fits hroom ⟨rfl, rfl, rfl⟩
  refine ⟨fits, .inl ((h.opened hopen).2.1.append payload h.fits fun s hs hstep => ?_)⟩
  exact ⟨_, _, piece_sysexEnd (hs.trans hopen) hstep t (putAll_prevRunningStatusByte _ _)
    (putAll_prevTimestamp _ _), rfl⟩

private theorem messageTail_unset {m : MessageBytes} (hm : ValidMessage m)
    (hunset : w.prevRunningStatusByte = 0) (t : UInt16) :
    messageTail w m t =
      timestampByte t :: (w.choose m.byte0 m.byte2).statusByte :: sentData w m := by
  have other : w.isRunningStatus (w.choose m.byte0 m.byte2).statusByte = false := by
    unfold Writer.isRunningStatus
    rw [hunset, beq_eq_false_iff_ne]
    intro zero
    have size := (choose_class w m.byte0 m.byte2).1
    rw [zero] at size
    exact hm.1 size.symm
  have timed : ¬ w.skipMsgTimestamp (w.choose m.byte0 m.byte2).statusByte t = true := by
    simp [Writer.skipMsgTimestamp, other]
  have started : ¬ w.skipStatusByte (w.choose m.byte0 m.byte2).statusByte = true := by
    simp [Writer.skipStatusByte, other]
  rw [messageTail, if_neg timed, if_neg started]
  rfl

private theorem choose_realtime (w : Writer maxSize) (statusByte dataByte1 : UInt8) :
    isRealtimeMessage (w.choose statusByte dataByte1).statusByte =
      isRealtimeMessage statusByte := by
  rcases choose_cases w statusByte dataByte1 with ⟨noteOff, -, -, eq⟩ | ⟨-, running, eq, -⟩
  · obtain ⟨-, channel, -, channel'⟩ := noteOff_noteOn noteOff
    have other {byte : UInt8} (h : isChannelMessage byte = true) :
        isRealtimeMessage byte = false := by
      by_contra realtime
      rw [Bool.not_eq_false] at realtime
      cases h.symm.trans (not_channel_of_realtime realtime)
    rw [eq, other channel, other channel']
  · rw [eq]

private theorem Continued.addMsg (h : Continued w) {m : MessageBytes} (hm : ValidMessage m)
    (hrealtime : isRealtimeMessage m.byte0 = true) {t : UInt16}
    (hpayload : w'.payload = w.payload ++ messageTail w m t)
    (hflag : w'.inSysexMsg = w.inSysexMsg)
    (hrunning : w'.prevRunningStatusByte = (w.choose m.byte0 m.byte2).runningStatusByte) :
    Continued w' := by
  obtain ⟨⟨closed, unset⟩, t0, d, body, s, comes, data, inside⟩ := h
  have realtime : isRealtimeMessage (w.choose m.byte0 m.byte2).statusByte = true := by
    rw [choose_realtime]
    exact hrealtime
  have unset' : w'.prevRunningStatusByte = 0 := by
    rcases choose_keepsRunning hrunning with zero | ⟨channel, -⟩ | ⟨-, kept⟩
    · exact zero
    · cases channel.symm.trans (not_channel_of_realtime realtime)
    · exact kept.trans unset
  have none : sentData w m = [] := by
    have length := sentData_length w hm
    rw [messageSize_realtime realtime] at length
    exact List.length_eq_zero_iff.mp (Nat.succ.inj length)
  have tail := messageTail_unset hm unset t
  rw [none] at tail
  obtain ⟨out, emits⟩ := comes.emits
  have piece : Piece w w s _ _ s := piece_realtime inside comes.inStep t realtime rfl rfl
  have more := emits.trans piece.emits
  rw [← tail] at more
  refine ⟨⟨hflag.trans closed, unset'⟩, t0, d, body ++ messageTail w m t, s,
    ⟨?_, ⟨_, more⟩, .inl unset'⟩, data, inside⟩
  rw [hpayload, comes.payload]
  rfl

private theorem Healthy.addRealtime (h : Healthy w) {rt : UInt8} {t : UInt16}
    (hopen : w.inSysexMsg = true) (hrt : isRealtimeMessage rt = true)
    (hroom : HasRoom w [timestampByte t, rt]) : Healthy (w.putAll [timestampByte t, rt]) := by
  obtain ⟨payload, fits⟩ := written_eq (w.putAll [timestampByte t, rt]) h.fits hroom
    ⟨rfl, rfl, rfl⟩
  obtain ⟨written, plain, -⟩ := h.opened hopen
  have headed : w.header t ++ [timestampByte t, rt] = [timestampByte t, rt] := by
    rw [Writer.header, if_neg written]
    rfl
  refine ⟨fits, .inl (plain.append (payload.trans (congrArg _ headed.symm)) h.fits ?_)⟩
  intro s hs hstep
  exact ⟨_, _, piece_realtime (hs.trans hopen) hstep t hrt (putAll_prevRunningStatusByte _ _)
    (putAll_prevTimestamp _ _), putAll_inSysexMsg _ _⟩

private theorem Healthy.addMsg (h : Healthy w) {m : MessageBytes} {t : UInt16}
    (hclosed : w.inSysexMsg = false) (hm : ValidMessage m)
    (hroom : HasRoom w (messageBytesToAppend w m t)) (hplaced : ¬ Misplaced w (.addMsg m t)) :
    Healthy (remember w m t (w.putAll (messageBytesToAppend w m t))) := by
  obtain ⟨payload, fits⟩ := written_eq (remember w m t (w.putAll (messageBytesToAppend w m t)))
    h.fits hroom ⟨rfl, rfl, rfl⟩
  refine ⟨fits, ?_⟩
  rw [show messageBytesToAppend w m t = w.header t ++ messageTail w m t from rfl] at payload ⊢
  rcases h.read with plain | continued
  · left
    refine plain.append payload h.fits fun s hs hstep => ?_
    obtain ⟨s', piece⟩ : ∃ s', Piece w (remember w m t _) s (messageTail w m t) _ s' :=
      piece_message (hs.trans hclosed) hstep hm rfl
    exact ⟨_, s', piece, putAll_inSysexMsg _ _⟩
  · right
    have realtime : isRealtimeMessage m.byte0 = true := by
      by_contra other
      rw [Bool.not_eq_true] at other
      exact hplaced ⟨continued.startsWithData, hm, other, hroom⟩
    refine continued.addMsg hm realtime (t := t) ?_ (putAll_inSysexMsg _ _) rfl
    rw [payload, continued.header_nil h.fits t]
    rfl

/-- Data for an empty packet writes its header, and the packet is continued with the first byte of
it. -/
private theorem Healthy.startData (h : Healthy w) (hclosed : w.inSysexMsg = false)
    (hsize : w.txBufSize = 0) {bytes : List UInt8} (hdata : ∀ b ∈ bytes, isDataByte b = true)
    {t : UInt16} (hroom : HasRoom w (w.header t ++ bytes)) :
    Healthy (w.putAll (w.header t ++ bytes)) := by
  obtain ⟨payload, fits⟩ := written_eq (w.putAll (w.header t ++ bytes)) h.fits hroom
    ⟨rfl, rfl, rfl⟩
  have empty := (payload_eq_nil (h.fits.size_le.trans h.fits.max_le)).mpr hsize
  have unset : (w.putAll (w.header t ++ bytes)).prevRunningStatusByte = 0 := by
    rw [putAll_prevRunningStatusByte]
    rcases h.read with (⟨-, unset, -⟩ | ⟨t0, body, s, comes, -⟩) | ⟨⟨-, unset⟩, -⟩
    · exact unset
    · cases comes.payload.symm.trans empty
    · exact unset
  have closed : (w.putAll (w.header t ++ bytes)).inSysexMsg = false :=
    (putAll_inSysexMsg _ _).trans hclosed
  have headed : (w.putAll (w.header t ++ bytes)).payload = headerByte t :: bytes := by
    rw [payload, empty, Writer.header, if_pos hsize]
    rfl
  refine ⟨fits, ?_⟩
  cases bytes with
  | nil =>
    left
    right
    exact ⟨t, [], enter false t, ⟨headed, ⟨[], Emits.nil _ _⟩, .inl unset⟩, closed.symm,
      .inr ⟨fun _ => rfl, unset, rfl⟩⟩
  | cons d bytes =>
    right
    have emits := emits_sysexData (s := enter true t) rfl hdata
    exact ⟨⟨closed, unset⟩, t, d, bytes, enter true t, ⟨headed, ⟨_, emits⟩, .inl unset⟩,
      hdata d List.mem_cons_self, rfl⟩

private theorem Healthy.addSysexData (h : Healthy w) {bytes : List UInt8} {t : UInt16}
    (htaken : w.inSysexMsg = true ∨ w.txBufSize = 0) (hdata : ∀ b ∈ bytes, isDataByte b = true)
    (hroom : HasRoom w (w.header t ++ bytes)) : Healthy (w.putAll (w.header t ++ bytes)) := by
  cases flag : w.inSysexMsg with
  | true =>
    obtain ⟨-, plain, -⟩ := h.opened flag
    obtain ⟨payload, fits⟩ := written_eq (w.putAll (w.header t ++ bytes)) h.fits hroom
      ⟨rfl, rfl, rfl⟩
    refine ⟨fits, .inl (plain.append payload h.fits fun s hs hstep => ?_)⟩
    exact ⟨_, _, piece_sysexData (hs.trans flag) hstep hdata (putAll_prevRunningStatusByte _ _)
      (putAll_prevTimestamp _ _), (putAll_inSysexMsg _ _).trans (openAfter_sysexData _ _).symm⟩
  | false =>
    have size : w.txBufSize = 0 := by
      rcases htaken with opened | size
      · cases opened.symm.trans flag
      · exact size
    exact h.startData flag size hdata hroom

private theorem isSysexMessage_iff {bytes : List UInt8} :
    IsSysexMessage bytes ↔
      ∃ data, bytes = sysexMessage data ∧ ∀ b ∈ data, isDataByte b = true := by
  constructor
  · intro h
    exact ⟨_, h⟩
  · rintro ⟨data, rfl, valid⟩
    have inner : ((sysexMessage data).drop 1).dropLast = data := by simp [sysexMessage]
    unfold IsSysexMessage
    rw [inner]
    exact ⟨rfl, valid⟩

private theorem Healthy.addSysexMsg (h : Healthy w) {data : List UInt8} {t : UInt16}
    (hdata : ∀ b ∈ data, isDataByte b = true)
    (hroom : HasRoom w (w.header t ++ (timestampByte t :: 0xf0 ::
      (data ++ [timestampByte t, 0xf7]))))
    (hplaced : ¬ Misplaced w (.addSysexMsg (sysexMessage data) t)) :
    Healthy { w.putAll (w.header t ++ (timestampByte t :: 0xf0 ::
      (data ++ [timestampByte t, 0xf7]))) with prevRunningStatusByte := 0 } := by
  obtain ⟨payload, fits⟩ := written_eq { w.putAll (w.header t ++ (timestampByte t :: 0xf0 ::
    (data ++ [timestampByte t, 0xf7]))) with prevRunningStatusByte := 0 } h.fits hroom
    ⟨rfl, rfl, rfl⟩
  have alone : ¬ (StartsWithData w ∨ w.inSysexMsg = true) := by
    intro inside
    refine hplaced ⟨inside, isSysexMessage_iff.mpr ⟨data, rfl, hdata⟩, ?_⟩
    rw [sysexMsgBytes_sysexMessage]
    exact hroom
  rw [not_or, Bool.not_eq_true] at alone
  obtain ⟨other, closed⟩ := alone
  have plain : Plain w := by
    rcases h.read with plain | continued
    · exact plain
    · exact absurd continued.startsWithData other
  refine ⟨fits, .inl (plain.append payload h.fits fun s hs hstep => ?_)⟩
  obtain ⟨s', piece⟩ : ∃ s', Piece w { w.putAll (w.header t ++ (timestampByte t :: 0xf0 ::
      (data ++ [timestampByte t, 0xf7]))) with prevRunningStatusByte := 0 } s _ _ s' :=
    piece_sysexMsg (hs.trans closed) t hdata rfl
  refine ⟨_, s', piece, (putAll_inSysexMsg _ _).trans ?_⟩
  change _ = openAfter true (data.map .sysexData ++ [.sysexEnd t])
  rw [openAfter_append, closed]
  rfl

/-- A call that is not misplaced keeps the packet readable. -/
theorem Healthy.step (h : Healthy w) {c : Call} (hshort : Short c) (hplaced : ¬ Misplaced w c) :
    Healthy (c.exec w).2 := by
  have effect := exec_effect h.fits hshort
  generalize (c.exec w).2 = w' at effect ⊢
  cases effect with
  | refused => exact h
  | realtime opened realtime room => exact h.addRealtime opened realtime room
  | message closed valid room => exact h.addMsg closed valid room hplaced
  | sysexStart closed room => exact h.startSysexMsg closed room hplaced
  | sysexEnd opened room => exact h.endSysexMsg opened room
  | sysexData taken data room =>
    exact h.addSysexData taken (fun b hb => data b (List.mem_of_mem_take hb)) room
  | sysexMsg valid room => exact h.addSysexMsg valid room hplaced

private theorem Continued.broken (h : Continued w) (hfits : Fits w') {t : UInt16} {status : UInt8}
    {more : List UInt8} (hpayload : w'.payload = w.payload ++ timestampByte t :: status :: more)
    (hrealtime : isRealtimeMessage status = false) (hend : status ≠ 0xf7) : Broken w' := by
  obtain ⟨-, t0, d, body, s, comes, data, inside⟩ := h
  exact comes.broken inside (fun rest => preScan_data data (body ++ rest)) hfits hpayload hrealtime
    hend

theorem Healthy.breaks (h : Healthy w) {c : Call} (hshort : Short c) (hmisplaced : Misplaced w c) :
    Broken (c.exec w).2 := by
  have continued (starts : StartsWithData w) : Continued w := by
    rcases h.read with plain | continued
    · exact absurd starts plain.not_startsWithData
    · exact continued
  have headless (starts : StartsWithData w) (t : UInt16) : w.header t = [] :=
    (continued starts).header_nil h.fits t
  cases c with
  | addMsg m t =>
    obtain ⟨starts, valid, other, room⟩ := hmisplaced
    obtain ⟨⟨closed, unset⟩, -⟩ := continued starts
    rw [exec_added (c := .addMsg m t) _ _ (congrArg returned (writerAddMsg_outside closed valid t)),
      if_pos room]
    obtain ⟨payload, fits⟩ := written_eq (remember w m t (w.putAll (messageBytesToAppend w m t)))
      h.fits room ⟨rfl, rfl, rfl⟩
    have tail : messageBytesToAppend w m t =
        timestampByte t :: (w.choose m.byte0 m.byte2).statusByte :: sentData w m := by
      rw [show messageBytesToAppend w m t = w.header t ++ messageTail w m t from rfl,
        headless starts, messageTail_unset valid unset]
      rfl
    rw [← choose_realtime w m.byte0 m.byte2] at other
    refine (continued starts).broken fits (payload.trans (congrArg _ tail)) other fun ends => ?_
    have size := (choose_class w m.byte0 m.byte2).1
    rw [ends] at size
    exact valid.1 size.symm
  | startSysexMsg t =>
    obtain ⟨starts, room⟩ := hmisplaced
    obtain ⟨⟨closed, -⟩, -⟩ := continued starts
    rw [exec_added (statusBytes w t 0xf0) fun w' =>
      { w' with inSysexMsg := true, prevRunningStatusByte := 0 }, if_pos room]
    swap
    · rw [Call.exec, writerStartSysexMsg_eq, if_neg (by simp [closed])]
    obtain ⟨payload, fits⟩ := written_eq { w.putAll (statusBytes w t 0xf0) with
      inSysexMsg := true, prevRunningStatusByte := 0 } h.fits room ⟨rfl, rfl, rfl⟩
    have bytes : statusBytes w t 0xf0 = [timestampByte t, 0xf0] := by
      rw [statusBytes, headless starts, List.nil_append]
    exact (continued starts).broken fits (payload.trans (congrArg _ bytes)) rfl (by decide)
  | addSysexMsg bytes t =>
    obtain ⟨inside, message, room⟩ := hmisplaced
    obtain ⟨data, rfl, valid⟩ := isSysexMessage_iff.mp message
    rw [sysexMsgBytes_sysexMessage] at room
    rw [exec_added (c := .addSysexMsg _ t) _ _ (congrArg returned
      (writerAddSysexMsg_eq w t valid hshort)), if_pos room]
    obtain ⟨payload, fits⟩ := written_eq { w.putAll (w.header t ++ (timestampByte t :: 0xf0 ::
      (data ++ [timestampByte t, 0xf7]))) with prevRunningStatusByte := 0 } h.fits room
      ⟨rfl, rfl, rfl⟩
    have tail (header : w.header t = []) : w.header t ++ (timestampByte t :: 0xf0 ::
        (data ++ [timestampByte t, 0xf7])) =
          timestampByte t :: 0xf0 :: (data ++ [timestampByte t, 0xf7]) := by
      rw [header, List.nil_append]
    rcases inside with starts | opened
    · have bytes := tail (headless starts t)
      exact (continued starts).broken fits (payload.trans (congrArg _ bytes)) rfl (by decide)
    · obtain ⟨written, -, t0, body, s, comes, inside, settles⟩ := h.opened opened
      have bytes := tail (if_neg written)
      exact comes.broken inside settles fits (payload.trans (congrArg _ bytes)) rfl (by decide)
  | addSysexData bytes t => exact hmisplaced.elim
  | endSysexMsg t => exact hmisplaced.elim

/-- A call appends bytes to the packet, or it leaves the packet alone. -/
theorem Effect.appends {c : Call} (h : Effect w c w') (hfits : Fits w) :
    Fits w' ∧ ∃ bytes, w'.payload = w.payload ++ bytes := by
  have more {w' : Writer maxSize} {bytes : List UInt8} (hroom : HasRoom w bytes)
      (hsame : SameBuffer w' (w.putAll bytes)) :
      Fits w' ∧ ∃ bytes, w'.payload = w.payload ++ bytes := by
    obtain ⟨payload, fits⟩ := written_eq w' hfits hroom hsame
    exact ⟨fits, bytes, payload⟩
  cases h with
  | refused => exact ⟨hfits, [], (List.append_nil _).symm⟩
  | realtime _ _ room => exact more room ⟨rfl, rfl, rfl⟩
  | message _ _ room => exact more room ⟨rfl, rfl, rfl⟩
  | sysexStart _ room => exact more room ⟨rfl, rfl, rfl⟩
  | sysexEnd _ room => exact more room ⟨rfl, rfl, rfl⟩
  | sysexData _ _ room => exact more room ⟨rfl, rfl, rfl⟩
  | sysexMsg _ room => exact more room ⟨rfl, rfl, rfl⟩

/-- A packet that is broken stays broken. -/
theorem Broken.step (h : Broken w) {c : Call} (hshort : Short c) : Broken (c.exec w).2 := by
  obtain ⟨fits, bytes, payload⟩ := (exec_effect h.fits hshort).appends h.fits
  exact h.append fits payload

private theorem broken_run (calls : List Call) (hshort : ∀ c ∈ calls, Short c) :
    ∀ {w : Writer maxSize}, Broken w → Broken (writerAfter w calls) := by
  induction calls with
  | nil =>
    intro w h
    exact h
  | cons c calls ih =>
    intro w h
    rw [List.forall_mem_cons] at hshort
    exact ih hshort.2 (h.step hshort.1)

/-- A run keeps a packet readable exactly when no call of it is misplaced. -/
theorem healthy_run (calls : List Call) (hshort : ∀ c ∈ calls, Short c) :
    ∀ {w : Writer maxSize}, Healthy w →
      (WellPlaced w calls → Healthy (writerAfter w calls)) ∧
        (¬ WellPlaced w calls → Broken (writerAfter w calls)) := by
  induction calls with
  | nil =>
    intro w h
    exact ⟨fun _ => h, fun misplaced => absurd trivial misplaced⟩
  | cons c calls ih =>
    intro w h
    rw [List.forall_mem_cons] at hshort
    by_cases misplaced : Misplaced w c
    · refine ⟨fun placed => absurd misplaced placed.1, fun _ => ?_⟩
      exact broken_run calls hshort.2 (h.breaks hshort.1 misplaced)
    · obtain ⟨keeps, breaks⟩ := ih hshort.2 (h.step hshort.1 misplaced)
      refine ⟨fun placed => keeps placed.2, fun wrong => breaks fun placed => ?_⟩
      exact wrong ⟨misplaced, placed⟩

/-- The parser accepts what the writer has written if and only if no call was misplaced. -/
theorem parsePacket_accepts_iff (w : Writer maxSize)
    (runningStatusEnabled noteOffAsNoteOn : Bool) {txBufMaxSize : UInt16}
    (hmax : txBufMaxSize.toNat ≤ maxSize) {calls : List Call} (hshort : ∀ c ∈ calls, Short c)
    (hwritten : 0 < (writerAfter (freshWriter w runningStatusEnabled noteOffAsNoteOn txBufMaxSize)
      calls).txBufSize) :
    let fresh := freshWriter w runningStatusEnabled noteOffAsNoteOn txBufMaxSize
    (parsePacket (writerAfter fresh calls).payload).halt = .returned .success ↔
      WellPlaced fresh calls := by
  intro fresh
  have start : Healthy fresh := by
    refine ⟨⟨Nat.zero_le _, hmax⟩, .inl (.inl ⟨?_, rfl, rfl⟩)⟩
    simp [fresh, Writer.payload, freshWriter, writerInit]
  obtain ⟨keeps, breaks⟩ := healthy_run calls hshort start
  constructor
  · intro success
    by_contra misplaced
    rw [(breaks misplaced).parse] at success
    cases success
  · intro placed
    have healthy := keeps placed
    apply healthy.parse
    rw [ne_eq, payload_eq_nil (healthy.fits.size_le.trans healthy.fits.max_le)]
    exact UInt16.pos_iff_ne_zero.mp hwritten

/-- A whole sysex message, and running status behind a clock that stands in another one. -/
theorem parsePacket_accepts_mixed :
    let fresh := freshWriter blankWriter true true 64
    let calls := [Call.addSysexMsg [0xf0, 0x01, 0xf7] 10, Call.startSysexMsg 11,
      Call.startSysexMsg 12, Call.addMsg ⟨0xf8, 0, 0⟩ 13, Call.addMsg ⟨0x90, 1, 2⟩ 14,
      Call.endSysexMsg 15, Call.addSysexData [0x05] 16, Call.addMsg ⟨0x90, 1, 2⟩ 17,
      Call.addMsg ⟨0x90, 3, 4⟩ 17]
    (parsePacket (writerAfter fresh calls).payload).halt = .returned .success := by
  intro fresh calls
  exact (@parsePacket_accepts_iff 64 blankWriter true true 64 (by decide) calls
    (by decide +kernel) (by decide +kernel)).mpr (by decide +kernel)

/-- A whole sysex message inside an open one, and a message behind data at the start of the packet:
the writer takes both, and the parser rejects both packets. -/
theorem parsePacket_accepts_fails :
    let fresh := freshWriter blankWriter true true 64
    let nested := [Call.startSysexMsg 10, Call.addSysexMsg [0xf0, 0xf7] 11]
    let behindData := [Call.addSysexData [0x05] 10, Call.addMsg ⟨0x90, 1, 2⟩ 11]
    0 < (writerAfter fresh nested).txBufSize ∧ 0 < (writerAfter fresh behindData).txBufSize ∧
      (parsePacket (writerAfter fresh nested).payload).halt = .returned .invalidStatusByte ∧
      (parsePacket (writerAfter fresh behindData).payload).halt =
        .returned .invalidStatusByte := by
  decide +kernel

end BleMidi.Packet.CallOrder
