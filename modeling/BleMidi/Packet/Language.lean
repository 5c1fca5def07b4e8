/- Module: BleMidi/Packet/Language
   source: ble_midi/src/ble_midi_packet.c (is_sysex_continuation, ble_midi_parse_packet)
   digest: The packets the parser accepts are those of a grammar, and which of them are valid. -/

import BleMidi.Packet.Unchecked

set_option autoImplicit false
set_option relaxedAutoImplicit false

namespace BleMidi.Packet.Language

open BleMidi.Core.Transducer
open BleMidi.Packet.Bytes
open BleMidi.Packet.PacketParser
open BleMidi.Packet.PacketScan
open BleMidi.Packet.ParserRefinement
open BleMidi.Packet.Segments
open BleMidi.Packet.Grammar
open BleMidi.Packet.Decomposition
open BleMidi.Packet.Unchecked

/-- Items in which any byte may stand behind the byte that decides the form of a message. -/
abbrev LooseItems := Items fun _ => True

/-- The packets of the grammar with loose items, and the events of a derivation. -/
inductive LoosePacket : List UInt8 → List MidiEvent → Prop
  | continued {header : UInt8} {w : List UInt8} {events : List MidiEvent} :
      isStatusByte header = true → Continuation w events → LoosePacket (header :: w) events
  | items {header : UInt8} {pre w tail : List UInt8} {r : Option UInt8}
      {preEvents events tailEvents : List MidiEvent} :
      isStatusByte header = true → Opening pre preEvents → LooseItems none w events r →
      Tail tail tailEvents →
      LoosePacket (header :: (pre ++ (w ++ tail))) (preEvents ++ (events ++ tailEvents))

/-- Items up to the end of the packet, where a sysex message may be left open. -/
inductive Outside : Option UInt8 → List UInt8 → List MidiEvent → Prop
  | intro {r r' : Option UInt8} {w tail : List UInt8} {events tailEvents : List MidiEvent} :
      LooseItems r w events r' → Tail tail tailEvents →
      Outside r (w ++ tail) (events ++ tailEvents)

/-- The rest of a packet inside a sysex message, which ends in front of items or not at all. -/
inductive Inside : List UInt8 → List MidiEvent → Prop
  | opened {w : List UInt8} {events : List MidiEvent} : SysexMix w events → Inside w events
  | closed {mix w : List UInt8} {te : UInt8} {mixEvents events : List MidiEvent} :
      SysexMix mix mixEvents → isStatusByte te = true → Outside none w events →
      Inside (mix ++ te :: 0xf7 :: w) (mixEvents ++ .sysexEnd :: events)

variable {r r' : Option UInt8} {v w data bytes : List UInt8} {events : List MidiEvent}

theorem Outside.nil (r : Option UInt8) : Outside r [] [] := .intro (.nil r) .nil

theorem Outside.message (h : MessageForm r v data bytes r') (hw : Outside r' w events) :
    Outside r (v ++ w) (.message bytes :: events) := by
  obtain ⟨items, tail⟩ := hw
  rw [← List.append_assoc, ← List.cons_append]
  exact .intro (h.items (fun _ _ => trivial) items) tail

theorem Outside.sysex {ts : UInt8} (hts : isStatusByte ts = true) (hw : Inside w events) :
    Outside r (ts :: 0xf0 :: w) (.sysexStart :: events) := by
  cases hw with
  | opened mix => exact .intro (.nil r) (.openSysex hts mix)
  | closed mix hte behind =>
    obtain ⟨items, tail⟩ := behind
    have block := Outside.intro (.sysex (r := r) hts mix hte items) tail
    simpa using block

theorem Inside.piece {event : MidiEvent}
    (hv : ∀ {mix : List UInt8} {mixEvents : List MidiEvent}, SysexMix mix mixEvents →
      SysexMix (v ++ mix) (event :: mixEvents))
    (hw : Inside w events) : Inside (v ++ w) (event :: events) := by
  cases hw with
  | opened mix => exact .opened (hv mix)
  | closed mix hte behind =>
    rw [← List.append_assoc, ← List.cons_append]
    exact .closed (hv mix) hte behind

section Ends

private theorem takeMessage_stop {s : ScanState} {front rest : List UInt8} {count : Nat}
    {out : List Event} {reason : ScanEnd}
    (h : takeMessage s front count rest = .stop out reason) :
    reason ≠ .success ∧ reason ≠ .failed .success := by
  unfold takeMessage at h
  split at h
  · cases h
    decide
  · cases h

private theorem scanRunning_stop {s : ScanState} {byte0 : UInt8} {rest : List UInt8}
    {out : List Event} {reason : ScanEnd} (h : scanRunning s byte0 rest = .stop out reason) :
    reason ≠ .success ∧ reason ≠ .failed .success := by
  unfold scanRunning at h
  split at h
  · cases h
    exact ⟨ScanEnd.noConfusion, ScanEnd.noConfusion⟩
  · exact takeMessage_stop h

private theorem scanStep_stop {s : ScanState} {b : UInt8} {unread : List UInt8}
    {out : List Event} {reason : ScanEnd} (h : scanStep s b unread = .stop out reason) :
    reason ≠ .success ∧ reason ≠ .failed .success := by
  unfold scanStep at h
  split at h
  · split at h
    · cases h
    · cases unread with
      | nil =>
        cases h
        decide
      | cons status rest =>
        simp only [scanSysexStatus] at h
        split at h
        · cases h
        · split at h
          · cases h
          · cases h
            decide
  · split at h
    · exact scanRunning_stop h
    · cases unread with
      | nil =>
        cases h
        decide
      | cons byte1 rest =>
        simp only at h
        split at h
        · exact scanRunning_stop h
        · simp only [scanStatus] at h
          split at h
          · cases h
          · split at h
            · cases h
              decide
            · exact takeMessage_stop h

private theorem run_code (s : ScanState) (w : List UInt8) :
    (run scanner s w).2 ≠ .failed .success := by
  apply run_induction (R := scanner) (P := fun _ _ result => result.2 ≠ .failed .success)
  · intro s
    exact ScanEnd.noConfusion
  · intro s b unread out reason hmove
    exact (scanStep_stop hmove).2
  · intro s s' b unread rest out hmove ih
    exact ih

private theorem preScan_code (w : List UInt8) : preScan w ≠ .error .success := by
  fun_induction preScan w <;> simp_all

theorem scanPacket_code (header : UInt8) (body : List UInt8) :
    (scanPacket header body).2 ≠ .failed .success := by
  unfold scanPacket
  cases hscan : preScan body with
  | error code =>
    rintro ⟨⟩
    exact preScan_code body hscan
  | ok isSysexCont =>
    by_cases hheader : isStatusByte header = true
    · simp only [if_pos hheader]
      exact run_code _ body
    · simp only [if_neg hheader]
      decide

/-- The parser returns success exactly when the scan reaches the end of the packet. -/
theorem success_iff (header : UInt8) (body : List UInt8) :
    (parsePacket (header :: body)).halt = .returned .success ↔
      (scanPacket header body).2 = .success := by
  have ends := (parsePacket_scan header body).2
  have code := scanPacket_code header body
  revert ends code
  generalize (scanPacket header body).2 = reason
  intro ends code
  cases reason with
  | success => exact ⟨fun _ => rfl, fun _ => ends.1⟩
  | failed error =>
    rw [ends.1]
    constructor
    · rintro ⟨⟩
      exact absurd rfl code
    · rintro ⟨⟩
  | orphan unread =>
    rw [ends.1, orphanHalt]
    split <;> simp

end Ends

section Soundness

variable {s s' : ScanState} {w rest : List UInt8} {out : List Event} {move : ScanMove}

/-- What the events of a run say of the bytes it read, between items and inside a sysex message, if
the run is successful. -/
private def Explained (s : ScanState) (w : List UInt8) (result : List Event × ScanEnd) : Prop :=
  (∀ r, Between r s → result.2 = .success → Outside r w (result.1.map untimed)) ∧
    (s.inSysex = true → s.running = 0 → result.2 = .success → Inside w (result.1.map untimed))

private theorem outside_step (h : StepOutside (fun _ => True) r w move)
    (hmove : move = .more out s' rest) {result : List Event × ScanEnd}
    (behind : Explained s' rest result) (success : result.2 = .success) :
    Outside r w ((out ++ result.1).map untimed) := by
  rw [List.map_append]
  cases h with
  | message form between =>
    cases hmove
    exact .message form (behind.1 _ between success)
  | sysexStart hts opened unset =>
    cases hmove
    exact .sysex hts (behind.2 opened unset success)
  | stop _ => cases hmove

private theorem inside_step (h : StepInside s w move) (hsysex : s.inSysex = true)
    (hrunning : s.running = 0) (hmove : move = .more out s' rest)
    {result : List Event × ScanEnd} (behind : Explained s' rest result)
    (success : result.2 = .success) : Inside w ((out ++ result.1).map untimed) := by
  rw [List.map_append]
  cases h with
  | piece mixes =>
    cases hmove
    exact .piece mixes (behind.2 hsysex hrunning success)
  | sysexEnd hte =>
    cases hmove
    have between : Between none { s with inSysex := false } := ⟨rfl, hrunning, by simp⟩
    exact .closed .nil hte (behind.1 none between success)
  | failed code => cases hmove

private theorem run_explained (s : ScanState) (w : List UInt8) :
    Explained s w (run scanner s w) := by
  apply run_induction (R := scanner) (P := Explained)
  · intro s
    exact ⟨fun r _ _ => Outside.nil r, fun _ _ _ => .opened .nil⟩
  · intro s b unread out reason hmove
    change scanStep s b unread = _ at hmove
    constructor
    · intro r hs success
      exact absurd success (scanStep_stop hmove).1
    · intro hsysex hrunning success
      exact absurd success (scanStep_stop hmove).1
  · intro s s' b unread rest out hmove ih
    change scanStep s b unread = _ at hmove
    constructor
    · intro r hs success
      exact outside_step (stepOutside (fun _ => True) hs b unread) hmove ih success
    · intro hsysex hrunning success
      exact inside_step (stepInside hsysex hrunning b unread) hsysex hrunning hmove ih success

/-- What a receiver reads between items. -/
theorem outside_of_run (hs : Between r s) (success : (run scanner s w).2 = .success) :
    Outside r w ((run scanner s w).1.map untimed) := (run_explained s w).1 r hs success

/-- What a receiver reads inside a sysex message. -/
theorem inside_of_run (hsysex : s.inSysex = true) (hrunning : s.running = 0)
    (success : (run scanner s w).2 = .success) : Inside w ((run scanner s w).1.map untimed) :=
  (run_explained s w).2 hsysex hrunning success

private theorem continuation_of_mix (h : SysexMix w events) (hscan : preScan w = .ok true) :
    Continuation w events := by
  induction h with
  | nil => cases hscan
  | data hb hmix _ => exact .intro .nil hb hmix
  | pair hts hrt _ ih =>
    rw [preScan_realtime hts hrt] at hscan
    obtain ⟨pairs, hd, mix⟩ := ih hscan
    exact .intro (.pair hts hrt pairs) hd mix

theorem Outside.packet {header : UInt8} (hheader : isStatusByte header = true)
    (h : Outside none w events) : LoosePacket (header :: w) events := by
  obtain ⟨items, tail⟩ := h
  exact .items hheader .nil items tail

theorem Inside.packet {header : UInt8} (hheader : isStatusByte header = true)
    (hscan : preScan w = .ok true) (h : Inside w events) : LoosePacket (header :: w) events := by
  cases h with
  | opened mix => exact .continued hheader (continuation_of_mix mix hscan)
  | closed mix hte behind =>
    obtain ⟨items, tail⟩ := behind
    have opening := Opening.closed (continuation_of_preScan mix hte hscan) hte
    have packet := LoosePacket.items hheader opening items tail
    simpa using packet

/-- A packet that is scanned successfully is in the grammar, with the events of the scan. -/
theorem loosePacket_of_scan {header : UInt8} {body : List UInt8}
    (success : (scanPacket header body).2 = .success) :
    LoosePacket (header :: body) ((scanPacket header body).1.map untimed) := by
  revert success
  unfold scanPacket
  cases hscan : preScan body with
  | error code => rintro ⟨⟩
  | ok isSysexCont =>
    by_cases hheader : isStatusByte header = true
    swap
    · simp only [if_neg hheader]
      rintro ⟨⟩
    simp only [if_pos hheader]
    intro success
    have explained := run_explained (startState isSysexCont header) body
    revert explained success
    generalize run scanner (startState isSysexCont header) body = result
    intro success explained
    cases isSysexCont with
    | false => exact (explained.1 none ⟨rfl, rfl, by simp⟩ success).packet hheader
    | true =>
      exact (explained.2 rfl rfl success).packet hheader hscan

end Soundness

section Completeness

theorem Outside.reads (h : Outside r w events) {s : ScanState} (hs : Between r s) :
    Reads s w events fun _ => True := by
  obtain ⟨items, tail⟩ := h
  exact (items.reads hs).trans fun s' hs' => tail.reads hs'

/-- A packet of the grammar is parsed successfully, into the events of its derivation. -/
theorem LoosePacket.parses {packet : List UInt8} (h : LoosePacket packet events) :
    (parsePacket packet).halt = .returned .success ∧
      (parsePacket packet).callbacks.map untimed = events := by
  cases h with
  | @continued header w events hheader continuation =>
    have scan : preScan w = .ok true := by
      simpa using continuation.preScan []
    exact parsePacket_of_reads hheader scan (continuation.reads rfl)
  | items hheader opening items tail =>
    have fresh (header : UInt8) : Between none { startState true header with inSysex := false } :=
      ⟨rfl, rfl, by simp⟩
    cases opening with
    | nil =>
      have scan := items.preScan rfl tail.preScan
      exact parsePacket_of_reads hheader scan ((Outside.intro items tail).reads (fresh _))
    | @closed pre preEvents te continuation hte =>
      have scan (rest : List UInt8) : preScan (pre ++ [te, 0xf7] ++ rest) = .ok true := by
        rw [List.append_assoc]
        exact continuation.preScan _
      refine parsePacket_of_reads hheader (scan _) (P := fun _ => True) ?_
      rw [List.append_assoc, List.append_assoc]
      refine (continuation.reads rfl).trans ?_
      rintro s' rfl
      exact Reads.step (emits_sysexEnd rfl hte) ((Outside.intro items tail).reads (fresh _))

end Completeness

theorem loosePacket_of_parse {packet : List UInt8}
    (success : (parsePacket packet).halt = .returned .success) :
    LoosePacket packet ((parsePacket packet).callbacks.map untimed) := by
  cases packet with
  | nil => cases success
  | cons header body =>
    rw [(parsePacket_scan header body).1]
    exact loosePacket_of_scan ((success_iff header body).mp success)

/-- The parser is successful on the packets of the grammar and on no others, and what it delivers
are the events of the derivation. -/
theorem parsePacket_language (packet : List UInt8) (events : List MidiEvent) :
    ((parsePacket packet).halt = .returned .success ∧
      (parsePacket packet).callbacks.map untimed = events) ↔ LoosePacket packet events := by
  constructor
  · rintro ⟨success, rfl⟩
    exact loosePacket_of_parse success
  · intro h
    exact h.parses

section Validity

private theorem valid_behind {events' : List MidiEvent} (h : AllValid (events ++ events')) :
    AllValid events' := by
  intro bytes mem
  exact h bytes (List.mem_append_right events mem)

private theorem valid_front {events' : List MidiEvent} (h : AllValid (events ++ events')) :
    AllValid events := by
  intro bytes mem
  exact h bytes (List.mem_append_left events' mem)

private theorem valid_tail {event : MidiEvent} (h : AllValid (event :: events)) :
    AllValid events := by
  intro bytes mem
  exact h bytes (List.mem_cons_of_mem event mem)

private theorem valid_data (h : AllValid (.message bytes :: events))
    (form : MessageForm r v data bytes r') : ∀ b ∈ data, isDataByte b = true :=
  (form_valid form).mp (h bytes List.mem_cons_self)

private theorem checked_of_valid (h : LooseItems r w events r') (valid : AllValid events) :
    CheckedItems r w events r' := by
  induction h with
  | nil r => exact .nil r
  | @message r r' ts status data w events hts hstatus hlen _ _ ih =>
    have checked := valid_data valid (.full (r := r) hts hstatus hlen)
    exact .message hts hstatus hlen checked (ih (valid_tail valid))
  | @sysex r r' ts te mix w mixEvents events hts hmix hte _ ih =>
    exact .sysex hts hmix hte (ih (valid_tail (valid_behind (valid_tail valid))))
  | running hd hlen _ _ ih =>
    have checked := valid_data valid (.running hd hlen)
    exact .running hd hlen checked (ih (valid_tail valid))
  | runningTimed hts hd hlen _ _ ih =>
    have checked := valid_data valid (.runningTimed hts hd hlen)
    exact .runningTimed hts hd hlen checked (ih (valid_tail valid))

private theorem loose_of_checked (h : CheckedItems r w events r') : LooseItems r w events r' := by
  induction h with
  | nil r => exact .nil r
  | message hts hstatus hlen _ _ ih => exact .message hts hstatus hlen (fun _ _ => trivial) ih
  | sysex hts hmix hte _ ih => exact .sysex hts hmix hte ih
  | running hd hlen _ _ ih => exact .running hd hlen (fun _ _ => trivial) ih
  | runningTimed hts hd hlen _ _ ih =>
    exact .runningTimed hts hd hlen (fun _ _ => trivial) ih

private theorem allValid_tail (h : Tail w events) : AllValid events := by
  cases h with
  | nil => exact .nil
  | openSysex _ mix => exact .other (fun _ => MidiEvent.noConfusion) (allValid_mix mix)

/-- The grammar of valid packets is the loose one with valid messages. -/
theorem grammarPacket_iff {packet : List UInt8} :
    GrammarPacket packet events ↔ LoosePacket packet events ∧ AllValid events := by
  constructor
  · intro h
    cases h with
    | continued hheader continuation =>
      refine ⟨.continued hheader continuation, ?_⟩
      obtain ⟨pairs, hd, mix⟩ := continuation
      exact (allValid_mix pairs.mix).append (allValid_mix (.data hd mix))
    | items hheader opening items tail =>
      refine ⟨.items hheader opening (loose_of_checked items) tail, ?_⟩
      exact (allValid_opening opening).append ((allValid_items items).append (allValid_tail tail))
  · rintro ⟨h, valid⟩
    cases h with
    | continued hheader continuation => exact .continued hheader continuation
    | items hheader opening items tail =>
      exact .items hheader opening (checked_of_valid items (valid_front (valid_behind valid))) tail

end Validity

/-- A packet is in the grammar of valid packets exactly when the parser is successful on it and
delivers valid messages only. -/
theorem grammarPacket_exact (packet : List UInt8) (events : List MidiEvent) :
    GrammarPacket packet events ↔
      (parsePacket packet).halt = .returned .success ∧
        (parsePacket packet).callbacks.map untimed = events ∧ AllValid events := by
  rw [grammarPacket_iff]
  constructor
  · rintro ⟨loose, valid⟩
    obtain ⟨success, delivered⟩ := loose.parses
    exact ⟨success, delivered, valid⟩
  · rintro ⟨success, rfl, valid⟩
    exact ⟨loosePacket_of_parse success, valid⟩

end BleMidi.Packet.Language
