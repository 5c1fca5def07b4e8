/- Module: BleMidi/Packet/ParserRefinement
   source: ble_midi/src/ble_midi_packet.c (ble_midi_parser_read, ble_midi_parse_packet)
   digest: The index parser makes the callbacks of the scan, out of bounds at orphans only. -/

import BleMidi.Packet.PacketScan

set_option autoImplicit false
set_option relaxedAutoImplicit false

namespace BleMidi.Packet.ParserRefinement

open BleMidi.Core.Transducer
open BleMidi.Packet.Bytes
open BleMidi.Packet.PacketParser
open BleMidi.Packet.PacketScan

section Exec

variable {α β : Type}

@[simp] theorem exec_pure (a : α) (parser : Parser) :
    (pure a : ParserM α).exec parser = (.ok a, parser) := rfl

@[simp] theorem exec_throw (halt : Halt) (parser : Parser) :
    (throw halt : ParserM α).exec parser = (.error halt, parser) := rfl

@[simp] theorem exec_get (parser : Parser) :
    (get : ParserM Parser).exec parser = (.ok parser, parser) := rfl

@[simp] theorem exec_modify (f : Parser → Parser) (parser : Parser) :
    (modify f : ParserM Unit).exec parser = (.ok (), f parser) := rfl

@[simp] theorem exec_access (a : Access) (parser : Parser) :
    (access a).exec parser = (.ok (), { parser with accesses := parser.accesses ++ [a] }) := rfl

@[simp] theorem exec_callback (event : Event) (parser : Parser) :
    (callback event).exec parser =
      (.ok (), { parser with callbacks := parser.callbacks ++ [event] }) := rfl

theorem exec_bind (x : ParserM α) (f : α → ParserM β) (parser : Parser) :
    (x >>= f).exec parser =
      match x.exec parser with
      | (.ok a, parser') => (f a).exec parser'
      | (.error halt, parser') => (.error halt, parser') := by
  simp only [ParserM.exec, ExceptT.run_bind, StateT.run_bind]
  change (match (ExceptT.run x).run parser with | (a, s) => _) = _
  rcases (ExceptT.run x).run parser with ⟨_ | _, _⟩ <;> rfl

end Exec

/-- Every access of the list is inside its bounds. -/
def SafeTrace (trace : List Access) : Prop := ∀ a ∈ trace, a.Safe

theorem SafeTrace.append {s t : List Access} (hs : SafeTrace s) (ht : SafeTrace t) :
    SafeTrace (s ++ t) := by
  intro a ha
  rcases List.mem_append.mp ha with h | h
  · exact hs a h
  · exact ht a h

/-- The parser after `count` more bytes, read with the accesses of `trace`. -/
def after (parser : Parser) (count : Nat) (trace : List Access) : Parser :=
  { parser with readPos := parser.readPos + count, accesses := parser.accesses ++ trace }

/-- The scan state of a parser. -/
def scanState (parser : Parser) : ScanState :=
  ⟨parser.inSysexMsg, parser.runningStatusByte, parser.prevTimestampByte,
    parser.timestampHighBits⟩

private theorem copyBytes_exec (rxBuf : List UInt8) (room : Nat) (count : Nat) :
    ∀ (i : Nat) (parser : Parser), i + count ≤ room → parser.readPos + count ≤ rxBuf.length →
      ∃ trace, SafeTrace trace ∧
        (copyBytes rxBuf room count i).exec parser =
          (.ok ((rxBuf.drop parser.readPos).take count), after parser count trace) := by
  induction count with
  | zero =>
    intro i parser _ _
    exact ⟨[], by simp [SafeTrace], by simp [copyBytes, after]⟩
  | succ count ih =>
    intro i parser hi hpos
    have inside : parser.readPos < rxBuf.length := by omega
    have fits : i < room := by omega
    obtain ⟨trace, safe, tail⟩ := ih (i + 1)
      (after parser 1 [.rxRead parser.readPos rxBuf.length, .store i room])
      (by omega) (by simp only [after]; omega)
    refine ⟨[.rxRead parser.readPos rxBuf.length, .store i room] ++ trace, ?_, ?_⟩
    · refine SafeTrace.append ?_ safe
      simp [SafeTrace, Access.Safe, inside, fits]
    · have rest : rxBuf.drop parser.readPos =
          rxBuf[parser.readPos] :: rxBuf.drop (parser.readPos + 1) :=
        List.drop_eq_getElem_cons inside
      simp only [after, List.append_assoc] at tail
      simp only [copyBytes, exec_bind, exec_get, exec_access, List.getElem?_eq_getElem inside,
        if_pos fits, exec_modify, List.append_assoc, List.cons_append, List.nil_append,
        tail, exec_pure, rest, List.take_succ_cons, after]
      congr 2
      omega

private theorem subU32_of_le {a b : Nat} (h : b ≤ a) : subU32 a b = a - b := if_pos h

theorem parserRead_exec {rxBuf rest : List UInt8} (room count : Nat) {parser : Parser}
    (hroom : count ≤ room) (hrest : rxBuf.drop parser.readPos = rest)
    (hcount : count ≤ rest.length) (hpos : parser.readPos ≤ rxBuf.length) :
    ∃ trace, SafeTrace trace ∧
      (parserRead rxBuf room count).exec parser =
        (.ok (rest.take count), after parser count trace) := by
  have available : parser.readPos + count ≤ rxBuf.length := by
    subst hrest
    rw [List.length_drop] at hcount
    omega
  obtain ⟨trace, safe, copied⟩ := copyBytes_exec rxBuf room count 0
    (after parser 0 [.sizeSub rxBuf.length count]) (by omega) available
  refine ⟨[.sizeSub rxBuf.length count] ++ trace, SafeTrace.append ?_ safe, ?_⟩
  · simp only [SafeTrace, List.mem_singleton, forall_eq, Access.Safe]
    omega
  · simp only [after, Nat.add_zero, hrest, List.append_assoc] at copied
    simp only [parserRead, exec_bind, exec_access, exec_get,
      subU32_of_le (show count ≤ rxBuf.length by omega),
      if_pos (show parser.readPos ≤ rxBuf.length - count by omega), copied, after]

theorem parserRead_end {rxBuf rest : List UInt8} (room count : Nat) {parser : Parser}
    (hrest : rxBuf.drop parser.readPos = rest) (hcount : rest.length < count)
    (hsize : count ≤ rxBuf.length) :
    (parserRead rxBuf room count).exec parser =
      (.error (.returned .unexpectedEndOfData),
        after parser 0 [.sizeSub rxBuf.length count]) := by
  have short : ¬ parser.readPos ≤ rxBuf.length - count := by
    subst hrest
    rw [List.length_drop] at hcount
    omega
  simp only [parserRead, exec_bind, exec_access, exec_get, subU32_of_le hsize,
    if_neg short, exec_throw, after, Nat.add_zero]

/-- The 254 byte read of a running status that was never set cannot succeed: the destination
has room for one byte. -/
theorem parserRead_orphan (rxBuf : List UInt8) (parser : Parser) :
    ∃ trace count, (parserRead rxBuf 1 254).exec parser =
      (.error (if parser.readPos ≤ subU32 rxBuf.length 254 then .outOfBounds
        else .returned .unexpectedEndOfData), after parser count trace) := by
  have second (parser : Parser) (accesses : List Access) : ∃ trace,
      (copyBytes rxBuf 1 253 1).exec { parser with accesses := accesses } =
        (.error .outOfBounds, { parser with accesses := accesses ++ trace }) := by
    cases h : rxBuf[parser.readPos]? with
    | none =>
      exact ⟨[.rxRead parser.readPos rxBuf.length], by simp [copyBytes, exec_bind, h]⟩
    | some byte =>
      exact ⟨[.rxRead parser.readPos rxBuf.length, .store 1 1],
        by simp [copyBytes, exec_bind, h]⟩
  by_cases check : parser.readPos ≤ subU32 rxBuf.length 254
  · rw [if_pos check]
    cases h : rxBuf[parser.readPos]? with
    | none =>
      refine ⟨[.sizeSub rxBuf.length 254, .rxRead parser.readPos rxBuf.length], 0, ?_⟩
      simp [parserRead, exec_bind, check, copyBytes, h, after]
    | some byte =>
      obtain ⟨trace, tail⟩ := second { parser with readPos := parser.readPos + 1 }
        (parser.accesses ++ [.sizeSub rxBuf.length 254, .rxRead parser.readPos rxBuf.length,
          .store 0 1])
      refine ⟨[.sizeSub rxBuf.length 254, .rxRead parser.readPos rxBuf.length,
        .store 0 1] ++ trace, 1, ?_⟩
      rw [show (254 : Nat) = 253 + 1 from rfl] at *
      simp only [parserRead, exec_bind, exec_access, exec_get, if_pos check]
      rw [copyBytes]
      simp only [exec_bind, exec_access, exec_get, h, Nat.zero_lt_one, if_true, exec_modify,
        List.append_assoc, List.cons_append, List.nil_append, Nat.zero_add] at tail ⊢
      simp only [tail, after]
  · rw [if_neg check]
    refine ⟨[.sizeSub rxBuf.length 254], 0, ?_⟩
    simp [parserRead, exec_bind, check, after]

private theorem messageBytes_take {front bytes : List UInt8} {n : Nat}
    (hn : n = front.length + bytes.length) (small : n ≤ 3) :
    (messageBytes front bytes).take n = front ++ bytes := by
  rw [messageBytes, List.take_take, min_eq_left small, hn, ← List.length_append,
    List.take_left]

/-- Only safe accesses so far. -/
def Sane (parser : Parser) : Prop := SafeTrace parser.accesses

/-- How the parser ends at an orphan: the check of the 254 bytes it asks for wraps around for
shorter packets. -/
def orphanHalt (rxBufSize unread : Nat) : Halt :=
  if rxBufSize < 254 ∨ 254 ≤ unread then .outOfBounds else .returned .unexpectedEndOfData

/-- How the parser ends when the scan of a packet ends with `e`. -/
def EndsWith (rxBuf : List UInt8) (e : ScanEnd) (r : Except Halt Unit × Parser) : Prop :=
  match e with
  | .success => r.1 = .ok () ∧ Sane r.2
  | .failed code => r.1 = .error (.returned code) ∧ Sane r.2
  | .orphan unread => r.1 = .error (orphanHalt rxBuf.length unread) ∧ ¬ Sane r.2

/-- The parser, which had made the callbacks `before`, ends an iteration as the move says. -/
def Follows (rxBuf : List UInt8) (before : List Event) (r : Except Halt Unit × Parser) :
    ScanMove → Prop
  | .stop out e => (∃ halt, r.1 = .error halt) ∧ r.2.callbacks = before ++ out ∧ EndsWith rxBuf e r
  | .more out s rest =>
      r.1 = .ok () ∧ r.2.callbacks = before ++ out ∧ Sane r.2 ∧ scanState r.2 = s ∧
        rxBuf.drop r.2.readPos = rest ∧ r.2.readPos ≤ rxBuf.length

private theorem sane_after {parser : Parser} {count : Nat} {trace : List Access}
    (h : Sane parser) (ht : SafeTrace trace) : Sane (after parser count trace) :=
  SafeTrace.append h ht

private theorem sizeSub_safe {rxBuf : List UInt8} {count : Nat} (h : count ≤ rxBuf.length) :
    SafeTrace [.sizeSub rxBuf.length count] := by
  simpa [SafeTrace, Access.Safe] using h

/-- The bytes unread at a position inside the buffer. -/
structure Unread (rxBuf : List UInt8) (parser : Parser) (rest : List UInt8) : Prop where
  sane : Sane parser
  drop_eq : rxBuf.drop parser.readPos = rest
  inside : parser.readPos ≤ rxBuf.length

namespace Unread

variable {rxBuf rest : List UInt8} {parser : Parser}

theorem after (count : Nat) {trace : List Access} (h : Unread rxBuf parser rest)
    (hcount : count ≤ rest.length) (ht : SafeTrace trace) :
    Unread rxBuf (ParserRefinement.after parser count trace) (rest.drop count) := by
  obtain ⟨sane, rfl, inside⟩ := h
  refine ⟨sane_after sane ht, ?_, ?_⟩
  · simp [ParserRefinement.after, List.drop_drop]
  · rw [List.length_drop] at hcount
    simp only [ParserRefinement.after]
    omega

theorem seeTimestamp (h : Unread rxBuf parser rest) (byte0 : UInt8) :
    Unread rxBuf (parser.seeTimestamp byte0) rest :=
  ⟨h.sane, h.drop_eq, h.inside⟩

theorem seeStatus (h : Unread rxBuf parser rest) (byte1 : UInt8) :
    Unread rxBuf (parser.seeStatus byte1) rest :=
  ⟨h.sane, h.drop_eq, h.inside⟩

theorem lt_length {byte0 : UInt8} (h : Unread rxBuf parser (byte0 :: rest)) :
    parser.readPos < rxBuf.length := by
  by_contra done
  have := h.drop_eq.symm.trans (List.drop_eq_nil_iff.mpr (Nat.le_of_not_lt done))
  cases this

theorem not_lt_length (h : Unread rxBuf parser []) : ¬ parser.readPos < rxBuf.length := by
  have := List.drop_eq_nil_iff.mp h.drop_eq
  omega

theorem readByte_cons {byte : UInt8} (h : Unread rxBuf parser (byte :: rest)) :
    ∃ trace, SafeTrace trace ∧
      (readByte rxBuf).exec parser = (.ok byte, ParserRefinement.after parser 1 trace) ∧
      Unread rxBuf (ParserRefinement.after parser 1 trace) rest := by
  obtain ⟨trace, safe, read⟩ := parserRead_exec 1 1 le_rfl h.drop_eq (by simp) h.inside
  refine ⟨trace, safe, ?_, ?_⟩
  · simp only [readByte, exec_bind, read, exec_pure, List.take_succ_cons, List.headD_cons]
  · simpa using h.after 1 (by simp) safe

theorem readByte_nil (h : Unread rxBuf parser []) (hsize : rxBuf ≠ []) :
    (readByte rxBuf).exec parser = (.error (.returned .unexpectedEndOfData),
      ParserRefinement.after parser 0 [.sizeSub rxBuf.length 1]) := by
  have size : 1 ≤ rxBuf.length := List.length_pos_of_ne_nil hsize
  simp only [readByte, exec_bind, parserRead_end 1 1 h.drop_eq (by simp) size]

theorem follows_takeMessage (front : List UInt8) (room count : Nat)
    (f : List UInt8 → List UInt8) (h : Unread rxBuf parser rest) (hroom : count ≤ room)
    (hsize : count ≤ rxBuf.length)
    (hf : ∀ bytes : List UInt8, bytes.length = count → f bytes = front ++ bytes) :
    Follows rxBuf parser.callbacks
      (ParserM.exec (do
        let bytes ← parserRead rxBuf room count
        callback (.midiMessage (f bytes)
          (timestampMs parser.timestampHighBits parser.prevTimestampByte))) parser)
      (takeMessage (scanState parser) front count rest) := by
  unfold takeMessage
  split
  · rename_i short
    simp only [exec_bind, parserRead_end room count h.drop_eq short hsize]
    exact ⟨⟨_, rfl⟩, by simp [ParserRefinement.after], rfl, sane_after h.sane (sizeSub_safe hsize)⟩
  · rename_i long
    have enough : count ≤ rest.length := by omega
    obtain ⟨trace, safe, read⟩ := parserRead_exec room count hroom h.drop_eq enough h.inside
    have next := h.after count enough safe
    simp only [exec_bind, read, exec_callback]
    refine ⟨rfl, ?_, next.sane, rfl, next.drop_eq, next.inside⟩
    simp [ParserRefinement.after, hf (rest.take count) (by simp [enough]), scanState]

/-- Cases 1 and 2 of the parse loop. -/
theorem follows_running (h : Unread rxBuf parser rest) (byte0 : UInt8) (hsize : rxBuf ≠ [])
    (hrunning : messageSize parser.runningStatusByte ≠ 1) :
    Follows rxBuf parser.callbacks ((parseRunningStatus rxBuf byte0).exec parser)
      (scanRunning (scanState parser) byte0 rest) := by
  have size : 1 ≤ rxBuf.length := List.length_pos_of_ne_nil hsize
  have small := messageSize_le parser.runningStatusByte
  unfold scanRunning
  by_cases unset : messageSize parser.runningStatusByte = 0
  · -- the count wraps around to 254
    rw [if_pos (by simpa [scanState] using unset)]
    obtain ⟨trace, count, read⟩ := parserRead_orphan rxBuf
      { parser with accesses := parser.accesses ++ [.countSub 0] }
    have wrapped : ((0 : UInt8) - 2).toNat = 254 := rfl
    have check : (if parser.readPos ≤ subU32 rxBuf.length 254 then Halt.outOfBounds
        else .returned .unexpectedEndOfData) = orphanHalt rxBuf.length rest.length := by
      have unread := h.drop_eq ▸ List.length_drop (i := parser.readPos) (l := rxBuf)
      have inside := h.inside
      refine if_congr ?_ rfl rfl
      unfold subU32
      split <;> omega
    simp only [parseRunningStatus, exec_bind, exec_get, exec_access, unset, wrapped, read, check]
    refine ⟨⟨_, rfl⟩, by simp [ParserRefinement.after], rfl, fun sane => ?_⟩
    have := sane (.countSub 0) (by simp [ParserRefinement.after])
    exact absurd this (by decide)
  · rw [if_neg (by simpa [scanState] using unset)]
    have two : 2 ≤ (messageSize parser.runningStatusByte).toNat := by
      have zero := mt UInt8.toNat_inj.mp unset
      have one := mt UInt8.toNat_inj.mp hrunning
      simp only [UInt8.reduceToNat] at zero one
      omega
    have count : (messageSize parser.runningStatusByte - 2).toNat =
        (messageSize parser.runningStatusByte).toNat - 2 :=
      UInt8.toNat_sub_of_le _ _ (UInt8.le_iff_toNat_le.mpr two)
    have safe : SafeTrace [.countSub (messageSize parser.runningStatusByte)] := by
      simpa [SafeTrace, Access.Safe, UInt8.le_iff_toNat_le] using two
    have counted : Unread rxBuf { parser with
        accesses := parser.accesses ++ [.countSub (messageSize parser.runningStatusByte)] }
        rest := ⟨h.sane.append safe, h.drop_eq, h.inside⟩
    have message := counted.follows_takeMessage [parser.runningStatusByte, byte0] 1
      ((messageSize parser.runningStatusByte).toNat - 2)
      (fun bytes => (messageBytes [parser.runningStatusByte, byte0] bytes).take
        (messageSize parser.runningStatusByte).toNat) (by omega) (by omega)
      fun bytes hbytes => messageBytes_take
        (by simp only [List.length_cons, List.length_nil]; omega) small
    simp only [parseRunningStatus, exec_bind, exec_get, exec_access, count]
    rw [exec_bind] at message
    exact message

theorem follows_status (h : Unread rxBuf parser rest) (byte1 : UInt8)
    (hsize : 3 ≤ rxBuf.length) :
    Follows rxBuf parser.callbacks
      ((parseStatus rxBuf parser.prevTimestampByte byte1).exec parser)
      (scanStatus (scanState parser) byte1 rest) := by
  have moved := h.seeStatus byte1
  unfold scanStatus
  split
  · rename_i start
    simp only [parseStatus, exec_bind, exec_modify, exec_get, if_pos start, exec_callback]
    exact ⟨rfl, rfl, moved.sane, rfl, moved.drop_eq, moved.inside⟩
  · rename_i other
    split
    · rename_i none
      simp only [parseStatus, exec_bind, exec_modify, exec_get, if_neg other, none]
      exact ⟨⟨_, rfl⟩, (List.append_nil _).symm, rfl, moved.sane⟩
    · rename_i some
      have small := messageSize_le byte1
      have one : 1 ≤ (messageSize byte1).toNat := by
        have zero := mt UInt8.toNat_inj.mp some
        simp only [UInt8.reduceToNat] at zero
        omega
      have positive : 0 < messageSize byte1 := UInt8.lt_iff_toNat_lt.mpr one
      have count : (messageSize byte1 - 1).toNat = (messageSize byte1).toNat - 1 :=
        UInt8.toNat_sub_of_le _ _ (UInt8.le_iff_toNat_le.mpr one)
      have message := moved.follows_takeMessage [byte1] 2 ((messageSize byte1).toNat - 1)
        (fun bytes => (messageBytes [byte1] bytes).take (1 + ((messageSize byte1).toNat - 1)))
        (by omega) (by omega)
        fun bytes hbytes => messageBytes_take
          (by simp only [List.length_cons, List.length_nil]; omega) (by omega)
      simp only [parseStatus, exec_bind, exec_modify, exec_get, if_neg other, if_pos positive,
        count]
      rw [exec_bind] at message
      exact message

/-- One iteration of the parse loop. -/
theorem follows_step {byte0 : UInt8} (h : Unread rxBuf parser (byte0 :: rest))
    (hsize : rest.length + 2 ≤ rxBuf.length) (hrunning : (scanState parser).RunningOk) :
    Follows rxBuf parser.callbacks ((parseStep rxBuf).exec parser)
      (scanStep (scanState parser) byte0 rest) := by
  have nonempty : rxBuf ≠ [] := by
    intro empty
    simp [empty] at hsize
  obtain ⟨trace, safe, read, next⟩ := h.readByte_cons
  unfold scanStep
  by_cases sysex : parser.inSysexMsg = true
  · have inSysex : (scanState parser).inSysex = true := sysex
    rw [if_pos inSysex]
    by_cases data : isDataByte byte0 = true
    · simp only [parseStep, exec_bind, exec_get, if_pos sysex, read, if_pos data, exec_callback]
      exact ⟨rfl, rfl, next.sane, rfl, next.drop_eq, next.inside⟩
    · rw [if_neg data]
      simp only [parseStep, exec_bind, exec_get, if_pos sysex, read, if_neg data]
      cases rest with
      | nil =>
        simp only [next.readByte_nil nonempty]
        exact ⟨⟨_, rfl⟩, (List.append_nil _).symm, rfl,
          sane_after next.sane (sizeSub_safe (by omega))⟩
      | cons status rest =>
        obtain ⟨trace', safe', read', next'⟩ := next.readByte_cons
        simp only [read']
        unfold scanSysexStatus
        split
        · rename_i realtime
          simp only [exec_callback]
          exact ⟨rfl, rfl, next'.sane, rfl, next'.drop_eq, next'.inside⟩
        · rename_i realtime
          split
          · rename_i ends
            simp only [exec_bind, exec_modify, exec_callback]
            exact ⟨rfl, rfl, next'.sane, rfl, next'.drop_eq, next'.inside⟩
          · rename_i ends
            simp only [exec_throw]
            exact ⟨⟨_, rfl⟩, (List.append_nil _).symm, rfl, next'.sane⟩
  · have outside : ¬ (scanState parser).inSysex = true := sysex
    rw [if_neg outside]
    by_cases data : isDataByte byte0 = true
    · rw [if_pos data]
      simp only [parseStep, exec_bind, exec_get, if_neg sysex, read, if_pos data]
      exact next.follows_running byte0 nonempty hrunning.size_ne_one
    · rw [if_neg data]
      simp only [parseStep, exec_bind, exec_get, if_neg sysex, read, if_neg data, exec_modify]
      have seen := next.seeTimestamp byte0
      cases rest with
      | nil =>
        simp only [seen.readByte_nil nonempty]
        exact ⟨⟨_, rfl⟩, (List.append_nil _).symm, rfl,
          sane_after seen.sane (sizeSub_safe (by omega))⟩
      | cons byte1 rest =>
        obtain ⟨trace', safe', read', next'⟩ := seen.readByte_cons
        simp only [read']
        split
        · exact next'.follows_running byte1 nonempty hrunning.size_ne_one
        · simp only [List.length_cons] at hsize
          exact next'.follows_status byte1 (by omega)

/-- The parse loop with enough fuel. -/
theorem loop_run (fuel : Nat) : ∀ {parser : Parser} {rest : List UInt8},
    Unread rxBuf parser rest → rest.length < rxBuf.length → (scanState parser).RunningOk →
    rest.length ≤ fuel →
    ((parseLoop rxBuf fuel).exec parser).2.callbacks =
        parser.callbacks ++ (run scanner (scanState parser) rest).1 ∧
      EndsWith rxBuf (run scanner (scanState parser) rest).2
        ((parseLoop rxBuf fuel).exec parser) := by
  induction fuel with
  | zero =>
    intro parser rest h _ _ hfuel
    obtain rfl : rest = [] := List.length_eq_zero_iff.mp (Nat.le_zero.mp hfuel)
    simp only [parseLoop, exec_pure, run_nil, List.append_nil]
    exact ⟨trivial, rfl, h.sane⟩
  | succ fuel ih =>
    intro parser rest h hsize hrunning hfuel
    cases rest with
    | nil =>
      simp only [parseLoop, exec_bind, exec_get, if_neg h.not_lt_length, exec_pure, run_nil,
        List.append_nil]
      exact ⟨trivial, rfl, h.sane⟩
    | cons byte0 rest =>
      have step := h.follows_step (by simp only [List.length_cons] at hsize; omega) hrunning
      simp only [parseLoop, exec_bind, exec_get, if_pos h.lt_length]
      cases move : scanStep (scanState parser) byte0 rest with
      | stop out reason =>
        rw [move] at step
        obtain ⟨⟨halt, error⟩, callbacks, ends⟩ := step
        rw [run_stop move]
        obtain ⟨final, result⟩ : ∃ final, (parseStep rxBuf).exec parser = (.error halt, final) :=
          ⟨_, Prod.ext error rfl⟩
        rw [result] at callbacks ends
        simp only [result]
        exact ⟨callbacks, ends⟩
      | more out s' unread =>
        rw [move] at step
        obtain ⟨ok, callbacks, sane, state, drop_eq, inside⟩ := step
        obtain ⟨next, result⟩ : ∃ next, (parseStep rxBuf).exec parser = (.ok (), next) :=
          ⟨_, Prod.ext ok rfl⟩
        rw [result] at callbacks sane state drop_eq inside
        rw [run_more move]
        have shorter : unread.length ≤ rest.length := scanStep_rest move
        simp only [List.length_cons] at hsize hfuel
        have tail := ih ⟨sane, drop_eq, inside⟩ (by omega)
          (by rw [state]; exact scanStep_runningOk hrunning move) (by omega)
        rw [state, callbacks, List.append_assoc] at tail
        simp only [result]
        exact tail

end Unread

/-- The return value of the pre-scan as a parser result. -/
def preScanResult : Except PacketError Bool → Except Halt Bool
  | .ok isSysex => .ok isSysex
  | .error code => .error (.returned code)

theorem after_after (parser : Parser) (m n : Nat) (s t : List Access) :
    after (after parser m s) n t = after parser (m + n) (s ++ t) := by
  simp [after, Nat.add_assoc]

private theorem preScan_loop {rxBuf : List UInt8} (hsize : rxBuf ≠ []) (fuel : Nat) :
    ∀ {parser : Parser} {rest : List UInt8}, Unread rxBuf parser rest → rest.length ≤ fuel →
      ∃ count trace, SafeTrace trace ∧
        (sysexContinuationLoop rxBuf fuel).exec parser =
          (preScanResult (preScan rest), after parser count trace) := by
  have unmoved (parser : Parser) : after parser 0 [] = parser := by simp [after]
  have safeNil : SafeTrace [] := by simp [SafeTrace]
  induction fuel with
  | zero =>
    intro parser rest h hfuel
    obtain rfl : rest = [] := List.length_eq_zero_iff.mp (Nat.le_zero.mp hfuel)
    exact ⟨0, [], safeNil, by rw [unmoved]; rfl⟩
  | succ fuel ih =>
    intro parser rest h hfuel
    cases rest with
    | nil =>
      refine ⟨0, [], safeNil, ?_⟩
      simp only [sysexContinuationLoop, exec_bind, exec_get, if_neg h.not_lt_length, exec_pure,
        unmoved, preScan, preScanResult]
    | cons byte1 rest =>
      obtain ⟨trace, safe, read, next⟩ := h.readByte_cons
      simp only [sysexContinuationLoop, exec_bind, exec_get, if_pos h.lt_length, read]
      by_cases data : isDataByte byte1 = true
      · refine ⟨1, trace, safe, ?_⟩
        simp only [if_pos data, exec_pure, preScan_data data, preScanResult]
      · simp only [if_neg data, exec_bind]
        cases rest with
        | nil =>
          have size : 1 ≤ rxBuf.length := List.length_pos_of_ne_nil hsize
          refine ⟨1 + 0, trace ++ [.sizeSub rxBuf.length 1],
            safe.append (sizeSub_safe size), ?_⟩
          simp only [next.readByte_nil hsize, after_after, preScan_lone data, preScanResult]
        | cons byte2 rest =>
          obtain ⟨trace', safe', read', next'⟩ := next.readByte_cons
          simp only [read']
          by_cases data' : isDataByte byte2 = true
          · refine ⟨1 + 1, trace ++ trace', safe.append safe', ?_⟩
            simp only [if_pos data', exec_throw, after_after, preScan_pair data,
              preScanResult]
          · by_cases realtime : isRealtimeMessage byte2 = true
            · obtain ⟨count, trace'', safe'', loop⟩ := ih next' (by
                simp only [List.length_cons] at hfuel
                omega)
              refine ⟨1 + 1 + count, trace ++ trace' ++ trace'',
                (safe.append safe').append safe'', ?_⟩
              rw [after_after, after_after] at loop
              simp only [if_neg data', if_pos realtime, after_after, preScan_pair data, loop]
            · refine ⟨1 + 1, trace ++ trace', safe.append safe', ?_⟩
              simp only [if_neg data', if_neg realtime, exec_pure, after_after,
                preScan_pair data, preScanResult]

/-- How `ble_midi_parse_packet` ends when the scan ends with `e`. -/
def ParseEndsWith (rxBuf : List UInt8) (e : ScanEnd) (parse : Parse) : Prop :=
  match e with
  | .success => parse.halt = .returned .success ∧ SafeTrace parse.accesses
  | .failed code => parse.halt = .returned code ∧ SafeTrace parse.accesses
  | .orphan unread => parse.halt = orphanHalt rxBuf.length unread ∧ ¬ SafeTrace parse.accesses

/-- The parser makes exactly the callbacks of the scan, and it makes an unsafe access exactly
when the scan stops at an orphan. -/
theorem parsePacket_scan (header : UInt8) (body : List UInt8) :
    (parsePacket (header :: body)).callbacks = (scanPacket header body).1 ∧
      ParseEndsWith (header :: body) (scanPacket header body).2
        (parsePacket (header :: body)) := by
  have start : Unread (header :: body) {} (header :: body) :=
    ⟨by simp [Sane, SafeTrace], rfl, Nat.zero_le _⟩
  obtain ⟨trace, safe, read, next⟩ := start.readByte_cons
  obtain ⟨count, trace', safe', scan⟩ :=
    preScan_loop (List.cons_ne_nil header body) (header :: body).length next (by simp)
  rw [after_after] at scan
  unfold scanPacket parsePacket
  simp only [parsePacketM, isSysexContinuation, exec_bind, read, scan]
  cases preScan body with
  | error code => exact ⟨rfl, rfl, safe.append safe'⟩
  | ok isSysexCont =>
    simp only [preScanResult, exec_modify]
    have again : Unread (header :: body)
        { after {} (1 + count) (trace ++ trace') with
          inSysexMsg := isSysexCont, readPos := 0 } (header :: body) :=
      ⟨safe.append safe', rfl, Nat.zero_le _⟩
    obtain ⟨trace'', safe'', read', next'⟩ := again.readByte_cons
    simp only [read']
    by_cases status : isStatusByte header = true
    · simp only [if_pos status]
      -- the parser behind the header, with its high timestamp bits
      have entered : Unread (header :: body)
          { after { after {} (1 + count) (trace ++ trace') with
              inSysexMsg := isSysexCont, readPos := 0 } 1 trace'' with
            timestampHighBits := 0x3f &&& header } body :=
        ⟨next'.sane, next'.drop_eq, next'.inside⟩
      have loop := entered.loop_run (header :: body).length (by simp) (.inl rfl) (by simp)
      revert loop
      generalize (parseLoop (header :: body) (header :: body).length).exec _ = result
      rintro ⟨callbacks, ends⟩
      have callbacks : result.2.callbacks =
          (run scanner (startState isSysexCont header) body).1 := callbacks
      have ends : EndsWith (header :: body)
        (run scanner (startState isSysexCont header) body).2 result := ends
      obtain ⟨outcome, final⟩ := result
      cases outcome with
      | ok _ =>
        refine ⟨callbacks, ?_⟩
        cases reason : (run scanner (startState isSysexCont header) body).2 <;>
          simp_all [EndsWith, ParseEndsWith, Sane]
      | error halt =>
        refine ⟨callbacks, ?_⟩
        cases reason : (run scanner (startState isSysexCont header) body).2 <;>
          simp_all [EndsWith, ParseEndsWith, Sane]
    · simp only [if_neg status, exec_throw]
      exact ⟨rfl, rfl, next'.sane⟩

end BleMidi.Packet.ParserRefinement
