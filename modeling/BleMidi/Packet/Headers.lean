/- Module: BleMidi/Packet/Headers
   source: ble_midi/src/ble_midi_packet.c (ble_midi_writer_*)
   digest: Which packets start with the header of the operation that opened them. -/

import BleMidi.Core.Runs
import BleMidi.Packet.Operations

set_option autoImplicit false
set_option relaxedAutoImplicit false

namespace BleMidi.Packet.Headers

open BleMidi.Core.Runs
open BleMidi.Packet.Bytes
open BleMidi.Packet.PacketWriter
open BleMidi.Packet.WriterSpec
open BleMidi.Packet.WriterPieces
open BleMidi.Packet.WriterSimulation
open BleMidi.Packet.RoundTrip
open BleMidi.Packet.CallOrder
open BleMidi.Packet.Operations

variable {maxSize : Nat}

def timestampOf : Call → UInt16
  | .addMsg _ timestamp => timestamp
  | .startSysexMsg timestamp => timestamp
  | .addSysexData _ timestamp => timestamp
  | .endSysexMsg timestamp => timestamp
  | .addSysexMsg _ timestamp => timestamp

/-- A writer, and what each call since the last reset has appended to the packet, with the timestamp
of the call. -/
structure Logged (maxSize : Nat) where
  writer : Writer maxSize
  log : List (UInt16 × List UInt8)

/-- The bytes between two states of a packet. -/
def appended (w w' : Writer maxSize) : List UInt8 := w'.payload.drop w.payload.length

/-- A call is logged if it succeeds and writes something. -/
def Logged.step (s : Logged maxSize) : Operation → Logged maxSize
  | .init runningStatusEnabled noteOffAsNoteOn txBufMaxSize =>
      ⟨((Operation.init runningStatusEnabled noteOffAsNoteOn txBufMaxSize).exec s.writer).2, []⟩
  | .reset => ⟨writerReset s.writer, []⟩
  | .call c =>
      match c.exec s.writer with
      | (.error _, w) => ⟨w, s.log⟩
      | (.ok _, w) =>
          if appended s.writer w = [] then ⟨w, s.log⟩
          else ⟨w, s.log ++ [(timestampOf c, appended s.writer w)]⟩

/-- A packet that is not empty starts with the header of the first call in the log, and it consists
of the bytes in the log. -/
def Headed (s : Logged maxSize) : Prop :=
  0 < s.writer.txBufSize → ∃ timestamp bytes later, s.log = (timestamp, bytes) :: later ∧
    s.writer.txBuf.toList.head? = some (headerByte timestamp) ∧
    s.writer.payload = s.log.flatMap Prod.snd

/-- A real-time message that opens a packet inside a sysex message. The writer does not add
a header in front of its timestamp byte, which may be the same byte by chance. -/
def Headless (w : Writer maxSize) : Operation → Prop
  | .call (.addMsg messageBytes timestamp) =>
      w.inSysexMsg = true ∧ w.txBufSize = 0 ∧ isRealtimeMessage messageBytes.byte0 = true ∧
        2 ≤ w.txBufMaxSize.toNat ∧ timestampByte timestamp ≠ headerByte timestamp
  | _ => False

instance (w : Writer maxSize) : DecidablePred (Headless w)
  | .call (.addMsg _ _) => inferInstanceAs (Decidable (_ ∧ _ ∧ _ ∧ _ ∧ _))
  | .call (.startSysexMsg _) => inferInstanceAs (Decidable False)
  | .call (.addSysexData _ _) => inferInstanceAs (Decidable False)
  | .call (.endSysexMsg _) => inferInstanceAs (Decidable False)
  | .call (.addSysexMsg _ _) => inferInstanceAs (Decidable False)
  | .init _ _ _ => inferInstanceAs (Decidable False)
  | .reset => inferInstanceAs (Decidable False)

/-- The log tells what is in the packet, and its first call has written the header. -/
structure Recorded (s : Logged maxSize) : Prop where
  fits : Fits s.writer
  payload : s.writer.payload = s.log.flatMap Prod.snd
  written : ∀ entry ∈ s.log, entry.2 ≠ []
  header : ∀ timestamp bytes later, s.log = (timestamp, bytes) :: later →
    bytes.head? = some (headerByte timestamp)

variable {w w' : Writer maxSize} {s : Logged maxSize} {c : Call} {op : Operation}

private theorem head_payload (h : 0 < w.txBufSize) :
    w.payload.head? = w.txBuf.toList.head? := by
  have positive : w.txBufSize.toNat ≠ 0 := by
    have := UInt16.lt_iff_toNat_lt.mp h
    simp at this
    omega
  rw [Writer.payload, List.head?_take, if_neg positive]

theorem Recorded.headed (h : Recorded s) : Headed s := by
  intro positive
  have nonempty : s.writer.payload ≠ [] := by
    rw [ne_eq, payload_eq_nil (h.fits.size_le.trans h.fits.max_le)]
    exact UInt16.pos_iff_ne_zero.mp positive
  cases log : s.log with
  | nil =>
    rw [h.payload, log] at nonempty
    exact absurd rfl nonempty
  | cons entry later =>
    obtain ⟨timestamp, bytes⟩ := entry
    refine ⟨timestamp, bytes, later, rfl, ?_, log ▸ h.payload⟩
    have first := h.header _ _ _ log
    rw [← head_payload positive, h.payload, log, List.flatMap_cons, List.head?_append, first]
    rfl

theorem recorded_empty (h : Fits w) (hempty : w.txBufSize = 0) : Recorded ⟨w, []⟩ := by
  refine ⟨h, ?_, ?_, ?_⟩
  · exact (payload_eq_nil (h.size_le.trans h.max_le)).mpr hempty
  · simp
  · simp

private theorem Effect.starts (h : Effect w c w') (hfits : Fits w) (hempty : w.txBufSize = 0)
    (hplaced : ¬ Headless w (.call c)) :
    w'.payload = [] ∨ w'.payload.head? = some (headerByte (timestampOf c)) := by
  have blank : w.payload = [] := (payload_eq_nil (hfits.size_le.trans hfits.max_le)).mpr hempty
  have opens {t : UInt16} {w' : Writer maxSize} {bytes : List UInt8}
      (hroom : HasRoom w (w.header t ++ bytes))
      (hsame : SameBuffer w' (w.putAll (w.header t ++ bytes))) :
      w'.payload.head? = some (headerByte t) := by
    rw [(written_eq w' hfits hroom hsame).1, blank, Writer.header, if_pos hempty]
    rfl
  cases h with
  | refused => exact .inl blank
  | @realtime m t opened rt room =>
    right
    have fitting : 2 ≤ w.txBufMaxSize.toNat := by
      unfold HasRoom at room
      rw [hempty] at room
      simpa using room
    have same : timestampByte t = headerByte t := by
      by_contra other
      exact hplaced ⟨opened, hempty, rt, fitting, other⟩
    rw [room.payload hfits.max_le, blank, same]
    rfl
  | message closed valid room => exact .inr (opens room ⟨rfl, rfl, rfl⟩)
  | sysexStart closed room => exact .inr (opens room ⟨rfl, rfl, rfl⟩)
  | sysexEnd opened room => exact .inr (opens room ⟨rfl, rfl, rfl⟩)
  | sysexData taken data room => exact .inr (opens room ⟨rfl, rfl, rfl⟩)
  | sysexMsg valid room => exact .inr (opens room ⟨rfl, rfl, rfl⟩)

/-- The log goes on to tell what is in the packet. -/
theorem Recorded.step (h : Recorded s) (hallowed : op.Allowed maxSize)
    (hplaced : ¬ Headless s.writer op) : Recorded (s.step op) := by
  cases op with
  | init runningStatusEnabled noteOffAsNoteOn txBufMaxSize =>
    apply recorded_empty (fits_exec h.fits hallowed)
    cases txBufMaxSize <;> rfl
  | reset => exact recorded_empty (writerReset_fits h.fits.max_le) rfl
  | call c =>
    obtain ⟨w, log⟩ := s
    rcases exec_outcome h.fits (short_of_allowed hallowed) with ⟨code, refused⟩ | ⟨⟨n, ok⟩, effect⟩
    · rw [Logged.step, refused]
      exact h
    obtain ⟨fits, bytes, payload⟩ := effect.appends h.fits
    have starts := Effect.starts effect h.fits
    rw [Logged.step]
    revert ok fits payload starts
    obtain ⟨result, w'⟩ := c.exec w
    rintro rfl fits payload starts
    have new : appended w w' = bytes := by
      rw [appended, payload, List.drop_left]
    dsimp only
    rw [new]
    by_cases nothing : bytes = []
    · rw [if_pos nothing]
      refine ⟨fits, ?_, h.written, h.header⟩
      rw [payload, nothing, List.append_nil]
      exact h.payload
    · rw [if_neg nothing]
      refine ⟨fits, ?_, ?_, ?_⟩
      · rw [payload, List.flatMap_append, h.payload]
        simp
      · intro entry mem
        rcases List.mem_append.mp mem with old | last
        · exact h.written entry old
        · rw [List.mem_singleton.mp last]
          exact nothing
      · intro timestamp first later eq
        cases log with
        | cons entry log =>
          rw [List.cons_append, List.cons.injEq] at eq
          exact h.header timestamp first log (by rw [eq.1])
        | nil =>
          obtain ⟨⟨rfl, rfl⟩, -⟩ : (timestampOf c = timestamp ∧ bytes = first) ∧ [] = later := by
            simpa using eq
          have blank : w.payload = [] := h.payload
          have empty := (payload_eq_nil (h.fits.size_le.trans h.fits.max_le)).mp blank
          rw [payload, blank, List.nil_append] at starts
          exact (starts empty hplaced).resolve_left nothing

theorem Recorded.not_headed (h : Recorded s) (hheadless : Headless s.writer op) :
    ¬ Headed (s.step op) := by
  obtain ⟨w, log⟩ := s
  cases op with
  | init => exact hheadless.elim
  | reset => exact hheadless.elim
  | call c =>
    cases c with
    | startSysexMsg t => exact hheadless.elim
    | addSysexData bytes t => exact hheadless.elim
    | endSysexMsg t => exact hheadless.elim
    | addSysexMsg bytes t => exact hheadless.elim
    | addMsg m t =>
      obtain ⟨opened, empty, rt, fitting, other⟩ := hheadless
      have blank := (payload_eq_nil (h.fits.size_le.trans h.fits.max_le)).mpr empty
      have none : log = [] := by
        have flat : log.flatMap Prod.snd = [] := h.payload.symm.trans blank
        rw [List.flatMap_eq_nil_iff] at flat
        apply List.eq_nil_iff_forall_not_mem.mpr
        intro entry mem
        exact h.written entry mem (flat entry mem)
      have room : HasRoom w [timestampByte t, m.byte0] := by
        unfold HasRoom
        change w.txBufSize = 0 at empty
        rw [empty]
        simpa using fitting
      have exec : (Call.addMsg m t).exec w =
          (.ok 0, w.putAll [timestampByte t, m.byte0]) := by
        rw [Call.exec, writerAddMsg_inside opened, if_pos rt, added, if_pos room]
        rfl
      have payload : (w.putAll [timestampByte t, m.byte0]).payload =
          [timestampByte t, m.byte0] := by
        rw [room.payload h.fits.max_le, blank]
        rfl
      have new : appended w (w.putAll [timestampByte t, m.byte0]) =
          [timestampByte t, m.byte0] := by
        rw [appended, payload, blank]
        rfl
      intro headed
      rw [Logged.step, exec] at headed
      dsimp only at headed
      rw [new, if_neg (List.cons_ne_nil _ _), none] at headed
      have fits := room.fits h.fits.max_le
      have positive : 0 < (w.putAll [timestampByte t, m.byte0]).txBufSize := by
        rw [UInt16.pos_iff_ne_zero, ne_eq, ← payload_eq_nil (fits.size_le.trans fits.max_le),
          payload]
        exact List.cons_ne_nil _ _
      obtain ⟨timestamp, bytes, later, log, head, -⟩ := headed positive
      obtain ⟨⟨rfl, -⟩, -⟩ : (t = timestamp ∧ [timestampByte t, m.byte0] = bytes) ∧
          [] = later := by
        simpa [timestampOf] using log
      rw [← head_payload positive, payload] at head
      exact other (Option.some.inj head)

/-- Every packet of a run starts with its header exactly when no packet is opened by a real-time
message inside a sysex message. -/
theorem headed_run_iff (hempty : w.txBufSize = 0) (hmax : w.txBufMaxSize.toNat ≤ maxSize)
    {ops : List Operation} (hops : ∀ op ∈ ops, op.Allowed maxSize) :
    EachStep Logged.step (fun s op => Headed (s.step op)) ⟨w, []⟩ ops ↔
      EachStep Logged.step (fun s op => ¬ Headless s.writer op) ⟨w, []⟩ ops := by
  have start : Recorded ⟨w, []⟩ := by
    apply recorded_empty _ hempty
    exact ⟨by rw [hempty]; exact Nat.zero_le _, hmax⟩
  refine eachStep_congr ops (fun mem h placed => h.step (hops _ mem) placed) ?_ start
  intro s op mem h
  constructor
  · intro headed headless
    exact h.not_headed headless headed
  · intro placed
    exact (h.step (hops op mem) placed).headed

/-- A sysex message in two packets, with a clock behind the data that opens the second one. -/
theorem headed_run_clock : EachStep Logged.step (fun s op => Headed (s.step op))
    ⟨freshWriter blankWriter false false 5, []⟩
    [.call (.startSysexMsg 300), .call (.addSysexData [1, 2] 300), .reset,
      .call (.addSysexData [3] 310), .call (.addMsg ⟨0xf8, 0, 0⟩ 311)] :=
  (headed_run_iff rfl (by decide) (by decide)).mpr (by decide +kernel)

/-- A clock that opens the second packet of a sysex message: the packet has its timestamp byte and
its status byte only. -/
theorem headed_run_fails :
    let ops : List Operation :=
      [.call (.startSysexMsg 300), .reset, .call (.addMsg ⟨0xf8, 0, 0⟩ 311)]
    (writerBehind (freshWriter blankWriter false false 20) ops).payload =
        [timestampByte 311, 0xf8] ∧ timestampByte 311 ≠ headerByte 311 ∧
      ¬ EachStep Logged.step (fun s op => Headed (s.step op))
        ⟨freshWriter blankWriter false false 20, []⟩ ops := by
  refine ⟨by decide +kernel, by decide, ?_⟩
  rintro ⟨-, -, headed, -⟩
  obtain ⟨t, bytes, later, log, head, -⟩ := headed (by decide +kernel)
  have entry : t = 311 := by
    have first := congrArg (fun l => l.head?.map Prod.fst) log
    exact Option.some.inj (first.symm.trans (by decide +kernel))
  rw [entry] at head
  exact absurd head (by decide +kernel)

end BleMidi.Packet.Headers
