/- Module: BleMidi/Service/WorkCount
   source: ble_midi/src/ble_midi.c (tx_queue_fifo_work_cb, submit_tx_queue_fifo_work, on_connected),
     ble_midi/src/ble_midi_context.c (ble_midi_context_reset)
   digest: What keeps the count of pending FIFO work exact. -/

import BleMidi.Service.FifoWork

set_option autoImplicit false
set_option relaxedAutoImplicit false

namespace BleMidi.Service

open BleMidi.Core.Runs
open BleMidi.Queue
open BleMidi.Queue.TxQueue

variable {maxSize packetCount : Nat}

/-- The context, the work item, and the calls of `submit_tx_queue_fifo_work` under way. -/
structure WorkCount (maxSize packetCount : Nat) where
  context : Context maxSize packetCount
  fifoWork : FifoWork
  fifoWorkSubmitted : Bool
  callers : Callers

/-- A call of `submit_tx_queue_fifo_work` and its two steps, a step of `tx_queue_fifo_work_cb`, a
reset of the context, and anything that other functions do to the queue. -/
inductive CountAction (maxSize packetCount : Nat)
  | call
  | atomicInc
  | submit
  | fifoWork
  | contextReset (txRunningStatus txNoteOffAsNoteOn : Bool)
  | other (txQueue : TxQueue maxSize packetCount)

/-- A step other than a reset. -/
def CountAction.KeepsContext : CountAction maxSize packetCount → Prop
  | .contextReset _ _ => False
  | _ => True

instance : DecidablePred (@CountAction.KeepsContext maxSize packetCount)
  | .call => inferInstanceAs (Decidable True)
  | .atomicInc => inferInstanceAs (Decidable True)
  | .submit => inferInstanceAs (Decidable True)
  | .fifoWork => inferInstanceAs (Decidable True)
  | .contextReset _ _ => inferInstanceAs (Decidable False)
  | .other _ => inferInstanceAs (Decidable True)

namespace WorkCount

/-- The state behind a first `ble_midi_context_reset`. -/
def initial (context : Context maxSize packetCount) (txRunningStatus txNoteOffAsNoteOn : Bool) :
    WorkCount maxSize packetCount :=
  ⟨Queue.contextReset context txRunningStatus txNoteOffAsNoteOn, .idle, false, ⟨0, 0⟩⟩

/-- `pending_tx_queue_fifo_work_count` -/
def count (s : WorkCount maxSize packetCount) : Int := s.context.pendingTxQueueFifoWorkCount

def withCount (s : WorkCount maxSize packetCount) (count : Int) : WorkCount maxSize packetCount :=
  { s with context := { s.context with pendingTxQueueFifoWorkCount := count } }

def withQueue (s : WorkCount maxSize packetCount) (txQueue : TxQueue maxSize packetCount) :
    WorkCount maxSize packetCount :=
  { s with context := { s.context with txQueue := txQueue } }

section Steps

variable [NeZero packetCount] (times : Nat → UInt16)

/-- A step of `tx_queue_fifo_work_cb`. An item that is submitted while it is running runs again. -/
def fifoWorkStep (s : WorkCount maxSize packetCount) : Option (WorkCount maxSize packetCount) :=
  match s.fifoWork with
  | .idle =>
      if s.fifoWorkSubmitted then
        some { s with fifoWorkSubmitted := false, fifoWork := .reading ⟨0, 0, 0⟩ }
      else none
  | .reading msgBytes =>
      match readStep times s.context.txQueue msgBytes with
      | .ret (_, queue) => some { s.withQueue queue with fifoWork := .counting }
      | .next (queue, msgBytes) => some { s.withQueue queue with fifoWork := .reading msgBytes }
  | .counting =>
      some { s with fifoWork := if 1 < s.count then .resubmitting else .decrementing }
  | .resubmitting => some { s with fifoWorkSubmitted := true, fifoWork := .decrementing }
  | .decrementing => some { s.withCount (s.count - 1) with fifoWork := .idle }

def act (s : WorkCount maxSize packetCount) :
    CountAction maxSize packetCount → Option (WorkCount maxSize packetCount)
  | .call => some { s with
      callers := { s.callers with incrementing := s.callers.incrementing + 1 } }
  | .atomicInc => s.callers.atomicInc.map fun callers =>
      { s.withCount (s.count + 1) with callers := callers }
  | .submit => s.callers.submit.map fun callers =>
      { s with callers := callers, fifoWorkSubmitted := true }
  | .fifoWork => s.fifoWorkStep times
  | .contextReset txRunningStatus txNoteOffAsNoteOn =>
      some { s with
        context := Queue.contextReset s.context txRunningStatus txNoteOffAsNoteOn }
  | .other txQueue => some (s.withQueue txQueue)

end Steps

/-- The runs of the handler that have not counted down yet. -/
def runs (s : WorkCount maxSize packetCount) : Int := if s.fifoWork = .idle then 0 else 1

def queued (s : WorkCount maxSize packetCount) : Int := if s.fifoWorkSubmitted then 1 else 0

/-- How often the handler will count down without another call: once for its run, and once more if
the item is queued or the handler is about to queue it. -/
def owed (s : WorkCount maxSize packetCount) : Int :=
  match s.fifoWork with
  | .idle => s.queued
  | .resubmitting => 2
  | _ => s.queued + 1

/-- Every time that the handler will count down has been counted. -/
def Balanced (s : WorkCount maxSize packetCount) : Prop := s.owed ≤ s.count

/-- The steps that keep the balance: a call queues the item only if its increment has not been used
up by runs of the handler, and the context is reset only while the item is neither queued nor
running. -/
def Suits (s : WorkCount maxSize packetCount) : CountAction maxSize packetCount → Prop
  | .submit => s.fifoWorkSubmitted = true ∨ s.runs < s.count
  | .contextReset _ _ => s.fifoWorkSubmitted = false ∧ s.fifoWork = .idle
  | _ => True

instance (s : WorkCount maxSize packetCount) : DecidablePred s.Suits
  | .call => inferInstanceAs (Decidable True)
  | .atomicInc => inferInstanceAs (Decidable True)
  | .submit => inferInstanceAs (Decidable (_ ∨ _))
  | .fifoWork => inferInstanceAs (Decidable True)
  | .contextReset _ _ => inferInstanceAs (Decidable (_ ∧ _))
  | .other _ => inferInstanceAs (Decidable True)

/-- The item is neither queued nor running, and no call is in progress. -/
structure Quiet (s : WorkCount maxSize packetCount) : Prop where
  fifoWorkSubmitted : s.fifoWorkSubmitted = false
  fifoWork : s.fifoWork = .idle
  callers : s.callers = ⟨0, 0⟩

/-- What is counted is queued, about to be queued, or seen by the handler that is running. -/
def Attended (s : WorkCount maxSize packetCount) : Prop :=
  s.count ≤ 0 ∨ s.fifoWorkSubmitted = true ∨ 0 < s.callers.submitting ∨
    match s.fifoWork with
    | .idle => False
    | .decrementing => s.count ≤ 1
    | _ => True

variable {s s' : WorkCount maxSize packetCount}

theorem queued_nonneg (s : WorkCount maxSize packetCount) : 0 ≤ s.queued := by
  unfold queued
  split
  · exact Int.zero_le_ofNat 1
  · exact Int.le_refl 0

theorem queued_le_one (s : WorkCount maxSize packetCount) : s.queued ≤ 1 := by
  unfold queued
  split
  · exact Int.le_refl 1
  · exact Int.zero_le_ofNat 1

theorem owed_nonneg (s : WorkCount maxSize packetCount) : 0 ≤ s.owed := by
  have least := s.queued_nonneg
  unfold owed
  split
  · exact least
  · exact Int.zero_le_ofNat 2
  · exact Int.le_add_one least

theorem owed_le_zero (s : WorkCount maxSize packetCount) :
    s.owed ≤ 0 ↔ s.fifoWorkSubmitted = false ∧ s.fifoWork = .idle := by
  have least := s.queued_nonneg
  unfold owed
  cases phase : s.fifoWork with
  | idle =>
    unfold queued
    cases s.fifoWorkSubmitted with
    | false => exact iff_of_true (Int.le_refl 0) ⟨rfl, rfl⟩
    | true => exact iff_of_false (by decide) (fun h => Bool.noConfusion h.1)
  | resubmitting =>
    refine iff_of_false ?_ (fun h => FifoWork.noConfusion h.2)
    exact Int.not_le.mpr (by decide : (0 : Int) < 2)
  | _ =>
    refine iff_of_false ?_ (fun h => FifoWork.noConfusion h.2)
    exact Int.not_le.mpr (Int.lt_add_one_of_le least)

section Step

variable [NeZero packetCount] {times : Nat → UInt16}

/-- What a step of the handler does to the counter and the work item. -/
inductive FifoWorkCase (s : WorkCount maxSize packetCount) : WorkCount maxSize packetCount → Prop
  | start : s.fifoWork = .idle → s.fifoWorkSubmitted = true →
      FifoWorkCase s { s with fifoWorkSubmitted := false, fifoWork := .reading ⟨0, 0, 0⟩ }
  | read {msgBytes : Packet.PacketWriter.MessageBytes} {txQueue : TxQueue maxSize packetCount}
      {fifoWork : FifoWork} : s.fifoWork = .reading msgBytes →
      (fifoWork = .counting ∨ ∃ msgBytes, fifoWork = .reading msgBytes) →
      FifoWorkCase s { s.withQueue txQueue with fifoWork := fifoWork }
  | resubmit : s.fifoWork = .counting → 1 < s.count →
      FifoWorkCase s { s with fifoWork := .resubmitting }
  | finish : s.fifoWork = .counting → s.count ≤ 1 →
      FifoWorkCase s { s with fifoWork := .decrementing }
  | queue : s.fifoWork = .resubmitting →
      FifoWorkCase s { s with fifoWorkSubmitted := true, fifoWork := .decrementing }
  | countDown : s.fifoWork = .decrementing →
      FifoWorkCase s { s.withCount (s.count - 1) with fifoWork := .idle }

theorem fifoWorkStep_case (h : s.fifoWorkStep times = some s') : FifoWorkCase s s' := by
  unfold fifoWorkStep at h
  cases phase : s.fifoWork with
  | idle =>
    rw [phase] at h
    by_cases submitted : s.fifoWorkSubmitted = true
    · rw [if_pos submitted] at h
      cases h
      exact .start phase submitted
    · rw [if_neg submitted] at h
      cases h
  | reading msgBytes =>
    rw [phase] at h
    revert h
    dsimp only
    rcases readStep times s.context.txQueue msgBytes with ⟨code, queue⟩ | ⟨queue, msgBytes'⟩
    · intro h
      cases h
      exact .read phase (.inl rfl)
    · intro h
      cases h
      exact .read phase (.inr ⟨msgBytes', rfl⟩)
  | counting =>
    rw [phase] at h
    dsimp only at h
    by_cases more : 1 < s.count
    · rw [if_pos more] at h
      cases h
      exact .resubmit phase more
    · rw [if_neg more] at h
      cases h
      exact .finish phase (Int.not_lt.mp more)
  | resubmitting =>
    rw [phase] at h
    cases h
    exact .queue phase
  | decrementing =>
    rw [phase] at h
    cases h
    exact .countDown phase

omit [NeZero packetCount] in
/-- The handler keeps the balance, and it does not restore it. -/
theorem FifoWorkCase.balanced_iff (h : FifoWorkCase s s') : s'.Balanced ↔ s.Balanced := by
  have most := s.queued_le_one
  unfold Balanced owed
  cases h with
  | start idle submitted =>
    simp only [idle, queued, submitted]
    exact Iff.rfl
  | read reading next =>
    simp only [reading]
    rcases next with rfl | ⟨msgBytes, rfl⟩
    · exact Iff.rfl
    · exact Iff.rfl
  | resubmit counting more =>
    simp only [counting]
    change 2 ≤ s.count ↔ s.queued + 1 ≤ s.count
    omega
  | finish counting few =>
    simp only [counting]
    exact Iff.rfl
  | queue resubmitting =>
    simp only [resubmitting]
    exact Iff.rfl
  | countDown decrementing =>
    simp only [decrementing]
    change s.queued ≤ s.count - 1 ↔ s.queued + 1 ≤ s.count
    omega

/-- A step keeps the balance if and only if it suits the counter. -/
theorem Balanced.act_iff {a : CountAction maxSize packetCount} (h : s.Balanced)
    (hact : s.act times a = some s') : s'.Balanced ↔ s.Suits a := by
  cases a with
  | call =>
    cases hact
    exact iff_of_true h trivial
  | atomicInc =>
    obtain ⟨callers, -, rfl⟩ := Option.map_eq_some_iff.mp hact
    refine iff_of_true ?_ trivial
    exact Int.le_trans h (Int.le_add_one (Int.le_refl _))
  | submit =>
    obtain ⟨callers, -, rfl⟩ := Option.map_eq_some_iff.mp hact
    by_cases submitted : s.fifoWorkSubmitted = true
    · refine iff_of_true ?_ (.inl submitted)
      rw [← submitted]
      exact h
    · have other : s.queued = 0 := if_neg submitted
      change _ ↔ _ ∨ s.runs < s.count
      rw [or_iff_right submitted]
      unfold Balanced owed at h ⊢
      unfold runs
      cases phase : s.fifoWork with
      | idle =>
        rw [if_pos rfl]
        exact Iff.rfl
      | resubmitting =>
        rw [phase] at h
        rw [if_neg FifoWork.noConfusion]
        exact Iff.rfl
      | _ =>
        rw [if_neg FifoWork.noConfusion]
        exact Iff.rfl
  | fifoWork => exact iff_of_true ((fifoWorkStep_case hact).balanced_iff.mpr h) trivial
  | contextReset txRunningStatus txNoteOffAsNoteOn =>
    cases hact
    exact s.owed_le_zero
  | other txQueue =>
    cases hact
    exact iff_of_true h trivial

/-- Every step, whether it suits the counter or not, leaves what is counted attended to. -/
theorem Attended.act {a : CountAction maxSize packetCount} (h : s.Attended)
    (hact : s.act times a = some s') : s'.Attended := by
  cases a with
  | call =>
    cases hact
    exact h
  | atomicInc =>
    obtain ⟨callers, next, rfl⟩ := Option.map_eq_some_iff.mp hact
    unfold Callers.atomicInc at next
    split at next
    · cases next
    · cases next
      exact .inr (.inr (.inl (Nat.succ_pos _)))
  | submit =>
    obtain ⟨callers, -, rfl⟩ := Option.map_eq_some_iff.mp hact
    exact .inr (.inl rfl)
  | fifoWork =>
    cases fifoWorkStep_case hact with
    | start _ _ => exact .inr (.inr (.inr trivial))
    | read _ next =>
      rcases next with rfl | ⟨msgBytes, rfl⟩
      · exact .inr (.inr (.inr trivial))
      · exact .inr (.inr (.inr trivial))
    | resubmit _ _ => exact .inr (.inr (.inr trivial))
    | finish _ few => exact .inr (.inr (.inr few))
    | queue _ => exact .inr (.inl rfl)
    | countDown decrementing =>
      unfold Attended at h
      rw [decrementing] at h
      rcases h with none | submitted | submitting | last
      · exact .inl (Int.le_trans (Int.sub_le_self _ Int.one_nonneg) none)
      · exact .inr (.inl submitted)
      · exact .inr (.inr (.inl submitting))
      · exact .inl (Int.sub_nonpos_of_le last)
  | contextReset txRunningStatus txNoteOffAsNoteOn =>
    cases hact
    exact .inl (Int.le_refl 0)
  | other txQueue =>
    cases hact
    exact h

theorem Quiet.count_le_zero {context : Context maxSize packetCount}
    {txRunningStatus txNoteOffAsNoteOn : Bool} (hs : s.Quiet)
    (h : Reach (act times) (fun _ _ => True)
      (initial context txRunningStatus txNoteOffAsNoteOn) s) : s.count ≤ 0 := by
  have start : (initial context txRunningStatus txNoteOffAsNoteOn).Attended :=
    .inl (Int.le_refl 0)
  have attended : s.Attended := h.invariant start fun attended _ next => attended.act next
  unfold Attended at attended
  rw [hs.fifoWorkSubmitted, hs.fifoWork, hs.callers] at attended
  rcases attended with none | submitted | submitting | running
  · exact none
  · cases submitted
  · exact absurd submitting (Nat.lt_irrefl 0)
  · exact running.elim

/-- An upper bound for the steps of the handler until it stops, if each of its reads takes one. -/
def stepsLeft (s : WorkCount maxSize packetCount) : Nat :=
  (if s.fifoWorkSubmitted then 5 else 0) +
    match s.fifoWork with
    | .idle => 0
    | .reading _ => 4
    | .counting => 3
    | .resubmitting => 7
    | .decrementing => 1

omit [NeZero packetCount] in
theorem stepsLeft_eq_zero (h : s.stepsLeft = 0) : s.owed = 0 := by
  unfold stepsLeft at h
  unfold owed
  cases phase : s.fifoWork with
  | idle =>
    rw [phase] at h
    change s.queued = 0
    unfold queued
    by_cases submitted : s.fifoWorkSubmitted = true
    · rw [if_pos submitted] at h
      cases h
    · rw [if_neg submitted]
  | _ =>
    rw [phase] at h
    exact absurd h (Nat.succ_ne_zero _)

/-- Off balance, the handler goes on until it stops, if its reads find the FIFO empty. -/
theorem unbalanced_step (times : Nat → UInt16) (h : ¬ s.Balanced) (hbusy : s.stepsLeft ≠ 0) :
    ∃ s', Reach (act times) (fun _ _ => True) s s' ∧ ¬ s'.Balanced ∧
      s'.stepsLeft < s.stepsLeft := by
  -- Whatever was read before, a step of the handler leaves the counter off balance.
  have one (s' : WorkCount maxSize packetCount) {t : WorkCount maxSize packetCount}
      (run : Reach (act times) (fun _ _ => True) s t) (off : ¬ t.Balanced)
      (next : t.fifoWorkStep times = some s') (fewer : s'.stepsLeft < s.stepsLeft) :
      ∃ s', Reach (act times) (fun _ _ => True) s s' ∧ ¬ s'.Balanced ∧
        s'.stepsLeft < s.stepsLeft :=
    ⟨s', run.step trivial (show t.act times .fifoWork = some s' from next),
      (fifoWorkStep_case next).balanced_iff.not.mpr off, fewer⟩
  have most := s.queued_le_one
  cases phase : s.fifoWork with
  | idle =>
    have submitted : s.fifoWorkSubmitted = true := by
      by_contra idle
      unfold stepsLeft at hbusy
      rw [phase, if_neg idle] at hbusy
      exact hbusy rfl
    refine one { s with fifoWorkSubmitted := false, fifoWork := .reading ⟨0, 0, 0⟩ } .start h ?_ ?_
    · unfold fifoWorkStep
      rw [phase, if_pos submitted]
    · unfold stepsLeft
      rw [phase, if_pos submitted]
      exact Nat.lt_succ_self 4
  | reading msgBytes =>
    let cleared := { s.context.txQueue with fifo := s.context.txQueue.fifo.clear }
    have run : Reach (act times) (fun _ _ => True) s (s.withQueue cleared) :=
      Reach.start.step trivial (show s.act times (.other cleared) = some _ from rfl)
    have empty : cleared.fifo.Holds [] := rfl
    refine one { s.withQueue cleared with fifoWork := .counting } run h ?_ ?_
    · unfold fifoWorkStep
      rw [show (s.withQueue cleared).fifoWork = .reading msgBytes from phase]
      dsimp only
      rw [show (s.withQueue cleared).context.txQueue = cleared from rfl, readStep_empty times empty]
      rfl
    · unfold stepsLeft
      rw [phase]
      exact Nat.lt_succ_self _
  | counting =>
    have few : s.count ≤ 1 := by
      unfold Balanced owed at h
      rw [phase] at h
      change ¬ s.queued + 1 ≤ s.count at h
      omega
    refine one { s with fifoWork := .decrementing } .start h ?_ ?_
    · unfold fifoWorkStep
      rw [phase]
      dsimp only
      rw [if_neg (Int.not_lt.mpr few)]
    · unfold stepsLeft
      rw [phase]
      exact Nat.add_lt_add_left (show 1 < 3 by decide) _
  | resubmitting =>
    refine one { s with fifoWorkSubmitted := true, fifoWork := .decrementing } .start h ?_ ?_
    · unfold fifoWorkStep
      rw [phase]
    · unfold stepsLeft
      rw [phase]
      exact Nat.lt_of_lt_of_le (Nat.lt_succ_self 6) (Nat.le_add_left 7 _)
  | decrementing =>
    refine one { s.withCount (s.count - 1) with fifoWork := .idle } .start h ?_ ?_
    · unfold fifoWorkStep
      rw [phase]
    · unfold stepsLeft
      rw [phase]
      exact Nat.add_lt_add_left Nat.zero_lt_one _

theorem negative_of_unbalanced (times : Nat → UInt16) (n : Nat) :
    ∀ {s : WorkCount maxSize packetCount}, ¬ s.Balanced → s.stepsLeft ≤ n →
      ∃ s', Reach (act times) (fun _ _ => True) s s' ∧ s'.count < 0 := by
  induction n with
  | zero =>
    intro s h hn
    unfold Balanced at h
    rw [stepsLeft_eq_zero (Nat.le_zero.mp hn)] at h
    exact ⟨s, .start, Int.not_le.mp h⟩
  | succ n ih =>
    intro s h hn
    by_cases stopped : s.stepsLeft = 0
    · exact ih h (by omega)
    · obtain ⟨t, run, off, fewer⟩ := unbalanced_step times h stopped
      obtain ⟨t', run', negative⟩ := ih off (by omega)
      exact ⟨t', run.trans run', negative⟩

/-- The condition is exact: behind a step that does not suit the counter, it can become negative. -/
theorem Balanced.negative_of_not_suits {a : CountAction maxSize packetCount} (h : s.Balanced)
    (hact : s.act times a = some s') (hnot : ¬ s.Suits a) :
    ∃ t, Reach (act times) (fun _ _ => True) s' t ∧ t.count < 0 := by
  have off : ¬ s'.Balanced := fun balanced => hnot ((h.act_iff hact).mp balanced)
  exact negative_of_unbalanced times s'.stepsLeft off le_rfl

end Step

end WorkCount

/-- The calls of two kinds together. -/
def Callers.add (callers callers' : Callers) : Callers :=
  ⟨callers.incrementing + callers'.incrementing, callers.submitting + callers'.submitting⟩

theorem Callers.atomicInc_add {callers next : Callers} (h : callers.atomicInc = some next)
    (callers' : Callers) : (callers.add callers').atomicInc = some (next.add callers') := by
  unfold atomicInc at h ⊢
  unfold add
  split at h
  · cases h
  · cases h
    rw [if_neg (by dsimp only; omega)]
    simp only [Option.some.injEq, mk.injEq]
    omega

theorem Callers.submit_add {callers next : Callers} (h : callers.submit = some next)
    (callers' : Callers) : (callers.add callers').submit = some (next.add callers') := by
  unfold submit at h ⊢
  unfold add
  split at h
  · cases h
  · cases h
    rw [if_neg (by dsimp only; omega)]
    simp only [Option.some.injEq, mk.injEq, true_and]
    omega

theorem Callers.add_comm (callers callers' : Callers) :
    callers.add callers' = callers'.add callers := by
  unfold add
  rw [Nat.add_comm, Nat.add_comm callers.submitting]

namespace WorkQueue

/-- What the counter depends on. -/
def counted (s : WorkQueue maxSize packetCount) : WorkCount maxSize packetCount :=
  ⟨s.notifier.context, s.fifoWork, s.fifoWorkSubmitted, s.producers.add s.refused⟩

variable [NeZero packetCount] {times : Nat → UInt16} {s s' : WorkQueue maxSize packetCount}

omit [NeZero packetCount] in
/-- A producer call that starts changes nothing that the counter depends on, or its size request was
refused and it goes on to `submit_tx_queue_fifo_work`. -/
private theorem call_counted {r : Request} (h : s.call r = some s') :
    s'.counted = s.counted ∨
      s'.counted = { s.counted with
        callers := { s.counted.callers with
          incrementing := s.counted.callers.incrementing + 1 } } := by
  unfold WorkQueue.call at h
  split at h
  swap
  · cases h
  dsimp only at h
  cases r with
  | addSysexData bytes =>
    dsimp only at h
    split at h
    · cases h
      exact .inl rfl
    · cases h
      exact .inl rfl
  | addTxPacketSize size =>
    dsimp only at h
    split at h
    · cases h
      exact .inr rfl
    · cases h
      exact .inl rfl
  | _ =>
    dsimp only at h
    split at h
    · cases h
      exact .inl rfl
    · cases h
      exact .inl rfl

omit [NeZero packetCount] in
private theorem write_counted (h : s.write = some s') :
    ∃ txQueue, s'.counted = s.counted.withQueue txQueue ∨
      s'.counted = { s.counted.withQueue txQueue with
        callers := { s.counted.callers with
          incrementing := s.counted.callers.incrementing + 1 } } := by
  have wrote (t : WorkQueue maxSize packetCount) (condition : Prop) [Decidable condition] :
      (if condition then t.wrote else t).counted = t.counted ∨
        (if condition then t.wrote else t).counted = { t.counted with
          callers := { t.counted.callers with
            incrementing := t.counted.callers.incrementing + 1 } } := by
    by_cases done : condition
    · rw [if_pos done]
      right
      unfold counted WorkQueue.wrote Callers.add
      dsimp only
      rw [Nat.add_right_comm]
    · rw [if_neg done]
      exact .inl rfl
  unfold WorkQueue.write at h
  cases phase : s.writing with
  | idle =>
    rw [phase] at h
    cases h
  | three r =>
    rw [phase] at h
    cases h
    exact ⟨_, wrote _ _⟩
  | header bytes count =>
    rw [phase] at h
    cases h
    exact ⟨_, .inl rfl⟩
  | data bytes count first =>
    rw [phase] at h
    cases h
    exact ⟨_, wrote _ _⟩

private theorem fifoWork_counted (h : s.fifoWorkStep times = some s') :
    s.counted.fifoWorkStep times = some s'.counted := by
  have phase_eq : s.counted.fifoWork = s.fifoWork := rfl
  unfold fifoWorkStep at h
  unfold WorkCount.fifoWorkStep
  rw [phase_eq]
  cases phase : s.fifoWork with
  | idle =>
    rw [phase] at h
    dsimp only at h
    split at h
    · rename_i submitted
      cases h
      exact if_pos submitted.1
    · cases h
  | reading msgBytes =>
    rw [phase] at h
    cases h
    dsimp only
    change (match readStep times s.notifier.context.txQueue msgBytes with
      | .ret (_, queue) => _
      | .next (queue, msgBytes) => _) = _
    rcases result : readStep times s.notifier.context.txQueue msgBytes with
      ⟨code, queue⟩ | ⟨queue, msgBytes'⟩
    · rfl
    · rfl
  | counting =>
    rw [phase] at h
    cases h
    rfl
  | resubmitting =>
    rw [phase] at h
    cases h
    rfl
  | decrementing =>
    rw [phase] at h
    cases h
    rfl

/-- Between two resets, the steps of the work items and the producers are steps of the counter. -/
theorem act_counted {a : WorkAction} (h : s.act times a = some s') :
    Reach (WorkCount.act times) (fun _ a => a.KeepsContext) s.counted s'.counted := by
  have one {a : CountAction maxSize packetCount} {t : WorkCount maxSize packetCount}
      (keeps : a.KeepsContext) (next : s.counted.act times a = some t) :
      Reach (WorkCount.act times) (fun _ a => a.KeepsContext) s.counted t :=
    Reach.start.step keeps next
  have other {txQueue : TxQueue maxSize packetCount}
      (eq : s'.counted = s.counted.withQueue txQueue) :
      Reach (WorkCount.act times) (fun _ a => a.KeepsContext) s.counted s'.counted := by
    rw [eq]
    exact one (a := .other txQueue) trivial rfl
  have same (eq : s'.counted = s.counted) :
      Reach (WorkCount.act times) (fun _ a => a.KeepsContext) s.counted s'.counted := by
    rw [eq]
    exact .start
  cases a with
  | call r =>
    rcases call_counted h with eq | eq
    · exact same eq
    · rw [eq]
      exact one (a := .call) trivial rfl
  | write =>
    obtain ⟨txQueue, eq | eq⟩ := write_counted h
    · exact other eq
    · rw [eq]
      exact Reach.step (a := .call) (one (a := .other txQueue) trivial rfl) trivial rfl
  | atomicInc =>
    obtain ⟨producers, next, rfl⟩ := Option.map_eq_some_iff.mp h
    refine one (a := .atomicInc) trivial ?_
    change (s.producers.add s.refused).atomicInc.map _ = _
    rw [Callers.atomicInc_add next]
    rfl
  | submit =>
    obtain ⟨producers, next, rfl⟩ := Option.map_eq_some_iff.mp h
    refine one (a := .submit) trivial ?_
    change (s.producers.add s.refused).submit.map _ = _
    rw [Callers.submit_add next]
    rfl
  | atomicIncRefused =>
    obtain ⟨refused, next, rfl⟩ := Option.map_eq_some_iff.mp h
    refine one (a := .atomicInc) trivial ?_
    change (s.producers.add s.refused).atomicInc.map _ = _
    rw [Callers.add_comm, Callers.atomicInc_add next, Callers.add_comm]
    rfl
  | submitRefused =>
    obtain ⟨refused, next, rfl⟩ := Option.map_eq_some_iff.mp h
    refine one (a := .submit) trivial ?_
    change (s.producers.add s.refused).submit.map _ = _
    rw [Callers.add_comm, Callers.submit_add next, Callers.add_comm]
    rfl
  | fifoWork => exact one (a := .fifoWork) trivial (fifoWork_counted h)
  | pendingWork result =>
    change s.pendingWorkStep times result = some s' at h
    unfold WorkQueue.pendingWorkStep at h
    split at h
    swap
    · cases h
    obtain ⟨notifier, next, rfl⟩ := Option.map_eq_some_iff.mp h
    obtain ⟨txQueue, context, -⟩ := Notifier.pendingWorkStep_context next
    refine other (show _ = s.counted.withQueue txQueue from ?_)
    unfold counted WorkCount.withQueue
    rw [← context]
    split
    · rfl
    · rfl
  | radioNotif =>
    cases h
    refine same ?_
    unfold counted
    rw [← Notifier.radioNotifStep_context s.notifier]
  | onNotifyDone =>
    obtain ⟨notifier, next, rfl⟩ := Option.map_eq_some_iff.mp h
    refine same ?_
    unfold counted
    rw [← Notifier.onNotifyDone_context next]

theorem count_le_zero {context : Context maxSize packetCount}
    (h : Reach (act times) (fun _ _ => True) (initial context) s)
    (hsubmitted : s.fifoWorkSubmitted = false) (hfifoWork : s.fifoWork = .idle)
    (hproducers : s.producers = ⟨0, 0⟩) (hrefused : s.refused = ⟨0, 0⟩) : s.count ≤ 0 := by
  have run : Reach (WorkCount.act times) (fun _ a => a.KeepsContext)
      (WorkCount.initial context false false) s.counted :=
    h.invariant (I := fun s => Reach (WorkCount.act times) (fun _ a => a.KeepsContext)
      (WorkCount.initial context false false) s.counted) .start
      fun run _ next => run.trans (act_counted next)
  have quiet : s.counted.Quiet := by
    refine ⟨hsubmitted, hfifoWork, ?_⟩
    unfold counted
    rw [hproducers, hrefused]
    rfl
  exact quiet.count_le_zero (run.mono fun _ => trivial)

end WorkQueue

end BleMidi.Service
