/- Module: BleMidi/Service/Notify
   source: ble_midi/src/ble_midi.c (tx_pending_packets_work_cb, radio_notif_handler, on_notify_done,
     on_connected, on_disconnected)
   digest: Transmission waits for a notification that is still to come. -/

import BleMidi.Queue.Sessions
import BleMidi.Service.Producers

set_option autoImplicit false
set_option relaxedAutoImplicit false

namespace BleMidi.Service

open BleMidi.Core.Runs
open BleMidi.Packet.PacketWriter
open BleMidi.Queue
open BleMidi.Queue.TxQueue

variable {maxSize packetCount : Nat}

/-- What `bt_gatt_notify_cb` returns: 0, `-ENOMEM` or another error. -/
inductive SendResult
  | success
  | noMem
  | error
  deriving DecidableEq

/-- Where `tx_pending_packets_work_cb` is: in front of an iteration of the reader, of a look for a
packet, of a send, of `tx_queue_on_tx_packet_sent` or of `atomic_set_bit`. -/
inductive PendingWork
  | idle
  | reading (msgBytes : MessageBytes)
  | fetching
  | sending
  | sent
  | noMem
  deriving DecidableEq

/-- Where `radio_notif_handler` is, with what it has read so far. -/
inductive RadioNotif
  | idle
  | fifo (hasFifoData : Bool)
  | packets (hasFifoData hasBleTxPackets : Bool)
  | waiting (hasFifoData hasBleTxPackets waitingForNotifyBuffers : Bool)
  deriving DecidableEq

/-- Where `on_connected` is: in front of `ble_midi_context_reset` or of `on_mtu_changed`. -/
inductive OnConnected
  | idle
  | resetting (mtuSize : UInt16)
  | requesting (mtuSize : UInt16)
  deriving DecidableEq

/-- The context and the flags of `ble_midi.c`, where its functions are, and the accepted
notifications whose `on_notify_done` may still come: those of the connection that is up and those
of earlier ones. -/
structure Notifier (maxSize packetCount : Nat) where
  context : Context maxSize packetCount
  waitingForNotifBuf : Bool
  submitted : Bool
  pendingWork : PendingWork
  radioNotif : RadioNotif
  onConnected : OnConnected
  connected : Bool
  outstanding : Nat
  late : Nat

/-- A call of the application, a step of one of the functions, or a connection that comes up. -/
inductive NotifierAction
  | request (r : Request)
  | pendingWork (result : SendResult)
  | radioNotif
  | onNotifyDone
  | onNotifyDoneLate
  | connect (mtuSize : UInt16)
  | onConnected (txRunningStatus txNoteOffAsNoteOn : Bool)
  | onDisconnected
  deriving DecidableEq

namespace Notifier

def initial (context : Context maxSize packetCount) : Notifier maxSize packetCount :=
  ⟨contextReset context false false, false, false, .idle, .idle, .idle, false, 0, 0⟩

def withQueue (s : Notifier maxSize packetCount) (queue : TxQueue maxSize packetCount) :
    Notifier maxSize packetCount :=
  { s with context := { s.context with txQueue := queue } }

/-- `bt_gatt_notify_cb` for one packet. -/
def sendPacket (s : Notifier maxSize packetCount) : SendResult → Notifier maxSize packetCount
  | .success =>
      if s.connected then { s with pendingWork := .sent, outstanding := s.outstanding + 1 }
      else { s with pendingWork := .sent, late := s.late + 1 }
  | .noMem => { s with pendingWork := .noMem }
  | .error => { s with pendingWork := .idle }

section Steps

variable [NeZero packetCount] (times : Nat → UInt16)

/-- A step of `tx_pending_packets_work_cb`, which starts when it has been submitted. -/
def pendingWorkStep (s : Notifier maxSize packetCount) (result : SendResult) :
    Option (Notifier maxSize packetCount) :=
  match s.pendingWork with
  | .idle =>
      if s.submitted then some { s with submitted := false, pendingWork := .reading ⟨0, 0, 0⟩ }
      else none
  | .reading msgBytes =>
      match readStep times s.context.txQueue msgBytes with
      | .ret (_, queue) => some { s.withQueue queue with pendingWork := .fetching }
      | .next (queue, msgBytes) => some { s.withQueue queue with pendingWork := .reading msgBytes }
  | .fetching =>
      match s.context.txQueue.firstTxPacket with
      | some _ => some { s with pendingWork := .sending }
      | none => some { s with pendingWork := .idle }
  | .sending => some (s.sendPacket result)
  | .sent =>
      some { s.withQueue s.context.txQueue.onTxPacketSent.2 with pendingWork := .fetching }
  | .noMem => some { s with waitingForNotifBuf := true, pendingWork := .idle }

omit [NeZero packetCount] in
/-- A step of `radio_notif_handler`. -/
def radioNotifStep (s : Notifier maxSize packetCount) : Notifier maxSize packetCount :=
  match s.radioNotif with
  | .idle => { s with radioNotif := .fifo !s.context.txQueue.fifo.isEmpty }
  | .fifo hasFifoData => { s with radioNotif := .packets hasFifoData s.context.txQueue.hasTxData }
  | .packets hasFifoData hasBleTxPackets =>
      { s with radioNotif := .waiting hasFifoData hasBleTxPackets s.waitingForNotifBuf }
  | .waiting hasFifoData hasBleTxPackets waitingForNotifyBuffers =>
      { s with
        radioNotif := .idle
        submitted :=
          s.submitted || (!waitingForNotifyBuffers && (hasBleTxPackets || hasFifoData)) }

/-- A step of `on_connected`. -/
def onConnectedStep (s : Notifier maxSize packetCount) (txRunningStatus txNoteOffAsNoteOn : Bool) :
    Option (Notifier maxSize packetCount) :=
  match s.onConnected with
  | .idle => none
  | .resetting mtuSize =>
      some { s with
        context := contextReset s.context txRunningStatus txNoteOffAsNoteOn
        onConnected := .requesting mtuSize }
  | .requesting mtuSize =>
      some { s.withQueue
          (s.context.txQueue.fifoAddTxPacketSize (requestedSize maxSize mtuSize)).2 with
        onConnected := .idle }

/-- `on_notify_done` clears the flag, whatever connection its notification is of. Notifications of
a connection that is lost may have it called late or never. -/
def act (s : Notifier maxSize packetCount) :
    NotifierAction → Option (Notifier maxSize packetCount)
  | .request r => some (s.withQueue (r.exec s.context.txQueue).2)
  | .pendingWork result => s.pendingWorkStep times result
  | .radioNotif => some s.radioNotifStep
  | .onNotifyDone =>
      if s.outstanding = 0 then none
      else some { s with waitingForNotifBuf := false, outstanding := s.outstanding - 1 }
  | .onNotifyDoneLate =>
      if s.late = 0 then none else some { s with waitingForNotifBuf := false, late := s.late - 1 }
  | .connect mtuSize =>
      if s.connected then none
      else some { s with connected := true, onConnected := .resetting mtuSize, outstanding := 0 }
  | .onConnected txRunningStatus txNoteOffAsNoteOn =>
      s.onConnectedStep txRunningStatus txNoteOffAsNoteOn
  | .onDisconnected =>
      if s.connected = true ∧ s.onConnected = .idle then
        some { s with connected := false, late := s.late + s.outstanding, outstanding := 0 }
      else none

end Steps

/-- Whoever waits for a notification has one that is still to come. -/
def Wakeable (s : Notifier maxSize packetCount) : Prop :=
  s.waitingForNotifBuf = true → s.connected = true → s.pendingWork ≠ .noMem → 1 ≤ s.outstanding

instance : DecidablePred (@Wakeable maxSize packetCount) :=
  fun _ => inferInstanceAs (Decidable (_ → _ → _ → _))

/-- The flag is set only while a notification of the connection is outstanding, and it is clear when
a connection comes up. -/
def InTime (s : Notifier maxSize packetCount) : NotifierAction → Prop
  | .pendingWork _ => s.pendingWork = .noMem → s.connected = true → 1 ≤ s.outstanding
  | .connect _ => s.waitingForNotifBuf = true → s.pendingWork = .noMem
  | _ => True

instance : ∀ (s : Notifier maxSize packetCount) (a : NotifierAction), Decidable (s.InTime a)
  | _, .pendingWork _ => inferInstanceAs (Decidable (_ → _ → _))
  | _, .connect _ => inferInstanceAs (Decidable (_ → _))
  | _, .request _ => inferInstanceAs (Decidable True)
  | _, .radioNotif => inferInstanceAs (Decidable True)
  | _, .onNotifyDone => inferInstanceAs (Decidable True)
  | _, .onNotifyDoneLate => inferInstanceAs (Decidable True)
  | _, .onConnected _ _ => inferInstanceAs (Decidable True)
  | _, .onDisconnected => inferInstanceAs (Decidable True)

/-- A step that neither sets the flag nor loses a notification. -/
structure Quiet (s s' : Notifier maxSize packetCount) : Prop where
  waitingForNotifBuf : s'.waitingForNotifBuf = s.waitingForNotifBuf
  connected : s'.connected = s.connected
  outstanding : s.outstanding ≤ s'.outstanding
  pendingWork : s.pendingWork = .noMem → s'.pendingWork = .noMem

theorem Quiet.wakeable {s s' : Notifier maxSize packetCount} (h : Quiet s s') (hs : s.Wakeable) :
    s'.Wakeable := by
  intro waiting connected busy
  rw [h.waitingForNotifBuf] at waiting
  rw [h.connected] at connected
  exact (hs waiting connected fun noMem => busy (h.pendingWork noMem)).trans h.outstanding

variable [NeZero packetCount] {times : Nat → UInt16} {s s' : Notifier maxSize packetCount}

/-- The handler sets the flag in its last step behind a failed send. -/
theorem pendingWorkStep_cases {result : SendResult}
    (h : s.pendingWorkStep times result = some s') :
    s.pendingWork ≠ .noMem ∧ Quiet s s' ∨
      s.pendingWork = .noMem ∧
        s' = { s with waitingForNotifBuf := true, pendingWork := .idle } := by
  unfold pendingWorkStep at h
  by_cases noMem : s.pendingWork = .noMem
  · rw [noMem] at h
    cases h
    exact .inr ⟨noMem, rfl⟩
  refine .inl ⟨noMem, ?_⟩
  have same {waiting submitted : Bool} {work : PendingWork} {context : Context maxSize packetCount}
      (hwaiting : waiting = s.waitingForNotifBuf) :
      Quiet s { s with
        context := context, waitingForNotifBuf := waiting, submitted := submitted
        pendingWork := work } :=
    ⟨hwaiting, rfl, le_rfl, fun failed => absurd failed noMem⟩
  cases work : s.pendingWork with
  | noMem => exact absurd work noMem
  | idle =>
    simp only [work] at h
    split at h
    · cases h
      exact same rfl
    · cases h
  | reading msgBytes =>
    simp only [work] at h
    rcases iteration : readStep times s.context.txQueue msgBytes with
      ⟨code, queue⟩ | ⟨queue, msgBytes'⟩
    · rw [iteration] at h
      cases h
      exact same rfl
    · rw [iteration] at h
      cases h
      exact same rfl
  | fetching =>
    simp only [work] at h
    split at h
    · cases h
      exact same rfl
    · cases h
      exact same rfl
  | sending =>
    simp only [work] at h
    cases h
    unfold sendPacket
    cases result with
    | success =>
      cases connected : s.connected with
      | true => exact ⟨rfl, connected.symm, Nat.le_succ _, fun failed => absurd failed noMem⟩
      | false => exact ⟨rfl, connected.symm, le_rfl, fun failed => absurd failed noMem⟩
    | noMem => exact same rfl
    | error => exact same rfl
  | sent =>
    simp only [work] at h
    cases h
    exact same rfl

omit [NeZero packetCount] in
theorem radioNotifStep_quiet (s : Notifier maxSize packetCount) : Quiet s s.radioNotifStep := by
  unfold radioNotifStep
  split <;> exact ⟨rfl, rfl, le_rfl, id⟩

omit [NeZero packetCount] in
theorem onConnectedStep_quiet {txRunningStatus txNoteOffAsNoteOn : Bool}
    (h : s.onConnectedStep txRunningStatus txNoteOffAsNoteOn = some s') : Quiet s s' := by
  unfold onConnectedStep at h
  split at h
  · cases h
  · cases h
    exact ⟨rfl, rfl, le_rfl, id⟩
  · cases h
    exact ⟨rfl, rfl, le_rfl, id⟩

/-- The handler changes the queue only, and the FIFO in the iterations of its reader. -/
theorem pendingWorkStep_context {result : SendResult}
    (h : s.pendingWorkStep times result = some s') :
    ∃ txQueue, s'.context = { s.context with txQueue := txQueue } ∧
      txQueue.fifo =
        match s.pendingWork with
        | .reading msgBytes => (readStep times s.context.txQueue msgBytes).queue.fifo
        | _ => s.context.txQueue.fifo := by
  unfold pendingWorkStep at h
  cases phase : s.pendingWork with
  | idle =>
    simp only [phase] at h
    split at h
    · cases h
      exact ⟨_, rfl, rfl⟩
    · cases h
  | reading msgBytes =>
    simp only [phase] at h
    revert h
    dsimp only
    rcases readStep times s.context.txQueue msgBytes with ⟨code, queue⟩ | ⟨queue, msgBytes'⟩
    · intro h
      cases h
      exact ⟨_, rfl, rfl⟩
    · intro h
      cases h
      exact ⟨_, rfl, rfl⟩
  | fetching =>
    simp only [phase] at h
    split at h
    · cases h
      exact ⟨_, rfl, rfl⟩
    · cases h
      exact ⟨_, rfl, rfl⟩
  | sending =>
    simp only [phase] at h
    cases h
    unfold sendPacket
    cases result with
    | success =>
      dsimp only
      split
      · exact ⟨_, rfl, rfl⟩
      · exact ⟨_, rfl, rfl⟩
    | noMem => exact ⟨_, rfl, rfl⟩
    | error => exact ⟨_, rfl, rfl⟩
  | sent =>
    simp only [phase] at h
    cases h
    exact ⟨_, rfl, (onTxPacketSent_frame s.context.txQueue).fifo⟩
  | noMem =>
    simp only [phase] at h
    cases h
    exact ⟨_, rfl, rfl⟩

omit [NeZero packetCount] in
/-- The other callbacks look at the context only. -/
theorem radioNotifStep_context (s : Notifier maxSize packetCount) :
    s.radioNotifStep.context = s.context := by
  unfold radioNotifStep
  split <;> rfl

theorem onNotifyDone_context (h : s.act times .onNotifyDone = some s') :
    s'.context = s.context := by
  change (if s.outstanding = 0 then none else _) = some s' at h
  split at h
  · cases h
  · cases h
    rfl

/-- A step keeps somebody to wake the transmission if and only if it is in time. -/
theorem wakeable_iff {a : NotifierAction} (h : s.Wakeable) (hact : s.act times a = some s') :
    s'.Wakeable ↔ s.InTime a := by
  cases a with
  | request r =>
    cases hact
    exact iff_of_true (Quiet.wakeable ⟨rfl, rfl, le_rfl, id⟩ h) trivial
  | pendingWork result =>
    rcases pendingWorkStep_cases hact with ⟨free, quiet⟩ | ⟨noMem, rfl⟩
    · exact iff_of_true (quiet.wakeable h) fun noMem => absurd noMem free
    · exact ⟨fun wakeable _ connected => wakeable rfl connected PendingWork.noConfusion,
        fun early _ connected _ => early noMem connected⟩
  | radioNotif =>
    cases hact
    exact iff_of_true ((radioNotifStep_quiet s).wakeable h) trivial
  | onNotifyDone =>
    change (if s.outstanding = 0 then none else _) = some s' at hact
    split at hact
    · cases hact
    · cases hact
      exact iff_of_true (fun waiting => by cases waiting) trivial
  | onNotifyDoneLate =>
    change (if s.late = 0 then none else _) = some s' at hact
    split at hact
    · cases hact
    · cases hact
      exact iff_of_true (fun waiting => by cases waiting) trivial
  | connect mtuSize =>
    change (if s.connected then none else _) = some s' at hact
    split at hact
    · cases hact
    · cases hact
      constructor
      · intro wakeable waiting
        by_contra busy
        exact Nat.not_succ_le_zero 0 (wakeable waiting rfl busy)
      · intro early waiting _ busy
        exact absurd (early waiting) busy
  | onConnected txRunningStatus txNoteOffAsNoteOn =>
    exact iff_of_true ((onConnectedStep_quiet hact).wakeable h) trivial
  | onDisconnected =>
    change (if s.connected = true ∧ s.onConnected = .idle then _ else none) = some s' at hact
    split at hact
    · cases hact
      exact iff_of_true (fun _ connected => by cases connected) trivial
    · cases hact

/-- Nobody is left to clear the flag, and nothing is under way that was decided before it was
set. -/
structure Silent (s : Notifier maxSize packetCount) : Prop where
  waitingForNotifBuf : s.waitingForNotifBuf = true
  submitted : s.submitted = false
  pendingWork : s.pendingWork = .idle
  radioNotif : ∀ hasFifoData hasBleTxPackets,
    s.radioNotif ≠ .waiting hasFifoData hasBleTxPackets false
  outstanding : s.outstanding = 0
  late : s.late = 0

omit [NeZero packetCount] in
private theorem Silent.radio (h : Silent s) : Silent s.radioNotifStep := by
  obtain ⟨waiting, submitted, work, radio, outstanding, late⟩ := h
  unfold radioNotifStep
  cases phase : s.radioNotif with
  | idle => exact ⟨waiting, submitted, work, fun _ _ => by simp, outstanding, late⟩
  | fifo hasFifoData => exact ⟨waiting, submitted, work, fun _ _ => by simp, outstanding, late⟩
  | packets hasFifoData hasBleTxPackets =>
    exact ⟨waiting, submitted, work, fun _ _ => by simp [waiting], outstanding, late⟩
  | waiting hasFifoData hasBleTxPackets waitingForNotifyBuffers =>
    have seen : waitingForNotifyBuffers = true := by
      by_contra off
      rw [Bool.not_eq_true] at off
      exact radio hasFifoData hasBleTxPackets (off ▸ phase)
    refine ⟨waiting, ?_, work, fun _ _ => by simp, outstanding, late⟩
    simp [submitted, seen]

theorem Silent.step {a : NotifierAction} (h : Silent s) (hact : s.act times a = some s') :
    Silent s' := by
  cases a with
  | request r =>
    cases hact
    exact ⟨h.1, h.2, h.3, h.4, h.5, h.6⟩
  | pendingWork result =>
    change s.pendingWorkStep times result = some s' at hact
    simp [pendingWorkStep, h.pendingWork, h.submitted] at hact
  | radioNotif =>
    cases hact
    exact h.radio
  | onNotifyDone => simp [act, h.outstanding] at hact
  | onNotifyDoneLate => simp [act, h.late] at hact
  | connect mtuSize =>
    change (if s.connected then none else _) = some s' at hact
    split at hact
    · cases hact
    · cases hact
      exact ⟨h.1, h.2, h.3, h.4, rfl, h.6⟩
  | onConnected txRunningStatus txNoteOffAsNoteOn =>
    change s.onConnectedStep txRunningStatus txNoteOffAsNoteOn = some s' at hact
    unfold onConnectedStep at hact
    split at hact
    · cases hact
    · cases hact
      exact ⟨h.1, h.2, h.3, h.4, h.5, h.6⟩
    · cases hact
      exact ⟨h.1, h.2, h.3, h.4, h.5, h.6⟩
  | onDisconnected =>
    change (if s.connected = true ∧ s.onConnected = .idle then _ else none) = some s' at hact
    split at hact
    · cases hact
      refine ⟨h.1, h.2, h.3, h.4, rfl, ?_⟩
      change s.late + s.outstanding = 0
      rw [h.outstanding, h.late]
    · cases hact

/-- Once it is silent, the device never sends again, whatever follows: a new connection does not
clear the flag, either. -/
theorem silent_run (h : Silent s) (hrun : Reach (act times) (fun _ _ => True) s s') :
    s'.waitingForNotifBuf = true ∧ s'.pendingWork = .idle := by
  have silent : Silent s' := hrun.invariant h fun silent _ next => silent.step next
  exact ⟨silent.waitingForNotifBuf, silent.pendingWork⟩

/-- In runs whose steps are in time, whoever waits has a notification that is still to come. -/
theorem wakeable_run {context : Context maxSize packetCount}
    (h : Reach (act times) InTime (initial context) s) : s.Wakeable := by
  refine h.invariant (I := Wakeable) (fun waiting => by cases waiting) ?_
  intro s s' a wakeable clean next
  exact (wakeable_iff wakeable next).mpr clean

/-- Two messages come in two packets. The first one is accepted, the second one is refused. -/
private def twoPackets : List NotifierAction :=
  [.connect 23, .onConnected false false, .onConnected false false,
    .request (.addMsg ⟨0x90, 1, 2⟩), .request (.addMsg ⟨0xb0, 3, 4⟩),
    .radioNotif, .radioNotif, .radioNotif, .radioNotif,
    .pendingWork .success, .pendingWork .success, .pendingWork .success, .pendingWork .success,
    .pendingWork .success, .pendingWork .success, .pendingWork .success, .pendingWork .success,
    .pendingWork .success, .pendingWork .noMem]

/-- The transmission waits for the first packet. -/
theorem wakeable_run_waiting : ∃ s : Notifier 8 2,
    (s.waitingForNotifBuf = true ∧ s.connected = true ∧ s.pendingWork = .idle) ∧
      s.Wakeable := by
  obtain ⟨s, reached, state⟩ := exists_of_replay (act millisecondClock) InTime
    (initial ⟨blankQueue 8 2 32, 0⟩)
    (fun s => s.waitingForNotifBuf = true ∧ s.connected = true ∧ s.pendingWork = .idle)
    (twoPackets ++ [.pendingWork .success])
    (by decide +kernel)
  exact ⟨s, state, wakeable_run reached⟩

/-- The first packet is done before the flag is set for the second one, and nothing is sent
again, whatever follows. -/
theorem wakeable_run_fails : ∃ s : Notifier 8 2,
    Reach (act millisecondClock) (fun _ _ => True) (initial ⟨blankQueue 8 2 32, 0⟩) s ∧
      ¬ s.Wakeable ∧
      ∀ s', Reach (act millisecondClock) (fun _ _ => True) s s' →
        s'.waitingForNotifBuf = true ∧ s'.pendingWork = .idle := by
  obtain ⟨s, reached, unwakeable, waiting, submitted, work, radio, outstanding, late⟩ :=
    exists_of_replay (act millisecondClock) (fun _ _ => True) (initial ⟨blankQueue 8 2 32, 0⟩)
      (fun s => ¬ s.Wakeable ∧ s.waitingForNotifBuf = true ∧ s.submitted = false ∧
        s.pendingWork = .idle ∧ s.radioNotif = .idle ∧ s.outstanding = 0 ∧ s.late = 0)
      (twoPackets ++ [.onNotifyDone, .pendingWork .success])
      (by decide +kernel)
  have silent : Silent s :=
    ⟨waiting, submitted, work, fun _ _ => radio ▸ RadioNotif.noConfusion, outstanding, late⟩
  exact ⟨s, reached, unwakeable, fun s' later => silent_run silent later⟩

end Notifier

end BleMidi.Service
