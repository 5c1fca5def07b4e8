/- Module: BleMidi/Service/ReadyState
   source: ble_midi/src/ble_midi.c (ble_midi_init, on_connected, on_disconnected,
     midi_ccc_cfg_changed, ble_midi_service_register), ble_midi/src/ble_midi_context.c
   digest: The ready state along the lifecycle of the service and its link. -/

import BleMidi.Core.Runs

set_option autoImplicit false
set_option relaxedAutoImplicit false

namespace BleMidi.Service

open BleMidi.Core.Runs

/-- `ble_midi_ready_state_t` -/
inductive ReadyState
  | notConnected
  | connected
  | ready
  deriving DecidableEq, Repr

/-- `BLE_MIDI_ALREADY_INITIALIZED` -/
def alreadyInitialized : Int := -100

/-- `BLE_MIDI_SERVICE_REGISTRATION_ERROR` -/
def serviceRegistrationError : Int := -103

/-- `BT_GATT_CCC_NOTIFY` -/
def gattCccNotify : UInt16 := 1

/-- What `struct ble_midi_context` and `ble_midi_service_is_registered` say about the service. The
user's `ready_cb` is set or null, and the states that it was called with are recorded. -/
structure Lifecycle where
  readyState : ReadyState
  isInitialized : Bool
  readyCb : Bool
  serviceIsRegistered : Bool
  told : List ReadyState
  deriving DecidableEq

namespace Lifecycle

/-- `on_ready_state_changed` -/
def onReadyStateChanged (s : Lifecycle) (state : ReadyState) : Lifecycle :=
  { s with readyState := state, told := if s.readyCb then s.told ++ [state] else s.told }

/-- `ble_midi_context_init` -/
def contextInit (s : Lifecycle) : Lifecycle :=
  { s with readyCb := false, readyState := .notConnected }

/-- `ble_midi_service_register` with the result of `bt_gatt_service_register` -/
def serviceRegister (s : Lifecycle) (registerResult : Int) : Int × Lifecycle :=
  (registerResult, if registerResult = 0 then { s with serviceIsRegistered := true } else s)

/-- `ble_midi_service_unregister` with the result of `bt_gatt_service_unregister` -/
def serviceUnregister (s : Lifecycle) (unregisterResult : Int) : Int × Lifecycle :=
  (unregisterResult,
    if unregisterResult = 0 then { s with serviceIsRegistered := false } else s)

/-- `ble_midi_init`, which registers the service with `CONFIG_BT_GATT_DYNAMIC_DB`. -/
def init (dynamicDb : Bool) (s : Lifecycle) (readyCb : Bool) (registerResult : Int) :
    Int × Lifecycle :=
  if s.isInitialized then (alreadyInitialized, s)
  else
    let (registerResult, s) := if dynamicDb then s.serviceRegister registerResult else (0, s)
    if registerResult ≠ 0 then (serviceRegistrationError, s)
    else (0, { s.contextInit with readyCb := readyCb })

/-- `midi_ccc_cfg_changed` -/
def cccCfgChanged (s : Lifecycle) (value : UInt16) : Lifecycle :=
  s.onReadyStateChanged (if value = gattCccNotify then .ready else .connected)

/-- `on_connected`, which does not look at the error. -/
def onConnected (s : Lifecycle) (_err : UInt8) : Lifecycle :=
  if s.serviceIsRegistered then
    if s.readyState = .notConnected then s.onReadyStateChanged .connected else s
  else s

/-- `on_disconnected` -/
def onDisconnected (s : Lifecycle) : Lifecycle :=
  if s.serviceIsRegistered then s.onReadyStateChanged .notConnected else s

/-- Without `CONFIG_BT_GATT_DYNAMIC_DB` the service is always registered. -/
def initial (dynamicDb : Bool) : Lifecycle := ⟨.notConnected, false, false, !dynamicDb, []⟩

end Lifecycle

/-- A link is down, or it is up and `on_connected` is still to come, or `on_connected` has been
handled while the service was registered or not. -/
inductive Link
  | down
  | up
  | connected (registered : Bool)
  deriving DecidableEq

/-- The calls of the application and the events of the Bluetooth stack. The results of the stack
come with the calls. -/
inductive LifecycleEvent
  | init (readyCb : Bool) (registerResult : Int)
  | serviceRegister (registerResult : Int)
  | serviceUnregister (unregisterResult : Int)
  | linkUp
  | cccCfgChanged (value : UInt16)
  | connected (err : UInt8)
  | disconnected
  deriving DecidableEq

/-- The service and the only link. -/
structure LinkedService where
  service : Lifecycle
  link : Link
  deriving DecidableEq

namespace LinkedService

def initial (dynamicDb : Bool) : LinkedService := ⟨Lifecycle.initial dynamicDb, .down⟩

/-- The events that there can be: a second link comes up only behind the first one, and
`on_connected` reports a link that is up, or with an error that there is none. -/
def Enabled (dynamicDb : Bool) (s : LinkedService) : LifecycleEvent → Prop
  | .init _ _ => True
  | .serviceRegister _ => dynamicDb = true
  | .serviceUnregister _ => dynamicDb = true
  | .linkUp => s.link = .down
  | .cccCfgChanged _ => s.link ≠ .down
  | .connected err => err = 0 → s.link = .up
  | .disconnected => s.link ≠ .down

instance (dynamicDb : Bool) (s : LinkedService) : DecidablePred (s.Enabled dynamicDb)
  | .init _ _ => inferInstanceAs (Decidable True)
  | .serviceRegister _ => inferInstanceAs (Decidable (_ = _))
  | .serviceUnregister _ => inferInstanceAs (Decidable (_ = _))
  | .linkUp => inferInstanceAs (Decidable (_ = _))
  | .cccCfgChanged _ => inferInstanceAs (Decidable (_ ≠ _))
  | .connected _ => inferInstanceAs (Decidable (_ → _))
  | .disconnected => inferInstanceAs (Decidable (_ ≠ _))

def handle (dynamicDb : Bool) (s : LinkedService) : LifecycleEvent → LinkedService
  | .init readyCb registerResult =>
      { s with service := (s.service.init dynamicDb readyCb registerResult).2 }
  | .serviceRegister registerResult =>
      { s with service := (s.service.serviceRegister registerResult).2 }
  | .serviceUnregister unregisterResult =>
      { s with service := (s.service.serviceUnregister unregisterResult).2 }
  | .linkUp => { s with link := .up }
  | .cccCfgChanged value => { s with service := s.service.cccCfgChanged value }
  | .connected err =>
      ⟨s.service.onConnected err,
        if err = 0 then .connected s.service.serviceIsRegistered else s.link⟩
  | .disconnected => ⟨s.service.onDisconnected, .down⟩

/-- An event that there cannot be is passed over. -/
def step (dynamicDb : Bool) (s : LinkedService) (e : LifecycleEvent) : LinkedService :=
  if s.Enabled dynamicDb e then s.handle dynamicDb e else s

/-- A link that was connected to the registered service shows in the ready state, and so does the
lack of a link. -/
structure Follows (s : LinkedService) : Prop where
  connected : s.link = .connected true → s.service.readyState ≠ .notConnected
  down : s.link = .down → s.service.readyState = .notConnected

/-- A second initialisation during a connection, a failed connection, or the end of a connection
that the service is not registered for any more. -/
def Misleads (dynamicDb : Bool) (s : LinkedService) : LifecycleEvent → Prop
  | .init _ registerResult => s.link = .connected true ∧ s.service.isInitialized = false ∧
      (dynamicDb = true → registerResult = 0)
  | .connected err => err ≠ 0 ∧ s.link = .down ∧ s.service.serviceIsRegistered = true
  | .disconnected => s.link ≠ .down ∧ s.service.serviceIsRegistered = false ∧
      s.service.readyState ≠ .notConnected
  | _ => False

instance (dynamicDb : Bool) (s : LinkedService) : DecidablePred (s.Misleads dynamicDb)
  | .init _ _ => inferInstanceAs (Decidable (_ ∧ _ ∧ (_ → _)))
  | .serviceRegister _ => inferInstanceAs (Decidable False)
  | .serviceUnregister _ => inferInstanceAs (Decidable False)
  | .linkUp => inferInstanceAs (Decidable False)
  | .cccCfgChanged _ => inferInstanceAs (Decidable False)
  | .connected _ => inferInstanceAs (Decidable (_ ∧ _ ∧ _))
  | .disconnected => inferInstanceAs (Decidable (_ ∧ _ ∧ _))

variable {dynamicDb : Bool} {s : LinkedService}

private theorem Follows.of_eq {s' : LinkedService} (h : s.Follows)
    (hstate : s'.service.readyState = s.service.readyState) (hlink : s'.link = s.link) :
    s'.Follows := by
  constructor
  · rw [hstate, hlink]
    exact h.connected
  · rw [hstate, hlink]
    exact h.down

private theorem serviceRegister_eq (s : Lifecycle) (registerResult : Int) :
    ∃ registered, (s.serviceRegister registerResult).2 =
      { s with serviceIsRegistered := registered } := by
  unfold Lifecycle.serviceRegister
  split
  · exact ⟨true, rfl⟩
  · exact ⟨s.serviceIsRegistered, rfl⟩

private theorem serviceUnregister_eq (s : Lifecycle) (unregisterResult : Int) :
    ∃ registered, (s.serviceUnregister unregisterResult).2 =
      { s with serviceIsRegistered := registered } := by
  unfold Lifecycle.serviceUnregister
  split
  · exact ⟨false, rfl⟩
  · exact ⟨s.serviceIsRegistered, rfl⟩

/-- An initialisation that is carried out ends in the state of a service without a connection, and
one that is not changes nothing. -/
private theorem init_cases (dynamicDb : Bool) (s : Lifecycle) (readyCb : Bool)
    (registerResult : Int) :
    (s.isInitialized = false ∧ (dynamicDb = true → registerResult = 0)) ∧
        (∃ registered, (s.init dynamicDb readyCb registerResult).2 = { s with
          readyState := .notConnected
          readyCb := readyCb
          serviceIsRegistered := registered }) ∨
      ¬ (s.isInitialized = false ∧ (dynamicDb = true → registerResult = 0)) ∧
        (s.init dynamicDb readyCb registerResult).2 = s := by
  unfold Lifecycle.init
  by_cases initialized : s.isInitialized = true
  · rw [if_pos initialized]
    exact .inr ⟨by simp [initialized], rfl⟩
  rw [if_neg initialized]
  have fresh : s.isInitialized = false := Bool.eq_false_iff.mpr initialized
  cases dynamicDb with
  | false => exact .inl ⟨⟨fresh, by simp⟩, s.serviceIsRegistered, rfl⟩
  | true =>
    by_cases registered : registerResult = 0
    · refine .inl ⟨⟨fresh, fun _ => registered⟩, true, ?_⟩
      simp [registered, Lifecycle.serviceRegister, Lifecycle.contextInit]
    · refine .inr ⟨fun carried => registered (carried.2 rfl), ?_⟩
      simp [registered, Lifecycle.serviceRegister]

private theorem follows_init (h : s.Follows) (readyCb : Bool) (registerResult : Int) :
    (s.handle dynamicDb (.init readyCb registerResult)).Follows ↔
      ¬ s.Misleads dynamicDb (.init readyCb registerResult) := by
  rcases init_cases dynamicDb s.service readyCb registerResult with
    ⟨carried, registered, eq⟩ | ⟨refused, eq⟩
  · have state : (s.handle dynamicDb (.init readyCb registerResult)).service.readyState =
        .notConnected := congrArg Lifecycle.readyState eq
    constructor
    · rintro follows ⟨link, -⟩
      exact follows.connected link state
    · intro other
      exact ⟨fun link => absurd ⟨link, carried⟩ other, fun _ => state⟩
  · refine iff_of_true (h.of_eq (congrArg Lifecycle.readyState eq) rfl) ?_
    rintro ⟨-, carried⟩
    exact refused carried

private theorem onConnected_eq (s : Lifecycle) (err : UInt8) :
    s.onConnected err =
      if s.serviceIsRegistered = true ∧ s.readyState = .notConnected then
        s.onReadyStateChanged .connected
      else s := by
  unfold Lifecycle.onConnected
  by_cases registered : s.serviceIsRegistered = true
  · simp [registered]
  · simp [registered]

private theorem follows_connected (h : s.Follows) (err : UInt8) :
    (s.handle dynamicDb (.connected err)).Follows ↔ ¬ s.Misleads dynamicDb (.connected err) := by
  have state := congrArg Lifecycle.readyState (onConnected_eq s.service err)
  by_cases success : err = 0
  · have link : (s.handle dynamicDb (.connected err)).link =
        .connected s.service.serviceIsRegistered := if_pos success
    refine iff_of_true ⟨fun connected => ?_, fun down => ?_⟩ fun misleads => misleads.1 success
    · rw [link, Link.connected.injEq] at connected
      change (s.service.onConnected err).readyState ≠ _
      rw [state]
      by_cases idle : s.service.readyState = .notConnected
      · rw [if_pos ⟨connected, idle⟩]
        intro still
        cases still
      · rw [if_neg fun both => idle both.2]
        exact idle
    · rw [link] at down
      cases down
  · have link : (s.handle dynamicDb (.connected err)).link = s.link := if_neg success
    by_cases changes : s.service.serviceIsRegistered = true ∧
        s.service.readyState = .notConnected
    · rw [if_pos changes] at state
      constructor
      · rintro follows ⟨-, down, -⟩
        cases (follows.down (link.trans down)).symm.trans state
      · intro other
        constructor
        · intro _ idle
          cases idle.symm.trans state
        · intro down
          exact absurd ⟨success, link.symm.trans down, changes.1⟩ other
    · rw [if_neg changes] at state
      refine iff_of_true (h.of_eq state link) ?_
      rintro ⟨-, down, registered⟩
      exact changes ⟨registered, h.down down⟩

private theorem follows_disconnected (henabled : s.Enabled dynamicDb .disconnected) :
    (s.handle dynamicDb .disconnected).Follows ↔ ¬ s.Misleads dynamicDb .disconnected := by
  have state : (s.handle dynamicDb .disconnected).Follows ↔
      s.service.onDisconnected.readyState = .notConnected := by
    constructor
    · intro follows
      exact follows.down rfl
    · intro idle
      exact ⟨fun connected => (by cases connected), fun _ => idle⟩
  rw [state, Lifecycle.onDisconnected]
  cases registered : s.service.serviceIsRegistered with
  | true =>
    refine iff_of_true rfl ?_
    rintro ⟨-, unregistered, -⟩
    cases registered.symm.trans unregistered
  | false =>
    constructor
    · rintro idle ⟨-, -, busy⟩
      exact busy idle
    · intro other
      by_contra busy
      exact other ⟨henabled, registered, busy⟩

private theorem follows_ccc (value : UInt16)
    (henabled : s.Enabled dynamicDb (.cccCfgChanged value)) :
    (s.handle dynamicDb (.cccCfgChanged value)).Follows := by
  constructor
  · intro _
    change (if value = gattCccNotify then ReadyState.ready else .connected) ≠ .notConnected
    split <;> decide
  · intro down
    exact absurd down henabled

private theorem Misleads.enabled {e : LifecycleEvent} (h : s.Misleads dynamicDb e) :
    s.Enabled dynamicDb e := by
  cases e with
  | init readyCb registerResult => trivial
  | connected err => exact fun success => absurd success h.1
  | disconnected => exact h.1
  | _ => exact h.elim

/-- An event keeps the ready state true to the link if and only if it does not mislead. -/
theorem Follows.step_iff (h : s.Follows) (e : LifecycleEvent) :
    (s.step dynamicDb e).Follows ↔ ¬ s.Misleads dynamicDb e := by
  by_cases enabled : s.Enabled dynamicDb e
  · rw [step, if_pos enabled]
    cases e with
    | init readyCb registerResult => exact follows_init h readyCb registerResult
    | serviceRegister registerResult =>
      obtain ⟨registered, eq⟩ := serviceRegister_eq s.service registerResult
      have state := congrArg Lifecycle.readyState eq
      exact iff_of_true (h.of_eq state rfl) id
    | serviceUnregister unregisterResult =>
      obtain ⟨registered, eq⟩ := serviceUnregister_eq s.service unregisterResult
      have state := congrArg Lifecycle.readyState eq
      exact iff_of_true (h.of_eq state rfl) id
    | linkUp =>
      refine iff_of_true ⟨fun connected => ?_, fun down => ?_⟩ id
      · cases connected
      · cases down
    | cccCfgChanged value => exact iff_of_true (follows_ccc value enabled) id
    | connected err => exact follows_connected h err
    | disconnected => exact follows_disconnected enabled
  · rw [step, if_neg enabled]
    exact iff_of_true h fun misleads => enabled misleads.enabled

/-- The ready state follows the link in every state of a run exactly when no event of it
misleads. -/
theorem follows_run_iff (dynamicDb : Bool) (events : List LifecycleEvent) :
    EachStep (step dynamicDb) (fun s e => (s.step dynamicDb e).Follows) (initial dynamicDb) events ↔
      EachStep (step dynamicDb) (fun s e => ¬ s.Misleads dynamicDb e) (initial dynamicDb)
        events := by
  have start : (initial dynamicDb).Follows :=
    ⟨fun connected => (by cases connected), fun _ => rfl⟩
  exact eachStep_congr events (fun _ h clean => (h.step_iff _).mpr clean)
    (fun _ h => h.step_iff _) start

/-- A failed connection, an initialisation during a connection, and a service that is unregistered
before the connection ends. -/
theorem follows_run_fails :
    let failed := [.init true 0, .connected 0x3e]
    let again := [.init true 0, .linkUp, .connected 0, .cccCfgChanged 1, .init true 0]
    let unregistered := [.init true 0, .linkUp, .connected 0, .serviceUnregister 0, .disconnected]
    ((failed.foldl (step false) (initial false)).link = .down ∧
        (failed.foldl (step false) (initial false)).service.readyState = .connected) ∧
      ((again.foldl (step false) (initial false)).link = .connected true ∧
        (again.foldl (step false) (initial false)).service.readyState = .notConnected ∧
        (again.foldl (step false) (initial false)).service.told = [.connected, .ready]) ∧
      ((unregistered.foldl (step true) (initial true)).link = .down ∧
        (unregistered.foldl (step true) (initial true)).service.readyState = .connected) ∧
      ¬ EachStep (step false) (fun s e => (s.step false e).Follows) (initial false) failed ∧
      ¬ EachStep (step false) (fun s e => (s.step false e).Follows) (initial false) again ∧
      ¬ EachStep (step true) (fun s e => (s.step true e).Follows) (initial true)
        unregistered := by
  intro failed again unregistered
  refine ⟨by decide, by decide, by decide, ?_, ?_, ?_⟩
  · rintro ⟨-, follows, -⟩
    exact absurd (follows.down rfl) (by decide)
  · rintro ⟨-, -, -, -, follows, -⟩
    exact follows.connected (by decide) (by decide)
  · rintro ⟨-, -, -, -, follows, -⟩
    exact absurd (follows.down rfl) (by decide)

/-- An event apart from an initialisation changes the registration at most, or it tells the user a
new ready state. -/
inductive Changes (s : Lifecycle) : Lifecycle → Prop
  | registration (registered : Bool) : Changes s { s with serviceIsRegistered := registered }
  | tells (state : ReadyState) : Changes s (s.onReadyStateChanged state)

theorem step_changes (dynamicDb : Bool) (s : LinkedService) (e : LifecycleEvent) :
    Changes s.service (s.step dynamicDb e).service ∨
      ∃ readyCb registerResult registered, e = .init readyCb registerResult ∧
        (s.step dynamicDb e).service = { s.service with
          readyState := .notConnected
          readyCb := readyCb
          serviceIsRegistered := registered } := by
  have nothing : Changes s.service s.service := .registration s.service.serviceIsRegistered
  unfold step
  by_cases enabled : s.Enabled dynamicDb e
  swap
  · rw [if_neg enabled]
    exact .inl nothing
  rw [if_pos enabled]
  cases e with
  | init readyCb registerResult =>
    rcases init_cases dynamicDb s.service readyCb registerResult with
      ⟨-, registered, eq⟩ | ⟨-, eq⟩
    · exact .inr ⟨readyCb, registerResult, registered, rfl, eq⟩
    · change Changes _ (s.service.init dynamicDb readyCb registerResult).2 ∨ _
      rw [eq]
      exact .inl nothing
  | serviceRegister registerResult =>
    obtain ⟨registered, eq⟩ := serviceRegister_eq s.service registerResult
    change Changes _ (s.service.serviceRegister registerResult).2 ∨ _
    rw [eq]
    exact .inl (.registration registered)
  | serviceUnregister unregisterResult =>
    obtain ⟨registered, eq⟩ := serviceUnregister_eq s.service unregisterResult
    change Changes _ (s.service.serviceUnregister unregisterResult).2 ∨ _
    rw [eq]
    exact .inl (.registration registered)
  | linkUp => exact .inl nothing
  | cccCfgChanged value => exact .inl (.tells _)
  | connected err =>
    change Changes _ (s.service.onConnected err) ∨ _
    rw [onConnected_eq]
    split
    · exact .inl (.tells _)
    · exact .inl nothing
  | disconnected =>
    change Changes _ s.service.onDisconnected ∨ _
    unfold Lifecycle.onDisconnected
    split
    · exact .inl (.tells _)
    · exact .inl nothing

/-- Nothing ever sets the flag that is to refuse a second initialisation. -/
theorem isInitialized_run (dynamicDb : Bool) (events : List LifecycleEvent) :
    (events.foldl (step dynamicDb) (initial dynamicDb)).service.isInitialized = false := by
  have kept (s : LinkedService) (e : LifecycleEvent) :
      (s.step dynamicDb e).service.isInitialized = s.service.isInitialized := by
    rcases step_changes dynamicDb s e with changes | ⟨_, _, _, -, eq⟩
    · generalize (s.step dynamicDb e).service = service' at changes
      cases changes <;> rfl
    · rw [eq]
  have run (s : LinkedService) : (events.foldl (step dynamicDb) s).service.isInitialized =
      s.service.isInitialized := by
    induction events generalizing s with
    | nil => rfl
    | cons e events ih => exact (ih _).trans (kept s e)
  exact run (initial dynamicDb)

/-- The user has a `ready_cb`, and its last call was with the ready state. -/
def UpToDate (s : LinkedService) : Prop :=
  s.service.readyCb = true ∧
    s.service.told.getLast?.getD .notConnected = s.service.readyState

/-- Until the next initialisation, the user is told every change of the ready state. -/
theorem upToDate_run {events : List LifecycleEvent}
    (hevents : ∀ readyCb registerResult, .init readyCb registerResult ∉ events)
    (h : s.UpToDate) : (events.foldl (step dynamicDb) s).UpToDate := by
  induction events generalizing s with
  | nil => exact h
  | cons e events ih =>
    apply ih
    · intro readyCb registerResult mem
      exact hevents readyCb registerResult (List.mem_cons_of_mem e mem)
    · rcases step_changes dynamicDb s e with changes |
        ⟨readyCb, registerResult, _, rfl, -⟩
      · unfold UpToDate at h ⊢
        generalize (s.step dynamicDb e).service = service' at changes ⊢
        cases changes with
        | registration registered => exact h
        | tells state => simp [Lifecycle.onReadyStateChanged, h.1]
      · exact absurd List.mem_cons_self (hevents readyCb registerResult)

end LinkedService

end BleMidi.Service
