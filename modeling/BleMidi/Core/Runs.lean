/- Module: BleMidi/Core/Runs
   digest: Runs of a machine whose actions may be permitted or not, and loops that may not end. -/

import Mathlib.Order.WellFounded

set_option autoImplicit false
set_option relaxedAutoImplicit false

namespace BleMidi.Core.Runs

variable {σ α ρ : Type*}

/-- The states reached by permitted actions. An action that is not enabled has no result. -/
inductive Reach (step : σ → α → Option σ) (permits : σ → α → Prop) (start : σ) : σ → Prop
  | start : Reach step permits start start
  | step {s s' : σ} {a : α} :
      Reach step permits start s → permits s a → step s a = some s' → Reach step permits start s'

section Reach

variable {step : σ → α → Option σ} {permits : σ → α → Prop} {start s : σ}

/-- What holds at the start and is kept by permitted actions holds in every state reached. -/
theorem Reach.invariant {I : σ → Prop} (hstart : I start)
    (hstep : ∀ {s s' : σ} {a : α}, I s → permits s a → step s a = some s' → I s')
    (h : Reach step permits start s) : I s := by
  induction h with
  | start => exact hstart
  | step _ permitted next ih => exact hstep ih permitted next

/-- A run is permitted where more is permitted. -/
theorem Reach.mono {permits' : σ → α → Prop} (hpermits : ∀ {s a}, permits s a → permits' s a)
    (h : Reach step permits start s) : Reach step permits' start s := by
  induction h with
  | start => exact .start
  | step _ permitted next ih => exact .step ih (hpermits permitted) next

/-- A run goes on where another one has ended. -/
theorem Reach.trans {t : σ} (h : Reach step permits start s) (h' : Reach step permits s t) :
    Reach step permits start t := by
  induction h' with
  | start => exact h
  | step _ permitted next ih => exact .step ih permitted next

/-- The state behind a list of actions, if all of them are permitted and enabled. -/
def replay (step : σ → α → Option σ) (permits : σ → α → Prop)
    [∀ s a, Decidable (permits s a)] : σ → List α → Option σ
  | s, [] => some s
  | s, a :: actions =>
      if permits s a then (step s a).bind fun s' => replay step permits s' actions else none

theorem reach_of_replay [∀ s a, Decidable (permits s a)] {actions : List α} :
    ∀ {s s' : σ}, Reach step permits start s → replay step permits s actions = some s' →
      Reach step permits start s' := by
  induction actions with
  | nil =>
    intro s s' run h
    cases h
    exact run
  | cons a actions ih =>
    intro s s' run h
    rw [replay] at h
    by_cases permitted : permits s a
    · rw [if_pos permitted] at h
      obtain ⟨t, next, rest⟩ := Option.bind_eq_some_iff.mp h
      exact ih (.step run permitted next) rest
    · rw [if_neg permitted] at h
      cases h

/-- A state with a property that the replay of some actions comes to. -/
theorem exists_of_replay (step : σ → α → Option σ) (permits : σ → α → Prop)
    [∀ s a, Decidable (permits s a)] (start : σ) (P : σ → Prop) [DecidablePred P]
    (actions : List α)
    (h : (replay step permits start actions).any (fun s => decide (P s)) = true) :
    ∃ s, Reach step permits start s ∧ P s := by
  obtain ⟨s, replayed, property⟩ := (Option.any_eq_true _ _).mp h
  exact ⟨s, reach_of_replay .start replayed, of_decide_eq_true property⟩

end Reach

/-- The property holds of each step of a run, in the state in front of it. -/
def EachStep (step : σ → α → σ) (P : σ → α → Prop) : σ → List α → Prop
  | _, [] => True
  | s, a :: actions => P s a ∧ EachStep step P (step s a) actions

instance decidableEachStep (step : σ → α → σ) (P : σ → α → Prop) [∀ s a, Decidable (P s a)] :
    ∀ s actions, Decidable (EachStep step P s actions)
  | _, [] => inferInstanceAs (Decidable True)
  | s, a :: actions =>
      have := decidableEachStep step P (step s a) actions
      inferInstanceAs (Decidable (P s a ∧ _))

/-- Two properties that agree where the second one has kept an invariant hold along the same
runs. -/
theorem eachStep_congr {step : σ → α → σ} {P Q : σ → α → Prop} {I : σ → Prop}
    (actions : List α) (hI : ∀ {s a}, a ∈ actions → I s → Q s a → I (step s a))
    (hPQ : ∀ {s a}, a ∈ actions → I s → (P s a ↔ Q s a)) :
    ∀ {s : σ}, I s → (EachStep step P s actions ↔ EachStep step Q s actions) := by
  induction actions with
  | nil =>
    intro s _
    exact Iff.rfl
  | cons a actions ih =>
    intro s hs
    have first := hPQ List.mem_cons_self hs
    have later (holds : Q s a) := ih (fun mem => hI (List.mem_cons_of_mem a mem))
      (fun mem => hPQ (List.mem_cons_of_mem a mem)) (hI List.mem_cons_self hs holds)
    constructor
    · rintro ⟨holds, rest⟩
      exact ⟨first.mp holds, (later (first.mp holds)).mp rest⟩
    · rintro ⟨holds, rest⟩
      exact ⟨first.mpr holds, (later holds).mpr rest⟩

/-- How an iteration of a loop ends. -/
inductive Outcome (σ ρ : Type*)
  | ret (result : ρ)
  | next (state : σ)

/-- The result of a loop, if it returns within `fuel` iterations. -/
def loop (body : σ → Outcome σ ρ) : Nat → σ → Option ρ
  | 0, _ => none
  | fuel + 1, s =>
      match body s with
      | .ret result => some result
      | .next s' => loop body fuel s'

/-- The state before an iteration, if the loop gets there. -/
def before (body : σ → Outcome σ ρ) : Nat → σ → Option σ
  | 0, s => some s
  | k + 1, s =>
      match body s with
      | .ret _ => none
      | .next s' => before body k s'

section Loop

variable {body : σ → Outcome σ ρ} {I S : σ → Prop}

/-- What the body keeps holds before every iteration. -/
theorem before_invariant (hI : ∀ {s s' : σ}, I s → body s = .next s' → I s') (k : Nat) :
    ∀ {s s' : σ}, I s → before body k s = some s' → I s' := by
  induction k with
  | zero =>
    intro s s' h hs
    cases hs
    exact h
  | succ k ih =>
    intro s s' h hs
    rw [before] at hs
    cases next : body s with
    | ret result =>
      rw [next] at hs
      cases hs
    | next t =>
      rw [next] at hs
      exact ih (hI h next) hs

/-- A loop that returns from the first iteration comes to no other state. -/
theorem forall_before_ret {s : σ} {result : ρ} (h : body s = .ret result) :
    (∀ k s', before body k s = some s' → S s') ↔ S s := by
  refine ⟨fun every => every 0 s rfl, fun first k s' reached => ?_⟩
  cases k with
  | zero =>
    cases reached
    exact first
  | succ k =>
    rw [before, h] at reached
    cases reached

/-- A loop that goes on comes to the first state and to what the rest of it comes to. -/
theorem forall_before_next {s t : σ} (h : body s = .next t) :
    (∀ k s', before body k s = some s' → S s') ↔
      S s ∧ ∀ k s', before body k t = some s' → S s' := by
  constructor
  · intro every
    refine ⟨every 0 s rfl, fun k s' reached => every (k + 1) s' ?_⟩
    rw [before, h]
    exact reached
  · rintro ⟨first, rest⟩ k s' reached
    cases k with
    | zero =>
      cases reached
      exact first
    | succ k =>
      rw [before, h] at reached
      exact rest k s' reached

/-- Whether the loop returns within `fuel` iterations, with `S` before each of them. -/
def checkBefore (body : σ → Outcome σ ρ) (S : σ → Prop) [DecidablePred S] : Nat → σ → Bool
  | 0, _ => false
  | fuel + 1, s =>
      decide (S s) && match body s with
        | .ret _ => true
        | .next s' => checkBefore body S fuel s'

theorem forall_before_of_check [DecidablePred S] (fuel : Nat) :
    ∀ {s : σ}, checkBefore body S fuel s = true → ∀ k s', before body k s = some s' → S s' := by
  induction fuel with
  | zero =>
    intro s h
    cases h
  | succ fuel ih =>
    intro s h
    rw [checkBefore, Bool.and_eq_true, decide_eq_true_eq] at h
    obtain ⟨first, rest⟩ := h
    cases next : body s with
    | ret result => exact (forall_before_ret next).mpr first
    | next t =>
      rw [next] at rest
      exact (forall_before_next next).mpr ⟨first, ih rest⟩

/-- A loop that has come to a state goes on from there. -/
theorem loop_before (k : Nat) (fuel : Nat) : ∀ {s s' : σ}, before body k s = some s' →
    loop body (k + fuel) s = loop body fuel s' := by
  induction k with
  | zero =>
    intro s s' hs
    cases hs
    rw [Nat.zero_add]
  | succ k ih =>
    intro s s' hs
    rw [before] at hs
    rw [Nat.succ_add, loop]
    cases next : body s with
    | ret result =>
      rw [next] at hs
      cases hs
    | next t =>
      rw [next] at hs
      exact ih hs

/-- A loop in a set of states that the body does not leave never returns. -/
theorem loop_stuck (hS : ∀ {s : σ}, S s → ∃ s', body s = .next s' ∧ S s') (fuel : Nat) :
    ∀ {s : σ}, S s → loop body fuel s = none := by
  induction fuel with
  | zero =>
    intro s _
    rfl
  | succ fuel ih =>
    intro s h
    obtain ⟨s', next, h'⟩ := hS h
    rw [loop, next]
    exact ih h'

theorem loop_mono {fuel fuel' : Nat} (hle : fuel ≤ fuel') {result : ρ} :
    ∀ {s : σ}, loop body fuel s = some result → loop body fuel' s = some result := by
  induction fuel generalizing fuel' with
  | zero =>
    intro s h
    cases h
  | succ fuel ih =>
    intro s h
    obtain ⟨more, rfl⟩ : ∃ more, fuel' = more + 1 := ⟨fuel' - 1, by omega⟩
    rw [loop] at h ⊢
    cases next : body s with
    | ret result' =>
      rw [next] at h
      exact h
    | next s' =>
      rw [next] at h
      exact ih (by omega) h

/-- A loop whose body decreases a measure outside `S` returns exactly when it never comes to a
state in `S`, if the body does not leave `S`. -/
theorem loop_returns_iff {β : Type*} {lt : β → β → Prop} (hwf : WellFounded lt)
    (measure : σ → β) (hI : ∀ {s s' : σ}, I s → body s = .next s' → I s')
    (hless : ∀ {s s' : σ}, I s → ¬ S s → body s = .next s' → lt (measure s') (measure s))
    (hS : ∀ {s : σ}, I s → S s → ∃ s', body s = .next s' ∧ S s') {s : σ} (h : I s) :
    (∃ fuel result, loop body fuel s = some result) ↔
      ∀ k s', before body k s = some s' → ¬ S s' := by
  constructor
  · rintro ⟨fuel, result, returned⟩ k s' reached stuck
    have inside : I s' := before_invariant hI k h reached
    have never : loop body fuel s' = none :=
      loop_stuck (S := fun t => I t ∧ S t) (fun ⟨hi, hs⟩ => by
        obtain ⟨t, next, ht⟩ := hS hi hs
        exact ⟨t, next, hI hi next, ht⟩) fuel ⟨inside, stuck⟩
    have later := loop_mono (Nat.le_add_left fuel k) returned
    rw [loop_before k fuel reached, never] at later
    cases later
  · intro free
    induction hm : measure s using hwf.induction generalizing s with
    | _ m ih =>
      subst hm
      cases next : body s with
      | ret result => exact ⟨1, result, by rw [loop, next]⟩
      | next s' =>
        have moving : ¬ S s := free 0 s rfl
        obtain ⟨fuel, result, returned⟩ := ih _ (hless h moving next) (hI h next)
          ((forall_before_next next).mp free).2 rfl
        exact ⟨fuel + 1, result, by rw [loop, next]; exact returned⟩

end Loop

end BleMidi.Core.Runs
