/- Module: BleMidi/Core/Simulation
   digest: Machines whose steps are matched by runs of another machine. -/

import BleMidi.Core.Runs

set_option autoImplicit false
set_option relaxedAutoImplicit false

namespace BleMidi.Core.Simulation

open BleMidi.Core.Runs

variable {σ τ α β : Type*}

/-- In related states, a permitted step of the first machine is matched by a run of the second one,
which may be empty. -/
def Simulates (step : σ → α → Option σ) (permits : σ → α → Prop) (step' : τ → β → Option τ)
    (permits' : τ → β → Prop) (R : σ → τ → Prop) : Prop :=
  ∀ {s s' : σ} {t : τ} {a : α}, R s t → permits s a → step s a = some s' →
    ∃ t', Reach step' permits' t t' ∧ R s' t'

section Simulates

variable {step : σ → α → Option σ} {permits : σ → α → Prop} {step' : τ → β → Option τ}
  {permits' : τ → β → Prop} {R : σ → τ → Prop} {start s : σ} {start' : τ}

/-- A run of the first machine is matched by a run of the second one. -/
theorem Simulates.reach (hsim : Simulates step permits step' permits' R) (hstart : R start start')
    (h : Reach step permits start s) : ∃ t, Reach step' permits' start' t ∧ R s t := by
  induction h with
  | start => exact ⟨start', .start, hstart⟩
  | step _ permitted next ih =>
    obtain ⟨t, run, related⟩ := ih
    obtain ⟨t', more, related'⟩ := hsim related permitted next
    exact ⟨t', run.trans more, related'⟩

end Simulates

/-- One permitted step. -/
theorem reach_one {step : σ → α → Option σ} {permits : σ → α → Prop} {s s' : σ} {a : α}
    (hpermit : permits s a) (hstep : step s a = some s') : Reach step permits s s' :=
  .step .start hpermit hstep

/-- Two folds that may fail and keep a relation between them fail together. -/
theorem rel_foldlM {α β γ : Type*} {R : β → γ → Prop} {f : β → α → Option β}
    {g : γ → α → Option γ} {actions : List α}
    (h : ∀ {b c a}, R b c → a ∈ actions → Option.Rel R (f b a) (g c a)) :
    ∀ {b : β} {c : γ}, R b c → Option.Rel R (actions.foldlM f b) (actions.foldlM g c) := by
  induction actions with
  | nil =>
    intro b c hbc
    exact .some hbc
  | cons a actions ih =>
    intro b c hbc
    rw [List.foldlM_cons, List.foldlM_cons]
    have next := h hbc List.mem_cons_self
    revert next
    generalize f b a = first
    generalize g c a = second
    intro next
    cases next with
    | some related => exact ih (fun hbc mem => h hbc (List.mem_cons_of_mem a mem)) related
    | none => exact .none

end BleMidi.Core.Simulation
