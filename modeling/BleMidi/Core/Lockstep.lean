/- Module: BleMidi/Core/Lockstep
   digest: Two machines that do the same in related states. -/

import BleMidi.Core.Runs

set_option autoImplicit false
set_option relaxedAutoImplicit false

namespace BleMidi.Core.Lockstep

open BleMidi.Core.Runs

variable {σ σ' ρ ρ' α β : Type*}

/-- The outputs of operations that are performed one after another. -/
inductive Performs (perform : σ → α → β → σ → Prop) : σ → List α → List β → σ → Prop
  | nil (s : σ) : Performs perform s [] [] s
  | cons {s s' s'' : σ} {a : α} {b : β} {ops : List α} {outs : List β} :
      perform s a b s' → Performs perform s' ops outs s'' →
      Performs perform s (a :: ops) (b :: outs) s''

namespace Performs

variable {perform : σ → α → β → σ → Prop} {perform' : σ' → α → β → σ' → Prop}

/-- If a step has a counterpart with the same output in related states, a run has one, too. -/
theorem lockstep {R : σ → σ' → Prop} {allowed : α → Prop}
    (hstep : ∀ {s s' a b t}, R s s' → allowed a → perform s a b t →
      ∃ t', perform' s' a b t' ∧ R t t')
    {s t : σ} {ops : List α} {outs : List β} (h : Performs perform s ops outs t)
    (hops : ∀ a ∈ ops, allowed a) :
    ∀ {s' : σ'}, R s s' → ∃ t', Performs perform' s' ops outs t' ∧ R t t' := by
  induction h with
  | nil s =>
    intro s' related
    exact ⟨s', .nil s', related⟩
  | cons step _ ih =>
    intro s' related
    obtain ⟨u, step', related'⟩ := hstep related (hops _ List.mem_cons_self) step
    obtain ⟨t', run', final⟩ := ih (fun a ha => hops a (List.mem_cons_of_mem _ ha)) related'
    exact ⟨t', .cons step' run', final⟩

theorem mono {f f' : σ → α → β → σ → Prop} (hstep : ∀ {s a b t}, f s a b t → f' s a b t) {s t : σ}
    {ops : List α} {outs : List β} (h : Performs f s ops outs t) : Performs f' s ops outs t := by
  induction h with
  | nil s => exact .nil s
  | cons step _ ih => exact .cons (hstep step) ih

/-- The outputs of operations with one result each are determined. -/
theorem deterministic {f : σ → α → β → σ → Prop}
    (hdet : ∀ {s a b b' t t'}, f s a b t → f s a b' t' → b = b' ∧ t = t')
    {s t : σ} {ops : List α} {outs : List β} (h : Performs f s ops outs t) :
    ∀ {outs' : List β} {t' : σ}, Performs f s ops outs' t' → outs' = outs := by
  induction h with
  | nil s =>
    intro outs' t' h'
    cases h'
    rfl
  | cons step _ ih =>
    intro outs' t' h'
    cases h' with
    | cons step' run' =>
      obtain ⟨rfl, rfl⟩ := hdet step step'
      rw [ih run']

/-- An operation with the same output whenever it is repeated. -/
theorem replicate {f : σ → α → β → σ → Prop} {I : σ → Prop} {a : α} {b : β}
    (hstep : ∀ {s}, I s → ∃ s', f s a b s' ∧ I s') (n : Nat) :
    ∀ {s : σ}, I s → ∃ t, Performs f s (List.replicate n a) (List.replicate n b) t := by
  induction n with
  | zero =>
    intro s _
    exact ⟨s, .nil s⟩
  | succ n ih =>
    intro s hs
    obtain ⟨s', step, hs'⟩ := hstep hs
    obtain ⟨t, run⟩ := ih hs'
    exact ⟨t, .cons step run⟩

end Performs

/-- States behind which the same operations have the same outputs. -/
def Indistinguishable (perform : σ → α → β → σ → Prop) (s s' : σ) : Prop :=
  ∀ ops outs, (∃ t, Performs perform s ops outs t) ↔ ∃ t, Performs perform s' ops outs t

theorem Indistinguishable.refl (perform : σ → α → β → σ → Prop) (s : σ) :
    Indistinguishable perform s s := fun _ _ => Iff.rfl

/-- Operations with one result each have the same outputs behind indistinguishable states. -/
theorem Indistinguishable.outs_eq {f : σ → α → β → σ → Prop}
    (hdet : ∀ {s a b b' t t'}, f s a b t → f s a b' t' → b = b' ∧ t = t') {s s' : σ}
    (h : Indistinguishable f s s') {ops : List α} {outs outs' : List β} {t t' : σ}
    (hrun : Performs f s ops outs t) (hrun' : Performs f s' ops outs' t') : outs' = outs := by
  obtain ⟨u, run⟩ := (h ops outs).mp ⟨t, hrun⟩
  exact Performs.deterministic (f := f) hdet run hrun'

/-- The outputs of operations that are computed one after another, if all of them have a result. -/
def execute (exec : σ → α → Option (β × σ)) : σ → List α → Option (List β × σ)
  | s, [] => some ([], s)
  | s, a :: ops =>
      (exec s a).bind fun (b, s') => (execute exec s' ops).map fun (outs, t) => (b :: outs, t)

theorem performs_of_execute {exec : σ → α → Option (β × σ)} {perform : σ → α → β → σ → Prop}
    (hexec : ∀ {s a b s'}, exec s a = some (b, s') → perform s a b s') (ops : List α) :
    ∀ {s t : σ} {outs : List β}, execute exec s ops = some (outs, t) →
      Performs perform s ops outs t := by
  induction ops with
  | nil =>
    intro s t outs h
    cases h
    exact .nil s
  | cons a ops ih =>
    intro s t outs h
    obtain ⟨⟨b, s'⟩, step, rest⟩ := Option.bind_eq_some_iff.mp h
    obtain ⟨⟨outs', t'⟩, run, eq⟩ := Option.map_eq_some_iff.mp rest
    cases eq
    exact .cons (hexec step) (ih run)

/-- Two iterations that end alike. -/
inductive Together (R : σ → σ' → Prop) (Q : ρ → ρ' → Prop) : Outcome σ ρ → Outcome σ' ρ' → Prop
  | ret {r : ρ} {r' : ρ'} : Q r r' → Together R Q (.ret r) (.ret r')
  | next {s : σ} {s' : σ'} : R s s' → Together R Q (.next s) (.next s')

section Loops

variable {R : σ → σ' → Prop} {Q : ρ → ρ' → Prop} {body : σ → Outcome σ ρ}
  {body' : σ' → Outcome σ' ρ'}

/-- The second loop comes to no state that is not related to one of the first loop. -/
theorem before_together (hbody : ∀ {s s'}, R s s' → Together R Q (body s) (body' s')) (k : Nat) :
    ∀ {s : σ} {s' t' : σ'}, R s s' → before body' k s' = some t' →
      ∃ t, before body k s = some t ∧ R t t' := by
  induction k with
  | zero =>
    intro s s' t' related h
    cases h
    exact ⟨s, rfl, related⟩
  | succ k ih =>
    intro s s' t' related h
    have together := hbody related
    rw [before] at h ⊢
    revert h together
    generalize body s = o
    generalize body' s' = o'
    intro h together
    cases together with
    | ret same => cases h
    | next related' => exact ih related' h

/-- Loops whose iterations end alike in related states have related results. -/
theorem loop_together (hbody : ∀ {s s'}, R s s' → Together R Q (body s) (body' s')) (fuel : Nat) :
    ∀ {s : σ} {s' : σ'} {r : ρ}, R s s' → loop body fuel s = some r →
      ∃ r', loop body' fuel s' = some r' ∧ Q r r' := by
  induction fuel with
  | zero =>
    intro s s' r _ h
    cases h
  | succ fuel ih =>
    intro s s' r related h
    have together := hbody related
    rw [loop] at h ⊢
    revert h together
    generalize body s = o
    generalize body' s' = o'
    intro h together
    cases together with
    | ret same =>
      cases h
      exact ⟨_, rfl, same⟩
    | next related' => exact ih related' h

end Loops

end BleMidi.Core.Lockstep
