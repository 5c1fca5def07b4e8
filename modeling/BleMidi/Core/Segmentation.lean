/- Module: BleMidi/Core/Segmentation
   digest: Sequences cut into parts that fit. Whoever cuts as late as he can needs the fewest
     parts. -/

import Mathlib.Data.List.Chain
import Mathlib.Data.List.Infix

set_option autoImplicit false
set_option relaxedAutoImplicit false

namespace BleMidi.Core.Segmentation

variable {α : Type*} {Fit : List α → Prop}

/-- A sequence cut into parts that fit. -/
structure Split (Fit : List α → Prop) (items : List α) (parts : List (List α)) : Prop where
  flatten : parts.flatten = items
  fit : ∀ part ∈ parts, Fit part

/-- No split of the sequence has fewer parts. -/
def Needs (Fit : List α → Prop) (items : List α) (count : Nat) : Prop :=
  ∀ parts, Split Fit items parts → count ≤ parts.length

/-- What fits still fits without its first or without its last item. -/
structure Hereditary (Fit : List α → Prop) : Prop where
  tail : ∀ {x : α} {part : List α}, Fit (x :: part) → Fit part
  init : ∀ {part : List α} {x : α}, Fit (part ++ [x]) → Fit part

/-- The next part begins with an item that does not fit behind this one. -/
def Late (Fit : List α → Prop) (part next : List α) : Prop :=
  ∃ x rest, next = x :: rest ∧ ¬ Fit (part ++ [x])

namespace Hereditary

theorem right_of_append (h : Hereditary Fit) (front : List α) {part : List α}
    (hfit : Fit (front ++ part)) : Fit part := by
  induction front with
  | nil => exact hfit
  | cons x front ih => exact ih (h.tail hfit)

theorem left_of_append (h : Hereditary Fit) {part : List α} (back : List α)
    (hfit : Fit (part ++ back)) : Fit part := by
  induction back generalizing part with
  | nil => rwa [List.append_nil] at hfit
  | cons x back ih =>
    apply h.init (x := x)
    apply ih
    rwa [List.append_assoc]

end Hereditary

section Late

variable {front parts : List (List α)} {part : List α} {x : α}

/-- The last part grows. -/
theorem late_grow (h : (front ++ [part]).IsChain (Late Fit)) (x : α) :
    (front ++ [part ++ [x]]).IsChain (Late Fit) := by
  rw [List.isChain_append] at h ⊢
  obtain ⟨chain, -, meets⟩ := h
  refine ⟨chain, .singleton _, ?_⟩
  intro last hlast next hnext
  obtain ⟨y, rest, rfl, full⟩ := meets last hlast part rfl
  obtain rfl := Option.some.inj hnext
  exact ⟨y, rest ++ [x], rfl, full⟩

/-- The next part begins when the last one is full. -/
theorem late_next (h : (front ++ [part]).IsChain (Late Fit)) (hfull : ¬ Fit (part ++ [x])) :
    (front ++ [part] ++ [[x]]).IsChain (Late Fit) := by
  rw [List.isChain_append]
  refine ⟨h, .singleton _, ?_⟩
  intro last hlast next hnext
  rw [List.getLast?_concat] at hlast
  obtain rfl := Option.some.inj hlast
  obtain rfl := Option.some.inj hnext
  exact ⟨x, [], rfl, hfull⟩

end Late

private theorem stays_ahead (hereditary : Hereditary Fit) {parts : List (List α)}
    (hlate : parts.IsChain (Late Fit)) (hsome : parts.flatten ≠ []) :
    ∀ {others : List (List α)} (behind : List α), others.flatten = behind ++ parts.flatten →
      (∀ other ∈ others, Fit other) → parts.length ≤ others.length := by
  induction parts with
  | nil => exact absurd rfl hsome
  | cons part parts ih =>
    intro others behind hflatten hfit
    cases others with
    | nil =>
      have nothing := List.append_eq_nil_iff.mp hflatten.symm
      exact absurd nothing.2 hsome
    | cons other others =>
      cases parts with
      | nil => exact Nat.succ_le_succ (Nat.zero_le _)
      | cons next parts =>
        obtain ⟨⟨x, rest, rfl, full⟩, later⟩ := List.isChain_cons_cons.mp hlate
        obtain ⟨fits, others_fit⟩ := List.forall_mem_cons.mp hfit
        -- The other part ends in front of `x`, for it would not fit with `x`.
        have ends : ∃ behind', others.flatten = behind' ++ ((x :: rest) :: parts).flatten := by
          rw [List.flatten_cons, List.flatten_cons, ← List.append_assoc] at hflatten
          rcases List.append_eq_append_iff.mp hflatten with ⟨more, -, rest_eq⟩ | ⟨more, eq, rest_eq⟩
          · exact ⟨more, rest_eq⟩
          · cases more with
            | nil => exact ⟨[], rest_eq.symm⟩
            | cons y more =>
              rw [List.flatten_cons, List.cons_append, List.cons_append] at rest_eq
              obtain rfl := (List.cons.inj rest_eq).1
              rw [eq, List.append_assoc] at fits
              refine absurd ?_ full
              apply hereditary.left_of_append more
              rw [List.append_assoc]
              exact hereditary.right_of_append behind fits
        obtain ⟨behind', behind_eq⟩ := ends
        exact Nat.succ_le_succ (ih later (List.cons_ne_nil _ _) behind' behind_eq others_fit)

/-- Parts that are cut as late as possible are the fewest. -/
theorem needs_of_late (hereditary : Hereditary Fit) {parts : List (List α)}
    (hlate : parts.IsChain (Late Fit)) (hsome : parts.flatten ≠ []) :
    Needs Fit parts.flatten parts.length := fun _ split =>
  stays_ahead hereditary hlate hsome [] split.flatten split.fit

/-- Behind parts that are cut as late as possible, an item that does not fit into the last one needs
one more. -/
theorem needs_succ_of_late (hereditary : Hereditary Fit) {front : List (List α)} {part : List α}
    {x : α} (hlate : (front ++ [part]).IsChain (Late Fit)) (hfull : ¬ Fit (part ++ [x])) :
    Needs Fit ((front ++ [part]).flatten ++ [x]) ((front ++ [part]).length + 1) := by
  have needs := needs_of_late hereditary (late_next hlate hfull) (by simp)
  rwa [List.flatten_append, List.flatten_singleton, List.length_append] at needs

end BleMidi.Core.Segmentation
