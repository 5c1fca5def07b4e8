/- Module: BleMidi/Core/Chunking
   digest: Functions on chunks that write one symbol after another. -/

import Mathlib.Data.List.Basic

set_option autoImplicit false
set_option relaxedAutoImplicit false

namespace BleMidi.Core.Chunking

variable {σ α : Type*}

/-- A way of cutting a list into nonempty chunks. -/
structure Cutting (data : List α) (chunks : List (List α)) : Prop where
  flatten_eq : chunks.flatten = data
  nonempty : ∀ chunk ∈ chunks, chunk ≠ []

instance [DecidableEq α] (data : List α) (chunks : List (List α)) :
    Decidable (Cutting data chunks) :=
  decidable_of_iff (chunks.flatten = data ∧ ∀ chunk ∈ chunks, chunk ≠ [])
    ⟨fun ⟨flatten, nonempty⟩ => ⟨flatten, nonempty⟩, fun h => ⟨h.flatten_eq, h.nonempty⟩⟩

/-- In the states of `I`, a nonempty chunk of valid symbols is written symbol by symbol. -/
structure Symbolwise (feed : σ → List α → Option σ) (write : σ → α → σ) (I : σ → Prop)
    (Valid : α → Prop) : Prop where
  feed_eq : ∀ {s : σ} {chunk : List α}, I s → chunk ≠ [] → (∀ a ∈ chunk, Valid a) →
    feed s chunk = some (chunk.foldl write s)
  keeps : ∀ {s : σ} (a : α), I s → I (write s a)

namespace Symbolwise

variable {feed : σ → List α → Option σ} {write : σ → α → σ} {I : σ → Prop} {Valid : α → Prop}

theorem foldl_keeps (h : Symbolwise feed write I Valid) (data : List α) :
    ∀ {s : σ}, I s → I (data.foldl write s) := by
  induction data with
  | nil =>
    intro s hs
    exact hs
  | cons a data ih =>
    intro s hs
    exact ih (h.keeps a hs)

/-- Chunks that follow one another are written like all of their symbols at once. -/
theorem foldlM_eq (h : Symbolwise feed write I Valid) (chunks : List (List α)) :
    ∀ {s : σ}, I s → (∀ chunk ∈ chunks, chunk ≠ []) → (∀ a ∈ chunks.flatten, Valid a) →
      chunks.foldlM feed s = some (chunks.flatten.foldl write s) := by
  induction chunks with
  | nil =>
    intro s _ _ _
    rfl
  | cons chunk chunks ih =>
    intro s hs nonempty valid
    rw [List.flatten_cons] at valid
    have first := h.feed_eq hs (nonempty chunk List.mem_cons_self)
      fun a ha => valid a (List.mem_append_left _ ha)
    have rest := ih (h.foldl_keeps chunk hs) (fun c hc => nonempty c (List.mem_cons_of_mem _ hc))
      fun a ha => valid a (List.mem_append_right _ ha)
    rw [List.foldlM_cons, first, List.flatten_cons, List.foldl_append]
    exact rest

/-- How the symbols were cut does not matter. -/
theorem foldlM_cutting (h : Symbolwise feed write I Valid) {data : List α}
    {chunks : List (List α)} {s : σ} (hs : I s) (hcut : Cutting data chunks)
    (hdata : ∀ a ∈ data, Valid a) : chunks.foldlM feed s = some (data.foldl write s) := by
  obtain ⟨rfl, nonempty⟩ := hcut
  exact h.foldlM_eq chunks hs nonempty hdata

end Symbolwise

end BleMidi.Core.Chunking
