/- Module: BleMidi/Core/Framing
   digest: Codes whose words tell by their first symbols what they are and where they end. -/

import Mathlib.Data.List.Basic

set_option autoImplicit false
set_option relaxedAutoImplicit false

namespace BleMidi.Core.Framing

variable {α β : Type*}

/-- Words over `α` for symbols in `β`. What a text starts with tells its first symbol, if the text
starts with the word of a valid one. -/
structure Code (α β : Type*) where
  encode : β → List α
  Valid : β → Prop
  recognise : List α → Option β
  recognise_nil : recognise [] = none
  encode_ne_nil : ∀ b, encode b ≠ []
  recognise_append : ∀ {b}, Valid b → ∀ rest, recognise (encode b ++ rest) = some b

namespace Code

variable (C : Code α β)

/-- The symbols of a text, at most `fuel` of them. -/
def decode : Nat → List α → List β
  | 0, _ => []
  | fuel + 1, w =>
      match C.recognise w with
      | none => []
      | some b => b :: decode fuel (w.drop (C.encode b).length)

variable {C}

/-- The first symbol of a text of valid symbols is recognised. -/
theorem recognise_flatMap {bs : List β} (h : ∀ b ∈ bs, C.Valid b) :
    C.recognise (bs.flatMap C.encode) = bs.head? := by
  cases bs with
  | nil => exact C.recognise_nil
  | cons b bs =>
    rw [List.flatMap_cons]
    exact C.recognise_append (h b List.mem_cons_self) _

theorem decode_flatMap {bs : List β} (h : ∀ b ∈ bs, C.Valid b) :
    ∀ {fuel : Nat}, bs.length ≤ fuel → C.decode fuel (bs.flatMap C.encode) = bs := by
  induction bs with
  | nil =>
    intro fuel _
    cases fuel with
    | zero => rfl
    | succ fuel => rw [decode, recognise_flatMap h, List.head?_nil]
  | cons b bs ih =>
    intro fuel hfuel
    obtain ⟨fuel, rfl⟩ : ∃ n, fuel = n + 1 := by
      rw [List.length_cons] at hfuel
      exact ⟨fuel - 1, by omega⟩
    have rest : ∀ c ∈ bs, C.Valid c := fun c hc => h c (List.mem_cons_of_mem _ hc)
    have head : C.recognise ((b :: bs).flatMap C.encode) = some b := recognise_flatMap h
    rw [decode, head, List.flatMap_cons]
    simp only [List.drop_left]
    rw [ih rest (Nat.le_of_succ_le_succ hfuel)]

theorem length_le_flatMap (bs : List β) : bs.length ≤ (bs.flatMap C.encode).length := by
  induction bs with
  | nil => exact Nat.zero_le _
  | cons b bs ih =>
    have positive := List.length_pos_iff.mpr (C.encode_ne_nil b)
    rw [List.flatMap_cons, List.length_append, List.length_cons]
    omega

/-- A text of valid symbols is decoded by as many steps as it is long. -/
theorem decode_text {bs : List β} (h : ∀ b ∈ bs, C.Valid b) :
    C.decode (bs.flatMap C.encode).length (bs.flatMap C.encode) = bs :=
  decode_flatMap h (length_le_flatMap bs)

end Code

end BleMidi.Core.Framing
