/- Module: BleMidi/Core/Transducer
   digest: Readers that consume a stream piece by piece, and the segments they turn into output. -/

import Mathlib.Data.List.Basic

set_option autoImplicit false
set_option relaxedAutoImplicit false

namespace BleMidi.Core.Transducer

variable {σ α β ε : Type*}

/-- What one step of a reader does with the unread symbols. -/
inductive Move (σ α β ε : Type*)
  | stop (out : List β) (reason : ε)
  | more (out : List β) (next : σ) (rest : List α)

/-- A reader of a nonempty input: a step looks at the first unread symbol and what follows it,
and leaves at most what follows it unread. -/
structure Reader (σ α β ε : Type*) where
  step : σ → α → List α → Move σ α β ε
  finished : σ → ε
  consumes : ∀ {s : σ} {a : α} {as : List α} {out : List β} {s' : σ} {rest : List α},
    step s a as = .more out s' rest → rest.length ≤ as.length

/-- The whole output of a reader and the reason it stopped. -/
def run (R : Reader σ α β ε) (s : σ) : List α → List β × ε
  | [] => ([], R.finished s)
  | a :: as =>
      match h : R.step s a as with
      | .stop out reason => (out, reason)
      | .more out s' rest =>
          have : rest.length ≤ as.length := R.consumes h
          ((out ++ (run R s' rest).1), (run R s' rest).2)
termination_by w => w.length

@[simp] theorem run_nil (R : Reader σ α β ε) (s : σ) : run R s [] = ([], R.finished s) := by
  rw [run]

theorem run_stop {R : Reader σ α β ε} {s : σ} {a : α} {as : List α} {out : List β} {reason : ε}
    (h : R.step s a as = .stop out reason) : run R s (a :: as) = (out, reason) := by
  rw [run]
  split
  · rename_i out' reason' h'
    cases h.symm.trans h'
    rfl
  · rename_i h'
    cases h.symm.trans h'

theorem run_more {R : Reader σ α β ε} {s s' : σ} {a : α} {as rest : List α} {out : List β}
    (h : R.step s a as = .more out s' rest) :
    run R s (a :: as) = (out ++ (run R s' rest).1, (run R s' rest).2) := by
  rw [run]
  split
  · rename_i h'
    cases h.symm.trans h'
  · rename_i h'
    cases h.symm.trans h'
    rfl

/-- Induction along a run: what holds at the end of the input and where a step stops, and what a
step takes over from the run behind it, holds of every run. -/
theorem run_induction {R : Reader σ α β ε} {P : σ → List α → List β × ε → Prop}
    (nil : ∀ s, P s [] ([], R.finished s))
    (stop : ∀ {s : σ} {a : α} {as : List α} {out : List β} {reason : ε},
      R.step s a as = .stop out reason → P s (a :: as) (out, reason))
    (more : ∀ {s s' : σ} {a : α} {as rest : List α} {out : List β},
      R.step s a as = .more out s' rest → P s' rest (run R s' rest) →
        P s (a :: as) (out ++ (run R s' rest).1, (run R s' rest).2))
    (s : σ) (w : List α) : P s w (run R s w) := by
  induction hn : w.length using Nat.strongRecOn generalizing s w with
  | ind n ih =>
    subst hn
    cases w with
    | nil =>
      rw [run_nil]
      exact nil s
    | cons a as =>
      cases move : R.step s a as with
      | stop out reason =>
        rw [run_stop move]
        exact stop move
      | more out s' rest =>
        rw [run_more move]
        exact more move (ih rest.length (Nat.lt_succ_of_le (R.consumes move)) s' rest rfl)

/-- The reader turns the segment `w` into `out` and moves from `s` to `s'`, whatever follows. -/
def Emits (R : Reader σ α β ε) (s : σ) (w : List α) (out : List β) (s' : σ) : Prop :=
  ∀ rest, run R s (w ++ rest) = (out ++ (run R s' rest).1, (run R s' rest).2)

theorem Emits.nil (R : Reader σ α β ε) (s : σ) : Emits R s [] [] s := fun _ => rfl

theorem Emits.trans {R : Reader σ α β ε} {s s' s'' : σ} {v w : List α} {out out' : List β}
    (hv : Emits R s v out s') (hw : Emits R s' w out' s'') :
    Emits R s (v ++ w) (out ++ out') s'' := by
  intro rest
  rw [List.append_assoc, hv (w ++ rest), hw rest, List.append_assoc]

/-- A segment that one step consumes whatever follows it. -/
theorem Emits.of_step {R : Reader σ α β ε} {s s' : σ} {a : α} {w : List α} {out : List β}
    (h : ∀ rest, R.step s a (w ++ rest) = .more out s' rest) : Emits R s (a :: w) out s' :=
  fun rest => run_more (h rest)

/-- One step for the head of a segment and a segment for its tail. -/
theorem Emits.cons {R : Reader σ α β ε} {s s' s'' : σ} {a : α} {v w : List α}
    {out out' : List β} (h : ∀ rest, R.step s a (v ++ rest) = .more out s' rest)
    (hw : Emits R s' w out' s'') : Emits R s (a :: (v ++ w)) (out ++ out') s'' :=
  (Emits.of_step h).trans hw

/-- Reading exactly a segment yields its output. -/
theorem Emits.run_eq {R : Reader σ α β ε} {s s' : σ} {w : List α} {out : List β}
    (h : Emits R s w out s') : run R s w = (out, R.finished s') := by
  have := h []
  simpa using this

/-- A symbol that every state in `P` reads alone, staying in the same state. -/
theorem Emits.map_of_step {R : Reader σ α β ε} {s : σ} {f : α → β} {w : List α}
    (h : ∀ a ∈ w, ∀ rest, R.step s a rest = .more [f a] s rest) :
    Emits R s w (w.map f) s := by
  induction w with
  | nil => exact Emits.nil R s
  | cons a w ih =>
    have tail := ih fun b hb => h b (List.mem_cons_of_mem a hb)
    exact Emits.cons (v := []) (fun rest => h a List.mem_cons_self rest) tail

/-- A reader whose steps do not depend on what comes behind the symbols they consume, and that says
nothing when it stops. -/
structure Incremental (R : Reader σ α β ε) : Prop where
  silent : ∀ {s : σ} {a : α} {as : List α} {out : List β} {reason : ε},
    R.step s a as = .stop out reason → out = []
  steps : ∀ {s s' : σ} {a : α} {as rest : List α} {out : List β},
    R.step s a as = .more out s' rest →
      ∀ extra, R.step s a (as ++ extra) = .more out s' (rest ++ extra)

/-- The output of an incremental reader for a part of the input is a part of its output. -/
theorem Incremental.run_prefix {R : Reader σ α β ε} (h : Incremental R) (s : σ)
    (w extra : List α) : (run R s w).1 <+: (run R s (w ++ extra)).1 := by
  apply run_induction (R := R) (P := fun s w result => result.1 <+: (run R s (w ++ extra)).1)
  · intro s
    exact List.nil_prefix
  · intro s a as out reason hstop
    rw [h.silent hstop]
    exact List.nil_prefix
  · intro s s' a as rest out hmore ih
    rw [List.cons_append, run_more (h.steps hmore extra)]
    exact (List.prefix_append_right_inj out).mpr ih

end BleMidi.Core.Transducer
