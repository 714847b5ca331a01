/-
Module: Waspp.Foundation.Transducer
Layer: Foundation
Purpose: State machines with output: each input moves the state and emits outputs.  The module gives runs
  over sequences of inputs, how they compose along concatenation, the rule that a step invariant holds
  along every run, and the rule that relates a machine that works on blocks of inputs to a machine that
  works on the inputs one by one.
Imports: Mathlib.Tactic.Basic
Trusted boundary: none (fully proved)
Main exports: Transducer, Transducer.run, Transducer.final, Transducer.outputs, run_append,
  invariant, outputs_invariant, run_eq_run_flatten
Open obligations: none
-/
import Mathlib.Tactic.Basic

/-- A state machine that reads inputs in `ι` and writes outputs in `ω`. -/
structure Transducer (σ ι ω : Type*) where
  step : σ → ι → σ × List ω

namespace Transducer

variable {σ ι ω : Type*} (t : Transducer σ ι ω)

/-- The state after a sequence of inputs, and everything written on the way. -/
def run : σ → List ι → σ × List ω
  | s, [] => (s, [])
  | s, i :: rest =>
      let (next, written) := t.step s i
      let (last, later) := run next rest
      (last, written ++ later)

/-- The state after a sequence of inputs. -/
def final (s : σ) (inputs : List ι) : σ := (t.run s inputs).1

/-- The outputs of a sequence of inputs. -/
def outputs (s : σ) (inputs : List ι) : List ω := (t.run s inputs).2

@[simp] theorem run_nil (s : σ) : t.run s [] = (s, []) := rfl

@[simp] theorem final_nil (s : σ) : t.final s [] = s := rfl

@[simp] theorem outputs_nil (s : σ) : t.outputs s [] = [] := rfl

/-- A run over more inputs is a step and the run that follows. -/
theorem run_cons (s : σ) (i : ι) (rest : List ι) :
    t.run s (i :: rest) =
      (t.final (t.step s i).1 rest, (t.step s i).2 ++ t.outputs (t.step s i).1 rest) := rfl

@[simp] theorem final_cons (s : σ) (i : ι) (rest : List ι) :
    t.final s (i :: rest) = t.final (t.step s i).1 rest := rfl

@[simp] theorem outputs_cons (s : σ) (i : ι) (rest : List ι) :
    t.outputs s (i :: rest) = (t.step s i).2 ++ t.outputs (t.step s i).1 rest := rfl

/-- A run in two parts ends where the second part does. -/
theorem final_append (s : σ) (before after : List ι) :
    t.final s (before ++ after) = t.final (t.final s before) after := by
  induction before generalizing s with
  | nil => rfl
  | cons i rest ih => simp only [List.cons_append, final_cons, ih]

/-- A run in two parts has the outputs of both. -/
theorem outputs_append (s : σ) (before after : List ι) :
    t.outputs s (before ++ after) = t.outputs s before ++ t.outputs (t.final s before) after := by
  induction before generalizing s with
  | nil => rfl
  | cons i rest ih => simp only [List.cons_append, outputs_cons, final_cons, ih, List.append_assoc]

/-- Runs compose along concatenation. -/
theorem run_append (s : σ) (before after : List ι) :
    t.run s (before ++ after) =
      (t.final (t.final s before) after,
        t.outputs s before ++ t.outputs (t.final s before) after) :=
  Prod.ext (t.final_append s before after) (t.outputs_append s before after)

/-- A property that every step keeps holds at the end of every run. -/
theorem invariant {P : σ → Prop} (kept : ∀ s i, P s → P (t.step s i).1) {s : σ} (start : P s)
    (inputs : List ι) : P (t.final s inputs) := by
  induction inputs generalizing s with
  | nil => exact start
  | cons i rest ih => exact ih (kept s i start)

/-- What every step writes from an invariant state is written in every run. -/
theorem outputs_invariant {P : σ → Prop} {Q : ω → Prop} (kept : ∀ s i, P s → P (t.step s i).1)
    (writes : ∀ s i, P s → ∀ o ∈ (t.step s i).2, Q o) {s : σ} (start : P s) (inputs : List ι) :
    ∀ o ∈ t.outputs s inputs, Q o := by
  induction inputs generalizing s with
  | nil => simp
  | cons i rest ih =>
      intro o member
      rcases List.mem_append.mp member with here | later
      · exact writes s i start o here
      · exact ih (kept s i start) o later

/-- A state in which every input is ignored is never left. -/
theorem run_of_stuck {s : σ} (stuck : ∀ i, t.step s i = (s, [])) (inputs : List ι) :
    t.run s inputs = (s, []) := by
  induction inputs with
  | nil => rfl
  | cons i rest ih =>
      have last : t.final s rest = s := congrArg Prod.fst ih
      have nothing : t.outputs s rest = [] := congrArg Prod.snd ih
      rw [run_cons, stuck i, last, nothing, List.append_nil]

/-- A machine on blocks agrees with a machine on items over a whole run when it agrees on each block, met in
    the state that the items before it lead to. -/
theorem run_eq_run_flatten (coarse : Transducer σ (List ι) ω) (fine : Transducer σ ι ω) {s : σ}
    {blocks : List (List ι)}
    (agree : ∀ before block after, blocks = before ++ block :: after →
      coarse.step (fine.final s before.flatten) block = fine.run (fine.final s before.flatten) block) :
    coarse.run s blocks = fine.run s blocks.flatten := by
  induction blocks generalizing s with
  | nil => rfl
  | cons block rest ih =>
      have here : coarse.step s block = fine.run s block := by
        simpa using agree [] block rest rfl
      have later : coarse.run (fine.final s block) rest = fine.run (fine.final s block) rest.flatten := by
        refine ih fun before block' after split => ?_
        have := agree (block :: before) block' after (by rw [split, List.cons_append])
        rwa [List.flatten_cons, final_append] at this
      have last : coarse.final (fine.final s block) rest = fine.final (fine.final s block) rest.flatten :=
        congrArg Prod.fst later
      have written : coarse.outputs (fine.final s block) rest =
          fine.outputs (fine.final s block) rest.flatten := congrArg Prod.snd later
      rw [List.flatten_cons, run_append, ← last, ← written, run_cons, here]
      rfl

end Transducer
