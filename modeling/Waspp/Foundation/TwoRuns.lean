/-
Module: Waspp.Foundation.TwoRuns
Layer: Foundation
Purpose: Two runs of programs side by side.  Related programs make the same calls and, after the same
  replies, end in related results.  An action respects a relation of local states when its runs from related
  states are related; the rules follow the ways in which actions are built.
Imports: Waspp.Foundation.Interaction
Trusted boundary: none (fully proved)
Main exports: Program.Related, Program.Related.exec, Action.Respects
Open obligations: none
-/
import Waspp.Foundation.Interaction

namespace Interaction

variable {Q : Type} {R : Q → Type} {α α' β β' σ ε ω : Type}

namespace Program

/-- Two programs make the same calls, and after the same replies they end in results that `P` relates. -/
inductive Related (P : α → α' → Prop) : Program Q R α → Program Q R α' → Prop where
  | ret {a : α} {a' : α'} (holds : P a a') : Related P (.ret a) (.ret a')
  | call {q : Q} {next : R q → Program Q R α} {next' : R q → Program Q R α'}
      (later : ∀ r, Related P (next r) (next' r)) : Related P (.call q next) (.call q next')

/-- Related programs with related continuations are related. -/
theorem Related.bind {P : α → α' → Prop} {P' : β → β' → Prop} {p : Program Q R α} {p' : Program Q R α'}
    {f : α → Program Q R β} {f' : α' → Program Q R β'} (first : Related P p p')
    (next : ∀ a a', P a a' → Related P' (f a) (f' a')) : Related P' (p.bind f) (p'.bind f') := by
  induction first with
  | ret holds => exact next _ _ holds
  | call _ ih => exact .call ih

/-- Against the same server, related programs have related results and leave the same state and trace. -/
theorem Related.exec {P : α → α' → Prop} {p : Program Q R α} {p' : Program Q R α'} (related : Related P p p')
    (serve : (q : Q) → ω → R q × ω) (world : ω) :
    P (p.exec serve world).1 (p'.exec serve world).1 ∧ (p.exec serve world).2 = (p'.exec serve world).2 := by
  induction related generalizing world with
  | ret holds => exact ⟨holds, rfl⟩
  | @call q next next' _ ih =>
      have later := ih (serve q world).1 (serve q world).2
      refine ⟨later.1, ?_⟩
      simp only [Program.exec, later.2]

end Program

namespace Action

/-- From local states that `V` relates, the action makes the same calls, ends in the same value or exception,
    and leaves states that `V` relates. -/
def Respects (V : σ → σ → Prop) (m : Action Q R σ ε α) : Prop :=
  ∀ s s', V s s' → Program.Related (fun one two => one.1 = two.1 ∧ V one.2 two.2) (m s) (m s')

section Rules

variable {V : σ → σ → Prop}

theorem respects_pure (a : α) : Respects V (pure a : Action Q R σ ε α) := by
  intro s s' related
  exact .ret ⟨rfl, related⟩

theorem respects_raise (e : ε) : Respects V (raise e : Action Q R σ ε α) := by
  intro s s' related
  exact .ret ⟨rfl, related⟩

theorem respects_ask (q : Q) : Respects V (ask q : Action Q R σ ε (R q)) := by
  intro s s' related
  exact .call fun r => .ret ⟨rfl, related⟩

/-- A local computation respects a relation that it keeps, with equal results. -/
theorem respects_lift {f : σ → Except ε α × σ}
    (same : ∀ s s', V s s' → (f s).1 = (f s').1 ∧ V (f s).2 (f s').2) :
    Respects V (lift f : Action Q R σ ε α) := by
  intro s s' related
  exact .ret (same s s' related)

/-- An update respects a relation that it keeps. -/
theorem respects_modify {f : σ → σ} (same : ∀ s s', V s s' → V (f s) (f s')) :
    Respects V (modify f : Action Q R σ ε Unit) :=
  respects_lift fun s s' related => ⟨rfl, same s s' related⟩

/-- Sequences of actions that respect a relation respect it. -/
theorem respects_bind {m : Action Q R σ ε α} {f : α → Action Q R σ ε β} (first : Respects V m)
    (next : ∀ a, Respects V (f a)) : Respects V (m >>= f) := by
  intro s s' related
  apply (first s s' related).bind
  intro one two both
  rcases one with ⟨r, t⟩
  rcases two with ⟨r', t'⟩
  rcases both with ⟨same, still⟩
  simp only at same still
  subst same
  cases r with
  | ok a => exact next a t t' still
  | error e => exact .ret ⟨rfl, still⟩

/-- What follows a look at the local state may depend on what related states have in common. -/
theorem respects_get_bind {f : σ → Action Q R σ ε β} (next : ∀ s, Respects V (f s))
    (same : ∀ s s', V s s' → f s = f s') : Respects V (get >>= f) := by
  intro s s' related
  change Program.Related _ (f s s) (f s' s')
  rw [← same s s' related]
  exact next s s s' related

theorem respects_recover {m : Action Q R σ ε α} {handler : ε → Action Q R σ ε α} (first : Respects V m)
    (next : ∀ e, Respects V (handler e)) : Respects V (m.recover handler) := by
  intro s s' related
  apply (first s s' related).bind
  intro one two both
  rcases one with ⟨r, t⟩
  rcases two with ⟨r', t'⟩
  rcases both with ⟨same, still⟩
  simp only at same still
  subst same
  cases r with
  | ok a => exact .ret ⟨rfl, still⟩
  | error e => exact next e t t' still

/-- A branch respects a relation when both of its sides do. -/
theorem respects_ite (p : Prop) [Decidable p] {m n : Action Q R σ ε α} (yes : p → Respects V m)
    (no : ¬ p → Respects V n) : Respects V (if p then m else n) := by
  by_cases holds : p
  · rw [if_pos holds]
    exact yes holds
  · rw [if_neg holds]
    exact no holds

end Rules

/-- Against the same server, an action that respects a relation ends, from related states, in the same value
    or exception and in related states, and leaves the same state of the server. -/
theorem Respects.exec {V : σ → σ → Prop} {m : Action Q R σ ε α} (respects : m.Respects V) {s s' : σ}
    (related : V s s') (serve : (q : Q) → ω → R q × ω) (world : ω) :
    ((m.exec serve s world).1.1 = (m.exec serve s' world).1.1 ∧
        V (m.exec serve s world).1.2 (m.exec serve s' world).1.2) ∧
      (m.exec serve s world).2 = (m.exec serve s' world).2 :=
  (respects s s' related).exec serve world

end Action

end Interaction
