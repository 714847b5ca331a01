/-
Module: Waspp.Foundation.Exclusion
Layer: Foundation
Purpose: A flag that guards a place for one.  The parties are a list, `inside` says which of them are in the
  place, and the flag is set exactly while one is.  Where one is in, or the flag is clear, all others are
  outside; so one that goes in and sets the flag, or out and clears it, keeps the rule.
Imports: Mathlib.Data.List.Basic, Mathlib.Data.List.Perm.Basic
Trusted boundary: none (fully proved)
Main exports: Guarded, Guarded.others, Guarded.modify, Guarded.eraseIdx, Guarded.sole
Open obligations: none
-/
import Mathlib.Data.List.Basic
import Mathlib.Data.List.Perm.Basic

namespace Exclusion

variable {α : Type} {inside : α → Bool} {flag : Bool} {parties : List α}

/-- One is inside when the flag is set, and none when it is not. -/
def Guarded (inside : α → Bool) (flag : Bool) (parties : List α) : Prop :=
  parties.countP inside = if flag then 1 else 0

/-- A party beside the others. -/
theorem perm_cons_eraseIdx {i : Nat} {a : α} (at_ : parties[i]? = some a) :
    parties.Perm (a :: parties.eraseIdx i) := by
  obtain ⟨here, rfl⟩ := List.getElem?_eq_some_iff.mp at_
  exact (List.getElem_cons_eraseIdx_perm here).symm

/-- A party that changes beside the others. -/
theorem modify_perm_cons_eraseIdx {i : Nat} {a : α} (at_ : parties[i]? = some a) (f : α → α) :
    (parties.modify i f).Perm (f a :: parties.eraseIdx i) := by
  obtain ⟨here, rfl⟩ := List.getElem?_eq_some_iff.mp at_
  have set : parties.modify i f = parties.set i (f parties[i]) := by
    apply List.ext_getElem?
    intro j
    rw [List.getElem?_modify, List.getElem?_set]
    by_cases same : i = j
    · subst same
      simp [here]
    · simp [same]
  rw [set]
  exact List.set_perm_cons_eraseIdx here _

/-- The count of those inside, from one party and the others. -/
theorem countP_eraseIdx (inside : α → Bool) {i : Nat} {a : α} (at_ : parties[i]? = some a) :
    parties.countP inside = (parties.eraseIdx i).countP inside + if inside a then 1 else 0 := by
  rw [(perm_cons_eraseIdx at_).countP_eq, List.countP_cons]

/-- Where one is inside, or the flag is clear, all others are outside. -/
theorem Guarded.others (guarded : Guarded inside flag parties) {i : Nat} {a : α} (at_ : parties[i]? = some a)
    (may : inside a = true ∨ flag = false) : ∀ b ∈ parties.eraseIdx i, inside b = false := by
  have none : (parties.eraseIdx i).countP inside = 0 := by
    have count := countP_eraseIdx inside at_
    rw [guarded] at count
    rcases may with here | clear
    · rw [if_pos here] at count
      split at count <;> omega
    · rw [clear] at count
      simp only [Bool.false_eq_true, if_false] at count
      omega
  intro b member
  exact Bool.eq_false_iff.mpr (List.countP_eq_zero.mp none b member)

/-- One that goes in or out, and sets the flag or clears it. -/
theorem Guarded.modify (guarded : Guarded inside flag parties) {i : Nat} {a : α} (at_ : parties[i]? = some a)
    (may : inside a = true ∨ flag = false) (f : α → α) :
    Guarded inside (inside (f a)) (parties.modify i f) := by
  have none : (parties.eraseIdx i).countP inside = 0 :=
    List.countP_eq_zero.mpr fun b member => by rw [guarded.others at_ may b member]; exact Bool.false_ne_true
  rw [Guarded, (modify_perm_cons_eraseIdx at_ f).countP_eq, List.countP_cons, none, Nat.zero_add]

/-- One that stays where it is. -/
theorem Guarded.modify_same (guarded : Guarded inside flag parties) {i : Nat} {a : α}
    (at_ : parties[i]? = some a)
    {f : α → α} (same : inside (f a) = inside a) : Guarded inside flag (parties.modify i f) := by
  rw [Guarded, (modify_perm_cons_eraseIdx at_ f).countP_eq, List.countP_cons, same,
    ← countP_eraseIdx inside at_]
  exact guarded

/-- One that goes out for good, and clears the flag if it was inside. -/
theorem Guarded.eraseIdx (guarded : Guarded inside flag parties) {i : Nat} {a : α}
    (at_ : parties[i]? = some a) :
    Guarded inside (flag && !inside a) (parties.eraseIdx i) := by
  have count := countP_eraseIdx inside at_
  rw [guarded] at count
  rw [Guarded]
  cases here : inside a <;> cases flag <;> simp_all

/-- One that comes, outside. -/
theorem Guarded.append (guarded : Guarded inside flag parties) {a : α} (out : inside a = false) :
    Guarded inside flag (parties ++ [a]) := by
  rw [Guarded, List.countP_append, List.countP_singleton, out]
  exact guarded

/-- No two are inside. -/
theorem Guarded.sole (guarded : Guarded inside flag parties) {i j : Nat} {a b : α}
    (here : parties[i]? = some a)
    (there : parties[j]? = some b) (in_ : inside a = true) (also : inside b = true) : i = j := by
  by_contra differ
  have others := guarded.others here (.inl in_)
  have member : b ∈ parties.eraseIdx i := by
    rw [List.mem_eraseIdx_iff_getElem?]
    exact ⟨j, fun same => differ same.symm, there⟩
  rw [others b member] at also
  cases also

end Exclusion
