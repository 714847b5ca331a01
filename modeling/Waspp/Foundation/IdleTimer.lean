/-
Module: Waspp.Foundation.IdleTimer
Layer: Foundation
Purpose: A stamp that expires when it lies unused, and that a use renews only once it has a certain
  age.  Between two renewals the stamp is older than the last use, so an idle time is sure to be survived
  only if it leaves room for that age; an idle time that is itself past the expiry is never survived.  What
  ages have expired and what ages are renewed is up to whoever compares them.
Imports: Mathlib.Algebra.Order.Group.Defs, Mathlib.Tactic.Abel
Trusted boundary: none (fully proved)
Main exports: IdleTimer, IdleTimer.Bounds, IdleTimer.Bounds.Spans, IdleTimer.Use, IdleTimer.Live,
  IdleTimer.start, IdleTimer.touch, IdleTimer.live_of_spans, IdleTimer.not_live_of_late
Open obligations: none
-/
import Mathlib.Algebra.Order.Group.Defs
import Mathlib.Tactic.Abel

namespace IdleTimer

/-- The ages at which a stamp has expired, and those at which a use leaves it. -/
structure Bounds (α : Type*) where
  expired : α → Bool
  young : α → Bool

/-- The times of one use, in their order: when the stamp is checked, when its age is compared with the one
    for renewal, and what a new stamp says. -/
structure Use (α : Type*) [LE α] where
  checked : α
  compared : α
  stamped : α
  checked_le : checked ≤ compared
  compared_le : compared ≤ stamped

/-- A stamp that a use leaves, or makes, has not expired this long after the use. -/
def Bounds.Spans {α : Type*} [LE α] [AddZero α] (bounds : Bounds α) (idle : α) : Prop :=
  ∀ age, age ≤ 0 ∨ bounds.young age = true → bounds.expired (idle + age) = false

end IdleTimer

/-- A stamp as its last use has left it: no older than it has to be for that use to leave it. -/
structure IdleTimer {α : Type*} [LinearOrder α] [Sub α] (bounds : IdleTimer.Bounds α) where
  stamp : α
  last : IdleTimer.Use α
  stamp_le : stamp ≤ last.stamped
  young : stamp = last.stamped ∨ bounds.young (last.compared - stamp) = true

namespace IdleTimer

section Timer

variable {α : Type*} [LinearOrder α] [Sub α] {bounds : Bounds α}

/-- The use finds a stamp that has not expired. -/
def Live (t : IdleTimer bounds) (u : Use α) : Prop := bounds.expired (u.checked - t.stamp) = false

instance (t : IdleTimer bounds) (u : Use α) : Decidable (t.Live u) := inferInstanceAs (Decidable (_ = _))

/-- A new stamp. -/
def start (u : Use α) : IdleTimer bounds := ⟨u.stamped, u, le_rfl, Or.inl rfl⟩

/-- The stamp after a use that began when the last one was over. -/
def touch (t : IdleTimer bounds) (u : Use α) (later : t.last.stamped ≤ u.checked) : IdleTimer bounds :=
  if kept : t.Live u ∧ bounds.young (u.compared - t.stamp) = true then
    { stamp := t.stamp
      last := u
      stamp_le := t.stamp_le.trans (later.trans (u.checked_le.trans u.compared_le))
      young := Or.inr kept.2 }
  else start u

@[simp] theorem stamp_start (u : Use α) : (start u : IdleTimer bounds).stamp = u.stamped := rfl

/-- A use of a live timer keeps a young stamp and renews any other. -/
theorem stamp_touch (t : IdleTimer bounds) (u : Use α) (later : t.last.stamped ≤ u.checked) :
    (t.touch u later).stamp =
      if t.Live u ∧ bounds.young (u.compared - t.stamp) = true then t.stamp else u.stamped := by
  unfold touch
  split <;> rfl

@[simp] theorem last_touch (t : IdleTimer bounds) (u : Use α) (later : t.last.stamped ≤ u.checked) :
    (t.touch u later).last = u := by
  unfold touch
  split <;> rfl

end Timer

variable {α : Type*} [AddCommGroup α] [LinearOrder α] [IsOrderedAddMonoid α] {bounds : Bounds α}

/-- An idle time that leaves room for the age of a stamp that is not renewed is survived. -/
theorem live_of_spans (t : IdleTimer bounds) {u : Use α}
    (spans : bounds.Spans (u.checked - t.last.compared)) :
    t.Live u := by
  have age : t.last.compared - t.stamp ≤ 0 ∨ bounds.young (t.last.compared - t.stamp) = true := by
    rcases t.young with same | young
    · rw [same]
      exact Or.inl (sub_nonpos.mpr t.last.compared_le)
    · exact Or.inr young
  have sum : u.checked - t.stamp = (u.checked - t.last.compared) + (t.last.compared - t.stamp) := by abel
  rw [Live, sum]
  exact spans _ age

/-- Where an older stamp has expired if a younger one has, an idle time past the expiry is not survived. -/
theorem not_live_of_late (older : ∀ a b, a ≤ b → bounds.expired a = true → bounds.expired b = true)
    (t : IdleTimer bounds) {u : Use α} (late : bounds.expired (u.checked - t.last.stamped) = true) :
    ¬ t.Live u := by
  have expired := older _ _ (sub_le_sub_left t.stamp_le u.checked) late
  simp [Live, expired]

end IdleTimer
