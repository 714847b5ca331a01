/-
Module: Waspp.Foundation.Volumes
Layer: Foundation
Purpose: A record that is kept in volumes.  Entries go to the current volume, and a cut closes it and opens
  an empty one. No order of writes and cuts loses, repeats or reorders an entry, and a closed volume stays
  as it was closed.
Imports: Mathlib.Data.List.Basic
Trusted boundary: none (fully proved)
Main exports: Volumes, Volumes.Op, Volumes.replay, Volumes.all_write, Volumes.all_cut, Volumes.Uniform,
  Volumes.uniform_write, Volumes.Uniform.of_replay
Open obligations: none
-/
import Mathlib.Data.List.Basic

/-- The closed volumes, in the order in which they were closed, and the one that is written to. -/
structure Volumes (α : Type) where
  closed : List (List α)
  current : List α
deriving DecidableEq, Repr

namespace Volumes

variable {α : Type} (v : Volumes α)

/-- One more entry. -/
def write (a : α) : Volumes α := { v with current := v.current ++ [a] }

/-- Close the current volume. -/
def cut : Volumes α := ⟨v.closed ++ [v.current], []⟩

/-- All entries. -/
def all : List α := v.closed.flatten ++ v.current

/-- What is done to a record. -/
inductive Op (α : Type) where
  | write (a : α)
  | cut
deriving DecidableEq, Repr

/-- The record after one thing is done to it. -/
@[simp] def apply : Op α → Volumes α
  | .write a => v.write a
  | .cut => v.cut

/-- The record after a list of things is done to it. -/
def replay (ops : List (Op α)) : Volumes α := ops.foldl apply v

@[simp] theorem replay_nil : v.replay [] = v := rfl

/-- Operations in two parts are replayed one after the other. -/
theorem replay_append (one two : List (Op α)) : v.replay (one ++ two) = (v.replay one).replay two :=
  List.foldl_append

@[simp] theorem replay_cons (op : Op α) (ops : List (Op α)) :
    v.replay (op :: ops) = (v.apply op).replay ops := rfl

@[simp] theorem all_write (a : α) : (v.write a).all = v.all ++ [a] := by
  simp [all, write]

@[simp] theorem all_cut : v.cut.all = v.all := by
  simp [all, cut]

/-! ### Volumes of one kind -/

variable {v} {r : α → α → Prop}

/-- Any two entries of one volume are related. -/
structure Uniform (r : α → α → Prop) (v : Volumes α) : Prop where
  closed : ∀ volume ∈ v.closed, volume.Pairwise r
  current : v.current.Pairwise r

/-- A cut leaves the volumes of one kind. -/
theorem uniform_cut : v.cut.Uniform r ↔ v.Uniform r := by
  constructor
  · intro uniform
    exact ⟨fun volume member => uniform.closed volume (List.mem_append_left _ member),
      uniform.closed _ (by simp [cut])⟩
  · intro uniform
    refine ⟨?_, List.Pairwise.nil⟩
    intro volume member
    rcases List.mem_append.mp member with before | new
    · exact uniform.closed volume before
    · exact List.mem_singleton.mp new ▸ uniform.current

/-- An entry leaves the volumes of one kind exactly when it is of the kind of the current one. -/
theorem uniform_write {a : α} : (v.write a).Uniform r ↔ v.Uniform r ∧ ∀ b ∈ v.current, r b a := by
  constructor
  · intro uniform
    have both := List.pairwise_append.mp uniform.current
    exact ⟨⟨uniform.closed, both.1⟩, fun b member => both.2.2 b member a (List.mem_singleton_self a)⟩
  · rintro ⟨uniform, related⟩
    refine ⟨uniform.closed, List.pairwise_append.mpr ⟨uniform.current, List.pairwise_singleton _ _, ?_⟩⟩
    intro b member c new
    exact List.mem_singleton.mp new ▸ related b member

/-- Nothing that is done to a record makes its volumes uniform. -/
theorem Uniform.of_replay {ops : List (Op α)} (uniform : (v.replay ops).Uniform r) : v.Uniform r := by
  induction ops generalizing v with
  | nil => exact uniform
  | cons op ops ih =>
      cases op with
      | write a => exact (uniform_write.mp (ih uniform)).1
      | cut => exact uniform_cut.mp (ih uniform)

end Volumes
