/-
Module: Waspp.Foundation.Paths
Layer: Foundation
Purpose: Paths read component by component, without looking at the file system: an empty component and `.`
  stay in a directory, `..` goes up and any other name goes down.  A path stays below its start when no
  prefix of its components goes up further than it went down; a text without `..` always does.
Imports: Waspp.Foundation.CString, Mathlib.Algebra.Order.BigOperators.Group.List,
  Mathlib.Algebra.Ring.Int.Defs
Trusted boundary: none (fully proved)
Main exports: components, height, depth, StaysBelow, Below, staysBelow_of_no_dots, extension,
  extension_append_cons
Open obligations: none
-/
import Waspp.Foundation.CString
import Mathlib.Algebra.Order.BigOperators.Group.List
import Mathlib.Algebra.Ring.Int.Defs

namespace Paths

open CString

/-- The texts between the slashes of a path. -/
def components : Bytes → List Bytes
  | [] => [[]]
  | b :: rest =>
      if b = '/'.toUInt8 then [] :: components rest
      else (b :: (components rest).headD []) :: (components rest).tail

/-- How many directories a component goes down. -/
def height (component : Bytes) : Int :=
  if component = [] ∨ component = bytes "." then 0
  else if component = bytes ".." then -1
  else 1

/-- How many directories a sequence of components goes down. -/
def depth (path : List Bytes) : Int := (path.map height).sum

/-- No prefix of the components goes up from where it started. -/
def StaysBelow (path : Bytes) : Prop := ∀ before, before <+: components path → 0 ≤ depth before

/-- The path starts with the root, which is the path of a directory with its slash, and what follows stays
    below it. -/
def Below (root path : Bytes) : Prop :=
  root.getLast? = some '/'.toUInt8 ∧ ∃ rest, path = root ++ rest ∧ StaysBelow rest

/-- A component is a part of the path, and the first one is its beginning. -/
theorem infix_of_mem_components {path component : Bytes} (member : component ∈ components path) :
    component <:+: path := by
  have both : (components path).headD [] <+: path ∧ ∀ component ∈ components path, component <:+: path := by
    clear member
    induction path with
    | nil => simp [components]
    | cons b rest ih =>
        rw [components]
        split
        · refine ⟨List.nil_prefix, ?_⟩
          intro component member
          rcases List.mem_cons.mp member with rfl | later
          · exact List.nil_infix
          · exact (ih.2 component later).trans (List.suffix_cons b rest).isInfix
        · have first : b :: (components rest).headD [] <+: b :: rest := List.cons_prefix_cons.mpr ⟨rfl, ih.1⟩
          refine ⟨first, ?_⟩
          intro component member
          rcases List.mem_cons.mp member with rfl | later
          · exact first.isInfix
          · exact (ih.2 component (List.mem_of_mem_tail later)).trans (List.suffix_cons b rest).isInfix
  exact both.2 component member

/-- Only `..` goes up. -/
theorem height_nonneg {component : Bytes} (not : component ≠ bytes "..") : 0 ≤ height component := by
  unfold height
  split
  · exact Int.le_refl 0
  · decide

/-- A path without `..` never leaves its start. -/
theorem depth_nonneg {path : List Bytes} (none : bytes ".." ∉ path) : 0 ≤ depth path := by
  apply List.sum_nonneg
  intro h member
  rcases List.mem_map.mp member with ⟨component, inside, rfl⟩
  exact height_nonneg fun same => none (same ▸ inside)

/-- A text in which `..` does not occur stays below its start. -/
theorem staysBelow_of_no_dots {path : Bytes} (none : ¬ bytes ".." <:+: path) : StaysBelow path := by
  intro before isPrefix
  apply depth_nonneg
  intro member
  exact none (infix_of_mem_components (isPrefix.subset member))

/-- An occurrence of `..` does not reach over a slash. -/
theorem dots_append_slash {one two : Bytes} :
    bytes ".." <:+: one ++ '/'.toUInt8 :: two ↔
      bytes ".." <:+: one ∨ bytes ".." <:+: '/'.toUInt8 :: two := by
  constructor
  · intro inside
    rcases List.infix_append_iff.mp inside with left | right | ⟨front, back, split, suffix, pre⟩
    · exact Or.inl left
    · exact Or.inr right
    · cases back with
      | nil =>
          rw [List.append_nil] at split
          exact Or.inl (split ▸ suffix.isInfix)
      | cons b back =>
          -- the part behind the seam begins with the slash
          have head := (List.cons_prefix_cons.mp pre).1
          have member : b ∈ bytes ".." := by
            rw [split]
            simp
          rw [head] at member
          exact absurd member (by decide)
  · intro either
    rcases either with left | right
    · exact left.trans (List.prefix_append _ _).isInfix
    · exact right.trans (List.suffix_append _ _).isInfix

/-- The C string of a path below a root without a NUL: the root, and the C string of the rest. -/
theorem cstr_append {root rest : Bytes} (plain : (0 : UInt8) ∉ root) :
    cstr (root ++ rest) = root ++ cstr rest := by
  unfold cstr
  rw [List.takeWhile_append_of_pos]
  intro b member
  simp only [bne_iff_ne, ne_eq]
  exact fun same => plain (same ▸ member)

/-- A text without NUL is its own C string. -/
theorem cstr_eq_self {text : Bytes} (plain : (0 : UInt8) ∉ text) : cstr text = text := by
  simpa [cstr] using @cstr_append text [] plain

/-- What is opened for a root and a text without `..` is below the root, wherever a NUL cuts the text. -/
theorem below_cstr {root rest : Bytes} (slash : root.getLast? = some '/'.toUInt8)
    (plain : (0 : UInt8) ∉ root) (none : ¬ bytes ".." <:+: rest) : Below root (cstr (root ++ rest)) := by
  refine ⟨slash, cstr rest, cstr_append plain, ?_⟩
  apply staysBelow_of_no_dots
  intro inside
  exact none (inside.trans (List.takeWhile_prefix _).isInfix)

/-! ### Extensions -/

/-- The text behind the last place of a byte. -/
def afterLast (c : UInt8) : Bytes → Option Bytes
  | [] => none
  | b :: rest =>
      match afterLast c rest with
      | some text => some text
      | none => if b = c then some rest else none

/-- The last component of a path. -/
def baseName (path : Bytes) : Bytes := (afterLast '/'.toUInt8 path).getD path

/-- The text behind the last dot of the last component. -/
def extension (path : Bytes) : Bytes := (afterLast '.'.toUInt8 (baseName path)).getD []

/-- There is nothing behind the last occurrence of what does not occur. -/
theorem afterLast_eq_none_iff {c : UInt8} {s : Bytes} : afterLast c s = none ↔ c ∉ s := by
  induction s with
  | nil => simp [afterLast]
  | cons b rest ih =>
      rw [afterLast]
      cases later : afterLast c rest with
      | some text =>
          have member : c ∈ rest := by
            by_contra absent
            simp [ih.mpr absent] at later
          simp [member]
      | none =>
          have absent := ih.mp later
          simp [absent, eq_comm]

/-- What has a last occurrence occurs. -/
theorem mem_of_afterLast {c : UInt8} {s text : Bytes} (found : afterLast c s = some text) : c ∈ s := by
  by_contra absent
  rw [afterLast_eq_none_iff.mpr absent] at found
  cases found

/-- The last place in a text of two parts is in the second, unless the byte is not there. -/
theorem afterLast_append (c : UInt8) (front back : Bytes) :
    afterLast c (front ++ back) = (afterLast c back).or ((afterLast c front).map (· ++ back)) := by
  induction front with
  | nil => simp [afterLast]
  | cons b rest ih =>
      rw [List.cons_append, afterLast, ih, afterLast]
      cases afterLast c back with
      | some text => rfl
      | none =>
          cases afterLast c rest with
          | some text => rfl
          | none =>
              simp only [Option.map_none, Option.or_none, Option.none_or]
              split <;> rfl

/-- The text behind the last place is the end of the whole, behind that byte. -/
theorem eq_of_afterLast {c : UInt8} {s text : Bytes} (found : afterLast c s = some text) :
    ∃ front, s = front ++ c :: text ∧ c ∉ text := by
  induction s with
  | nil => cases found
  | cons b rest ih =>
      rw [afterLast] at found
      cases later : afterLast c rest with
      | some text' =>
          rw [later] at found
          cases found
          obtain ⟨front, rfl, absent⟩ := ih later
          exact ⟨b :: front, rfl, absent⟩
      | none =>
          rw [later] at found
          simp only [Option.ite_none_right_eq_some, Option.some.injEq] at found
          obtain ⟨rfl, rfl⟩ := found
          exact ⟨[], rfl, afterLast_eq_none_iff.mp later⟩

/-- The extension of a path cut by a byte that is no slash and no dot: that of what follows, when it has a
    slash or a dot, and else the last component in front of the cut goes on. -/
theorem extension_append_cons {c : UInt8} (slash : c ≠ '/'.toUInt8) (dot : c ≠ '.'.toUInt8)
    (front back : Bytes) :
    extension (front ++ c :: back) =
      if '/'.toUInt8 ∈ back ∨ '.'.toUInt8 ∈ back then extension back
      else ((afterLast '.'.toUInt8 (baseName front)).map (· ++ c :: back)).getD [] := by
  have skip {d : UInt8} (other : c ≠ d) : afterLast d (c :: back) = afterLast d back := by
    rw [afterLast]
    cases afterLast d back <;> simp [other]
  have base : baseName (front ++ c :: back) =
      (afterLast '/'.toUInt8 back).getD (baseName front ++ c :: back) := by
    rw [baseName, afterLast_append, skip slash]
    cases afterLast '/'.toUInt8 back with
    | some text => rfl
    | none => cases found : afterLast '/'.toUInt8 front <;> simp [baseName, found]
  rw [extension, base]
  cases found : afterLast '/'.toUInt8 back with
  | some text =>
      have own : extension back = (afterLast '.'.toUInt8 text).getD [] := by
        rw [extension, baseName, found]
        rfl
      rw [if_pos (Or.inl (mem_of_afterLast found)), own]
      rfl
  | none =>
      have noSlash := afterLast_eq_none_iff.mp found
      rw [Option.getD_none, afterLast_append, skip dot]
      cases last : afterLast '.'.toUInt8 back with
      | some text =>
          have own : extension back = text := by
            rw [extension, baseName, found, Option.getD_none, last]
            rfl
          rw [if_pos (Or.inr (mem_of_afterLast last)), own]
          rfl
      | none =>
          have noDot := afterLast_eq_none_iff.mp last
          rw [if_neg (by simp [noSlash, noDot]), Option.none_or]

end Paths
