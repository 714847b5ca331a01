/-
Module: Waspp.Foundation.Search
Layer: Foundation
Purpose: What the searches say about the pieces of a text.  The searches of a `std::string` report
  positions; the lemmas here turn a position into the piece before it and the text behind it, and back:
  where a text is a piece, a match and a rest, and no match starts inside the piece (`EndsPiece`), the
  search finds the end of the piece.  That no match starts in a piece follows from its elements
  (`endsPiece_of_head`, `endsPiece_of_last`, `endsPiece_of_unique`), or is computed for a literal
  (`noStart_of_tails`).
Imports: Mathlib.Data.List.Basic, Waspp.Foundation.CString
Trusted boundary: none (fully proved)
Main exports: cut_of_findIf, no_match_of_findIf, isInfix_of_notMem, NoStart, EndsPiece, find_of_endsPiece,
  find_of_not_isInfix
Open obligations: none
-/
import Mathlib.Data.List.Basic
import Waspp.Foundation.CString

namespace CString

variable {α : Type*}

/-! ### Single elements -/

/-- Where `findIf` finds an element, the text is cut into what does not match, the element and the rest. -/
theorem cut_of_findIf {s : List α} {test : α → Bool} {start p : Nat} (found : findIf s test start = some p) :
    ∃ piece a rest, s.drop start = piece ++ a :: rest ∧ (∀ b ∈ piece, test b = false) ∧ test a = true ∧
      p = start + piece.length ∧ s[p]? = some a ∧ s.drop (p + 1) = rest := by
  obtain ⟨le, ⟨a, here, hit⟩, before⟩ := findIf_eq_some_iff.mp found
  obtain ⟨inside, value⟩ := List.getElem?_eq_some_iff.mp here
  refine ⟨(s.drop start).take (p - start), a, s.drop (p + 1), ?_, ?_, hit, ?_, here, rfl⟩
  · calc s.drop start
        = (s.drop start).take (p - start) ++ (s.drop start).drop (p - start) :=
          (List.take_append_drop _ _).symm
      _ = (s.drop start).take (p - start) ++ s.drop p := by
          rw [List.drop_drop, show start + (p - start) = p by omega]
      _ = (s.drop start).take (p - start) ++ a :: s.drop (p + 1) := by
          rw [List.drop_eq_getElem_cons inside, value]
  · intro b member
    obtain ⟨i, small, rfl⟩ := List.mem_iff_getElem.mp member
    simp only [List.length_take, List.length_drop] at small
    rw [List.getElem_take, List.getElem_drop]
    exact before (start + i) _ (by omega) (by omega) (List.getElem?_eq_getElem (by omega))
  · simp only [List.length_take, List.length_drop]
    omega

/-- Where it finds none, nothing matches. -/
theorem no_match_of_findIf {s : List α} {test : α → Bool} {start : Nat}
    (none_ : findIf s test start = none) :
    ∀ b ∈ s.drop start, test b = false := by
  intro b member
  obtain ⟨i, small, rfl⟩ := List.mem_iff_getElem.mp member
  rw [List.length_drop] at small
  rw [List.getElem_drop]
  exact findIf_eq_none_iff.mp none_ (start + i) _ (by omega) (List.getElem?_eq_getElem (by omega))

/-! ### Occurrences of a text -/

/-- An occurrence of a text without an element lies before or behind that element. -/
theorem isPrefix_of_notMem {c : α} {pat x y : List α} (absent : c ∉ pat) (occurs : pat <+: x ++ c :: y) :
    pat <+: x := by
  obtain ⟨after, cut⟩ := occurs
  rcases List.append_eq_append_iff.mp cut with ⟨more, rfl, -⟩ | ⟨more, rfl, rest⟩
  · exact List.prefix_append pat more
  · cases more with
    | nil => simp
    | cons d more =>
        obtain ⟨rfl, -⟩ := List.cons.inj rest
        exact absurd (List.mem_append_right x List.mem_cons_self) absent

/-- A pattern without the separator occurs on one of its sides. -/
theorem isInfix_of_notMem {c : α} {pat x y : List α} (absent : c ∉ pat) (occurs : pat <:+: x ++ c :: y) :
    pat <:+: x ∨ pat <:+: y := by
  obtain ⟨before, after, cut⟩ := occurs
  rw [List.append_assoc] at cut
  rcases List.append_eq_append_iff.mp cut with ⟨more, rfl, rest⟩ | ⟨more, rfl, rest⟩
  · left
    have start : pat <+: more := isPrefix_of_notMem absent ⟨after, rest⟩
    exact start.isInfix.trans (List.suffix_append before more).isInfix
  · cases more with
    | nil =>
        left
        have start : pat <+: [] := isPrefix_of_notMem absent ⟨after, rest.symm⟩
        have empty : [] <:+: x := List.nil_infix
        exact start.isInfix.trans empty
    | cons d more =>
        right
        obtain ⟨-, rfl⟩ := List.cons.inj rest
        exact ⟨more, after, by simp⟩

/-- The first occurrence of an element cuts a text in one way. -/
theorem eq_of_first {c : α} {x x' y y' : List α} (first : c ∉ x) (first' : c ∉ x')
    (same : x ++ c :: y = x' ++ c :: y') : x = x' ∧ y = y' := by
  induction x generalizing x' with
  | nil =>
      cases x' with
      | nil => exact ⟨rfl, (List.cons.inj same).2⟩
      | cons d x' =>
          obtain ⟨rfl, -⟩ := List.cons.inj same
          exact absurd List.mem_cons_self first'
  | cons b x ih =>
      cases x' with
      | nil =>
          obtain ⟨rfl, -⟩ := List.cons.inj same
          exact absurd List.mem_cons_self first
      | cons d x' =>
          obtain ⟨rfl, rest⟩ := List.cons.inj same
          obtain ⟨rfl, rfl⟩ :=
            ih (fun member => first (by simp [member])) (fun member => first' (by simp [member])) rest
          exact ⟨rfl, rfl⟩

/-- An occurrence of a text whose element is unique on both sides puts the elements on each other. -/
theorem isSuffix_of_unique {c : α} {before behind x y : List α} (left : c ∉ x) (right : c ∉ y)
    (occurs : before ++ c :: behind <:+: x ++ c :: y) : before <:+ x := by
  obtain ⟨front, after, cut⟩ := occurs
  have shape : x ++ c :: y = (front ++ before) ++ c :: (behind ++ after) := by
    rw [← cut]
    simp
  obtain ⟨rfl, -, -⟩ := (List.append_cons_inj_of_notMem left right).mp shape
  exact List.suffix_append front before

/-- An occurrence in a text of two parts begins in the first, or lies in the second. -/
theorem isInfix_append_cases {pat x y : List α} (occurs : pat <:+: x ++ y) :
    (∃ front back, x = front ++ back ∧ back ≠ [] ∧ pat <+: back ++ y) ∨ pat <:+: y := by
  obtain ⟨before, after, cut⟩ := occurs
  rw [List.append_assoc] at cut
  rcases List.append_eq_append_iff.mp cut with ⟨more, rfl, rest⟩ | ⟨more, rfl, rfl⟩
  · cases more with
    | nil =>
        have whole : pat ++ after = y := rest
        exact Or.inr (whole ▸ (List.prefix_append pat after).isInfix)
    | cons d more => exact Or.inl ⟨before, d :: more, rfl, by simp, rest ▸ List.prefix_append pat after⟩
  · exact Or.inr ⟨more, after, by simp⟩

/-! ### First occurrences -/

/-- No occurrence of `pat` starts inside `piece`, whatever comes behind it. -/
def NoStart (pat piece : List α) : Prop :=
  ∀ front back rest, piece = front ++ back → back ≠ [] → ¬ pat <+: back ++ rest

/-- A piece without the first element of the text. -/
theorem noStart_of_head {a : α} {pat piece : List α} (absent : a ∉ piece) : NoStart (a :: pat) piece := by
  intro front back rest cut nonempty occurs
  cases back with
  | nil => exact nonempty rfl
  | cons b back =>
      obtain ⟨rfl, -⟩ := List.cons_prefix_cons.mp occurs
      exact absent (by simp [cut])

/-- An occurrence of a longer text lies behind such a piece. -/
theorem isInfix_of_noStart {pat piece more y : List α} (no : NoStart pat piece)
    (occurs : pat ++ more <:+: piece ++ y) : pat ++ more <:+: y := by
  rcases isInfix_append_cases occurs with ⟨front, back, cut, nonempty, start⟩ | inside
  · exact absurd ((List.prefix_append pat more).trans start) (no front back y cut nonempty)
  · exact inside

/-- For a literal: each of its tails differs from the text at some element that both have. -/
theorem noStart_of_tails [BEq α] [LawfulBEq α] {pat piece : List α}
    (apart : (piece.tails.all fun back => back.isEmpty || !(pat.isPrefixOf back || back.isPrefixOf pat)) =
      true) :
    NoStart pat piece := by
  intro front back rest cut nonempty start
  have member : back ∈ piece.tails := (List.mem_tails _ _).mpr (cut ▸ List.suffix_append front back)
  have here := List.all_eq_true.mp apart back member
  have either : pat <+: back ∨ back <+: pat :=
    List.prefix_or_prefix_of_prefix start (List.prefix_append back rest)
  rcases either with short | long
  · simp [List.isPrefixOf_iff_prefix.mpr short, nonempty] at here
  · simp [List.isPrefixOf_iff_prefix.mpr long, nonempty] at here

/-- Whatever follows, no occurrence of `pat` starts inside `piece` when `pat` comes right behind it. -/
def EndsPiece (pat piece : List α) : Prop :=
  ∀ front back rest, piece = front ++ back → back ≠ [] → ¬ pat <+: back ++ pat ++ rest

/-- So it is for a longer text that begins with `pat`. -/
theorem EndsPiece.append {pat piece : List α} (ends : EndsPiece pat piece) (more : List α) :
    EndsPiece (pat ++ more) piece := by
  intro front back rest cut nonempty occurs
  apply ends front back (more ++ rest) cut nonempty
  have whole : back ++ (pat ++ more) ++ rest = back ++ pat ++ (more ++ rest) := by simp
  exact whole ▸ (List.prefix_append pat more).trans occurs

/-- A piece in which the pattern never starts ends at the pattern. -/
theorem NoStart.endsPiece {pat piece : List α} (no : NoStart pat piece) : EndsPiece pat piece := by
  intro front back rest cut nonempty start
  rw [List.append_assoc] at start
  exact no front back (pat ++ rest) cut nonempty start

/-- The end of a piece. -/
theorem EndsPiece.of_append {pat piece more : List α} (ends : EndsPiece pat (piece ++ more)) :
    EndsPiece pat more := by
  intro front back rest cut
  exact ends (piece ++ front) back rest (by rw [cut, List.append_assoc])

/-- An empty piece ends at any pattern. -/
theorem endsPiece_nil (pat : List α) : EndsPiece pat [] := by
  intro front back rest cut nonempty
  exact absurd (List.append_eq_nil_iff.mp cut.symm).2 nonempty

/-- A literal in front of a piece. -/
theorem NoStart.append {pat piece more : List α} (no : NoStart pat piece) (ends : EndsPiece pat more) :
    EndsPiece pat (piece ++ more) := by
  intro front back rest cut nonempty start
  rcases List.append_eq_append_iff.mp cut with ⟨mid, rfl, rest'⟩ | ⟨mid, rfl, rfl⟩
  · exact ends mid back rest rest' nonempty start
  · by_cases empty : mid = []
    · subst empty
      exact ends [] more rest rfl nonempty start
    · rw [List.append_assoc, List.append_assoc] at start
      exact no front mid _ rfl empty start

/-- Behind a piece, an occurrence of a longer text lies where the text begins again. -/
theorem EndsPiece.isInfix_of_append {pat piece more rest : List α} (ends : EndsPiece pat piece)
    (occurs : pat ++ more <:+: piece ++ (pat ++ rest)) : pat ++ more <:+: pat ++ rest := by
  rcases isInfix_append_cases occurs with ⟨front, back, cut, nonempty, start⟩ | inside
  · rw [← List.append_assoc] at start
    exact absurd ((List.prefix_append pat more).trans start) (ends front back rest cut nonempty)
  · exact inside

/-- A piece without the first element of the text. -/
theorem endsPiece_of_head {a : α} {pat piece : List α} (absent : a ∉ piece) : EndsPiece (a :: pat) piece :=
  (noStart_of_head absent).endsPiece

/-- A piece that ends with an element that the text does not have, and does not have the text before it. -/
theorem endsPiece_of_last {c : α} {pat piece : List α} (absent : c ∉ pat) (none_ : ¬ pat <:+: piece) :
    EndsPiece pat (piece ++ [c]) := by
  intro front back rest cut nonempty occurs
  rcases List.eq_nil_or_concat back with rfl | ⟨back, d, rfl⟩
  · exact nonempty rfl
  · rw [List.concat_eq_append, ← List.append_assoc] at cut
    obtain ⟨rfl, same⟩ := List.append_inj' cut rfl
    obtain rfl := List.singleton_inj.mp same
    rw [List.concat_eq_append, List.append_assoc, List.append_assoc] at occurs
    have start : pat <+: back := isPrefix_of_notMem absent occurs
    exact none_ (start.isInfix.trans (List.suffix_append front back).isInfix)

/-- A piece without the last element of the text, where the text has it only there. -/
theorem endsPiece_of_fresh {c : α} {before piece : List α} (absent : c ∉ before) (fresh : c ∉ piece) :
    EndsPiece (before ++ [c]) piece := by
  intro front back rest cut nonempty occurs
  obtain ⟨after, whole⟩ := occurs
  have shape : before ++ c :: after = (back ++ before) ++ c :: rest := by simpa using whole
  have absent' : c ∉ back ++ before := by
    simp only [List.mem_append, not_or]
    exact ⟨fun member => fresh (cut ▸ List.mem_append_right _ member), absent⟩
  have empty : back ++ before = before := (eq_of_first absent absent' shape).1.symm
  exact nonempty (List.append_left_eq_self.mp empty)

/-- A piece that shares one element with the text, where the beginnings before it do not match. -/
theorem endsPiece_of_unique {c : α} {before x y : List α} (absent : c ∉ before) (left : c ∉ x)
    (right : c ∉ y) (differ : ¬ before <:+ x) : EndsPiece (before ++ [c]) (x ++ c :: y) := by
  intro front back rest cut nonempty occurs
  obtain ⟨after, whole⟩ := occurs
  rcases List.append_eq_append_iff.mp cut with ⟨more, rfl, rest'⟩ | ⟨more, rfl, rfl⟩
  · cases more with
    | nil =>
        -- the piece is cut right before its `c`
        subst rest'
        cases before with
        | nil => exact differ (List.nil_suffix)
        | cons b before =>
            obtain ⟨rfl, -⟩ := List.cons.inj whole
            exact absent List.mem_cons_self
    | cons d more =>
        obtain ⟨rfl, rfl⟩ := List.cons.inj rest'
        have shape : before ++ c :: after = (back ++ before) ++ c :: rest := by
          simpa using whole
        have absent' : c ∉ back ++ before := by
          simp only [List.mem_append, not_or]
          exact ⟨fun member => right (List.mem_append_right _ member), absent⟩
        have empty : back ++ before = before := (eq_of_first absent absent' shape).1.symm
        exact nonempty (List.append_left_eq_self.mp empty)
  · have shape : before ++ c :: after = more ++ c :: (y ++ before ++ c :: rest) := by
      simpa using whole
    have absent' : c ∉ more := fun member => left (List.mem_append_right _ member)
    obtain ⟨rfl, -⟩ := eq_of_first absent absent' shape
    exact differ (List.suffix_append _ _)

variable [BEq α] [LawfulBEq α]

/-- A search from the start of a piece that the text ends finds the end of the piece. -/
theorem find_of_endsPiece {s pat piece rest : List α} {start : Nat} (inside : start ≤ s.length)
    (cut : s.drop start = piece ++ pat ++ rest) (ends : EndsPiece pat piece) :
    find s pat start = some (start + piece.length) := by
  have length := congrArg List.length cut
  simp only [List.length_drop, List.length_append] at length
  refine find_eq_some_iff.mpr ⟨by omega, by omega, ?_, ?_⟩
  · rw [← List.drop_drop, cut, List.append_assoc, List.drop_left]
    exact List.prefix_append pat rest
  · intro q le lt occurs
    have shape : s.drop q = piece.drop (q - start) ++ pat ++ rest := by
      rw [show q = start + (q - start) by omega, ← List.drop_drop, cut, List.append_assoc,
        List.drop_append_of_le_length (by omega), List.append_assoc, Nat.add_sub_cancel_left]
    rw [shape] at occurs
    apply ends (piece.take (q - start)) (piece.drop (q - start)) rest (List.take_append_drop _ _).symm ?_
      occurs
    intro empty
    have none_left := congrArg List.length empty
    simp only [List.length_drop, List.length_nil] at none_left
    omega

/-- A search fails where the text does not occur from the start on. -/
theorem find_of_not_isInfix {s pat : List α} {start : Nat} (none_ : ¬ pat <:+: s.drop start) :
    find s pat start = none := by
  apply find_eq_none_iff.mpr
  intro q le bound occurs
  apply none_
  rw [show q = start + (q - start) by omega, ← List.drop_drop] at occurs
  exact occurs.isInfix.trans (List.drop_suffix _ _).isInfix

end CString
