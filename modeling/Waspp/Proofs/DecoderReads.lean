/-
Module: Waspp.Proofs.DecoderReads
Layer: Proofs
Purpose: Which characters `percent_decode` looks at, and what it makes of them.  Behind a percent sign it
  asks for one character more and reads two, so a text that ends in a percent sign and one digit is read
  beyond its end.
Imports: Waspp.Proofs.UrlDecoders
Trusted boundary: none (fully proved)
Main exports: percentDecodeReads, Decoded, ReadsInside, CutEscape, decoder_reads_iff
Open obligations: none
-/
import Waspp.Proofs.UrlDecoders

namespace Waspp

open CString

/-- The indices of the characters that `percent_decode` examines or consumes in the text that begins at `i`.
    -/
def percentDecodeReads (i : Nat) : Bytes → List Nat
  | [] => []
  | c :: rest =>
      if c == '+'.toUInt8 then i :: percentDecodeReads (i + 1) rest
      else if c == '%'.toUInt8 then
        match rest with
        | [] => [i]
        -- The distance to the end is 2: the second character that is examined is `*end()`.
        | [first] => if isxdigit first then [i, i + 1, i + 2, i + 1] else [i, i + 1, i + 1]
        | first :: second :: rest' =>
            if isxdigit first && isxdigit second then i :: (i + 1) :: (i + 2) ::
              percentDecodeReads (i + 3) rest'
            else if isxdigit first then i :: (i + 1) :: (i + 2) ::
              percentDecodeReads (i + 1) (first :: second :: rest')
            else i :: (i + 1) :: percentDecodeReads (i + 1) (first :: second :: rest')
      else i :: percentDecodeReads (i + 1) rest

/-- An escape begins the text. -/
def StartsEscape (s : Bytes) : Prop :=
  ∃ first second rest, s = '%'.toUInt8 :: first :: second :: rest ∧ isxdigit first = true ∧
    isxdigit second = true

/-- A text and what it stands for: the byte whose digits an escape has, a blank for `+`, and every other
    character. -/
inductive Decoded : Bytes → Bytes → Prop where
  | done : Decoded [] []
  | escape {first second : UInt8} {d d' : Nat} {rest out : Bytes} (one : digitValue first = some d)
      (small : d < 16) (two : digitValue second = some d') (small' : d' < 16) (later : Decoded rest out) :
      Decoded ('%'.toUInt8 :: first :: second :: rest) (UInt8.ofNat (16 * d + d') :: out)
  | blank {rest out : Bytes} (later : Decoded rest out) : Decoded ('+'.toUInt8 :: rest) (' '.toUInt8 :: out)
  | kept {c : UInt8} {rest out : Bytes} (plus : c ≠ '+'.toUInt8) (noEscape : ¬ StartsEscape (c :: rest))
      (later : Decoded rest out) : Decoded (c :: rest) (c :: out)

/-- `percent_decode` reads inside its argument only, and returns what it stands for. -/
def ReadsInside (src : Bytes) : Prop :=
  (∀ i ∈ percentDecodeReads 0 src, i < src.length) ∧ Decoded src (percentDecode src)

/-- The text ends in a percent sign and one digit. -/
def CutEscape (src : Bytes) : Prop :=
  ∃ before digit, src = before ++ ['%'.toUInt8, digit] ∧ isxdigit digit = true

/-! ### The result

`Decoded` says what a text means escape by escape, with no positions in it.  The loop of the decoder gives
that text. -/

/-- Two digits make the byte that they denote. -/
theorem hex2char_eq {first second : UInt8} {d d' : Nat} (one : hexDigitValue first = UInt8.ofNat d)
    (two : hexDigitValue second = UInt8.ofNat d') : hex2char first second = UInt8.ofNat (16 * d + d') := by
  rw [hex2char, one, two, UInt8.ofNat_add, UInt8.ofNat_mul, UInt8.mul_comm]
  rfl

/-- The decoder gives the decoded text. -/
theorem decoded_percentDecode (src : Bytes) : Decoded src (percentDecode src) := by
  fun_induction percentDecode src with
  | case1 => exact .done
  | case2 c rest plus ih =>
      rw [eq_of_beq plus]
      exact .blank ih
  | case3 c plus percent first second rest digits ih =>
      rw [Bool.and_eq_true] at digits
      obtain ⟨-, -, -, -, -, d, small, value, digit⟩ := digit_facts digits.1
      obtain ⟨-, -, -, -, -, d', small', value', digit'⟩ := digit_facts digits.2
      rw [eq_of_beq percent, hex2char_eq digit digit']
      exact .escape value small value' small' ih
  | case4 c plus percent first second rest digits ih =>
      rw [eq_of_beq percent]
      refine .kept (by decide) ?_ ih
      rintro ⟨_, _, _, same, one, two⟩
      cases same
      simp [one, two] at digits
  | case5 c plus percent first ih =>
      rw [eq_of_beq percent]
      refine .kept (by decide) ?_ ih
      rintro ⟨_, _, _, same, -⟩
      cases same
  | case6 c plus percent =>
      rw [eq_of_beq percent]
      refine .kept (by decide) ?_ .done
      rintro ⟨_, _, _, same, -⟩
      cases same
  | case7 c rest plus percent ih =>
      refine .kept (by simpa using plus) ?_ ih
      rintro ⟨_, _, _, same, -⟩
      cases same
      simp at percent

/-! ### The reads

`reads` lists the positions that the loop looks at.  It looks past the end only behind a percent sign with
a single digit, so the texts without such an end are read inside. -/

/-- A text ends in a cut escape if it is one or its rest does. -/
theorem cutEscape_cons_iff (c : UInt8) (rest : Bytes) :
    CutEscape (c :: rest) ↔ (c = '%'.toUInt8 ∧ ∃ digit, rest = [digit] ∧ isxdigit digit = true) ∨
      CutEscape rest := by
  constructor
  · rintro ⟨before, digit, split, xdigit⟩
    cases before with
    | nil =>
        cases split
        exact Or.inl ⟨rfl, digit, rfl, xdigit⟩
    | cons b before =>
        cases split
        exact Or.inr ⟨before, digit, rfl, xdigit⟩
  · rintro (⟨rfl, digit, rfl, xdigit⟩ | ⟨before, digit, rfl, xdigit⟩)
    · exact ⟨[], digit, rfl, xdigit⟩
    · exact ⟨c :: before, digit, rfl, xdigit⟩

/-- The empty text has no escape. -/
theorem not_cutEscape_nil : ¬ CutEscape [] := by
  rintro ⟨before, digit, split, -⟩
  simp at split

/-- Another byte in front changes nothing. -/
theorem cutEscape_cons_of_ne {c : UInt8} (percent : c ≠ '%'.toUInt8) (rest : Bytes) :
    CutEscape (c :: rest) ↔ CutEscape rest := by
  rw [cutEscape_cons_iff]
  simp [percent]

/-- Nor does a percent sign with two bytes behind it. -/
theorem cutEscape_cons_of_two (c first second : UInt8) (rest : Bytes) :
    CutEscape (c :: first :: second :: rest) ↔ CutEscape (first :: second :: rest) := by
  rw [cutEscape_cons_iff]
  simp

/-- Reads within a text of `n` characters leave the others to the text `k` characters further on. -/
theorem inside_iff_of_front (front : List Nat) {later : List Nat} {i k m n : Nat}
    (within : ∀ j ∈ front, j < i + n)
    (length : n = k + m) : (∀ j ∈ front ++ later, j < i + n) ↔ ∀ j ∈ later, j < i + k + m := by
  rw [List.forall_mem_append, and_iff_right within, length, Nat.add_assoc]

/-- The scan meets the percent sign at the end, because no escape in front of it takes a percent sign along.
    -/
theorem reads_inside_iff (i : Nat) (s : Bytes) :
    (∀ j ∈ percentDecodeReads i s, j < i + s.length) ↔ ¬ CutEscape s := by
  have digit_ne {c : UInt8} (digit : isxdigit c = true) : c ≠ '%'.toUInt8 := by
    rintro rfl
    exact absurd digit (by decide)
  fun_induction percentDecodeReads i s with
  | case1 => simp [not_cutEscape_nil]
  | case2 i c rest plus ih =>
      have other : c ≠ '%'.toUInt8 := by
        rw [eq_of_beq plus]
        decide
      rw [cutEscape_cons_of_ne other]
      exact (inside_iff_of_front [i] (by simp) (Nat.add_comm ..)).trans ih
  | case3 i c plus percent => simp [cutEscape_cons_iff, not_cutEscape_nil]
  | case4 i c plus percent first digit => simp [cutEscape_cons_iff, eq_of_beq percent, digit]
  | case5 i c plus percent first digit => simp [cutEscape_cons_iff, not_cutEscape_nil, digit]
  | case6 i c plus percent first second rest digits ih =>
      rw [Bool.and_eq_true] at digits
      rw [cutEscape_cons_of_two, cutEscape_cons_of_ne (digit_ne digits.1),
        cutEscape_cons_of_ne (digit_ne digits.2)]
      exact (inside_iff_of_front [i, i + 1, i + 2] (by simp) (Nat.add_comm rest.length 3)).trans ih
  | case7 i c plus percent first second rest digits digit ih =>
      rw [cutEscape_cons_of_two]
      exact (inside_iff_of_front [i, i + 1, i + 2] (by simp) (Nat.add_comm ..)).trans ih
  | case8 i c plus percent first second rest digits digit ih =>
      rw [cutEscape_cons_of_two]
      exact (inside_iff_of_front [i, i + 1] (by simp) (Nat.add_comm ..)).trans ih
  | case9 i c rest plus percent ih =>
      rw [cutEscape_cons_of_ne (by simpa using percent)]
      exact (inside_iff_of_front [i] (by simp) (Nat.add_comm ..)).trans ih

/-- `percent_decode` reads inside its argument, and returns what it stands for, exactly when the argument
    does not end in a percent sign and one digit. -/
theorem decoder_reads_iff (src : Bytes) : ReadsInside src ↔ ¬ CutEscape src := by
  have inside := reads_inside_iff 0 src
  rw [Nat.zero_add] at inside
  rw [ReadsInside, inside]
  exact and_iff_left (decoded_percentDecode src)

/-- Of `%4` the character at index 2 is examined. -/
theorem cut_escape_reads_end : ¬ ReadsInside (bytes "%4") := by
  rintro ⟨inside, -⟩
  exact absurd (inside 2 (by decide +kernel)) (by decide)

end Waspp
