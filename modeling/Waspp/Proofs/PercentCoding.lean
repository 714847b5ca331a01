/-
Module: Waspp.Proofs.PercentCoding
Layer: Proofs
Purpose: Percent coding as the session cookie and the parameters use it: the coded text consists of
  unreserved bytes and upper-case escapes, and decoding it gives the text back.
Imports: Waspp.Model.Request, Waspp.Model.Utility, Waspp.Foundation.Framing
Trusted boundary: none (fully proved)
Main exports: mem_percentEncode, plainText_percentEncode, percentDecode_percentEncode, CodedText,
  percent_coding_law, writeParams
Open obligations: none
-/
import Waspp.Model.Request
import Waspp.Model.Utility
import Waspp.Foundation.Framing

namespace Waspp

open CString Framing

/-- A byte is coded in two digits that decode to it. -/
theorem char2hex_digits (c : UInt8) :
    ∃ first second, char2hex c = [first, second] ∧ isxdigit first = true ∧ isxdigit second = true ∧
      isUnreserved first = true ∧ isUnreserved second = true ∧ hex2char first second = c := by
  refine ⟨_, _, rfl, ?_⟩
  revert c
  exact forall_byte (by decide +kernel)

/-- A coded text consists of the text's own unreserved bytes, percent signs and hexadecimal digits. -/
theorem mem_percentEncode_cases {text : Bytes} {b : UInt8} (member : b ∈ percentEncode text) :
    (b ∈ text ∧ isUnreserved b = true) ∨ b = '%'.toUInt8 ∨ (isxdigit b = true ∧ isUnreserved b = true) := by
  induction text with
  | nil => cases member
  | cons c rest ih =>
      have later (member : b ∈ percentEncode rest) : (b ∈ c :: rest ∧ isUnreserved b = true) ∨
          b = '%'.toUInt8 ∨ (isxdigit b = true ∧ isUnreserved b = true) := by
        rcases ih member with ⟨inside, unreserved⟩ | other
        · exact Or.inl ⟨List.mem_cons_of_mem _ inside, unreserved⟩
        · exact Or.inr other
      rw [percentEncode] at member
      split at member
      · rcases List.mem_append.mp member with here | after
        · have all : ∀ b ∈ bytes "%20", b = '%'.toUInt8 ∨ (isxdigit b = true ∧ isUnreserved b = true) := by
            decide +kernel
          exact Or.inr (all b here)
        · exact later after
      · split at member
        · rename_i unreserved
          rcases List.mem_cons.mp member with rfl | after
          · exact Or.inl ⟨List.mem_cons_self, unreserved⟩
          · exact later after
        · rcases char2hex_digits c with ⟨first, second, digits, xdigit, xdigit', fine, fine', -⟩
          rw [digits] at member
          simp only [List.cons_append, List.nil_append, List.mem_cons] at member
          rcases member with rfl | rfl | rfl | after
          · exact Or.inr (Or.inl rfl)
          · exact Or.inr (Or.inr ⟨xdigit, fine⟩)
          · exact Or.inr (Or.inr ⟨xdigit', fine'⟩)
          · exact later after

/-- A coded text consists of unreserved bytes and percent signs. -/
theorem mem_percentEncode {text : Bytes} {b : UInt8} (member : b ∈ percentEncode text) :
    isUnreserved b = true ∨ b = '%'.toUInt8 := by
  rcases mem_percentEncode_cases member with ⟨-, unreserved⟩ | percent | ⟨-, unreserved⟩
  · exact Or.inl unreserved
  · exact Or.inr percent
  · exact Or.inl unreserved

/-- An unreserved byte of the text stays in the coded text. -/
theorem mem_percentEncode_of_mem {text : Bytes} {b : UInt8} (member : b ∈ text)
    (unreserved : isUnreserved b = true) :
    b ∈ percentEncode text := by
  induction text with
  | nil => cases member
  | cons c rest ih =>
      rw [percentEncode]
      rcases List.mem_cons.mp member with rfl | later
      · have visible : (b == ' '.toUInt8) = false := by
          rw [beq_eq_false_iff_ne]
          rintro rfl
          exact absurd unreserved (by decide)
        simp [visible, unreserved]
      · split
        · exact List.mem_append_right _ (ih later)
        · split
          · exact List.mem_cons_of_mem _ (ih later)
          · exact List.mem_append_right _ (ih later)

/-- Coded text has no line break. -/
theorem plainText_percentEncode (text : Bytes) : PlainText (percentEncode text) := by
  apply plainText_of_forall (p := fun b => isUnreserved b = true ∨ b = '%'.toUInt8)
    (fun b member => mem_percentEncode member)
  · decide
  · decide

/-! ### Decoding -/

/-- A plus sign is a blank. -/
theorem percentDecode_plus (rest : Bytes) :
    percentDecode ('+'.toUInt8 :: rest) = ' '.toUInt8 :: percentDecode rest := by
  rw [percentDecode.eq_def]
  simp

/-- Any other byte is kept, but for the percent sign. -/
theorem percentDecode_cons {c : UInt8} (plus : c ≠ '+'.toUInt8) (percent : c ≠ '%'.toUInt8) (rest : Bytes) :
    percentDecode (c :: rest) = c :: percentDecode rest := by
  rw [percentDecode.eq_def]
  simp [plus, percent]

/-- Two digits behind a percent sign stand for a byte. -/
theorem percentDecode_digits {first second : UInt8} (digits : (isxdigit first && isxdigit second) = true)
    (rest : Bytes) :
    percentDecode ('%'.toUInt8 :: first :: second :: rest) =
      hex2char first second :: percentDecode rest := by
  have plus : ('%'.toUInt8 == '+'.toUInt8) = false := by decide
  rw [percentDecode]
  simp [plus, digits]

/-- A percent sign is kept where two digits do not follow. -/
theorem percentDecode_kept {rest : Bytes}
    (undigited : ∀ first second more, rest = first :: second :: more →
      (isxdigit first && isxdigit second) = false) :
    percentDecode ('%'.toUInt8 :: rest) = '%'.toUInt8 :: percentDecode rest := by
  have plus : ('%'.toUInt8 == '+'.toUInt8) = false := by decide
  rw [percentDecode.eq_def]
  cases rest with
  | nil => simp [plus, percentDecode]
  | cons first rest =>
      cases rest with
      | nil => simp [plus]
      | cons second rest => simp [plus, undigited first second rest rfl]

/-- A byte that is decoded to itself and is no digit ends what a percent sign looks at. -/
theorem percentDecode_append_stop {c : UInt8} (digit : isxdigit c = false) (noPlus : c ≠ '+'.toUInt8)
    (noPercent : c ≠ '%'.toUInt8) (x y : Bytes) :
    percentDecode (x ++ c :: y) = percentDecode x ++ c :: percentDecode y := by
  fun_induction percentDecode x
  case case1 => exact percentDecode_cons noPlus noPercent y
  case case2 b rest plus ih =>
      rw [beq_iff_eq.mp plus, List.cons_append, percentDecode_plus, ih, List.cons_append]
  case case3 b plus percent first second rest digits ih =>
      rw [beq_iff_eq.mp percent, List.cons_append, List.cons_append, List.cons_append,
        percentDecode_digits digits, ih, List.cons_append]
  case case4 b plus percent first second rest digits ih =>
      rw [beq_iff_eq.mp percent, List.cons_append, percentDecode_kept ?_, ih, List.cons_append]
      intro a b more same
      cases same
      simpa using digits
  case case5 b plus percent first ih =>
      rw [beq_iff_eq.mp percent, List.cons_append, percentDecode_kept ?_, ih, List.cons_append]
      intro a b more same
      cases same
      simp [digit]
  case case6 b plus percent =>
      rw [beq_iff_eq.mp percent, List.cons_append, percentDecode_kept ?_, List.nil_append,
        percentDecode_cons noPlus noPercent]
      · rfl
      · intro a b more same
        cases same
        simp [digit]
  case case7 b rest plus percent ih =>
      rw [List.cons_append, percentDecode_cons (by simpa using plus) (by simpa using percent), ih,
        List.cons_append]

/-- Decoding undoes coding. -/
theorem percentDecode_percentEncode (text : Bytes) : percentDecode (percentEncode text) = text := by
  induction text with
  | nil => rfl
  | cons c rest ih =>
      rw [percentEncode]
      split
      · rename_i blank
        have value : hex2char '2'.toUInt8 '0'.toUInt8 = c := by
          rw [beq_iff_eq.mp blank]
          decide
        have step := @percentDecode_digits '2'.toUInt8 '0'.toUInt8 (by decide) (percentEncode rest)
        rw [value, ih] at step
        exact step
      · split
        · rename_i unreserved
          have plain {d : UInt8} (reserved : isUnreserved d = false) : c ≠ d := by
            rintro rfl
            simp [reserved] at unreserved
          rw [percentDecode_cons (plain (by decide)) (plain (by decide)), ih]
        · rcases char2hex_digits c with ⟨first, second, digits, xdigit, xdigit', -, -, value⟩
          have step := @percentDecode_digits first second (by simp [xdigit, xdigit']) (percentEncode rest)
          rw [value, ih] at step
          rw [digits]
          exact step

/-! ### The law of the coding

Decoding undoes coding, and what coding writes is text that a uri or a form may carry: unreserved bytes
and escapes in capitals. -/

/-- A digit of an escape as `char2hex` writes it. -/
def isUpperHex (c : UInt8) : Bool := isdigit c || (65 ≤ c && c ≤ 70)

/-- The texts that `percent_encode` writes: unreserved bytes, and escapes of two upper-case digits. -/
inductive CodedText : Bytes → Prop where
  | done : CodedText []
  | kept {c : UInt8} {rest : Bytes} (unreserved : isUnreserved c = true) (later : CodedText rest) :
      CodedText (c :: rest)
  | escape {first second : UInt8} {rest : Bytes} (one : isUpperHex first = true)
      (two : isUpperHex second = true)
      (later : CodedText rest) : CodedText ('%'.toUInt8 :: first :: second :: rest)

/-- The digits are in capitals. -/
theorem char2hex_upper (c : UInt8) :
    ∃ first second, char2hex c = [first, second] ∧ isUpperHex first = true ∧ isUpperHex second = true := by
  refine ⟨_, _, rfl, ?_⟩
  revert c
  exact forall_byte (by decide +kernel)

/-- What is written is coded text. -/
theorem codedText_percentEncode (s : Bytes) : CodedText (percentEncode s) := by
  induction s with
  | nil => exact .done
  | cons c rest ih =>
      rw [percentEncode]
      split
      · exact @CodedText.escape '2'.toUInt8 '0'.toUInt8 _ (by decide) (by decide) ih
      · split
        · rename_i unreserved
          exact .kept unreserved ih
        · obtain ⟨first, second, digits, one, two⟩ := char2hex_upper c
          rw [digits]
          exact .escape one two ih

/-- A byte that neither separates fields nor controls, and is ASCII. -/
def IsSafe (b : UInt8) : Prop := b ∉ bytes "+=&;" ∧ 32 ≤ b ∧ b < 127

instance (b : UInt8) : Decidable (IsSafe b) := inferInstanceAs (Decidable (_ ∧ _))

/-- Coded text has none of the bytes that separate. -/
theorem CodedText.safe {s : Bytes} (coded : CodedText s) : ∀ b ∈ s, IsSafe b := by
  have unreserved_ : ∀ b : UInt8, isUnreserved b = true → IsSafe b := forall_byte (by decide +kernel)
  have digit : ∀ b : UInt8, isUpperHex b = true → IsSafe b := forall_byte (by decide +kernel)
  have percent : IsSafe '%'.toUInt8 := by decide +kernel
  induction coded with
  | done => simp
  | kept unreserved _ ih => exact List.forall_mem_cons.mpr ⟨unreserved_ _ unreserved, ih⟩
  | escape one two _ ih =>
      simp only [List.forall_mem_cons]
      exact ⟨percent, digit _ one, digit _ two, ih⟩

/-- Decoding undoes coding, and what coding writes consists of unreserved bytes and upper-case escapes, so
    that no byte of it separates fields, controls or lies outside ASCII. -/
theorem percent_coding_law (s : Bytes) :
    percentDecode (percentEncode s) = s ∧ CodedText (percentEncode s) ∧ ∀ b ∈ percentEncode s, IsSafe b :=
  ⟨percentDecode_percentEncode s, codedText_percentEncode s, (codedText_percentEncode s).safe⟩

/-! ### Parameters in coded text -/

/-- A parameter as a client writes it: the coded name, `=` and the coded value. -/
def writeParam (nv : NameValue) : Bytes :=
  percentEncode nv.name ++ '='.toUInt8 :: percentEncode nv.value

/-- A list of parameters, with `&` between them. -/
def writeParams : List NameValue → Bytes
  | [] => []
  | [nv] => writeParam nv
  | nv :: next :: rest => writeParam nv ++ '&'.toUInt8 :: writeParams (next :: rest)

end Waspp
