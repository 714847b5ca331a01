/-
Module: Waspp.Proofs.UrlDecoders
Layer: Proofs
Purpose: The two decoders of a url.  `percent_decode_and_validate` reads the two bytes behind a percent sign
  as a stream does, and `percent_decode` asks for two digits.  Where digits follow every percent sign both
  give the same text; a blank, a sign or one digit in front of another byte makes the first accept what the
  second keeps.
Imports: Waspp.Proofs.PercentCoding
Trusted boundary: none (fully proved)
Main exports: escapes, TwoDigits, WellEscaped, StartsNumber, validate_of_wellEscaped, decoders_agree_iff
Open obligations: none
-/
import Waspp.Proofs.PercentCoding

namespace Waspp

open CString

/-- What follows each percent sign that a scan from the left meets: the next two bytes, which the scan skips,
    or what is left of the text. -/
def escapes : Bytes → List Bytes
  | [] => []
  | c :: rest =>
      if c == '%'.toUInt8 then
        match rest with
        | first :: second :: rest' => [first, second] :: escapes rest'
        | [first] => [[first]]
        | [] => [[]]
      else escapes rest

/-- Two hexadecimal digits. -/
def TwoDigits : Bytes → Bool
  | [first, second] => isxdigit first && isxdigit second
  | _ => false

/-- Two hexadecimal digits follow every percent sign. -/
def WellEscaped (s : Bytes) : Prop := ∀ escape ∈ escapes s, TwoDigits escape = true

/-- Two bytes in which a stream finds a hexadecimal number: a digit, but for the 0 of `0x`, and any byte, or
    a blank or a sign and a digit. -/
def StartsNumber : Bytes → Bool
  | [first, second] =>
      (isxdigit first && !(first == '0'.toUInt8 && (second == 'x'.toUInt8 || second == 'X'.toUInt8))) ||
        ((isspace first || first == '+'.toUInt8 || first == '-'.toUInt8) && isxdigit second)
  | _ => false

/-- `percent_decode_and_validate` returns true exactly on well-formed escapes, and then gives what
    `percent_decode` gives. -/
def DecodersAgree (s : Bytes) : Prop :=
  ((percentDecodeAndValidate s).isSome = true ↔ WellEscaped s) ∧
    ∀ out, percentDecodeAndValidate s = some out → out = percentDecode s

/-! ### Two bytes as a stream

An optional sign, an optional `0x` and digits: two bytes leave few ways of reading a number, and each of them
is a case of its own. -/

/-- A digit is no blank, no sign and no `x`, and `hex2char` gives it the value that a stream gives it. -/
theorem digit_facts {c : UInt8} (digit : isxdigit c = true) :
    isspace c = false ∧ c ≠ 45 ∧ c ≠ 43 ∧ c ≠ 120 ∧ c ≠ 88 ∧
      ∃ d < 16, digitValue c = some d ∧ hexDigitValue c = UInt8.ofNat d := by
  have all : ∀ c : UInt8, isxdigit c = true → isspace c = false ∧ c ≠ 45 ∧ c ≠ 43 ∧ c ≠ 120 ∧ c ≠ 88 ∧
      ∃ d < 16, digitValue c = some d ∧ hexDigitValue c = UInt8.ofNat d := forall_byte (by decide +kernel)
  exact all c digit

/-- A blank is no digit and no sign. -/
theorem blank_facts {c : UInt8} (blank : isspace c = true) : isxdigit c = false ∧ c ≠ 45 ∧ c ≠ 43 := by
  have all : ∀ c : UInt8, isspace c = true → isxdigit c = false ∧ c ≠ 45 ∧ c ≠ 43 :=
    forall_byte (by decide +kernel)
  exact all c blank

/-- What a stream does behind blanks and a sign. -/
def readMagnitude (negative : Bool) (s : Bytes) : Option Int :=
  let digits :=
    match s with
    | 48 :: 120 :: rest => rest
    | 48 :: 88 :: rest => rest
    | rest => rest
  match digits with
  | c :: _ =>
      if isxdigit c then
        let value : Int := scanDigits 16 0 digits
        some (if negative then -value else value)
      else none
  | [] => none

/-- Without a blank or a sign the digits are read. -/
theorem streamHex_unsigned {first : UInt8} (blank : isspace first = false) (minus : first ≠ 45)
    (plus : first ≠ 43)
    (rest : Bytes) : streamHex (first :: rest) = readMagnitude false (first :: rest) := by
  unfold streamHex
  rw [List.dropWhile_cons_of_neg (by simp [blank])]
  split
  · rename_i same
    split at same
    · rename_i eq
      exact absurd (List.cons.inj eq).1 minus
    · rename_i eq
      exact absurd (List.cons.inj eq).1 plus
    · cases same
      rfl

/-- What a stream makes of a text, by its first byte. -/
inductive HexStream (first : UInt8) (rest : Bytes) : Option Int → Prop where
  | blank (space : isspace first = true) : HexStream first rest (streamHex rest)
  | minus (sign : first = 45) : HexStream first rest (readMagnitude true rest)
  | plus (sign : first = 43) : HexStream first rest (readMagnitude false rest)
  | unsigned (noBlank : isspace first = false) (noMinus : first ≠ 45) (noPlus : first ≠ 43) :
      HexStream first rest (readMagnitude false (first :: rest))

/-- What two bytes give. -/
theorem hexStream (first : UInt8) (rest : Bytes) : HexStream first rest (streamHex (first :: rest)) := by
  cases blank : isspace first with
  | true =>
      have skipped : streamHex (first :: rest) = streamHex rest := by
        unfold streamHex
        rw [List.dropWhile_cons_of_pos blank]
      rw [skipped]
      exact .blank blank
  | false =>
      by_cases minus : first = 45
      · subst minus
        exact .minus rfl
      · by_cases plus : first = 43
        · subst plus
          exact .plus rfl
        · rw [streamHex_unsigned blank minus plus]
          exact .unsigned blank minus plus

/-- What one byte gives. -/
theorem readMagnitude_single_eq (negative : Bool) (c : UInt8) :
    readMagnitude negative [c] =
      if isxdigit c then some (if negative then -(scanDigits 16 0 [c] : Int) else scanDigits 16 0
        [c]) else none := by
  unfold readMagnitude
  split
  · rename_i cut
    cases (List.cons.inj cut).2
  · rename_i cut
    cases (List.cons.inj cut).2
  · rfl

/-- A single byte gives a number when it is a digit. -/
theorem readMagnitude_single (negative : Bool) (c : UInt8) :
    (readMagnitude negative [c]).isSome = isxdigit c := by
  rw [readMagnitude_single_eq]
  cases isxdigit c <;> rfl

/-- Two bytes without a blank or a sign in front, which are not `0x`. -/
theorem readMagnitude_pair (negative : Bool) {first second : UInt8}
    (noPrefix : ¬ (first = 48 ∧ (second = 120 ∨ second = 88))) :
    readMagnitude negative [first, second] =
      if isxdigit first then
        some (if negative then -(scanDigits 16 0 [first, second] : Int) else scanDigits 16 0 [first, second])
      else none := by
  unfold readMagnitude
  split
  · rename_i cut
    obtain ⟨rfl, same⟩ := List.cons.inj cut
    exact absurd ⟨rfl, Or.inl (List.cons.inj same).1⟩ noPrefix
  · rename_i cut
    obtain ⟨rfl, same⟩ := List.cons.inj cut
    exact absurd ⟨rfl, Or.inr (List.cons.inj same).1⟩ noPrefix
  · rfl

theorem streamHex_single (c : UInt8) : (streamHex [c]).isSome = isxdigit c := by
  have stream := hexStream c []
  generalize streamHex [c] = found at stream
  cases stream with
  | blank space =>
      rw [(blank_facts space).1]
      rfl
  | minus sign =>
      subst sign
      decide
  | plus sign =>
      subst sign
      decide
  | unsigned => exact readMagnitude_single false c

/-- A stream finds a number in two bytes exactly when they start one. -/
theorem streamHex_isSome (first second : UInt8) :
    (streamHex [first, second]).isSome = StartsNumber [first, second] := by
  have stream := hexStream first [second]
  generalize streamHex [first, second] = found at stream
  simp only [StartsNumber]
  cases stream with
  | blank space =>
      rw [streamHex_single, (blank_facts space).1, space]
      simp
  | minus sign =>
      subst sign
      rw [readMagnitude_single]
      have minus : (45 == '-'.toUInt8) = true ∧ isxdigit 45 = false := by decide
      simp [minus]
  | plus sign =>
      subst sign
      rw [readMagnitude_single]
      have plus : (43 == '+'.toUInt8) = true ∧ isxdigit 43 = false := by decide
      simp [plus]
  | unsigned noBlank noMinus noPlus =>
      have noSign : (first == '+'.toUInt8) = false ∧ (first == '-'.toUInt8) = false :=
        ⟨beq_eq_false_iff_ne.mpr noPlus, beq_eq_false_iff_ne.mpr noMinus⟩
      rw [noBlank, noSign.1, noSign.2]
      by_cases hexPrefix : first = 48 ∧ (second = 120 ∨ second = 88)
      · obtain ⟨rfl, rfl | rfl⟩ := hexPrefix
        · decide
        · decide
      · rw [readMagnitude_pair false hexPrefix]
        have noPrefix : (first == '0'.toUInt8 && (second == 'x'.toUInt8 || second == 'X'.toUInt8)) =
            false := by
          rw [Bool.eq_false_iff]
          intro both
          simp only [Bool.and_eq_true, beq_iff_eq, Bool.or_eq_true] at both
          exact hexPrefix both
        rw [noPrefix]
        split <;> simp_all

/-- Of two digits a stream makes the byte that `hex2char` makes. -/
theorem streamHex_digits {first second : UInt8} (one : isxdigit first = true)
    (two : isxdigit second = true) :
    ∃ value, streamHex [first, second] = some value ∧ UInt8.ofInt value = hex2char first second := by
  obtain ⟨noBlank, minus, plus, -, -, d, small, value, digit⟩ := digit_facts one
  obtain ⟨-, -, -, noX, noX', d', small', value', digit'⟩ := digit_facts two
  have noPrefix : ¬ (first = 48 ∧ (second = 120 ∨ second = 88)) := fun both => both.2.elim noX noX'
  have scanned : scanDigits 16 0 [first, second] = d * 16 + d' := by
    simp [scanDigits, value, value', small, small']
  refine ⟨(d * 16 + d' : Nat), ?_, ?_⟩
  · rw [streamHex_unsigned noBlank minus plus, readMagnitude_pair false noPrefix, if_pos one, scanned]
    rfl
  · have low : ((d * 16 + d' : Nat) % 2 ^ 8 : Int).toNat = (d * 16 + d') % 2 ^ 8 := by omega
    rw [hex2char, digit, digit', UInt8.ofInt, low, UInt8.ofNat_mod_size, UInt8.ofNat_add, UInt8.ofNat_mul]
    rfl

/-- A scan stops at a byte that is no digit. -/
theorem scanDigits_nondigit {c : UInt8} (only : isxdigit c = false) (acc : Nat) :
    scanDigits 16 acc [c] = acc := by
  have all : ∀ c : UInt8, isxdigit c = false → digitValue c = none ∨ ∃ d, digitValue c = some d ∧ ¬ d < 16 :=
    forall_byte (by decide +kernel)
  obtain none_ | ⟨d, some_, large⟩ := all c only
  · simp [scanDigits, none_]
  · simp [scanDigits, some_, large]

/-- One digit makes a number below 16. -/
theorem readMagnitude_small {negative : Bool} {c : UInt8} {value : Int}
    (read : readMagnitude negative [c] = some value) :
    ∃ d < 16, value = (d : Nat) ∨ value = -(d : Nat) := by
  have digit : isxdigit c = true := by rw [← readMagnitude_single negative, read]; rfl
  obtain ⟨-, -, -, -, -, d, small, digitValue, -⟩ := digit_facts digit
  have scanned : scanDigits 16 0 [c] = d := by simp [scanDigits, digitValue, small]
  refine ⟨d, small, ?_⟩
  rw [readMagnitude_single_eq, if_pos digit, scanned] at read
  cases Option.some.inj read
  cases negative
  · exact Or.inl rfl
  · exact Or.inr rfl

/-- The number is below 16, with either sign. -/
theorem streamHex_single_small {c : UInt8} {value : Int} (read : streamHex [c] = some value) :
    ∃ d < 16, value = (d : Nat) ∨ value = -(d : Nat) := by
  have digit : isxdigit c = true := by rw [← streamHex_single, read]; rfl
  obtain ⟨blank, minus, plus, -⟩ := digit_facts digit
  rw [streamHex_unsigned blank minus plus] at read
  exact readMagnitude_small read

/-- Of two bytes that are not both digits a stream makes a number below 16, with a sign or without. -/
theorem streamHex_small {first second : UInt8} {value : Int} (read : streamHex [first, second] = some value)
    (digits : (isxdigit first && isxdigit second) = false) :
    ∃ d < 16, value = (d : Nat) ∨ value = -(d : Nat) := by
  have starts : StartsNumber [first, second] = true := by rw [← streamHex_isSome, read]; rfl
  have stream := hexStream first [second]
  rw [read] at stream
  generalize found : some value = number at stream
  cases stream with
  | blank => exact streamHex_single_small found.symm
  | minus => exact readMagnitude_small found.symm
  | plus => exact readMagnitude_small found.symm
  | unsigned noBlank noMinus noPlus =>
      have noSign : (first == '+'.toUInt8) = false ∧ (first == '-'.toUInt8) = false :=
        ⟨beq_eq_false_iff_ne.mpr noPlus, beq_eq_false_iff_ne.mpr noMinus⟩
      simp only [StartsNumber, noBlank, noSign.1, noSign.2, Bool.or_self, Bool.false_and, Bool.or_false,
        Bool.and_eq_true, Bool.not_eq_true'] at starts
      obtain ⟨digit, noPrefix⟩ := starts
      have only : isxdigit second = false := by simpa [digit] using digits
      obtain ⟨-, -, -, -, -, d, small, value', -⟩ := digit_facts digit
      have noHexPrefix : ¬ (first = 48 ∧ (second = 120 ∨ second = 88)) := by
        rintro ⟨rfl, rfl | rfl⟩
        · exact absurd noPrefix (by decide)
        · exact absurd noPrefix (by decide)
      have scanned : scanDigits 16 0 [first, second] = d := by
        have ends := scanDigits_nondigit only d
        simpa [scanDigits, value', small] using ends
      rw [readMagnitude_pair false noHexPrefix, if_pos digit, scanned] at found
      exact ⟨d, small, Or.inl (Option.some.inj found)⟩

/-! ### Both decoders

Escape by escape: where two digits follow the percent sign both decoders give their byte.  Elsewhere one
may accept what the other keeps. -/

/-- An escape that is read gives its byte. -/
theorem validate_number {first second : UInt8} {value : Int} (read : streamHex [first, second] = some value)
    (rest : Bytes) :
    percentDecodeAndValidate ('%'.toUInt8 :: first :: second :: rest) =
      (percentDecodeAndValidate rest).map (UInt8.ofInt value :: ·) := by
  rw [percentDecodeAndValidate, if_pos (by decide), read]
  rfl

/-- A plus sign gives a blank. -/
theorem validate_plus (rest : Bytes) :
    percentDecodeAndValidate ('+'.toUInt8 :: rest) =
      (percentDecodeAndValidate rest).map (' '.toUInt8 :: ·) := by
  rw [percentDecodeAndValidate.eq_def]
  rfl

/-- Any other byte is kept, but for the percent sign. -/
theorem validate_cons {c : UInt8} (plus : c ≠ '+'.toUInt8) (percent : c ≠ '%'.toUInt8) (rest : Bytes) :
    percentDecodeAndValidate (c :: rest) = (percentDecodeAndValidate rest).map (c :: ·) := by
  rw [percentDecodeAndValidate.eq_def]
  simp [plus, percent]

/-- An escape is the two bytes behind a percent sign. -/
theorem escapes_percent (first second : UInt8) (rest : Bytes) :
    escapes ('%'.toUInt8 :: first :: second :: rest) = [first, second] :: escapes rest := by
  rw [escapes, if_pos (by decide)]

/-- Another byte begins no escape. -/
theorem escapes_cons {c : UInt8} (percent : (c == '%'.toUInt8) = false) (rest : Bytes) :
    escapes (c :: rest) = escapes rest := by
  rw [escapes.eq_def]
  simp [percent]

/-- Fewer than two bytes behind a percent sign are no number. -/
theorem cut_escape {rest : Bytes} (short : ∀ first second more, rest = first :: second :: more → False) :
    ∃ escape ∈ escapes ('%'.toUInt8 :: rest), StartsNumber escape = false := by
  match rest with
  | [] => exact ⟨[], by decide, rfl⟩
  | [first] => exact ⟨[first], by simp [escapes], rfl⟩
  | first :: second :: rest => exact (short first second rest rfl).elim

/-- `percent_decode_and_validate` returns true exactly when a number starts behind every percent sign. -/
theorem validate_isSome_iff (s : Bytes) :
    (percentDecodeAndValidate s).isSome = true ↔ ∀ escape ∈ escapes s, StartsNumber escape = true := by
  fun_induction percentDecodeAndValidate s with
  | case1 => simp [escapes]
  | case2 c percent first second rest value read ih =>
      have starts : StartsNumber [first, second] = true := by rw [← streamHex_isSome, read]; rfl
      rw [eq_of_beq percent, escapes_percent, List.forall_mem_cons]
      simp [starts, ih]
  | case3 c percent first second rest read =>
      have starts : StartsNumber [first, second] = false := by rw [← streamHex_isSome, read]; rfl
      rw [eq_of_beq percent, escapes_percent, List.forall_mem_cons]
      simp [starts]
  | case4 c rest percent short =>
      obtain ⟨escape, member, starts⟩ := cut_escape short
      rw [← eq_of_beq percent] at member
      refine iff_of_false (by simp) fun all => ?_
      simp [all escape member] at starts
  | case5 c rest percent plus ih =>
      rw [escapes_cons (by simpa using percent), ← ih]
      simp
  | case6 c rest percent plus ih =>
      rw [escapes_cons (by simpa using percent), ← ih]
      simp

/-- Two digits are a number. -/
theorem startsNumber_of_twoDigits {escape : Bytes} (digits : TwoDigits escape = true) :
    StartsNumber escape = true := by
  match escape with
  | [first, second] =>
      simp only [TwoDigits, Bool.and_eq_true] at digits
      obtain ⟨value, read, -⟩ := streamHex_digits digits.1 digits.2
      rw [← streamHex_isSome, read]
      rfl

/-- On well-formed escapes both decoders give the same text. -/
theorem validate_of_wellEscaped {s : Bytes} (well : WellEscaped s) :
    percentDecodeAndValidate s = some (percentDecode s) := by
  fun_induction percentDecodeAndValidate s with
  | case1 => rfl
  | case2 c percent first second rest value read ih =>
      rw [eq_of_beq percent] at well ⊢
      rw [WellEscaped, escapes_percent, List.forall_mem_cons] at well
      have digits : (isxdigit first && isxdigit second) = true := well.1
      obtain ⟨value', read', same⟩ := streamHex_digits (Bool.and_eq_true_iff.mp digits).1
        (Bool.and_eq_true_iff.mp digits).2
      cases read.symm.trans read'
      rw [ih well.2, percentDecode_digits digits, same]
      rfl
  | case3 c percent first second rest read =>
      rw [eq_of_beq percent, WellEscaped, escapes_percent, List.forall_mem_cons] at well
      have starts := startsNumber_of_twoDigits well.1
      rw [← streamHex_isSome, read] at starts
      cases starts
  | case4 c rest percent short =>
      obtain ⟨escape, member, starts⟩ := cut_escape short
      rw [← eq_of_beq percent] at member
      simp [startsNumber_of_twoDigits (well escape member)] at starts
  | case5 c rest percent plus ih =>
      rw [WellEscaped, escapes_cons (by simpa using percent)] at well
      rw [ih well, eq_of_beq plus, percentDecode_plus]
      rfl
  | case6 c rest percent plus ih =>
      rw [WellEscaped, escapes_cons (by simpa using percent)] at well
      rw [ih well, percentDecode_cons (by simpa using plus) (by simpa using percent)]
      rfl

/-- The decoders agree exactly when two digits follow every percent sign, or no number starts behind one of
    them. -/
theorem decoders_agree_iff (s : Bytes) :
    DecodersAgree s ↔ WellEscaped s ∨ ∃ escape ∈ escapes s, StartsNumber escape = false := by
  constructor
  · rintro ⟨returns, -⟩
    by_cases well : WellEscaped s
    · exact Or.inl well
    · rw [← returns, validate_isSome_iff] at well
      push Not at well
      obtain ⟨escape, member, starts⟩ := well
      exact Or.inr ⟨escape, member, by simpa using starts⟩
  · rintro (well | ⟨escape, member, starts⟩)
    · have decoded := validate_of_wellEscaped well
      refine ⟨iff_of_true (by rw [decoded]; rfl) well, fun out returned => ?_⟩
      exact Option.some.inj (returned.symm.trans decoded)
    · have refused : ¬ (percentDecodeAndValidate s).isSome = true := by
        rw [validate_isSome_iff]
        intro all
        simp [all escape member] at starts
      refine ⟨iff_of_false refused fun well => ?_, fun out returned => ?_⟩
      · simp [startsNumber_of_twoDigits (well escape member)] at starts
      · exact absurd (by rw [returned]; rfl) refused

/-- `%4G` is accepted as the byte 4 by one and kept by the other, and `%-1` is a byte 255. -/
theorem half_escape_accepted :
    ¬ WellEscaped (bytes "/%4G") ∧ percentDecodeAndValidate (bytes "/%4G") = some (bytes "/" ++ [4]) ∧
      percentDecode (bytes "/%4G") = bytes "/%4G" ∧
        percentDecodeAndValidate (bytes "/%-1") = some (bytes "/" ++ [255]) ∧
      ¬ DecodersAgree (bytes "/%4G") := by
  have accepted : percentDecodeAndValidate (bytes "/%4G") = some (bytes "/" ++ [4]) := by decide +kernel
  have kept : percentDecode (bytes "/%4G") = bytes "/%4G" := by decide +kernel
  refine ⟨?_, accepted, kept, by decide +kernel, fun agree => ?_⟩
  · intro well
    exact absurd (well (bytes "4G") (by decide)) (by decide)
  · exact absurd ((agree.2 _ accepted).trans kept) (by decide)

end Waspp
