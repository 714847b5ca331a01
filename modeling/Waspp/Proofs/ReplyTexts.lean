/-
Module: Waspp.Proofs.ReplyTexts
Layer: Proofs
Purpose: The reply reader and the grammar.  The lines, numbers and items that the parts of `processItem`
  take are those of the lenient dialect, and a run of the reader follows a derivation of the grammar: the
  bytes that are read as a list of replies, with nothing left, are exactly the texts of that list
  (`drain_eq_iff`).
Imports: Waspp.Proofs.ReplyGrammar
Trusted boundary: none (fully proved)
Main exports: Unbroken, unbroken_iff, lineNumber_iff, processTyped_of_item, item_of_processTyped,
  drain_eq_iff
Open obligations: none
-/
import Waspp.Proofs.ReplyGrammar

namespace Waspp.Hiredis

open CString Resumable

/-! ### Lines

A line goes up to the first CR LF, which is what the grammar says by having no CR LF in it. -/

/-- A line has no line break. -/
def Unbroken (line : Bytes) : Prop := seekNewline line = none

instance (line : Bytes) : Decidable (Unbroken line) := inferInstanceAs (Decidable (_ = _))

/-- A line break stands at the front, or none does. -/
theorem crlf_prefix_cons {c : UInt8} {s : Bytes} :
    crlf <+: c :: s ↔ c = '\r'.toUInt8 ∧ s.head? = some '\n'.toUInt8 := by
  cases s with
  | nil => simp [crlf, List.cons_prefix_cons]
  | cons d s => simp [crlf, List.cons_prefix_cons, eq_comm]

/-- The line break is found where there is one. -/
theorem unbroken_iff {line : Bytes} : Unbroken line ↔ ¬ crlf <:+: line := by
  induction line with
  | nil => simp [Unbroken, seekNewline, crlf]
  | cons c s ih =>
      rw [List.infix_cons_iff, not_or, crlf_prefix_cons, ← ih, Unbroken, Unbroken, seekNewline]
      split
      · rename_i here
        exact iff_of_false (by simp) fun none => none.1 here
      · rename_i elsewhere
        simp [elsewhere]

/-- The break behind a line without one is found. -/
theorem seekNewline_line {line : Bytes} (unbroken : Unbroken line) (rest : Bytes) :
    seekNewline (line ++ crlf ++ rest) = some line.length := by
  induction line with
  | nil => rfl
  | cons c line ih =>
      rw [Unbroken, seekNewline] at unbroken
      split at unbroken
      · cases unbroken
      · have later : seekNewline (line ++ crlf ++ rest) = some line.length :=
          ih (Option.map_eq_none_iff.mp unbroken)
        have apart : ¬ (c = '\r'.toUInt8 ∧ (line ++ crlf ++ rest).head? = some '\n'.toUInt8) := by
          cases line with
          | nil => rintro ⟨-, ⟨⟩⟩
          | cons d line => exact ‹¬ _›
        rw [List.cons_append, List.cons_append, seekNewline, if_neg apart, later]
        rfl

/-- In front of the first break there is none. -/
theorem unbroken_take {text : Bytes} {n : Nat} (found : seekNewline text = some n) :
    Unbroken (text.take n) := by
  induction text generalizing n with
  | nil => cases found
  | cons c s ih =>
      rw [seekNewline] at found
      split at found
      · cases found
        rfl
      · obtain ⟨k, later, rfl⟩ := Option.map_eq_some_iff.mp found
        rw [List.take_succ_cons, Unbroken, seekNewline, if_neg, ih later]
        · rfl
        · rintro ⟨cr, lf⟩
          apply ‹¬ _›
          refine ⟨cr, ?_⟩
          cases k with
          | zero => simp at lf
          | succ k =>
              cases s with
              | nil => simp at lf
              | cons d s => exact lf

/-- A text with a line break is a line, the line break and a rest. -/
theorem exists_line {text : Bytes} {n : Nat} (found : seekNewline text = some n) :
    ∃ line rest, text = line ++ crlf ++ rest ∧ line.length = n ∧ Unbroken line := by
  obtain ⟨split, bound⟩ := split_of_seekNewline found
  exact ⟨_, _, split, List.length_take_of_le (by omega), unbroken_take found⟩

/-! ### Numbers

`readLongLong` goes through the digits behind a sign, and what stands behind them decides what it returns. -/

/-- The number of a line. -/
def lineNumber (line : Bytes) : Option Int := readLongLong (line ++ ['\r'.toUInt8])

/-- A number is read from its line. -/
theorem readLongLong_crlf (line rest : Bytes) : readLongLong (line ++ crlf ++ rest) = lineNumber line := by
  rw [List.append_assoc]
  exact readLongLong_line line _

/-- Behind a CR nothing counts. -/
theorem lineNumber_cut (line rest : Bytes) :
    lineNumber (line ++ '\r'.toUInt8 :: rest) = lineNumber line := by
  rw [lineNumber, List.append_assoc]
  exact readLongLong_line line _

/-- Digits are read to the number they denote, as far as it fits. -/
theorem readDigits_append {digits : Bytes} (all : ∀ b ∈ digits, isdigit b = true) (mult : Int) {v : Nat}
    (fits : decimalFrom v digits < 2 ^ 63) (rest : Bytes) :
    readDigits mult v (digits ++ rest) = readDigits mult (decimalFrom v digits) rest := by
  induction digits generalizing v with
  | nil => rfl
  | cons b digits ih =>
      have digit := all b List.mem_cons_self
      have other : b ≠ '\r'.toUInt8 := ne_of_isdigit digit (by decide)
      rw [decimalFrom_cons] at fits ⊢
      have here : v * 10 + (b.toNat - 48) < 2 ^ 63 := Nat.lt_of_le_of_lt (le_decimalFrom _ _) fits
      rw [List.cons_append, readDigits, if_neg other, if_pos digit, if_pos here]
      exact ih (fun b member => all b (List.mem_cons_of_mem _ member)) fits

/-- The loop ends behind the digits. -/
theorem readDigits_cases {mult z : Int} {v : Nat} {line : Bytes} (small : v < 2 ^ 63)
    (read : readDigits mult v (line ++ ['\r'.toUInt8]) = some z) :
    ∃ digits, (∀ b ∈ digits, isdigit b = true) ∧ decimalFrom v digits < 2 ^ 63 ∧
      ((line = digits ∨ ∃ rest, line = digits ++ '\r'.toUInt8 :: rest) ∧ z = mult * decimalFrom v digits ∨
        ∃ c rest, line = digits ++ c :: rest ∧ isdigit c = false ∧ c ≠ '\r'.toUInt8 ∧ z = -1) := by
  induction line generalizing v with
  | nil =>
      simp only [List.nil_append, readDigits, if_true, Option.some.injEq] at read
      exact ⟨[], by simp, by simpa using small, Or.inl ⟨Or.inl rfl, read.symm⟩⟩
  | cons c line ih =>
      rw [List.cons_append, readDigits] at read
      split at read
      · rename_i cr
        cases read
        exact ⟨[], by simp, by simpa using small, Or.inl ⟨Or.inr ⟨line, by rw [cr]; rfl⟩, rfl⟩⟩
      · rename_i other
        split at read
        · rename_i digit
          split at read
          · rename_i fits
            rcases ih fits read with ⟨digits, all, below, ends⟩
            refine ⟨c :: digits, List.forall_mem_cons.mpr ⟨digit, all⟩, by rwa [decimalFrom_cons], ?_⟩
            rw [decimalFrom_cons]
            rcases ends with ⟨rfl | ⟨rest, rfl⟩, value⟩ | ⟨d, rest, rfl, noDigit, noReturn, value⟩
            · exact Or.inl ⟨Or.inl rfl, value⟩
            · exact Or.inl ⟨Or.inr ⟨rest, rfl⟩, value⟩
            · exact Or.inr ⟨d, rest, rfl, noDigit, noReturn, value⟩
          · cases read
        · rename_i noDigit
          cases read
          exact ⟨[], by simp, by simpa using small,
            Or.inr ⟨c, line, rfl, by simpa using noDigit, other, rfl⟩⟩

/-- A text without a sign in front does not begin with one. -/
def Signless (sign text : Bytes) : Prop :=
  sign = [] → text.head? ≠ some '+'.toUInt8 ∧ text.head? ≠ some '-'.toUInt8

/-- A sign is read, and digits behind it. -/
theorem readLongLong_sign {sign text : Bytes} {mult : Int} (signed : Sign sign mult)
    (other : Signless sign text) :
    readLongLong (sign ++ text) = readDigits mult 0 text := by
  cases signed with
  | plus => rfl
  | minus => rfl
  | none =>
      cases text with
      | nil => rfl
      | cons c text =>
          have apart := other rfl
          simp only [List.head?_cons, ne_eq, Option.some.injEq] at apart
          rw [List.nil_append, readLongLong, if_neg apart.2, if_neg apart.1]

/-- A line is a sign, or none, and the rest. -/
theorem exists_sign (line : Bytes) :
    ∃ sign mult text, Sign sign mult ∧ line = sign ++ text ∧ Signless sign text := by
  cases line with
  | nil => exact ⟨[], 1, [], .none, rfl, fun _ => by simp⟩
  | cons c line =>
      by_cases minus : c = '-'.toUInt8
      · exact ⟨['-'.toUInt8], -1, line, .minus, by rw [minus]; rfl, fun none => by cases none⟩
      · by_cases plus : c = '+'.toUInt8
        · exact ⟨['+'.toUInt8], 1, line, .plus, by rw [plus]; rfl, fun none => by cases none⟩
        · exact ⟨[], 1, c :: line, .none, rfl, fun _ => by simp [plus, minus]⟩

/-- A text without a sign has none with more behind it. -/
theorem Signless.append {sign text : Bytes} (other : Signless sign text) (some_ : sign = [] → text ≠ [])
    (rest : Bytes) :
    Signless sign (text ++ rest) := by
  intro none
  rw [List.head?_append_of_ne_nil _ (some_ none)]
  exact other none

/-- Digits are no sign. -/
theorem signless_digits {sign digits : Bytes} (all : ∀ b ∈ digits, isdigit b = true) {c : UInt8}
    {rest : Bytes} (apart : sign ++ digits = [] → c ≠ '+'.toUInt8 ∧ c ≠ '-'.toUInt8) :
    Signless sign (digits ++ c :: rest) := by
  rintro rfl
  cases digits with
  | nil => simpa using apart rfl
  | cons b digits =>
      have digit := all b List.mem_cons_self
      simpa using And.intro (ne_of_isdigit digit (c := '+'.toUInt8) (by decide))
        (ne_of_isdigit digit (c := '-'.toUInt8) (by decide))

/-- A sign leaves the amount. -/
theorem Sign.natAbs_mul {sign : Bytes} {mult : Int} (signed : Sign sign mult) (n : Nat) :
    (mult * n).natAbs = n := by
  cases signed <;> simp

/-- What a line is taken for is the number that is read of it. -/
theorem lineNumber_of_number {line : Bytes} {z : Int} (number : LineNumber line z) :
    lineNumber line = some z := by
  have crNoSign : '\r'.toUInt8 ≠ '+'.toUInt8 ∧ '\r'.toUInt8 ≠ '-'.toUInt8 := by decide
  induction number with
  | cut _ ih => rwa [lineNumber_cut]
  | @noDigits sign mult signed =>
      have other : Signless sign ['\r'.toUInt8] := fun _ => by decide
      rw [lineNumber, readLongLong_sign signed other]
      simp [readDigits]
  | numeral number fits =>
      cases number with
      | @signed sign digits mult n signed numeral =>
          rw [signed.natAbs_mul] at fits
          rw [lineNumber, List.append_assoc,
            readLongLong_sign signed (signless_digits numeral.digit fun _ => crNoSign),
            readDigits_append numeral.digit _ (by rwa [numeral.value]), numeral.value]
          rfl
  | @other sign digits rest mult c signed all fits noDigit noReturn apart =>
      rw [lineNumber, List.append_assoc, List.append_assoc, List.cons_append,
        readLongLong_sign signed (signless_digits all apart), readDigits_append all _ fits, readDigits,
        if_neg noReturn, if_neg (by simp [noDigit])]

/-- What is read as a number is a line with one. -/
theorem number_of_lineNumber {line : Bytes} {z : Int} (read : lineNumber line = some z) :
    LineNumber line z := by
  rcases exists_sign line with ⟨sign, mult, text, signed, rfl, other⟩
  have crOnly : Signless sign (text ++ ['\r'.toUInt8]) := by
    by_cases empty : text = []
    · subst empty
      exact fun _ => by decide
    · exact other.append (fun _ => empty) _
  rw [lineNumber, List.append_assoc, readLongLong_sign signed crOnly] at read
  rcases readDigits_cases (by decide) read with ⟨digits, all, fits, ends⟩
  -- A sign and digits, which may be none, and nothing else.
  have whole : LineNumber (sign ++ digits) (mult * decimalFrom 0 digits) := by
    cases digits with
    | nil => simpa using LineNumber.noDigits signed
    | cons b digits =>
        have numeral : Numeral (b :: digits) (decimalFrom 0 (b :: digits)) :=
          ⟨List.cons_ne_nil _ _, all, rfl⟩
        exact .numeral (.signed signed numeral) (by rwa [signed.natAbs_mul])
  rcases ends with ⟨rfl | ⟨rest, rfl⟩, rfl⟩ | ⟨c, rest, rfl, noDigit, noReturn, rfl⟩
  · exact whole
  · rw [← List.append_assoc]
    exact .cut whole
  · rw [← List.append_assoc]
    refine .other signed all fits noDigit noReturn fun empty => ?_
    rcases List.append_eq_nil_iff.mp empty with ⟨rfl, rfl⟩
    simpa using other rfl

/-- The number that is read of a line is the one that the lenient dialect takes it for. -/
theorem lineNumber_iff {line : Bytes} {z : Int} : lineNumber line = some z ↔ lenient.integer line z :=
  ⟨number_of_lineNumber, lineNumber_of_number⟩

/-- The lengths that are read are those of the lenient dialect. -/
theorem lineSize_iff {line : Bytes} {len : Int} :
    (lineNumber line).map wrapInt = some len ↔ lenient.size line len := by
  rw [Option.map_eq_some_iff]
  constructor
  · rintro ⟨w, read, rfl⟩
    exact ⟨w, number_of_lineNumber read, rfl⟩
  · rintro ⟨w, number, rfl⟩
    exact ⟨w, lineNumber_of_number number, rfl⟩

/-! ### Items

Each part of `processItem` takes the items of its types, and no others. -/

/-- What becomes of the stack: the object is complete, or its elements come next. -/
def place (result : RedisReply ⊕ Nat) (cur : ReadTask) (below : List ReadTask) :
    List ReadTask × Option RedisReply :=
  match result with
  | .inl obj => moveToNextTask obj cur below
  | .inr n => (.child :: { cur with elements := n, element := [] } :: below, none)

variable {allocates : Allocator}

/-- A line with its break. -/
theorem length_line (line : Bytes) : (line ++ crlf).length = line.length + 2 := by
  simp [crlf]

/-- The break of a line is found. -/
theorem seekNewline_crlf {line : Bytes} (unbroken : Unbroken line) :
    seekNewline (line ++ crlf) = some line.length := by
  have found := seekNewline_line unbroken []
  rwa [List.append_nil] at found

/-- The number of a line with its break. -/
theorem readLongLong_line_crlf (line : Bytes) : readLongLong (line ++ crlf) = lineNumber line := by
  have number := readLongLong_crlf line []
  rwa [List.append_nil] at number

/-- The second part of `processItem` takes the texts of items. -/
theorem processTyped_of_item {type : ItemType} {text : Bytes} {result : RedisReply ⊕ Nat}
    (item : Item lenient allocates type text result) {cur : ReadTask} {below : List ReadTask}
    (room : type = .array → below.length ≠ 8) :
    processTyped allocates type cur below text =
      .go (place result cur below).1 text.length (place result cur below).2 := by
  cases item with
  | error plain fits | status plain fits =>
      have unbroken := unbroken_iff.mpr plain
      simp only [processTyped, processLineItem, seekNewline_crlf unbroken, List.take_left', fits, if_true,
        length_line]
      rfl
  | integer plain number =>
      have unbroken := unbroken_iff.mpr plain
      have value := lineNumber_iff.mpr number
      simp only [processTyped, processLineItem, seekNewline_crlf unbroken, readLongLong_line_crlf, value,
        length_line]
      rfl
  | @nilString line len plain size negative =>
      have unbroken := unbroken_iff.mpr plain
      have number := lineSize_iff.mpr size
      have negative : len < 0 := negative
      simp only [processTyped, processBulkItem, seekNewline_crlf unbroken, readLongLong_line_crlf, number,
        negative, if_true, length_line]
      rfl
  | @string line str ending plain size short two fits =>
      have unbroken := unbroken_iff.mpr plain
      have number := lineSize_iff.mpr size
      have positive : ¬ (str.length : Int) < 0 := by omega
      have small : ¬ (2 : Int) ^ 31 ≤ (str.length : Int) + 2 := by omega
      have size : (line ++ crlf ++ (str ++ ending)).length = line.length + 2 + (str.length + 2) := by
        rw [List.length_append, length_line, List.length_append, show ending.length = 2 from two]
      have body : ((line ++ crlf ++ (str ++ ending)).drop (line.length + 2)).take str.length = str := by
        rw [← length_line, List.drop_left, List.take_left]
      simp only [processTyped, processBulkItem, seekNewline_line unbroken, readLongLong_crlf, number,
        positive, small, if_false, Int.toNat_natCast, size, Nat.le_refl, if_true, fits, body]
      rfl
  | nilArray plain size =>
      have unbroken := unbroken_iff.mpr plain
      have number := lineSize_iff.mpr size
      simp only [processTyped, processMultiBulkItem, room rfl, seekNewline_crlf unbroken,
        readLongLong_line_crlf, number, if_false, if_true, length_line]
      rfl
  | @noElements line elements plain size none' =>
      have unbroken := unbroken_iff.mpr plain
      have number := lineSize_iff.mpr size
      rcases none' with ⟨none', other⟩
      have not_positive : ¬ 0 < elements := by omega
      simp only [processTyped, processMultiBulkItem, room rfl, seekNewline_crlf unbroken,
        readLongLong_line_crlf, number, other, not_positive, if_false, length_line]
      rfl
  | @elements line n plain size some' fits =>
      have unbroken := unbroken_iff.mpr plain
      have number := lineSize_iff.mpr size
      have other : ¬ (n : Int) = -1 := by omega
      have positive : 0 < (n : Int) := by omega
      simp only [processTyped, processMultiBulkItem, room rfl, seekNewline_crlf unbroken,
        readLongLong_line_crlf, number,
        other, positive, if_false, if_true, Int.toNat_natCast, fits, length_line]
      rfl

/-- The text of a string item, taken off what follows its line. -/
theorem string_of_take {line rest : Bytes} {len : Int} (plain : lenient.line line)
    (number : (lineNumber line).map wrapInt = some len) (positive : 0 ≤ len) (short : len + 2 < 2 ^ 31)
    (whole : line.length + 2 + (len.toNat + 2) ≤ (line ++ crlf ++ rest).length)
    (fits : allocates (len.toNat + 1)) :
    Item lenient allocates .string ((line ++ crlf ++ rest).take (line.length + 2 + (len.toNat + 2)))
      (.inl (.string (((line ++ crlf ++ rest).drop (line.length + 2)).take len.toNat))) := by
  have same : (len.toNat : Int) = len := Int.toNat_of_nonneg positive
  rw [List.length_append, length_line] at whole
  have size : (rest.take len.toNat).length = len.toNat := List.length_take_of_le (by omega)
  have ending : ((rest.drop len.toNat).take 2).length = 2 := by
    rw [List.length_take, List.length_drop]
    omega
  have text : (line ++ crlf ++ rest).take (line.length + 2 + (len.toNat + 2)) =
      line ++ crlf ++ (rest.take len.toNat ++ (rest.drop len.toNat).take 2) := by
    rw [← length_line, List.take_length_add_append, ← List.take_add]
  have body : ((line ++ crlf ++ rest).drop (line.length + 2)).take len.toNat = rest.take len.toNat := by
    rw [← length_line, List.drop_left]
  rw [text, body]
  apply Item.string plain
  · exact lineSize_iff.mp (by rw [size, same, number])
  · omega
  · exact ending
  · rwa [size]

/-- A complete item is put where its task says. -/
theorem place_of_complete {obj : RedisReply} {n count : Nat} {cur : ReadTask} {below next : List ReadTask}
    {reply : Option RedisReply} (goes : complete obj n cur below = .go next count reply) :
    count = n ∧ place (.inl obj) cur below = (next, reply) := by
  cases goes
  exact ⟨rfl, rfl⟩

/-- What the second part of `processItem` takes is the text of an item. -/
theorem item_of_processTyped {type : ItemType} {cur : ReadTask} {below next : List ReadTask} {text : Bytes}
    {count : Nat}
    {reply : Option RedisReply} (goes : processTyped allocates type cur below text = .go next count reply) :
    (type = .array → below.length ≠ 8) ∧
      ∃ result, Item lenient allocates type (text.take count) result ∧
        place result cur below = (next, reply) := by
  cases found : seekNewline text with
  | none => cases type <;> grind [processTyped, processLineItem, processBulkItem, processMultiBulkItem]
  | some s =>
      obtain ⟨line, rest, rfl, rfl, unbroken⟩ := exists_line found
      have plain : lenient.line line := unbroken_iff.mp unbroken
      have number := readLongLong_crlf line rest
      have cut : (line ++ crlf ++ rest).take (line.length + 2) = line ++ crlf := by
        rw [← length_line, List.take_left]
      have lineText : (line ++ crlf ++ rest).take line.length = line := by
        rw [List.append_assoc, List.take_left]
      cases type with
      | error | status =>
          simp only [processTyped, processLineItem, found, lineText] at goes
          split at goes
          · obtain ⟨rfl, placed⟩ := place_of_complete goes
            refine ⟨by simp, _, ?_, placed⟩
            rw [cut]
            constructor <;> assumption
          · cases goes
      | integer =>
          simp only [processTyped, processLineItem, found, number] at goes
          split at goes
          · cases goes
          · obtain ⟨rfl, placed⟩ := place_of_complete goes
            refine ⟨by simp, _, ?_, placed⟩
            rw [cut]
            exact .integer plain (lineNumber_iff.mp ‹_›)
      | string =>
          simp only [processTyped, processBulkItem, found, number] at goes
          split at goes
          · cases goes
          · next len value =>
              split at goes
              · obtain ⟨rfl, placed⟩ := place_of_complete goes
                refine ⟨by simp, _, ?_, placed⟩
                rw [cut]
                exact .nilString plain (lineSize_iff.mp value) ‹_›
              · split at goes
                · cases goes
                · split at goes
                  · split at goes
                    · obtain ⟨rfl, placed⟩ := place_of_complete goes
                      refine ⟨by simp, _, ?_, placed⟩
                      exact string_of_take plain value (by omega) (by omega) ‹_› ‹_›
                    · cases goes
                  · cases goes
      | array =>
          simp only [processTyped, processMultiBulkItem, found, number] at goes
          split at goes
          · cases goes
          · refine ⟨fun _ => ‹_›, ?_⟩
            split at goes
            · cases goes
            · next elements value =>
                split at goes
                · obtain ⟨rfl, placed⟩ := place_of_complete goes
                  refine ⟨_, ?_, placed⟩
                  rw [cut]
                  exact .nilArray plain (lineSize_iff.mp (by rw [value, ‹elements = -1›]))
                · split at goes
                  · split at goes
                    · cases goes
                      have same : (elements.toNat : Int) = elements := Int.toNat_of_nonneg (by omega)
                      refine ⟨.inr elements.toNat, ?_, by rw [place, same]⟩
                      rw [cut]
                      exact .elements plain (lineSize_iff.mp (by rw [value, same])) (by omega) ‹_›
                    · cases goes
                  · obtain ⟨rfl, placed⟩ := place_of_complete goes
                    refine ⟨_, ?_, placed⟩
                    rw [cut]
                    exact .noElements plain (lineSize_iff.mp value) ⟨by omega, ‹_›⟩

/-! ### Every text is read

Along a derivation the reader reads one item after another; the tasks below stand for the arrays that are
open. -/

/-- A type is told by its byte. -/
theorem itemType_typeByte (type : ItemType) : itemType (typeByte type) = some type := by
  cases type <;> decide

/-- A byte tells the type that has it. -/
theorem eq_typeByte {byte : UInt8} {type : ItemType} (named : itemType byte = some type) :
    byte = typeByte type := by
  unfold itemType at named
  repeat' split at named
  all_goals cases named
  all_goals assumption

/-- Only an array has elements to come. -/
theorem type_of_elements {type : ItemType} {text : Bytes} {n : Nat}
    (item : Item lenient allocates type text (.inr n)) :
    type = .array := by
  cases item
  rfl

/-- At least one of them. -/
theorem elements_pos {text : Bytes} {n : Nat} (item : Item lenient allocates .array text (.inr n)) :
    0 < n := by
  cases item
  assumption

/-- The reader reads the type byte of the task. -/
theorem reads_type {byte : UInt8} {type : ItemType} (named : itemType byte = some type) (cur : ReadTask)
    (untyped : cur.type = none) (below : List ReadTask) :
    (recogniser allocates).Reads (cur :: below) [byte] [] ({ cur with type := some type } :: below) := by
  apply Recogniser.reads_of_step none
  simp [recogniser, processTask, untyped, processType, named]

/-- The reader reads the type byte of the root item. -/
theorem reads_root {byte : UInt8} {type : ItemType} (named : itemType byte = some type) :
    (recogniser allocates).Reads [] [byte] [] [{ ReadTask.root with type := some type }] := by
  apply Recogniser.reads_of_step none
  simp [recogniser, processTask, ReadTask.root, processType, named]

/-- The reader reads the text and comes to that stack, with the reply if it is complete. -/
def ReadsTo (allocates : Allocator) (rstack : List ReadTask) (text : Bytes)
    (left : List ReadTask × Option RedisReply) : Prop :=
  (recogniser allocates).Reads rstack text left.2.toList left.1

/-- The reader reads the item of the task. -/
theorem reads_item {type : ItemType} {text : Bytes} {result : RedisReply ⊕ Nat}
    (item : Item lenient allocates type text result)
    (cur : ReadTask) (typed : cur.type = some type) (below : List ReadTask)
    (room : type = .array → below.length ≠ 8) :
    ReadsTo allocates (cur :: below) text (place result cur below) := by
  apply Recogniser.reads_of_step
  simp only [recogniser, processItem_cons, processTask, typed]
  exact processTyped_of_item item room

/-- The next task depends on the task's index only. -/
theorem moveToNextTask_congr (cur cur' : ReadTask) (same : cur.idx = cur'.idx) (obj : RedisReply)
    (below : List ReadTask) : moveToNextTask obj cur below = moveToNextTask obj cur' below := by
  cases below with
  | nil => rfl
  | cons prv below => simp only [moveToNextTask, ReadTask.next, same]

/-- The last element completes the array. -/
theorem moveToNextTask_last {cur prv : ReadTask} {n : Nat} (last : cur.idx + 1 = n) (size : prv.elements = n)
    (obj : RedisReply) (below : List ReadTask) :
    moveToNextTask obj cur (prv :: below) = moveToNextTask (.array n (prv.element ++ [obj])) prv below := by
  rw [moveToNextTask, if_pos (by omega), size, Int.toNat_natCast]

/-- Another element goes on with the next one. -/
theorem moveToNextTask_next {cur prv : ReadTask} (more : cur.idx + 1 < prv.elements) (obj : RedisReply)
    (below : List ReadTask) : moveToNextTask obj cur (prv :: below) =
      (cur.next :: { prv with element := prv.element ++ [obj] } :: below, none) := by
  rw [moveToNextTask, if_neg (by omega)]

/-- What becomes of the stack when those were the other elements of an array. -/
def closeArray (others : List RedisReply) (prv : ReadTask) (below : List ReadTask) :
    List ReadTask × Option RedisReply :=
  moveToNextTask (.array (prv.element.length + others.length) (prv.element ++ others)) prv below

/-- An array is closed one element after the other. -/
theorem closeArray_snoc (obj : RedisReply) (others : List RedisReply) (prv : ReadTask)
    (below : List ReadTask) :
    closeArray others { prv with element := prv.element ++ [obj] } below =
      closeArray (obj :: others) prv below := by
  simp only [closeArray, List.length_append, List.length_cons, List.length_nil, List.append_assoc,
    List.cons_append, List.nil_append, Nat.zero_add, Nat.add_assoc, Nat.add_comm 1]
  exact moveToNextTask_congr { prv with element := prv.element ++ [obj] } prv rfl _ below

/-- An array that was opened is closed with its elements. -/
theorem closeArray_opened (type : Option ItemType) {elements : Int} (cur : ReadTask)
    (element : List RedisReply) (below : List ReadTask) :
    closeArray element { cur with type := type, elements := elements, element := [] } below =
      moveToNextTask (.array element.length element) cur below := by
  rw [closeArray, List.nil_append, List.length_nil, Nat.zero_add]
  exact moveToNextTask_congr { cur with type := type, elements := elements, element := [] } cur rfl _ below

/-- The task is that of the next element of an array with so many others to come. -/
structure NextElement (others : Nat) (cur prv : ReadTask) : Prop where
  untyped : cur.type = none
  idx : cur.idx = prv.element.length
  size : prv.elements = (prv.element.length + others : Nat)

/-- Behind an element the reader reads the others, when it reads them where they are the next ones. -/
theorem reads_others {rstack : List ReadTask} {cur prv : ReadTask} {below : List ReadTask}
    {text rest : Bytes} {obj : RedisReply} {others : List RedisReply} {depth : Nat}
    (here : NextElement (others.length + 1) cur prv)
    (element : ReadsTo allocates rstack text (moveToNextTask obj cur (prv :: below)))
    (texts : ReplyTexts lenient allocates depth others rest)
    (read : others ≠ [] → ∀ {next prv' : ReadTask}, NextElement others.length next prv' →
      ReadsTo allocates (next :: prv' :: below) rest (closeArray others prv' below)) :
    ReadsTo allocates rstack (text ++ rest) (closeArray (obj :: others) prv below) := by
  obtain ⟨-, idx, size⟩ := here
  cases others with
  | nil =>
      cases texts
      rw [moveToNextTask_last (n := prv.element.length + 1) (by omega) size] at element
      rwa [List.append_nil]
  | cons other others =>
      rw [List.length_cons] at *
      have more : cur.idx + 1 < prv.elements := by omega
      rw [moveToNextTask_next more] at element
      have next : NextElement (others.length + 1) cur.next { prv with element := prv.element ++ [obj] } := by
        refine ⟨rfl, ?_, ?_⟩
        · simp [ReadTask.next, idx]
        · simp [size, Nat.add_assoc, Nat.add_comm 1]
      rw [← closeArray_snoc]
      exact element.trans (read (List.cons_ne_nil _ _) next)

/-- Where elements of an array come next, the reader reads their texts. -/
theorem reads_elements {depth : Nat} {replies : List RedisReply} {text : Bytes}
    (texts : ReplyTexts lenient allocates depth replies text) (some' : replies ≠ []) {cur prv : ReadTask}
    {below : List ReadTask}
    (here : NextElement replies.length cur prv) (room : below.length + 1 + depth = 8) :
    ReadsTo allocates (cur :: prv :: below) text (closeArray replies prv below) := by
  induction texts generalizing cur prv below with
  | nil => exact absurd rfl some'
  | @object depth type text reply replies rest deep item others ih =>
      have typed : (recogniser allocates).Reads (cur :: prv :: below) [typeByte type] []
          ({ cur with type := some type } :: prv :: below) :=
            reads_type (itemType_typeByte _) cur here.untyped _
      have element :=
        typed.trans (reads_item item { cur with type := some type } rfl (prv :: below) fun array => by
          have := deep array
          rw [List.length_cons]
          omega)
      have moved : ReadsTo allocates (cur :: prv :: below) (typeByte type :: text)
          (moveToNextTask reply cur (prv :: below)) := by
        rw [← moveToNextTask_congr { cur with type := some type } cur rfl]
        exact element
      exact reads_others here moved others fun more _ _ next => ih more next room
  | @elements depth text element body replies rest item inside others ihInside ih =>
      have typed : (recogniser allocates).Reads (cur :: prv :: below) [typeByte .array] []
          ({ cur with type := some .array } :: prv :: below) :=
            reads_type (itemType_typeByte _) cur here.untyped _
      have opened :=
        typed.trans (reads_item item { cur with type := some .array } rfl (prv :: below) fun _ => by
          rw [List.length_cons]
          omega)
      have first : NextElement element.length .child
          { cur with type := some .array, elements := element.length, element := [] } := ⟨rfl, rfl, by simp⟩
      have deeper : (prv :: below).length + 1 + depth = 8 := by
        rw [List.length_cons]
        omega
      have closed := opened.trans (ihInside (List.length_pos_iff.mp (elements_pos item)) first deeper)
      have moved : ReadsTo allocates (cur :: prv :: below) (typeByte .array :: (text ++ body))
          (moveToNextTask (.array element.length element) cur (prv :: below)) := by
        rw [closeArray_opened (some .array) cur] at closed
        exact closed
      have whole := reads_others here moved others fun more _ _ next => ih more next room
      simpa using whole

/-- The texts of replies are read as those replies. -/
theorem reads_replies {depth : Nat} {replies : List RedisReply} {text : Bytes}
    (texts : ReplyTexts lenient allocates depth replies text) (top : depth = 8) :
    (recogniser allocates).Reads [] text replies [] := by
  induction texts with
  | nil => exact .refl []
  | @object depth type text reply replies rest _ item _ ih =>
      have read := (reads_root (itemType_typeByte _)).trans
          (reads_item item { ReadTask.root with type := some type } rfl []
        fun _ => by decide)
      simpa [place, moveToNextTask] using read.trans (ih top)
  | @elements depth text element body replies rest item inside _ _ ih =>
      have opened := (reads_root (itemType_typeByte _)).trans
          (reads_item item { ReadTask.root with type := some .array } rfl []
        fun _ => by decide)
      have first : NextElement element.length .child
          { ReadTask.root with type := some .array, elements := element.length, element := [] } :=
            ⟨rfl, rfl, by simp⟩
      have bottom : ([] : List ReadTask).length + 1 + depth = 8 := by
        rw [List.length_nil]
        omega
      have closed :=
        opened.trans (reads_elements inside (List.length_pos_iff.mp (elements_pos item)) first bottom)
      rw [closeArray_opened (some .array) .root] at closed
      simpa [place, moveToNextTask] using closed.trans (ih top)

/-! ### Only texts are read

The other direction: what a run of the tasks has taken when it gives replies is a text of them.  The tasks
on the stack say which texts are still to come. -/

/-- What was read of an item whose type is known. -/
def typeText : Option ItemType → Bytes
  | none => []
  | some type => [typeByte type]

/-- When the object is complete, the text completes the reply, going up through the arrays that are open. -/
def Climbs (allocates : Allocator) (obj : RedisReply) (idx : Int) : List ReadTask → Bytes → RedisReply → Prop
  | [], text, reply => text = [] ∧ obj = reply
  | prv :: below, text, reply =>
      ∃ others inside after, ReplyTexts lenient allocates (8 - (below.length + 1)) others inside ∧
      idx + 1 + others.length = prv.elements ∧ text = inside ++ after ∧
      Climbs allocates (.array prv.elements.toNat (prv.element ++ obj :: others)) prv.idx below after reply

/-- The text completes the item of the task, and then the reply. -/
def Finishes (allocates : Allocator) (cur : ReadTask) (below : List ReadTask) (text : Bytes)
    (reply : RedisReply) :
    Prop :=
  ∃ obj item after, ReplyTexts lenient allocates (8 - below.length) [obj] (typeText cur.type ++ item) ∧
    text = item ++ after ∧ Climbs allocates obj cur.idx below after reply

/-- A reply is given when nothing is left on the stack. -/
theorem climbs_of_emits (allocates : Allocator) {obj reply : RedisReply} {cur : ReadTask}
    {below next : List ReadTask} (moves : moveToNextTask obj cur below = (next, some reply)) :
    next = [] ∧ Climbs allocates obj cur.idx below [] reply := by
  induction below generalizing obj cur with
  | nil =>
      cases moves
      exact ⟨rfl, rfl, rfl⟩
  | cons prv below ih =>
      rw [moveToNextTask] at moves
      split at moves
      · obtain ⟨empty, climbs⟩ := ih moves
        exact ⟨empty, [], [], [], .nil, by simp; omega, rfl, climbs⟩
      · cases moves

/-- Otherwise the next task is the next element of an array on the stack. -/
theorem climbs_of_moves (allocates : Allocator) {obj : RedisReply} {cur : ReadTask}
    {below rstack : List ReadTask} (moves : moveToNextTask obj cur below = (rstack, none)) :
    ∃ next below', rstack = next :: below' ∧ below'.length ≤ below.length ∧
      ∀ text reply, Finishes allocates next below' text reply →
        Climbs allocates obj cur.idx below text reply := by
  induction below generalizing obj cur with
  | nil => cases moves
  | cons prv below ih =>
      rw [moveToNextTask] at moves
      split at moves
      · obtain ⟨next, below', rfl, bound, climbs⟩ := ih moves
        refine ⟨next, below', rfl, Nat.le_succ_of_le bound, ?_⟩
        intro text reply finishes
        exact ⟨[], [], text, .nil, by simp; omega, rfl, climbs text reply finishes⟩
      · cases moves
        refine ⟨_, _, rfl, Nat.le_refl _, ?_⟩
        rintro text reply ⟨second, item, after, one, rfl, others, inside, after', texts, count, rfl, climbs⟩
        refine ⟨second :: others, item ++ inside, after', ?_, ?_, (List.append_assoc ..).symm, ?_⟩
        · exact ReplyTexts.append one texts
        · simp [ReadTask.next] at count ⊢
          omega
        · simpa using climbs

/-- An item with an object is the text of one reply. -/
theorem replyTexts_item {depth : Nat} {type : ItemType} {text : Bytes} {obj : RedisReply}
    (item : Item lenient allocates type text (.inl obj)) (room : type = .array → depth ≠ 0) :
    ReplyTexts lenient allocates depth [obj] (typeText (some type) ++ text) := by
  have one := ReplyTexts.object room item .nil
  rwa [List.append_nil] at one

/-- What a step of the reader takes stands in front of a text that finishes the reply. -/
theorem finishes_of_goes {cur : ReadTask} {below rstack : List ReadTask} {text : Bytes} {count : Nat}
    (goes : processTask allocates cur below text = .go rstack count none) (bound : below.length ≤ 8) :
    ∃ next below', rstack = next :: below' ∧ below'.length ≤ 8 ∧
      ∀ after reply, Finishes allocates next below' after reply →
        Finishes allocates cur below (text.take count ++ after) reply := by
  unfold processTask at goes
  split at goes
  · next untyped =>
      cases text with
      | nil => cases goes
      | cons byte text =>
          rw [processType] at goes
          split at goes
          · cases goes
          · next type named =>
              cases goes
              refine ⟨_, _, rfl, bound, ?_⟩
              rintro after reply ⟨obj, item, rest, texts, rfl, climbs⟩
              refine ⟨obj, byte :: item, rest, ?_, rfl, climbs⟩
              rw [untyped, eq_typeByte named]
              exact texts
  · next type typed =>
      obtain ⟨room, result, item, placed⟩ := item_of_processTyped goes
      cases result with
      | inl obj =>
          obtain ⟨next, below', rfl, shorter, climbs⟩ := climbs_of_moves allocates placed
          refine ⟨next, below', rfl, by omega, ?_⟩
          intro after reply finishes
          refine ⟨obj, text.take count, after, ?_, rfl, climbs after reply finishes⟩
          rw [typed]
          exact replyTexts_item item fun array => by
            have := room array
            omega
      | inr n =>
          cases placed
          obtain rfl := type_of_elements item
          have deeper := room rfl
          refine ⟨_, _, rfl, by rw [List.length_cons]; omega, ?_⟩
          rintro after reply ⟨obj, first, rest, one, rfl, others, inside, after', texts, size, rfl, climbs⟩
          have count' : n = (obj :: others).length := by
            simp [ReadTask.child] at size
            simp
            omega
          subst count'
          refine ⟨.array (obj :: others).length (obj :: others), text.take count ++ (first ++ inside),
            after', ?_, ?_, climbs⟩
          · have depth : 8 - below.length = 8 - (below.length + 1) + 1 := by omega
            have body : ReplyTexts lenient allocates (8 - (below.length + 1)) (obj :: others)
                (first ++ inside) := one.append texts
            rw [typed, depth]
            have whole := ReplyTexts.elements item body .nil
            rwa [List.append_nil] at whole
          · simp only [List.append_assoc]

/-- A step that emits a reply completes an object. -/
theorem item_of_emits {cur : ReadTask} {below rstack : List ReadTask} {text : Bytes} {count : Nat}
    {reply : RedisReply} (goes : processTask allocates cur below text = .go rstack count (some reply)) :
    ∃ type obj, cur.type = some type ∧ (type = .array → below.length ≠ 8) ∧
      Item lenient allocates type (text.take count) (.inl obj) ∧
        moveToNextTask obj cur below = (rstack, some reply) := by
  unfold processTask at goes
  split at goes
  · cases text with
    | nil => cases goes
    | cons byte text =>
        rw [processType] at goes
        split at goes <;> cases goes
  · next type typed =>
      obtain ⟨room, result, item, placed⟩ := item_of_processTyped goes
      cases result with
      | inl obj => exact ⟨type, obj, typed, room, item, placed⟩
      | inr n => cases placed

/-- What the last step takes is the text that finishes the reply. -/
theorem finishes_of_emits {cur : ReadTask} {below rstack : List ReadTask} {text : Bytes} {count : Nat}
    {reply : RedisReply} (goes : processTask allocates cur below text = .go rstack count (some reply))
    (bound : below.length ≤ 8) : rstack = [] ∧ Finishes allocates cur below (text.take count) reply := by
  obtain ⟨type, obj, typed, room, item, moves⟩ := item_of_emits goes
  obtain ⟨empty, climbs⟩ := climbs_of_emits allocates moves
  refine ⟨empty, obj, text.take count, [], ?_, (List.append_nil _).symm, climbs⟩
  rw [typed]
  exact replyTexts_item item fun array => by
    have := room array
    omega

/-- From the stack on, the text stands for those replies. -/
def StandsFor (allocates : Allocator) : List ReadTask → Bytes → List RedisReply → Prop
  | [], text, replies => ReplyTexts lenient allocates 8 replies text
  | cur :: below, text, replies => ∃ reply others first rest,
      replies = reply :: others ∧ text = first ++ rest ∧
      Finishes allocates cur below first reply ∧ ReplyTexts lenient allocates 8 others rest

/-- With the root task alone nothing is open. -/
theorem standsFor_root {text : Bytes} {replies : List RedisReply}
    (stands : StandsFor allocates [.root] text replies) : ReplyTexts lenient allocates 8 replies text := by
  obtain ⟨reply, others, first, rest, rfl, rfl, ⟨obj, item, after, one, rfl, rfl, rfl⟩, more⟩ := stands
  rw [List.append_nil]
  exact ReplyTexts.append one more

/-- One step back. -/
theorem standsFor_of_goes {cur : ReadTask} {below rstack : List ReadTask} {text : Bytes} {count : Nat}
    {item : Option RedisReply} {replies : List RedisReply}
    (goes : processTask allocates cur below text = .go rstack count item) (bound : below.length ≤ 8)
    (stands : StandsFor allocates rstack (text.drop count) replies) :
    StandsFor allocates (cur :: below) text (item.toList ++ replies) := by
  cases item with
  | none =>
      obtain ⟨next, below', rfl, -, finishes⟩ := finishes_of_goes goes bound
      obtain ⟨reply, others, first, rest, rfl, cut, finish, more⟩ := stands
      refine ⟨reply, others, text.take count ++ first, rest, rfl, ?_, finishes first reply finish, more⟩
      rw [List.append_assoc, ← cut, List.take_append_drop]
  | some reply =>
      obtain ⟨rfl, finish⟩ := finishes_of_emits goes bound
      exact ⟨reply, replies, text.take count, text.drop count, rfl, (List.take_append_drop ..).symm, finish,
        stands⟩

/-- The stack stays within its depth. -/
theorem length_of_goes {cur : ReadTask} {below rstack : List ReadTask} {text : Bytes} {count : Nat}
    {item : Option RedisReply} (goes : processTask allocates cur below text = .go rstack count item)
    (bound : below.length ≤ 8) : rstack.length ≤ 9 := by
  cases item with
  | none =>
      obtain ⟨next, below', rfl, shorter, -⟩ := finishes_of_goes goes bound
      rw [List.length_cons]
      omega
  | some reply =>
      obtain ⟨rfl, -⟩ := finishes_of_emits goes bound
      exact Nat.zero_le _

/-- What is read with nothing left is a text of the replies that are read. -/
theorem standsFor_of_drain {rstack : List ReadTask} {text : Bytes} {replies : List RedisReply}
    (bound : rstack.length ≤ 9)
    (drained : (recogniser allocates).drain rstack text = ⟨replies, .ok ([], [])⟩) :
    StandsFor allocates rstack text replies := by
  induction rstack, text using (recogniser allocates).drain_induction generalizing replies with
  | more rstack text waits =>
      rw [Recogniser.drain_of_more waits] at drained
      cases drained
      exact .nil
  | fail rstack text e fails =>
      rw [Recogniser.drain_of_fail fails] at drained
      cases drained
  | go rstack text next count item goes ih =>
      rw [Recogniser.drain_of_go goes, Drained.after, Drained.mk.injEq] at drained
      obtain ⟨rfl, left⟩ := drained
      cases rstack with
      | nil =>
          have taken : processTask allocates .root [] text = .go next count item := goes
          have rest := ih (length_of_goes taken (by decide)) (by rw [← left])
          exact standsFor_root (standsFor_of_goes taken (by decide) rest)
      | cons cur below =>
          have taken : processTask allocates cur below text = .go next count item := goes
          rw [List.length_cons] at bound
          have room : below.length ≤ 8 := by omega
          have rest := ih (length_of_goes taken room) (by rw [← left])
          exact standsFor_of_goes taken room rest

/-- The bytes that are read as those replies, with nothing left, are the texts of the replies. -/
theorem drain_eq_iff {text : Bytes} {replies : List RedisReply} :
    (recogniser allocates).drain [] text = ⟨replies, .ok ([], [])⟩ ↔
    ReplyTexts lenient allocates 8 replies text := by
  constructor
  · exact standsFor_of_drain (by decide)
  · intro texts
    have read := reads_replies texts rfl []
    rw [List.append_nil] at read
    rw [read, Recogniser.drain_of_more rfl, Drained.after, List.append_nil]

end Waspp.Hiredis
