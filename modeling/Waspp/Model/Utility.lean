/-
Module: Waspp.Model.Utility
Layer: Model
Purpose: The string helpers that the parsers, the session and the router share: percent coding, the
  case-insensitive comparison of prefixes, extraction between separators and the extension of a path.
  Helpers that read a byte at `size()` read the string's terminating NUL, which no test of theirs accepts.
Imports: Waspp.Foundation.CString
Trusted boundary: human-reviewed translation of utility.cpp and of
  request_handler::percent_decode_and_validate
Main exports: Exn, Fault, Returns, substrOrThrow, char2hex, hex2char, hex02, percentEncode, percentDecode,
  stringsAreEqual, extractBetween, getExtension, percentDecodeAndValidate
Open obligations: none
-/
import Waspp.Foundation.CString

namespace Waspp

open CString

/-! ### How a call can end without a value -/

/-- The exceptions thrown by the program and the libraries it calls, all of them `std::exception`s. -/
inductive Exn where
  /-- `std::out_of_range`, of `substr` and `at`. -/
  | outOfRange
  /-- `std::runtime_error` and what derives from it. -/
  | runtimeError (what : Bytes)
  /-- `boost::archive::archive_exception`. -/
  | archive
deriving DecidableEq, Repr

/-- How a call can fail to return. -/
inductive Fault where
  /-- An exception leaves it. -/
  | thrown (e : Exn)
  /-- It does something that the language leaves undefined. -/
  | undefinedBehaviour
  /-- One of its loops does not end. -/
  | diverges
deriving DecidableEq, Repr

/-- A call returns. -/
def Returns {α : Type} (call : Except Fault α) : Prop := ∃ a, call = .ok a

@[simp] theorem returns_ok {α : Type} (a : α) : Returns (.ok a : Except Fault α) := ⟨a, rfl⟩

@[simp] theorem returns_pure {α : Type} (a : α) : Returns (pure a : Except Fault α) := ⟨a, rfl⟩

@[simp] theorem not_returns_error {α : Type} (fault : Fault) :
    ¬ Returns (.error fault : Except Fault α) := by
  intro returns
  rcases returns with ⟨a, same⟩
  cases same

/-- A sequence of calls returns when the first does and the rest does from its value. -/
theorem returns_bind_iff {α β : Type} {call : Except Fault α} {f : α → Except Fault β} :
    Returns (call >>= f) ↔ ∃ a, call = .ok a ∧ Returns (f a) := by
  cases call with
  | error fault =>
      constructor
      · intro returns
        exact absurd returns (not_returns_error fault)
      · intro returns
        rcases returns with ⟨a, same, -⟩
        cases same
  | ok a =>
      constructor
      · intro returns
        exact ⟨a, rfl, returns⟩
      · intro returns
        rcases returns with ⟨b, same, rest⟩
        cases same
        exact rest

/-- `s.substr(pos, count)` as a call that may throw. -/
def substrOrThrow (s : Bytes) (pos : Nat) (count : Option Nat) : Except Fault Bytes :=
  match substr s pos count with
  | some text => .ok text
  | none => .error (.thrown .outOfRange)

/-- A difference of sizes used as a count: `none` for a negative one, which wraps to a count beyond the end
    of any string. -/
def sizeSub (a b : Nat) : Option Nat :=
  if b ≤ a then some (a - b) else none

/-- `substr` returns from a position inside the text. -/
theorem substrOrThrow_of_le {s : Bytes} {pos : Nat} (inside : pos ≤ s.length) (count : Option Nat) :
    substrOrThrow s pos count = .ok (takeCount count (s.drop pos)) := by
  simp [substrOrThrow, substr, inside]

/-- The piece between two positions. -/
theorem substrOrThrow_piece {s piece rest : Bytes} {start stop : Nat} (inside : start ≤ s.length)
    (cut : s.drop start = piece ++ rest) (stops : stop = start + piece.length) :
    substrOrThrow s start (sizeSub stop start) = .ok piece := by
  subst stops
  rw [substrOrThrow_of_le inside, sizeSub, if_pos (Nat.le_add_right ..), takeCount_some, cut,
    Nat.add_sub_cancel_left, List.take_left]

/-! ### Strings -/

/-- `get_extension(path)`: the text after the last dot when it lies behind the last slash.  Without a slash
    the comparison is with `npos` and fails. -/
def getExtension (path : Bytes) : Bytes :=
  let lastSlashPos := (path.findIdxs (· == '/'.toUInt8)).getLast?
  let lastDotPos := (path.findIdxs (· == '.'.toUInt8)).getLast?
  match lastDotPos, lastSlashPos with
  | some dot, some slash => if slash < dot then path.drop (dot + 1) else []
  | _, _ => []

/-- `strings_are_equal(s1, s2, n)`: both have `n` bytes and agree on them up to ASCII case. -/
def stringsAreEqual (s1 s2 : Bytes) (n : Nat) : Bool :=
  let good := decide (n ≤ s1.length ∧ n ≤ s2.length)
  let l1 := if good then s1.take n else s1
  let l2 := if good then s2.take n else s2
  ((l1.zip l2).all fun p => toupper p.1 == toupper p.2) && good

/-- `extract_between(data, separator1, separator2)`. -/
def extractBetween (data separator1 separator2 : Bytes) : Bytes :=
  match find data separator1 0 with
  | none => []
  | some found =>
      let start := found + separator1.length
      match find data separator2 start with
      | none => []
      | some limit => (data.drop start).take (limit - start)

/-- One hexadecimal digit of `char2hex`. -/
def hexDigit (n : UInt8) : UInt8 :=
  n + (if n > 9 then 'A'.toUInt8 - 10 else '0'.toUInt8)

/-- `char2hex(c)`: two upper-case digits. -/
def char2hex (c : UInt8) : Bytes :=
  [hexDigit ((c &&& 0xF0) / 16), hexDigit (c &&& 0x0F)]

/-- `%02x` of a byte: two lower-case digits. -/
def hex02 (b : UInt8) : Bytes :=
  [b / 16, b % 16].map fun n => n + (if n > 9 then 'a'.toUInt8 - 10 else '0'.toUInt8)

/-- A byte is printed in hexadecimal digits. -/
theorem isxdigit_of_mem_hex02 {b digit : UInt8} (member : digit ∈ hex02 b) : isxdigit digit = true := by
  have all : ∀ b : UInt8, (hex02 b).all isxdigit = true := forall_byte (by decide +kernel)
  exact List.all_eq_true.mp (all b) digit member

/-- The value that `hex2char` gives one digit. -/
def hexDigitValue (c : UInt8) : UInt8 :=
  if charInt c ≥ 65 then ((c &&& 0xDF) - 'A'.toUInt8) + 10 else c - '0'.toUInt8

/-- `hex2char(first, second)`. -/
def hex2char (first second : UInt8) : UInt8 :=
  hexDigitValue first * 16 + hexDigitValue second

/-- The letters and digits and the marks that `percent_encode` leaves as they are. -/
def isUnreserved (c : UInt8) : Bool :=
  (65 ≤ c && c ≤ 90) || (97 ≤ c && c ≤ 122) || isdigit c || (bytes "-_.!~*'()").contains c

/-- `percent_encode(src)`. -/
def percentEncode : Bytes → Bytes
  | [] => []
  | c :: rest =>
      if c == ' '.toUInt8 then bytes "%20" ++ percentEncode rest
      else if isUnreserved c then c :: percentEncode rest
      else '%'.toUInt8 :: char2hex c ++ percentEncode rest

/-- `percent_decode(src)`: a `%` that two hexadecimal digits do not follow is kept. -/
def percentDecode : Bytes → Bytes
  | [] => []
  | c :: rest =>
      if c == '+'.toUInt8 then ' '.toUInt8 :: percentDecode rest
      else if c == '%'.toUInt8 then
        match rest with
        | first :: second :: rest' =>
            if isxdigit first && isxdigit second then hex2char first second :: percentDecode rest'
            else '%'.toUInt8 :: percentDecode (first :: second :: rest')
        | [first] => '%'.toUInt8 :: percentDecode [first]
        | [] => ['%'.toUInt8]
      else c :: percentDecode rest

/-- `is >> std::hex >> value`: blanks are skipped, a sign and a `0x` are taken, and at least one digit must
    follow. -/
def streamHex (s : Bytes) : Option Int :=
  let (negative, s) :=
    match s.dropWhile isspace with
    | 45 :: rest => (true, rest)
    | 43 :: rest => (false, rest)
    | rest => (false, rest)
  let digits :=
    match s with
    | 48 :: 120 :: rest => rest
    | 48 :: 88 :: rest => rest
    | rest => rest
  match digits with
  | c :: _ =>
      if isxdigit c then
        let value : Int := scanDigits 16 0 digits
        some (if negative then -value else value)
      else none
  | [] => none

/-- `percent_decode_and_validate(in, out)`: `out` when it returns true. -/
def percentDecodeAndValidate : Bytes → Option Bytes
  | [] => some []
  | c :: rest =>
      if c == '%'.toUInt8 then
        match rest with
        | first :: second :: rest' =>
            match streamHex [first, second] with
            | some value => (UInt8.ofInt value :: ·) <$> percentDecodeAndValidate rest'
            | none => none
        | _ => none
      else if c == '+'.toUInt8 then (' '.toUInt8 :: ·) <$> percentDecodeAndValidate rest
      else (c :: ·) <$> percentDecodeAndValidate rest

end Waspp
