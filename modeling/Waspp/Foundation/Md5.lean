/-
Module: Waspp.Foundation.Md5
Layer: Foundation
Purpose: The MD5 message digest: padding, the four rounds of sixteen steps over each block of 64 bytes, and
  the sixteen bytes of the digest.
Imports: Mathlib.Data.List.Basic
Trusted boundary: human-reviewed definition of a published digest
Main exports: md5
Open obligations: none
-/
import Mathlib.Data.List.Basic

namespace Md5

/-- The four words of the state. -/
structure Words where
  a : UInt32
  b : UInt32
  c : UInt32
  d : UInt32
deriving DecidableEq, Repr

/-- The state that a digest starts from. -/
def start : Words := ⟨0x67452301, 0xEFCDAB89, 0x98BADCFE, 0x10325476⟩

/-- The constants of the steps, the integer parts of `2 ^ 32` times the absolute sines of 1, 2, ..., 64. -/
def sines : List UInt32 :=
  [0xD76AA478, 0xE8C7B756, 0x242070DB, 0xC1BDCEEE, 0xF57C0FAF, 0x4787C62A, 0xA8304613, 0xFD469501,
    0x698098D8, 0x8B44F7AF, 0xFFFF5BB1, 0x895CD7BE, 0x6B901122, 0xFD987193, 0xA679438E, 0x49B40821,
    0xF61E2562, 0xC040B340, 0x265E5A51, 0xE9B6C7AA, 0xD62F105D, 0x02441453, 0xD8A1E681, 0xE7D3FBC8,
    0x21E1CDE6, 0xC33707D6, 0xF4D50D87, 0x455A14ED, 0xA9E3E905, 0xFCEFA3F8, 0x676F02D9, 0x8D2A4C8A,
    0xFFFA3942, 0x8771F681, 0x6D9D6122, 0xFDE5380C, 0xA4BEEA44, 0x4BDECFA9, 0xF6BB4B60, 0xBEBFBC70,
    0x289B7EC6, 0xEAA127FA, 0xD4EF3085, 0x04881D05, 0xD9D4D039, 0xE6DB99E5, 0x1FA27CF8, 0xC4AC5665,
    0xF4292244, 0x432AFF97, 0xAB9423A7, 0xFC93A039, 0x655B59C3, 0x8F0CCC92, 0xFFEFF47D, 0x85845DD1,
    0x6FA87E4F, 0xFE2CE6E0, 0xA3014314, 0x4E0811A1, 0xF7537E82, 0xBD3AF235, 0x2AD7D2BB, 0xEB86D391]

/-- The rotations of the steps, by round. -/
def rotations : List (List UInt32) :=
  [[7, 12, 17, 22], [5, 9, 14, 20], [4, 11, 16, 23], [6, 10, 15, 21]]

/-- The mixing function of a round, and the word of the block that step `i` takes. -/
def mix (w : Words) (i : Nat) : UInt32 × Nat :=
  match i / 16 with
  | 0 => ((w.b &&& w.c) ||| (~~~w.b &&& w.d), i)
  | 1 => ((w.d &&& w.b) ||| (~~~w.d &&& w.c), (5 * i + 1) % 16)
  | 2 => (w.b ^^^ w.c ^^^ w.d, (3 * i + 5) % 16)
  | _ => (w.c ^^^ (w.b ||| ~~~w.d), 7 * i % 16)

/-- Rotation to the left. -/
def rotateLeft (x n : UInt32) : UInt32 := (x <<< n) ||| (x >>> (32 - n))

/-- Step `i` over a block of sixteen words. -/
def step (block : List UInt32) (w : Words) (i : Nat) : Words :=
  let (f, g) := mix w i
  let sum := f + w.a + sines.getD i 0 + block.getD g 0
  ⟨w.d, w.b + rotateLeft sum ((rotations.getD (i / 16) []).getD (i % 4) 0), w.b, w.c⟩

/-- The state after a block. -/
def compress (w : Words) (block : List UInt32) : Words :=
  let last := (List.range 64).foldl (step block) w
  ⟨w.a + last.a, w.b + last.b, w.c + last.c, w.d + last.d⟩

/-- The `n` bytes of a number, the lowest first. -/
def littleEndian : Nat → Nat → List UInt8
  | 0, _ => []
  | n + 1, value => UInt8.ofNat value :: littleEndian n (value / 256)

/-- The word of four bytes, the lowest first. -/
def word (s : List UInt8) : UInt32 :=
  s.foldr (fun b acc => acc * 256 + b.toUInt32) 0

/-- The message with its padding: a one bit, zeros up to 56 bytes past a multiple of 64, and the length in
    bits. -/
def pad (message : List UInt8) : List UInt8 :=
  message ++ 0x80 :: List.replicate ((119 - message.length % 64) % 64) 0 ++
    littleEndian 8 (8 * message.length)

/-- A list in pieces of `n`. -/
def pieces {α : Type} (n : Nat) : Nat → List α → List (List α)
  | 0, _ => []
  | count + 1, l => l.take n :: pieces n count (l.drop n)

/-- The digest. -/
def md5 (message : List UInt8) : Vector UInt8 16 :=
  let padded := pad message
  let blocks := (pieces 64 (padded.length / 64) padded).map fun block => (pieces 4 16 block).map word
  let w := blocks.foldl compress start
  Vector.ofFn fun i => ([w.a, w.b, w.c, w.d].flatMap fun x => littleEndian 4 x.toNat).getD i 0

/-- The published digests of the empty message and of `abc`. -/
example :
    (md5 []).toList = [0xD4, 0x1D, 0x8C, 0xD9, 0x8F, 0x00, 0xB2, 0x04, 0xE9, 0x80, 0x09, 0x98, 0xEC, 0xF8,
      0x42, 0x7E] ∧ (md5 [97, 98, 99]).toList =
        [0x90, 0x01, 0x50, 0x98, 0x3C, 0xD2, 0x4F, 0xB0, 0xD6, 0x96, 0x3F, 0x7D, 0x28, 0xE1, 0x7F,
          0x72] := by
  decide +kernel

end Md5
