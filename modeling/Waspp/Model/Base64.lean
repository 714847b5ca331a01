/-
Module: Waspp.Model.Base64
Layer: Model
Purpose: The base64 coding of utility.cpp.  Both loops gather characters in a small array, of which a list
  holds the `i` entries set so far, and convert it when it is full; what is left at the end is filled up
  and converted as well.
Imports: Waspp.Foundation.CString
Trusted boundary: human-reviewed translation of utility.cpp, and of base64_chars and is_base64 of utility.hpp
Main exports: base64Chars, isBase64, charArray4, charArray3, base64Encode, base64Decode
Open obligations: none
-/
import Waspp.Foundation.CString

namespace Waspp

open CString

/-- `base64_chars`. -/
def base64Chars : Bytes :=
  bytes "ABCDEFGHIJKLMNOPQRSTUVWXYZabcdefghijklmnopqrstuvwxyz0123456789+/"

/-- `is_base64(c)`, with `isalnum` in the "C" locale. -/
def isBase64 (c : UInt8) : Bool :=
  (65 ≤ c && c ≤ 90) || (97 ≤ c && c ≤ 122) || isdigit c || c == '+'.toUInt8 || c == '/'.toUInt8

/-! ### Encoding -/

/-- `char_array_4` as `base64_encode` computes it from `char_array_3`, whose entries beyond the list are
    zero. -/
def charArray4 (charArray3 : Bytes) : Bytes :=
  let first := charArray3.getD 0 0
  let second := charArray3.getD 1 0
  let third := charArray3.getD 2 0
  [(first &&& 0xfc) >>> 2, ((first &&& 0x03) <<< 4) + ((second &&& 0xf0) >>> 4),
    ((second &&& 0x0f) <<< 2) + ((third &&& 0xc0) >>> 6), third &&& 0x3f]

/-- `base64_chars[n]`. -/
def base64Char (n : UInt8) : UInt8 := base64Chars.getD n.toNat 0

/-- What is appended to `ret` behind the loop. -/
def encodeTail (charArray3 : Bytes) : Bytes :=
  if charArray3.isEmpty then []
  else
    ((charArray4 charArray3).map base64Char).take (charArray3.length + 1) ++
      List.replicate (3 - charArray3.length) '='.toUInt8

/-- What is appended to `ret` from here on, with `char_array_3` as it is and these bytes to encode. -/
def encodeFrom (charArray3 : Bytes) : Bytes → Bytes
  | [] => encodeTail charArray3
  | b :: rest =>
      let charArray3 := charArray3 ++ [b]
      if charArray3.length == 3 then (charArray4 charArray3).map base64Char ++ encodeFrom [] rest
      else encodeFrom charArray3 rest

/-- `base64_encode(string_to_encode)`, with the length in an `unsigned int`. -/
def base64Encode (stringToEncode : Bytes) : Bytes :=
  encodeFrom [] (stringToEncode.take (wrapUnsigned stringToEncode.length))

/-! ### Decoding -/

/-- `base64_chars.find(c)` as an `unsigned char`, to which `npos` is cut. -/
def base64Index (c : UInt8) : UInt8 :=
  match base64Chars.findIdx? (· == c) with
  | some n => UInt8.ofNat n
  | none => 255

/-- `char_array_3` as `base64_decode` computes it from `char_array_4`, whose entries beyond the list are
    zero. -/
def charArray3 (charArray4 : Bytes) : Bytes :=
  let first := base64Index (charArray4.getD 0 0)
  let second := base64Index (charArray4.getD 1 0)
  let third := base64Index (charArray4.getD 2 0)
  let fourth := base64Index (charArray4.getD 3 0)
  [(first <<< 2) + ((second &&& 0x30) >>> 4), ((second &&& 0xf) <<< 4) + ((third &&& 0x3c) >>> 2),
    ((third &&& 0x3) <<< 6) + fourth]

/-- What is appended to `ret` behind the loop. -/
def decodeTail (charArray4 : Bytes) : Bytes :=
  if charArray4.isEmpty then [] else (charArray3 charArray4).take (charArray4.length - 1)

/-- What is appended to `ret` from here on, with `in_len` and `char_array_4` as they are and these
    characters behind `in_`.  The loop ends at the terminating NUL if nothing else ends it. -/
def decodeFrom (inLen : Int) (charArray4 : Bytes) : Bytes → Bytes
  | [] => decodeTail charArray4
  | c :: rest =>
      if inLen == 0 || c == '='.toUInt8 || !isBase64 c then decodeTail charArray4
      else
        let charArray4 := charArray4 ++ [c]
        if charArray4.length == 4 then charArray3 charArray4 ++ decodeFrom (inLen - 1) [] rest
        else decodeFrom (inLen - 1) charArray4 rest

/-- `base64_decode(encoded_string)`, with the length in an `int`.  Beyond 2^31 characters the two counters
    overflow, which is left out here. -/
def base64Decode (encodedString : Bytes) : Bytes :=
  decodeFrom (wrapInt encodedString.length) [] encodedString

end Waspp
