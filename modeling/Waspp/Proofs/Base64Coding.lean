/-
Module: Waspp.Proofs.Base64Coding
Layer: Proofs
Purpose: `base64_decode` undoes `base64_encode`.  Three bytes and four characters have the same 24 bits; a
  shorter group at the end is filled up with zero bits by the encoder, and the bits that the decoder makes
  of the missing characters do not reach its output.
Imports: Waspp.Model.Base64
Trusted boundary: none (fully proved)
Main exports: Base64Text, base64Text_encodeFrom, base64_law
Open obligations: none
-/
import Waspp.Model.Base64

namespace Waspp

open CString

/-! ### Masks and shifts

Bytes are few enough to compare all of them: every mask and shift of the two functions is a quotient or a
remainder of the byte's number. -/

/-- The masks of the encoder, as numbers. -/
theorem encoder_masks (b : UInt8) :
    ((b &&& 0xfc) >>> 2).toNat = b.toNat / 4 ∧ ((b &&& 0x03) <<< 4).toNat = b.toNat % 4 * 16 ∧
      ((b &&& 0xf0) >>> 4).toNat = b.toNat / 16 ∧ ((b &&& 0x0f) <<< 2).toNat = b.toNat % 16 * 4 ∧
      ((b &&& 0xc0) >>> 6).toNat = b.toNat / 64 ∧ (b &&& 0x3f).toNat = b.toNat % 64 := by
  revert b
  exact forall_byte (by decide +kernel)

/-- The masks of the decoder, as numbers. -/
theorem decoder_masks (b : UInt8) :
    (b <<< 2).toNat = b.toNat * 4 % 256 ∧ ((b &&& 0x30) >>> 4).toNat = b.toNat / 16 % 4 ∧
      ((b &&& 0xf) <<< 4).toNat = b.toNat % 16 * 16 ∧ ((b &&& 0x3c) >>> 2).toNat = b.toNat / 4 % 16 ∧
      ((b &&& 0x3) <<< 6).toNat = b.toNat % 4 * 64 := by
  revert b
  exact forall_byte (by decide +kernel)

/-- Four indices with the bits of three bytes. -/
structure SameBits (a b c w x y z : UInt8) : Prop where
  first : w.toNat = a.toNat / 4
  second : x.toNat = a.toNat % 4 * 16 + b.toNat / 16
  third : y.toNat = b.toNat % 16 * 4 + c.toNat / 64
  fourth : z.toNat = c.toNat % 64

/-- The encoder's array has the bits of its bytes, where missing bytes are zero. -/
theorem charArray4_bits (charArray3 : Bytes) :
    ∃ w x y z, charArray4 charArray3 = [w, x, y, z] ∧
      SameBits (charArray3.getD 0 0) (charArray3.getD 1 0) (charArray3.getD 2 0) w x y z := by
  obtain ⟨high, low, -⟩ := encoder_masks (charArray3.getD 0 0)
  obtain ⟨-, -, high', low', -⟩ := encoder_masks (charArray3.getD 1 0)
  obtain ⟨-, -, -, -, high'', low''⟩ := encoder_masks (charArray3.getD 2 0)
  have bound := (charArray3.getD 1 0).toNat_lt
  have bound' := (charArray3.getD 2 0).toNat_lt
  refine ⟨_, _, _, _, rfl, high, ?_, ?_, low''⟩
  · rw [UInt8.toNat_add, low, high']
    omega
  · rw [UInt8.toNat_add, low', high'']
    omega

section Bits

variable {a b c w x y z : UInt8}

/-- The four sextets are below 64. -/
theorem SameBits.small (same : SameBits a b c w x y z) :
    w.toNat < 64 ∧ x.toNat < 64 ∧ y.toNat < 64 ∧ z.toNat < 64 := by
  have bounds := And.intro a.toNat_lt (And.intro b.toNat_lt c.toNat_lt)
  rw [same.first, same.second, same.third, same.fourth]
  omega

/-- The first byte is in the first two indices. -/
theorem SameBits.one (same : SameBits a b c w x y z) : (w <<< 2) + ((x &&& 0x30) >>> 4) = a := by
  have bounds := And.intro a.toNat_lt b.toNat_lt
  apply UInt8.toNat_inj.mp
  rw [UInt8.toNat_add, (decoder_masks w).1, (decoder_masks x).2.1, same.first, same.second]
  omega

/-- The second byte is in the second and the third index. -/
theorem SameBits.two (same : SameBits a b c w x y z) : ((x &&& 0xf) <<< 4) + ((y &&& 0x3c) >>> 2) = b := by
  have bounds := And.intro b.toNat_lt c.toNat_lt
  apply UInt8.toNat_inj.mp
  rw [UInt8.toNat_add, (decoder_masks x).2.2.1, (decoder_masks y).2.2.2.1, same.second, same.third]
  omega

/-- The third byte is in the third and the fourth index. -/
theorem SameBits.three (same : SameBits a b c w x y z) : ((y &&& 0x3) <<< 6) + z = c := by
  have bound := c.toNat_lt
  apply UInt8.toNat_inj.mp
  rw [UInt8.toNat_add, (decoder_masks y).2.2.2.2, same.third, same.fourth]
  omega

end Bits

/-! ### The alphabet

The alphabet is searched with `find`, so a sextet and its letter lead to each other, and the filler is no
letter. -/

/-- A sextet's letter is one of the alphabet and is found at its own place. -/
theorem alphabet_facts {n : UInt8} (small : n.toNat < 64) :
    base64Index (base64Char n) = n ∧ base64Char n ∈ base64Chars ∧ isBase64 (base64Char n) = true := by
  have all : ∀ n : UInt8, n.toNat < 64 →
      base64Index (base64Char n) = n ∧ base64Char n ∈ base64Chars ∧ isBase64 (base64Char n) = true :=
    forall_byte (by decide +kernel)
  exact all n small

/-- The filler is no letter. -/
theorem ne_filler_of_isBase64 {c : UInt8} (inside : isBase64 c = true) : c ≠ '='.toUInt8 := by
  rintro rfl
  exact absurd inside (by decide)

/-! ### Steps of the decoder -/

section Steps

variable {n : UInt8} {count : Int} {charArray4 : Bytes}

/-- A character of the alphabet is put into the array. -/
theorem decodeFrom_char (small : n.toNat < 64) (more : 0 < count) (room : charArray4.length ≠ 3)
    (rest : Bytes) :
    decodeFrom count charArray4 (base64Char n :: rest) =
      decodeFrom (count - 1) (charArray4 ++ [base64Char n]) rest := by
  have inside := (alphabet_facts small).2.2
  have other := ne_filler_of_isBase64 inside
  have notZero : count ≠ 0 := by omega
  rw [decodeFrom]
  simp [inside, other, notZero, room]

/-- The fourth one fills it. -/
theorem decodeFrom_last (small : n.toNat < 64) (more : 0 < count) (full : charArray4.length = 3)
    (rest : Bytes) :
    decodeFrom count charArray4 (base64Char n :: rest) =
      charArray3 (charArray4 ++ [base64Char n]) ++ decodeFrom (count - 1) [] rest := by
  have inside := (alphabet_facts small).2.2
  have other := ne_filler_of_isBase64 inside
  have notZero : count ≠ 0 := by omega
  rw [decodeFrom]
  simp [inside, other, notZero, full]

/-- The decoder stops at a filler. -/
theorem decodeFrom_filler (rest : Bytes) :
    decodeFrom count charArray4 ('='.toUInt8 :: rest) = decodeTail charArray4 := by
  simp [decodeFrom]

end Steps

/-! ### Groups

`Base64Text` relates bytes and their text group by group.  The encoder writes such a text and the decoder
reads it back, so the law is two inductions over one relation. -/

/-- A byte string and its text, group by group. -/
inductive Base64Text : Bytes → Bytes → Prop where
  | done : Base64Text [] []
  | one {a w x y z : UInt8} (bits : SameBits a 0 0 w x y z) :
      Base64Text [a] [base64Char w, base64Char x, '='.toUInt8, '='.toUInt8]
  | two {a b w x y z : UInt8} (bits : SameBits a b 0 w x y z) :
      Base64Text [a, b] [base64Char w, base64Char x, base64Char y, '='.toUInt8]
  | three {a b c w x y z : UInt8} {rest text : Bytes} (bits : SameBits a b c w x y z)
      (later : Base64Text rest text) :
      Base64Text (a :: b :: c :: rest) (base64Char w :: base64Char x :: base64Char y :: base64Char z :: text)

/-- The encoder writes the text of its bytes, group by group, with one of the three tails. -/
theorem base64Text_encodeFrom : ∀ s : Bytes, Base64Text s (encodeFrom [] s)
  | [] => .done
  | [a] => by
      obtain ⟨w, x, y, z, array, bits⟩ := charArray4_bits [a]
      have text : encodeFrom [] [a] = [base64Char w, base64Char x, '='.toUInt8, '='.toUInt8] := by
        simp [encodeFrom, encodeTail, array]
      rw [text]
      exact .one bits
  | [a, b] => by
      obtain ⟨w, x, y, z, array, bits⟩ := charArray4_bits [a, b]
      have text : encodeFrom [] [a, b] = [base64Char w, base64Char x, base64Char y, '='.toUInt8] := by
        simp [encodeFrom, encodeTail, array]
      rw [text]
      exact .two bits
  | a :: b :: c :: rest => by
      obtain ⟨w, x, y, z, array, bits⟩ := charArray4_bits [a, b, c]
      have text : encodeFrom [] (a :: b :: c :: rest) =
          base64Char w :: base64Char x :: base64Char y :: base64Char z :: encodeFrom [] rest := by
        simp [encodeFrom, array]
      rw [text]
      exact .three bits (base64Text_encodeFrom rest)

namespace Base64Text

variable {s text : Bytes}

/-- A text has four characters for every three bytes, the last group filled up. -/
theorem length (coded : Base64Text s text) : text.length = 4 * ((s.length + 2) / 3) := by
  induction coded with
  | done => rfl
  | one => simp
  | two => simp
  | three _ _ ih =>
      simp only [List.length_cons, ih]
      omega

/-- The alphabet's characters, and at most two fillers behind them. -/
theorem alphabet (coded : Base64Text s text) :
    ∃ body, ∃ k ≤ 2, text = body ++ List.replicate k '='.toUInt8 ∧ ∀ c ∈ body, c ∈ base64Chars := by
  induction coded with
  | done => exact ⟨[], 0, by decide, rfl, by simp⟩
  | @one a w x y z bits =>
      obtain ⟨first, second, -⟩ := bits.small
      refine ⟨[base64Char w, base64Char x], 2, by decide, rfl, ?_⟩
      simp [(alphabet_facts first).2.1, (alphabet_facts second).2.1]
  | @two a b w x y z bits =>
      obtain ⟨first, second, third, -⟩ := bits.small
      refine ⟨[base64Char w, base64Char x, base64Char y], 1, by decide, rfl, ?_⟩
      simp [(alphabet_facts first).2.1, (alphabet_facts second).2.1, (alphabet_facts third).2.1]
  | @three a b c w x y z rest text bits later ih =>
      obtain ⟨first, second, third, fourth⟩ := bits.small
      obtain ⟨body, k, few, rfl, inside⟩ := ih
      refine ⟨base64Char w :: base64Char x :: base64Char y :: base64Char z :: body, k, few, rfl, ?_⟩
      simpa [(alphabet_facts first).2.1, (alphabet_facts second).2.1, (alphabet_facts third).2.1,
        (alphabet_facts fourth).2.1] using inside

/-- The decoder takes a text back, with its length as the count. -/
theorem decode (coded : Base64Text s text) : decodeFrom text.length [] text = s := by
  induction coded with
  | done => rfl
  | @one a w x y z bits =>
      obtain ⟨first, second, -⟩ := bits.small
      rw [decodeFrom_char first (by simp) (by simp), decodeFrom_char second (by simp) (by simp),
        decodeFrom_filler]
      simp [decodeTail, charArray3, alphabet_facts, first, second, bits.one]
  | @two a b w x y z bits =>
      obtain ⟨first, second, third, -⟩ := bits.small
      rw [decodeFrom_char first (by simp) (by simp), decodeFrom_char second (by simp) (by simp),
        decodeFrom_char third (by simp) (by simp), decodeFrom_filler]
      simp [decodeTail, charArray3, alphabet_facts, first, second, third, bits.one, bits.two]
  | @three a b c w x y z rest text bits later ih =>
      obtain ⟨first, second, third, fourth⟩ := bits.small
      have count : ((base64Char w :: base64Char x :: base64Char y :: base64Char z :: text).length : Int) -
          1 - 1 - 1 - 1 =
          text.length := by
        simp only [List.length_cons]
        omega
      rw [decodeFrom_char first (by simp only [List.length_cons]; omega) (by simp),
        decodeFrom_char second (by simp only [List.length_cons]; omega) (by simp),
        decodeFrom_char third (by simp only [List.length_cons]; omega) (by simp),
        decodeFrom_last fourth (by simp only [List.length_cons]; omega) (by simp), count, ih]
      simp [charArray3, alphabet_facts, first, second, third, fourth, bits.one, bits.two, bits.three]

end Base64Text

/-- `base64_decode` undoes `base64_encode`, which writes four characters for three bytes or what is left of
    them: characters of the alphabet, and at most two fillers at the end. -/
theorem base64_law (s : Bytes) (short : s.length < 2 ^ 30) :
    base64Decode (base64Encode s) = s ∧ (base64Encode s).length = 4 * ((s.length + 2) / 3) ∧
      ∃ body, ∃ k ≤ 2, base64Encode s = body ++ List.replicate k '='.toUInt8 ∧
        ∀ c ∈ body, c ∈ base64Chars := by
  have coded := base64Text_encodeFrom s
  have whole : base64Encode s = encodeFrom [] s := by
    rw [base64Encode, wrapUnsigned, Nat.mod_eq_of_lt (by omega), List.take_length]
  have fits : wrapInt (base64Encode s).length = (base64Encode s).length := by
    rw [whole, coded.length]
    exact Int.bmod_eq_of_le (by omega) (by omega)
  refine ⟨?_, ?_, ?_⟩
  · rw [base64Decode, fits, whole, coded.decode]
  · rw [whole, coded.length]
  · rw [whole]
    exact coded.alphabet

theorem base64_law_five :
    base64Decode (base64Encode (bytes "wasp!")) = bytes "wasp!" ∧
      (base64Encode (bytes "wasp!")).length = 8 := by
  have law := base64_law (bytes "wasp!") (by decide)
  exact ⟨law.1, law.2.1⟩

end Waspp
