/-
Module: Waspp.Foundation.Crc32
Layer: Foundation
Purpose: The CRC-32 of IEEE 802.3 (polynomial 0x04C11DB7, input and output reflected, initial value and final
  mask all ones), bit by bit.
Imports: Waspp.Foundation.CString
Trusted boundary: human-reviewed definition of a published checksum
Main exports: crc32
Open obligations: none
-/
import Waspp.Foundation.CString

namespace Crc32

open CString

/-- One bit of the shift register, with the reflected polynomial. -/
def bitStep (register : UInt32) : UInt32 :=
  if register &&& 1 = 1 then (register >>> 1) ^^^ 0xEDB88320 else register >>> 1

/-- One byte of input. -/
def byteStep (register : UInt32) (b : UInt8) : UInt32 :=
  bitStep^[8] (register ^^^ b.toUInt32)

/-- The checksum of a byte string. -/
def crc32 (s : Bytes) : UInt32 :=
  s.foldl byteStep 0xFFFFFFFF ^^^ 0xFFFFFFFF

@[simp] theorem crc32_nil : crc32 [] = 0 := rfl

/-- The published check value. -/
example : crc32 (bytes "123456789") = 0xCBF43926 := by decide +kernel

end Crc32
