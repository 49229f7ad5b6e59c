import Mathlib.Logic.Function.Iterate

namespace Sen66

def kPolynomial : UInt8 := 0x31
def kInit : UInt8 := 0xFF

/-- One turn of the inner loop: shift left, reducing by the polynomial when the
    top bit falls out. -/
def crcBit (crc : UInt8) : UInt8 :=
  if crc &&& 0x80 != 0 then (crc <<< 1) ^^^ kPolynomial else crc <<< 1

/-- One turn of the outer loop: absorb a byte and run the eight bit steps. -/
def crcByte (crc byte : UInt8) : UInt8 :=
  Nat.iterate crcBit 8 (crc ^^^ byte)

def crc (data : List UInt8) : UInt8 :=
  data.foldl crcByte kInit

example : crc [0xBE, 0xEF] = 0x92 := by decide +kernel

end Sen66
