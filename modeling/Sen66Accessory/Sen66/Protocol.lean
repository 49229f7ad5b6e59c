import Sen66Accessory.Flags
import Sen66Accessory.Sen66.Crc

namespace Sen66

/-- The 16-bit commands of the sensor. -/
inductive Command where
  | startMeasurement
  | stopMeasurement
  | getDataReady
  | readMeasuredValues
  | getSerialNumber
  | deviceReset
  deriving DecidableEq

def Command.opcode : Command → UInt16
  | .startMeasurement => 0x0021
  | .stopMeasurement => 0x0104
  | .getDataReady => 0x0202
  | .readMeasuredValues => 0x0300
  | .getSerialNumber => 0xD033
  | .deviceReset => 0xD304

abbrev kWordSize : Nat := 3
abbrev kMeasurementWords : Nat := 9
abbrev kMeasurementBytes : Nat := kMeasurementWords * kWordSize
abbrev kSerialWords : Nat := 16
abbrev kSerialBytes : Nat := kSerialWords * kWordSize
abbrev kSerialChars : Nat := kSerialWords * 2 + 1
abbrev kDataReadyBytes : Nat := kWordSize

instance : NeZero kWordSize := ⟨by decide⟩

instance : NeZero kMeasurementWords := ⟨by decide⟩

def kUnavailableUnsigned : UInt16 := 0xFFFF
def kUnavailableSigned : Int16 := 0x7FFF

/-- The channels of a measurement, each naming its validity bit. -/
inductive Field where
  | pm1p0
  | pm2p5
  | pm4p0
  | pm10
  | humidity
  | temperature
  | vocIndex
  | noxIndex
  | co2
  deriving DecidableEq

/-- The bit positions of the validity mask, `kFieldPm1p0 = 1u << 0` upwards. -/
def Field.index : Field → Nat
  | .pm1p0 => 0
  | .pm2p5 => 1
  | .pm4p0 => 2
  | .pm10 => 3
  | .humidity => 4
  | .temperature => 5
  | .vocIndex => 6
  | .noxIndex => 7
  | .co2 => 8

/-- The channels in the order the code tests them. -/
def Field.all : List Field :=
  [.pm1p0, .pm2p5, .pm4p0, .pm10, .humidity, .temperature, .vocIndex, .noxIndex, .co2]

instance : FlagIndex Field where
  index := Field.index
  index_lt := by intro f; cases f <;> decide
  index_injective := by intro f g; cases f <;> cases g <;> simp [Field.index]

theorem Field.mem_all (f : Field) : f ∈ Field.all := by cases f <;> decide

/-- One decoded frame in the sensor's native fixed point. -/
structure Measurement where
  pm1p0 : UInt16 := 0
  pm2p5 : UInt16 := 0
  pm4p0 : UInt16 := 0
  pm10 : UInt16 := 0
  humidity : Int16 := 0
  temperature : Int16 := 0
  voc_index : Int16 := 0
  nox_index : Int16 := 0
  co2 : UInt16 := 0
  valid : UInt16 := 0
  deriving DecidableEq

/-- Whether a channel's validity bit is set. -/
def Measurement.has (m : Measurement) (f : Field) : Bool := Flags.has m.valid f

/-- The exact integer a channel's register holds. -/
def Measurement.raw (m : Measurement) : Field → Int
  | .pm1p0 => m.pm1p0.toNat
  | .pm2p5 => m.pm2p5.toNat
  | .pm4p0 => m.pm4p0.toNat
  | .pm10 => m.pm10.toNat
  | .humidity => m.humidity.toInt
  | .temperature => m.temperature.toInt
  | .vocIndex => m.voc_index.toInt
  | .noxIndex => m.nox_index.toInt
  | .co2 => m.co2.toNat

/-- Whether a channel's value differs from its unavailable sentinel. -/
def Measurement.available (m : Measurement) : Field → Bool
  | .pm1p0 => m.pm1p0 != kUnavailableUnsigned
  | .pm2p5 => m.pm2p5 != kUnavailableUnsigned
  | .pm4p0 => m.pm4p0 != kUnavailableUnsigned
  | .pm10 => m.pm10 != kUnavailableUnsigned
  | .humidity => m.humidity != kUnavailableSigned
  | .temperature => m.temperature != kUnavailableSigned
  | .vocIndex => m.voc_index != kUnavailableSigned
  | .noxIndex => m.nox_index != kUnavailableSigned
  | .co2 => m.co2 != kUnavailableUnsigned

/-- The position in a buffer of byte `k` of word `i`. -/
def wordIndex {words : Nat} (i : Fin words) (k : Fin kWordSize) : Fin (words * kWordSize) :=
  ⟨i * kWordSize + k, by
    have hi := i.isLt
    have hk : (k : Nat) < 3 := k.isLt
    change (i : Nat) * 3 + k < words * 3
    omega⟩

/-- `w[k]` for the word pointer `w = &buf[i * kWordSize]`. -/
def wordByte {words : Nat} (buf : Vector UInt8 (words * kWordSize)) (i : Fin words)
    (k : Fin kWordSize) : UInt8 :=
  buf[wordIndex i k]

/-- The big-endian payload of word `i`. -/
def word {words : Nat} (raw : Vector UInt8 (words * kWordSize)) (i : Fin words) : UInt16 :=
  ((wordByte raw i 0).toUInt16 <<< 8) ||| (wordByte raw i 1).toUInt16

/-- Whether the CRC byte of every word matches its payload. -/
def checkWordsCrc (words : Nat) (buf : Vector UInt8 (words * kWordSize)) : Bool :=
  (List.finRange words).all fun i => crc [wordByte buf i 0, wordByte buf i 1] == wordByte buf i 2

/-- The measurement an accepted response decodes to. -/
def decodeMeasurement (raw : Vector UInt8 kMeasurementBytes) : Measurement :=
  let out : Measurement := {
    pm1p0 := word raw 0
    pm2p5 := word raw 1
    pm4p0 := word raw 2
    pm10 := word raw 3
    humidity := (word raw 4).toInt16
    temperature := (word raw 5).toInt16
    voc_index := (word raw 6).toInt16
    nox_index := (word raw 7).toInt16
    co2 := word raw 8 }
  { out with valid := Flags.collect Field.all out.available }

/-- Returns the result code with the out-parameter, which a rejected response
    leaves alone. -/
def parseMeasurement (raw : Vector UInt8 kMeasurementBytes) (out : Measurement) :
    Bool × Measurement :=
  if checkWordsCrc kMeasurementWords raw then (true, decodeMeasurement raw) else (false, out)

/-- A caller's text buffer, with the indices stored to so far, newest first. -/
structure CharBuffer where
  chars : Vector UInt8 kSerialChars
  stored : List Nat := []
  deriving DecidableEq

/-- `out[n] = c`. A store outside the buffer shows in the indices alone. -/
def CharBuffer.store (out : CharBuffer) (n : Nat) (c : UInt8) : CharBuffer where
  chars := out.chars.setIfInBounds n c
  stored := n :: out.stored

/-- One turn of the loop over the words: two stores at the cursor. -/
def storeWord (raw : Vector UInt8 kSerialBytes) (cursor : Nat × CharBuffer)
    (i : Fin kSerialWords) : Nat × CharBuffer :=
  let (n, out) := cursor
  let out := out.store n (wordByte raw i 0)
  let out := out.store (n + 1) (wordByte raw i 1)
  (n + 2, out)

/-- Returns the result code with the out-parameter, which a rejected response
    leaves alone. -/
def parseSerialNumber (raw : Vector UInt8 kSerialBytes) (out : CharBuffer) : Bool × CharBuffer :=
  if !checkWordsCrc kSerialWords raw then (false, out)
  else
    let (n, out) := (List.finRange kSerialWords).foldl (storeWord raw) (0, out)
    (true, out.store n 0)

/-- Two bytes in big-endian order make the first times 256 plus the second. -/
theorem toNat_bigEndian (hi lo : UInt8) :
    (hi.toUInt16 <<< 8 ||| lo.toUInt16).toNat = 256 * hi.toNat + lo.toNat := by
  have hhi := hi.toNat_lt
  have hlo := lo.toNat_lt
  have hshift : hi.toNat <<< 8 % 2 ^ 16 = 2 ^ 8 * hi.toNat := by
    rw [Nat.shiftLeft_eq]
    omega
  rw [UInt16.toNat_or, UInt16.toNat_shiftLeft, UInt8.toNat_toUInt16, UInt8.toNat_toUInt16,
    show (8 : UInt16).toNat % 16 = 8 from rfl, hshift, ← Nat.two_pow_add_eq_or_of_lt hlo]

theorem toUInt8_bigEndian_shiftRight (hi lo : UInt8) :
    ((hi.toUInt16 <<< 8 ||| lo.toUInt16) >>> 8).toUInt8 = hi := by
  have hhi := hi.toNat_lt
  have hlo := lo.toNat_lt
  apply UInt8.toNat_inj.mp
  rw [UInt16.toNat_toUInt8, UInt16.toNat_shiftRight, toNat_bigEndian,
    show (8 : UInt16).toNat % 16 = 8 from rfl, Nat.shiftRight_eq_div_pow]
  omega

theorem toUInt8_bigEndian (hi lo : UInt8) : (hi.toUInt16 <<< 8 ||| lo.toUInt16).toUInt8 = lo := by
  have hlo := lo.toNat_lt
  apply UInt8.toNat_inj.mp
  rw [UInt16.toNat_toUInt8, toNat_bigEndian]
  omega

theorem toNat_word {words : Nat} (raw : Vector UInt8 (words * kWordSize)) (i : Fin words) :
    (word raw i).toNat = 256 * (wordByte raw i 0).toNat + (wordByte raw i 1).toNat :=
  toNat_bigEndian _ _

/-- A register read as two's complement. -/
theorem toInt_toInt16 (register : UInt16) :
    register.toInt16.toInt =
      if register.toNat < 0x8000 then (register.toNat : Int) else register.toNat - 0x10000 := by
  have hlt := register.toNat_lt
  have hcond : register.toInt16.toInt =
      if 2 * register.toNat < 2 ^ 16 then (register.toNat : Int)
      else register.toNat - (2 ^ 16 : Nat) :=
    BitVec.toInt_eq_toNat_cond _
  rw [hcond]
  split <;> split <;> omega

/-- Every byte of a response is the byte at some position of some word. -/
theorem exists_wordIndex {words : Nat} (j : Fin (words * kWordSize)) :
    ∃ (i : Fin words) (k : Fin kWordSize), wordIndex i k = j := by
  have hj : (j : Nat) < words * 3 := j.isLt
  refine ⟨⟨j / 3, by omega⟩, ⟨j % 3, Nat.mod_lt _ (by decide)⟩, ?_⟩
  apply Fin.ext
  change (j : Nat) / 3 * 3 + j % 3 = j
  omega

/-- Two responses are equal when they hold the same bytes in every word. -/
theorem wordByte_ext {words : Nat} {a b : Vector UInt8 (words * kWordSize)}
    (h : ∀ i k, wordByte a i k = wordByte b i k) : a = b := by
  apply Vector.ext
  intro j hj
  obtain ⟨i, k, hik⟩ := exists_wordIndex (⟨j, hj⟩ : Fin (words * kWordSize))
  have hbyte := h i k
  simp only [wordByte, hik] at hbyte
  exact hbyte

theorem checkWordsCrc_iff {words : Nat} (buf : Vector UInt8 (words * kWordSize)) :
    checkWordsCrc words buf = true ↔
      ∀ i, crc [wordByte buf i 0, wordByte buf i 1] = wordByte buf i 2 := by
  simp [checkWordsCrc]

/-- A decoded channel is valid exactly when its register is not the sentinel. -/
@[simp] theorem has_decodeMeasurement (raw : Vector UInt8 kMeasurementBytes) (f : Field) :
    (decodeMeasurement raw).has f = (decodeMeasurement raw).available f := by
  rw [Measurement.has, decodeMeasurement, Flags.has_collect]
  cases f <;> simp [Field.mem_all, Measurement.available]

/-- Decoding sets no bit outside the nine validity bits. -/
theorem within_decodeMeasurement (raw : Vector UInt8 kMeasurementBytes) :
    Flags.Within Field (decodeMeasurement raw).valid :=
  Flags.within_collect _ _

theorem parseMeasurement_eq (raw : Vector UInt8 kMeasurementBytes) (out : Measurement) :
    parseMeasurement raw out =
      (checkWordsCrc kMeasurementWords raw,
        if checkWordsCrc kMeasurementWords raw then decodeMeasurement raw else out) := by
  unfold parseMeasurement
  split <;> simp_all

end Sen66
