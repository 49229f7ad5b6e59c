import Sen66Accessory.Sen66.Encoding
import Mathlib.Data.Set.Function

namespace Sen66

/-- The payload words that put a measurement on the wire. -/
def Measurement.payload (m : Measurement) : Fin kMeasurementWords → UInt16
  | 0 => m.pm1p0
  | 1 => m.pm2p5
  | 2 => m.pm4p0
  | 3 => m.pm10
  | 4 => m.humidity.toUInt16
  | 5 => m.temperature.toUInt16
  | 6 => m.voc_index.toUInt16
  | 7 => m.nox_index.toUInt16
  | 8 => m.co2

/-- The response that carries a measurement: every channel as a big-endian word
    followed by its CRC. -/
def encodeMeasurement (m : Measurement) : Vector UInt8 kMeasurementBytes :=
  encodeWords m.payload

/-- A measurement whose validity mask is the one its values call for: of the
    nine channels exactly those away from their sentinel, and nothing else. -/
structure Measurement.Canonical (m : Measurement) : Prop where
  has_eq_available : ∀ f, m.has f = m.available f
  testBit_of_above : ∀ n, 8 < n → m.valid.toNat.testBit n = false

/-- The validity bits are the nine lowest bits of the mask. -/
theorem Field.within_iff {mask : UInt16} :
    Flags.Within Field mask ↔ ∀ n, 8 < n → mask.toNat.testBit n = false := by
  constructor
  · intro hwithin n hn
    by_contra hbit
    obtain ⟨f, hf⟩ := hwithin n (by simpa using hbit)
    have hle : f.index ≤ 8 := by cases f <;> decide
    change f.index = n at hf
    omega
  · intro habove n hbit
    have hn : n < 9 := by
      by_contra hn
      rw [habove n (by omega)] at hbit
      cases hbit
    have hcovered : ∀ n < 9, ∃ f ∈ Field.all, f.index = n := by decide
    obtain ⟨f, _, hf⟩ := hcovered n hn
    exact ⟨f, hf⟩

/-- Measurements are equal when they hold the same registers and masks. -/
theorem Measurement.ext_payload {a b : Measurement} (hpayload : a.payload = b.payload)
    (hvalid : a.valid = b.valid) : a = b := by
  have hsigned : Function.Injective Int16.toUInt16 :=
    Function.LeftInverse.injective Int16.toInt16_toUInt16
  have hword (i : Fin kMeasurementWords) : a.payload i = b.payload i := congrFun hpayload i
  have h0 : a.pm1p0 = b.pm1p0 := hword 0
  have h1 : a.pm2p5 = b.pm2p5 := hword 1
  have h2 : a.pm4p0 = b.pm4p0 := hword 2
  have h3 : a.pm10 = b.pm10 := hword 3
  have h4 : a.humidity = b.humidity := hsigned (hword 4)
  have h5 : a.temperature = b.temperature := hsigned (hword 5)
  have h6 : a.voc_index = b.voc_index := hsigned (hword 6)
  have h7 : a.nox_index = b.nox_index := hsigned (hword 7)
  have h8 : a.co2 = b.co2 := hword 8
  cases a
  cases b
  simp_all

/-- Which channels are available depends on the registers alone. -/
theorem Measurement.available_congr {a b : Measurement} (hpayload : a.payload = b.payload)
    (f : Field) : a.available f = b.available f := by
  have hregisters := Measurement.ext_payload (a := { a with valid := 0 })
    (b := { b with valid := 0 }) hpayload rfl
  have ha : a.available f = { a with valid := 0 }.available f := by cases f <;> rfl
  have hb : b.available f = { b with valid := 0 }.available f := by cases f <;> rfl
  rw [ha, hb, hregisters]

/-- The registers determine a canonical measurement. -/
theorem Measurement.Canonical.ext {a b : Measurement} (ha : a.Canonical) (hb : b.Canonical)
    (hpayload : a.payload = b.payload) : a = b := by
  refine Measurement.ext_payload hpayload ?_
  apply Flags.Within.ext (ι := Field)
  · exact Field.within_iff.mpr ha.testBit_of_above
  · exact Field.within_iff.mpr hb.testBit_of_above
  · intro f
    have hvalid := (ha.has_eq_available f).trans (Measurement.available_congr hpayload f)
    exact hvalid.trans (hb.has_eq_available f).symm

/-- Decoding marks a channel valid exactly when it is available. -/
theorem canonical_decodeMeasurement (raw : Vector UInt8 kMeasurementBytes) :
    (decodeMeasurement raw).Canonical where
  has_eq_available := has_decodeMeasurement raw
  testBit_of_above := Field.within_iff.mp (within_decodeMeasurement raw)

/-- The registers of a decoded response are its words. -/
theorem payload_decodeMeasurement (raw : Vector UInt8 kMeasurementBytes) :
    (decodeMeasurement raw).payload = word raw := by
  funext i
  match i with
  | 0 | 1 | 2 | 3 | 8 => rfl
  | 4 | 5 | 6 | 7 => exact UInt16.toUInt16_toInt16 _

/-- Encoding what an accepted response decodes to gives the response back. -/
theorem encodeMeasurement_decodeMeasurement {raw : Vector UInt8 kMeasurementBytes}
    (hcrc : checkWordsCrc kMeasurementWords raw = true) :
    encodeMeasurement (decodeMeasurement raw) = raw := by
  rw [encodeMeasurement, payload_decodeMeasurement, encodeWords_word hcrc]

/-- Decoding an encoded canonical measurement gives it back in every field. -/
theorem decodeMeasurement_encodeMeasurement {m : Measurement} (hm : m.Canonical) :
    decodeMeasurement (encodeMeasurement m) = m := by
  apply (canonical_decodeMeasurement _).ext hm
  rw [payload_decodeMeasurement]
  funext i
  exact word_encodeWords m.payload i

/-- Accepting is the CRC of every word matching, and a rejected response leaves
    the out-parameter alone. On accepted responses parsing is a bijection to the
    canonical measurements, whose inverse is the encoding. -/
theorem parseMeasurement_inverts_encodeMeasurement (out : Measurement) :
    (∀ raw, (parseMeasurement raw out).1 = true ↔
      ∀ i, crc [wordByte raw i 0, wordByte raw i 1] = wordByte raw i 2) ∧
    (∀ raw, (parseMeasurement raw out).1 = false → (parseMeasurement raw out).2 = out) ∧
    Set.BijOn (fun raw => (parseMeasurement raw out).2)
      {raw | (parseMeasurement raw out).1 = true} {m | m.Canonical} ∧
    (∀ m : Measurement, m.Canonical →
      parseMeasurement (encodeMeasurement m) out = (true, m)) ∧
    (∀ raw, (parseMeasurement raw out).1 = true →
      encodeMeasurement (parseMeasurement raw out).2 = raw) := by
  have haccepted (raw) (hcrc : (parseMeasurement raw out).1 = true) :
      (parseMeasurement raw out).2 = decodeMeasurement raw := by
    simp only [parseMeasurement_eq] at hcrc ⊢
    rw [if_pos hcrc]
  have hdecode (m : Measurement) (hm : m.Canonical) :
      parseMeasurement (encodeMeasurement m) out = (true, m) := by
    have hcrc : checkWordsCrc kMeasurementWords (encodeMeasurement m) = true :=
      checkWordsCrc_encodeWords m.payload
    rw [parseMeasurement_eq, hcrc, if_pos rfl, decodeMeasurement_encodeMeasurement hm]
  have hencode (raw) (hcrc : (parseMeasurement raw out).1 = true) :
      encodeMeasurement (parseMeasurement raw out).2 = raw := by
    rw [haccepted raw hcrc]
    rw [parseMeasurement_eq] at hcrc
    exact encodeMeasurement_decodeMeasurement hcrc
  refine ⟨fun raw => ?_, fun raw hrejected => ?_, ⟨?_, ?_, ?_⟩, hdecode, hencode⟩
  · rw [parseMeasurement_eq]
    exact checkWordsCrc_iff raw
  · rw [parseMeasurement_eq] at hrejected ⊢
    change checkWordsCrc kMeasurementWords raw = false at hrejected
    simp [hrejected]
  · intro raw hcrc
    change (parseMeasurement raw out).2.Canonical
    rw [haccepted raw hcrc]
    exact canonical_decodeMeasurement raw
  · intro a ha b hb hab
    rw [← hencode a ha, ← hencode b hb]
    exact congrArg encodeMeasurement hab
  · intro m hm
    exact ⟨encodeMeasurement m, by simp [hdecode m hm], by simp [hdecode m hm]⟩

/-- A measurement with each sentinel once as a sentinel and once as a value. -/
def sentinelMeasurement : Measurement where
  pm1p0 := 0x7FFF
  pm2p5 := 0xFFFF
  humidity := -1
  temperature := 0x7FFF
  valid := 0x1DD

theorem parseMeasurement_inverts_encodeMeasurement_sentinels :
    parseMeasurement (encodeMeasurement sentinelMeasurement) {} = (true, sentinelMeasurement) :=
  (parseMeasurement_inverts_encodeMeasurement {}).2.2.2.1 sentinelMeasurement {
    has_eq_available := by intro f; cases f <;> decide
    testBit_of_above := Field.within_iff.mp
      (Flags.within_collect Field.all sentinelMeasurement.available) }

end Sen66
