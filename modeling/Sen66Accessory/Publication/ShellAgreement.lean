import Sen66Accessory.AirQualityEndpoint.Adapter
import Sen66Accessory.Sen66.Encoding
import Sen66Accessory.Sen66.Shell

open Sen66 MeasurementService AirQualityEndpoint

namespace Publication

/-- A store that keeps whatever is handed to the setter of each attribute. -/
def lastWrites : AttributeStore ((a : Attribute) → a.Value) where
  read cells := cells
  write cells a value := Function.update cells a value

/-- What an apply hands to the setter of an attribute. -/
def published (shared : Snapshot) : (a : Attribute) → a.Value :=
  applyLatestMeasurement lastWrites shared Attribute.initial

/-- The attributes that publish a channel of the sensor. -/
def attributesOf : Field → List Attribute
  | .temperature => [.temperature kEndpointId, .temperature kTemperatureEndpointId]
  | .humidity => [.humidity]
  | .co2 => [.concentration .co2]
  | .pm1p0 => [.concentration .pm1]
  | .pm2p5 => [.concentration .pm25]
  | .pm10 => [.concentration .pm10]
  | .pm4p0 => []
  | .vocIndex => []
  | .noxIndex => []

/-- The unit of an attribute, for the integer ones that of a hundred steps. -/
def unitOf : Attribute → String
  | .temperature _ => "degC"
  | .humidity => "%RH"
  | .concentration .co2 => "ppm"
  | .concentration _ => "ug/m3"
  | .airQuality => ""

/-- The number an attribute value stands for in the unit of the attribute. -/
def numberOf : (a : Attribute) → a.Value → Option Rat
  | .temperature _, value => Option.map (fun centiDegC : Int16 => (centiDegC.toInt : Rat) / 100) value
  | .humidity, value => Option.map (fun centiPercent : UInt16 => (centiPercent.toNat : Rat) / 100) value
  | .concentration _, value => value
  | .airQuality, _ => none

/-- The shell prints a channel as its attributes publish it: not available where
    they are null, and else a decimal that denotes their number in their unit. -/
def Agrees (shared : Snapshot) (f : Field) : Prop :=
  ∃ line, (printMeasurement shared.measurement)[f.index]? = some line ∧
    ∀ a ∈ attributesOf f, line.Shows (unitOf a) (numberOf a (published shared a))

theorem lawful_lastWrites : lastWrites.Lawful where
  read_write _ _ _ _ _ _ := Function.update_self ..
  read_write_ne _ _ _ _ _ _ _ hne := Function.update_of_ne hne ..

/-- An apply hands every attribute the value it should show. -/
theorem published_eq_shown {shared : Snapshot} (hever : shared.everValid = true) {a : Attribute}
    (ha : a ∈ Attribute.published) : published shared a = a.shown shared.measurement := by
  rw [published, applyLatestMeasurement_eq, if_pos hever]
  exact lawful_lastWrites.read_foldl (Attribute.within_shown shared.measurement)
    (List.Subset.refl _) Attribute.nodup_published ha (fun _ => Function.update_self ..) _

theorem attributesOf_published {f : Field} {a : Attribute} (ha : a ∈ attributesOf f) :
    a ∈ Attribute.published := by
  have hall : ∀ f ∈ Field.all, ∀ a ∈ attributesOf f, a ∈ Attribute.published := by decide
  exact hall f f.mem_all a ha

theorem numberOf_temperature (m : Measurement) (endpoint : EndpointId) :
    numberOf (.temperature endpoint) ((Attribute.temperature endpoint).shown m) =
      if m.has .temperature then some (((m.temperature.toInt.tdiv 2 : Int) : Rat) / 100)
      else none := by
  rw [← toInt_temperatureRawToMatterCentiDegC]
  cases hvalid : m.has .temperature <;> simp [numberOf, Attribute.shown, hvalid]

theorem numberOf_humidity (m : Measurement) :
    numberOf .humidity (Attribute.humidity.shown m) =
      if m.has .humidity then some ((m.humidity.toUInt16.toNat : Rat) / 100) else none := by
  cases hvalid : m.has .humidity <;>
    simp [numberOf, Attribute.shown, hvalid, humidityRawToMatterCentiPercent]

/-- All channels but the humidity are printed as they are published. -/
theorem agrees_of_ne_humidity {shared : Snapshot} (hever : shared.everValid = true) {f : Field}
    (hf : f ≠ .humidity) : Agrees shared f := by
  have hshown {a : Attribute} (ha : a ∈ attributesOf f) :
      published shared a = a.shown shared.measurement :=
    published_eq_shown hever (attributesOf_published ha)
  cases f with
  | humidity => exact absurd rfl hf
  | pm4p0 | vocIndex | noxIndex => exact ⟨_, rfl, fun a ha => absurd ha (List.not_mem_nil)⟩
  | pm1p0 | pm2p5 | pm10 =>
    refine ⟨_, rfl, fun a ha => ?_⟩
    rw [hshown ha]
    obtain rfl := List.mem_singleton.mp ha
    exact (shows_printUnsignedTenth _ _ _).ite _ _
  | co2 =>
    refine ⟨_, rfl, fun a ha => ?_⟩
    rw [hshown ha]
    obtain rfl := List.mem_singleton.mp ha
    have hline : ShellLine.Shows
        ⟨"CO2", some (Decimal.digits 0 shared.measurement.co2.toNat, "ppm")⟩ "ppm"
        (some (shared.measurement.co2.toNat : Rat)) :=
      ⟨_, rfl, Decimal.read_digits 0 _⟩
    exact hline.ite _ _
  | temperature =>
    refine ⟨_, rfl, fun a ha => ?_⟩
    rw [hshown ha]
    have hline := shows_printSignedFixed "Temperature"
      (shared.measurement.temperature.toInt32 * 100 / 200) "degC"
    rw [toInt_scaled] at hline
    rcases List.mem_pair.mp ha with rfl | rfl <;>
      exact numberOf_temperature _ _ ▸ hline.ite _ _

/-- The cast that publishes a humidity keeps its value exactly when that is not
    negative. -/
theorem toNat_toUInt16_eq_iff (raw : Int16) : (raw.toUInt16.toNat : Int) = raw.toInt ↔ 0 ≤ raw.toInt := by
  have hlt := raw.toUInt16.toNat_lt
  have hcast := toInt_toInt16 raw.toUInt16
  rw [Int16.toInt16_toUInt16] at hcast
  rw [hcast]
  split <;> omega

/-- The humidity is printed as it is published exactly when it is not negative. -/
theorem agrees_humidity_iff {shared : Snapshot} (hever : shared.everValid = true) :
    Agrees shared .humidity ↔
      (shared.measurement.has .humidity = true → 0 ≤ shared.measurement.humidity.toInt) := by
  have hline := (shows_printSignedFixed "Humidity" shared.measurement.humidity.toInt32 "%RH").ite
    (shared.measurement.has .humidity) "Humidity"
  rw [Int16.toInt_toInt32] at hline
  have hshown : numberOf .humidity (published shared .humidity) =
      if shared.measurement.has .humidity = true then
        some ((shared.measurement.humidity.toUInt16.toNat : Rat) / 100)
      else none := by
    rw [published_eq_shown hever (by decide), numberOf_humidity]
  have hsame : Agrees shared .humidity ↔
      numberOf .humidity (published shared .humidity) =
        if shared.measurement.has .humidity = true then
          some ((shared.measurement.humidity.toInt : Rat) / 100)
        else none := by
    refine ⟨fun ⟨line, hrow, hshows⟩ => ?_, fun hnumber => ⟨_, rfl, fun a ha => ?_⟩⟩
    · obtain rfl := Option.some_inj.mp hrow
      exact (hshows .humidity List.mem_cons_self).unique hline
    · obtain rfl := List.mem_singleton.mp ha
      rw [hnumber]
      exact hline
  rw [hsame, hshown]
  cases shared.measurement.has .humidity with
  | false => simp
  | true =>
    have hhundred (n k : Int) : some ((n : Rat) / 100) = some ((k : Rat) / 100) ↔ n = k := by
      rw [Option.some_inj, div_left_inj' (by norm_num), Int.cast_inj]
    simp only [if_true, true_imp_iff]
    rw [← Int.cast_natCast, hhundred, toNat_toUInt16_eq_iff]

/-- For an accepted response the shell and the attributes agree on all channels
    exactly when the humidity register is not negative, the sentinel included. -/
theorem shell_agrees_iff {raw : Vector UInt8 kMeasurementBytes} {out : Measurement}
    (haccepted : (parseMeasurement raw out).1 = true) {shared : Snapshot}
    (hever : shared.everValid = true) (hm : shared.measurement = (parseMeasurement raw out).2) :
    (∀ f, Agrees shared f) ↔ (word raw 4).toNat < 0x8000 := by
  rw [parseMeasurement_eq] at haccepted hm
  change checkWordsCrc kMeasurementWords raw = true at haccepted
  rw [haccepted, if_pos rfl] at hm
  change shared.measurement = decodeMeasurement raw at hm
  have hregister : shared.measurement.humidity = (word raw 4).toInt16 := by rw [hm]; rfl
  have hsign : 0 ≤ shared.measurement.humidity.toInt ↔ (word raw 4).toNat < 0x8000 := by
    have hlt := (word raw 4).toNat_lt
    rw [hregister, toInt_toInt16]
    split <;> omega
  have hsentinel (hinvalid : shared.measurement.has .humidity = false) :
      0 ≤ shared.measurement.humidity.toInt := by
    rw [hm, has_decodeMeasurement, ← hm] at hinvalid
    have hunavailable : shared.measurement.humidity = kUnavailableSigned := by
      simpa [Measurement.available] using hinvalid
    rw [hunavailable]
    decide
  have hall : (∀ f, Agrees shared f) ↔ Agrees shared .humidity := by
    refine ⟨fun h => h .humidity, fun h f => ?_⟩
    by_cases hf : f = .humidity
    · exact hf ▸ h
    · exact agrees_of_ne_humidity hever hf
  rw [hall, agrees_humidity_iff hever, ← hsign]
  refine ⟨fun h => ?_, fun h _ => h⟩
  cases hvalid : shared.measurement.has .humidity with
  | false => exact hsentinel hvalid
  | true => exact h hvalid

/-- The snapshot once a frame has been read. -/
def snapshotOf (frame : Frame) : Snapshot where
  measurement := (parseMeasurement frame.raw {}).2
  everValid := true

theorem measurement_snapshotOf (frame : Frame) :
    (snapshotOf frame).measurement = (parseMeasurement frame.raw {}).2 := rfl

/-- A frame with every channel valid: 45.5 %RH at -10 degC. -/
def frostFrame : Frame := .encode fun i => #v[100, 150, 180, 200, 4550, 63536, 120, 10, 800][i]

theorem shell_agrees_iff_frost :
    Agrees (snapshotOf frostFrame) .temperature ∧ Agrees (snapshotOf frostFrame) .humidity := by
  have haccepted : (parseMeasurement frostFrame.raw {}).1 = true := by decide +kernel
  have hall : ∀ f, Agrees (snapshotOf frostFrame) f :=
    (shell_agrees_iff haccepted rfl (measurement_snapshotOf _)).mpr (by decide +kernel)
  exact ⟨hall .temperature, hall .humidity⟩

/-- The same frame with a relative humidity of -1 %. -/
def dryFrame : Frame := .encode fun i => #v[100, 150, 180, 200, 0xFF9C, 63536, 120, 10, 800][i]

/-- The shell prints -1.00 where the attribute publishes 65436 hundredths. -/
theorem shell_disagrees_negative_humidity :
    (parseMeasurement dryFrame.raw {}).1 = true ∧
    (printMeasurement (snapshotOf dryFrame).measurement)[4]? =
      some ⟨"Humidity", some (['-', '1', '.', '0', '0'], "%RH")⟩ ∧
    published (snapshotOf dryFrame) .humidity = some (65436 : UInt16) ∧
    ¬ ∀ f, Agrees (snapshotOf dryFrame) f := by
  refine ⟨by decide +kernel, by decide +kernel, by decide +kernel, fun h => ?_⟩
  have hsign := (agrees_humidity_iff rfl).mp (h .humidity) (by decide +kernel)
  revert hsign
  decide +kernel

end Publication
