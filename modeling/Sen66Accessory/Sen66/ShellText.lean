import Sen66Accessory.AirQualityEndpoint.Policy
import Sen66Accessory.Sen66.Canonical
import Sen66Accessory.Sen66.Shell

namespace Sen66

/-- The label the shell prints a channel under. -/
def Field.label : Field → String
  | .pm1p0 => "PM1.0"
  | .pm2p5 => "PM2.5"
  | .pm4p0 => "PM4.0"
  | .pm10 => "PM10"
  | .humidity => "Humidity"
  | .temperature => "Temperature"
  | .vocIndex => "VOC index"
  | .noxIndex => "NOx index"
  | .co2 => "CO2"

/-- The unit the shell prints a channel in. -/
def Field.unit : Field → String
  | .pm1p0 | .pm2p5 | .pm4p0 | .pm10 => "ug/m3"
  | .humidity => "%RH"
  | .temperature => "degC"
  | .vocIndex | .noxIndex => ""
  | .co2 => "ppm"

/-- The number of a channel in that unit, the temperature in whole hundredths. -/
def Measurement.number (m : Measurement) : Field → Rat
  | .humidity => m.raw .humidity / 100
  | .temperature => ((m.raw .temperature).tdiv 2 : Int) / 100
  | .co2 => m.raw .co2
  | f => m.raw f / 10

/-- What the shell shows of a channel. -/
def Measurement.displayed (m : Measurement) (f : Field) : Option Rat :=
  if m.has f = true then some (m.number f) else none

/-- Each channel has its line, which shows what the channel displays. -/
theorem shows_printMeasurement (m : Measurement) (f : Field) :
    ∃ line, (printMeasurement m)[f.index]? = some line ∧ line.label = f.label ∧
      line.Shows f.unit (m.displayed f) := by
  have hlabel (line : ShellLine) (hline : line.label = f.label) :
      (if m.has f = true then line else printNa f.label).label = f.label := by
    split
    · exact hline
    · rfl
  have hcast (n : Nat) : ((n : Int) : Rat) = n := Int.cast_natCast n
  cases f with
  | pm1p0 | pm2p5 | pm4p0 | pm10 =>
    refine ⟨_, rfl, hlabel _ rfl, ?_⟩
    simp only [Measurement.displayed, Measurement.number, Measurement.raw, hcast]
    exact (shows_printUnsignedTenth _ _ _).ite _ _
  | humidity =>
    refine ⟨_, rfl, hlabel _ rfl, ?_⟩
    have hline := (shows_printSignedFixed "Humidity" m.humidity.toInt32 "%RH").ite
      (m.has .humidity) "Humidity"
    rwa [Int16.toInt_toInt32] at hline
  | temperature =>
    refine ⟨_, rfl, hlabel _ rfl, ?_⟩
    have hline := (shows_printSignedFixed "Temperature" (m.temperature.toInt32 * 100 / 200)
      "degC").ite (m.has .temperature) "Temperature"
    rwa [AirQualityEndpoint.toInt_scaled] at hline
  | vocIndex =>
    refine ⟨_, rfl, hlabel _ rfl, ?_⟩
    have hline := (shows_printSignedFixed_tenths "VOC index" m.voc_index.toInt32 "").ite
      (m.has .vocIndex) "VOC index"
    rwa [Int16.toInt_toInt32] at hline
  | noxIndex =>
    refine ⟨_, rfl, hlabel _ rfl, ?_⟩
    have hline := (shows_printSignedFixed_tenths "NOx index" m.nox_index.toInt32 "").ite
      (m.has .noxIndex) "NOx index"
    rwa [Int16.toInt_toInt32] at hline
  | co2 =>
    refine ⟨_, rfl, hlabel _ rfl, ?_⟩
    have hline : ShellLine.Shows ⟨"CO2", some (Decimal.digits 0 m.co2.toNat, "ppm")⟩ "ppm"
        (some (m.co2.toNat : Rat)) := ⟨_, rfl, Decimal.read_digits 0 _⟩
    simp only [Measurement.displayed, Measurement.number, Measurement.raw, hcast]
    exact hline.ite _ _

/-- Lines with one label and one unit that read the same show the same number. -/
theorem ShellLine.Shows.of_text_eq {line line' : ShellLine} {unit : String} {q q' : Option Rat}
    (hlabel : line.label = line'.label) (hq : line.Shows unit q) (hq' : line'.Shows unit q')
    (htext : line.text = line'.text) : q = q' := by
  rw [ShellLine.text, ShellLine.text, hlabel, List.append_right_inj, List.cons_inj_right] at htext
  -- A decimal is followed by a blank, which the text without one does not have.
  have hblank (decimal : List Char) : decimal ++ ' ' :: unit.toList ≠ "<n/a>".toList := by
    intro h
    have hmem : ' ' ∈ "<n/a>".toList := h ▸ List.mem_append_right _ List.mem_cons_self
    revert hmem
    decide
  match q, q', hq, hq' with
  | none, none, _, _ => rfl
  | none, some _, hq, ⟨decimal, hq', _⟩ =>
    rw [show line.reading = none from hq, hq'] at htext
    exact absurd htext.symm (hblank decimal)
  | some _, none, ⟨decimal, hq, _⟩, hq' =>
    rw [hq, show line'.reading = none from hq'] at htext
    exact absurd htext (hblank decimal)
  | some _, some _, ⟨decimal, hq, hread⟩, ⟨decimal', hq', hread'⟩ =>
    rw [hq, hq'] at htext
    obtain rfl := List.append_cancel_right htext
    exact hread.symm.trans hread'

/-- The text of a whole measurement, line by line. -/
def printedText (m : Measurement) : List (List Char) := (printMeasurement m).map ShellLine.text

theorem displayed_of_printedText {m m' : Measurement} (htext : printedText m = printedText m')
    (f : Field) : m.displayed f = m'.displayed f := by
  obtain ⟨line, hrow, hlabel, hshows⟩ := shows_printMeasurement m f
  obtain ⟨line', hrow', hlabel', hshows'⟩ := shows_printMeasurement m' f
  refine hshows.of_text_eq (hlabel.trans hlabel'.symm) hshows' ?_
  have hsame : (printedText m)[f.index]? = (printedText m')[f.index]? := by rw [htext]
  rw [printedText, printedText, List.getElem?_map, List.getElem?_map, hrow, hrow'] at hsame
  exact Option.some_inj.mp hsame

/-- The register value that stands for an unavailable channel. -/
def Field.sentinel : Field → Int
  | .pm1p0 | .pm2p5 | .pm4p0 | .pm10 | .co2 => 0xFFFF
  | .humidity | .temperature | .vocIndex | .noxIndex => 0x7FFF

theorem raw_of_not_available {m : Measurement} {f : Field} (h : m.available f = false) :
    m.raw f = f.sentinel := by
  cases f <;>
  · simp only [Measurement.available, bne_eq_false_iff_eq] at h
    simp only [Measurement.raw, h]
    rfl

theorem Measurement.ext_raw {a b : Measurement} (hraw : ∀ f, a.raw f = b.raw f)
    (hvalid : a.valid = b.valid) : a = b := by
  have hunsigned {x y : UInt16} (h : (x.toNat : Int) = y.toNat) : x = y :=
    UInt16.toNat_inj.mp (Int.natCast_inj.mp h)
  have h0 : a.pm1p0 = b.pm1p0 := hunsigned (hraw .pm1p0)
  have h1 : a.pm2p5 = b.pm2p5 := hunsigned (hraw .pm2p5)
  have h2 : a.pm4p0 = b.pm4p0 := hunsigned (hraw .pm4p0)
  have h3 : a.pm10 = b.pm10 := hunsigned (hraw .pm10)
  have h4 : a.humidity = b.humidity := Int16.toInt_inj.mp (hraw .humidity)
  have h5 : a.temperature = b.temperature := Int16.toInt_inj.mp (hraw .temperature)
  have h6 : a.voc_index = b.voc_index := Int16.toInt_inj.mp (hraw .vocIndex)
  have h7 : a.nox_index = b.nox_index := Int16.toInt_inj.mp (hraw .noxIndex)
  have h8 : a.co2 = b.co2 := hunsigned (hraw .co2)
  cases a
  cases b
  simp_all

/-- Two channels that display the same are valid alike. -/
theorem has_of_displayed {m m' : Measurement} {f : Field}
    (hdisplayed : m.displayed f = m'.displayed f) : m.has f = m'.has f := by
  have hsome (m : Measurement) : (m.displayed f).isSome = m.has f := by
    rw [Measurement.displayed]
    cases m.has f <;> rfl
  rw [← hsome m, ← hsome m', hdisplayed]

/-- But for the temperature, channels that display the same hold the same. -/
theorem raw_of_displayed {m m' : Measurement} (hm : m.Canonical) (hm' : m'.Canonical) {f : Field}
    (hf : f ≠ .temperature) (hdisplayed : m.displayed f = m'.displayed f) : m.raw f = m'.raw f := by
  have hhas := has_of_displayed hdisplayed
  cases hvalid : m.has f with
  | false =>
    rw [raw_of_not_available ((hm.has_eq_available f).symm.trans hvalid),
      raw_of_not_available ((hm'.has_eq_available f).symm.trans (hhas.symm.trans hvalid))]
  | true =>
    rw [Measurement.displayed, Measurement.displayed, ← hhas, hvalid, if_pos rfl, if_pos rfl,
      Option.some_inj] at hdisplayed
    have hten : (10 : Rat) ≠ 0 := by norm_num
    have hhundred : (100 : Rat) ≠ 0 := by norm_num
    cases f with
    | temperature => exact absurd rfl hf
    | humidity => exact Int.cast_inj.mp ((div_left_inj' hhundred).mp hdisplayed)
    | co2 => exact Int.cast_inj.mp hdisplayed
    | pm1p0 | pm2p5 | pm4p0 | pm10 | vocIndex | noxIndex =>
      exact Int.cast_inj.mp ((div_left_inj' hten).mp hdisplayed)

/-- The printed text loses nothing but the last bit of the temperature: the texts
    of two canonical measurements, and so of two accepted responses, are equal
    exactly when they agree on every channel and its validity, and on the
    temperature register up to halving it. -/
theorem printedText_eq_iff {m m' : Measurement} (hm : m.Canonical) (hm' : m'.Canonical) :
    printedText m = printedText m' ↔
      { m with temperature := m'.temperature } = m' ∧
        m.temperature.toInt.tdiv 2 = m'.temperature.toInt.tdiv 2 := by
  constructor
  · intro htext
    have hdisplayed := displayed_of_printedText htext
    have hvalid : m.valid = m'.valid := by
      apply Flags.Within.ext (ι := Field)
      · exact Field.within_iff.mpr hm.testBit_of_above
      · exact Field.within_iff.mpr hm'.testBit_of_above
      · exact fun f => has_of_displayed (hdisplayed f)
    constructor
    · refine Measurement.ext_raw (fun f => ?_) hvalid
      by_cases hf : f = .temperature
      · subst hf
        rfl
      · rw [← raw_of_displayed hm hm' hf (hdisplayed f)]
        cases f with
        | temperature => exact absurd rfl hf
        | _ => rfl
    · have hhas := has_of_displayed (hdisplayed .temperature)
      cases htemperature : m.has .temperature with
      | false =>
        have hraw : m.raw .temperature = m'.raw .temperature := by
          rw [raw_of_not_available ((hm.has_eq_available _).symm.trans htemperature),
            raw_of_not_available
              ((hm'.has_eq_available _).symm.trans (hhas.symm.trans htemperature))]
        exact congrArg (Int.tdiv · 2) hraw
      | true =>
        have hsame := hdisplayed .temperature
        rw [Measurement.displayed, Measurement.displayed, ← hhas, htemperature, if_pos rfl,
          if_pos rfl, Option.some_inj] at hsame
        exact Int.cast_inj.mp ((div_left_inj' (by norm_num)).mp hsame)
  · rintro ⟨hrest, hhalf⟩
    have hscaled : m.temperature.toInt32 * 100 / 200 = m'.temperature.toInt32 * 100 / 200 := by
      rw [← Int32.toInt_inj, AirQualityEndpoint.toInt_scaled, AirQualityEndpoint.toInt_scaled,
        hhalf]
    have hprint : printMeasurement m = printMeasurement { m with temperature := m'.temperature } := by
      simp only [printMeasurement, hscaled]
      rfl
    rw [printedText, printedText, hprint, hrest]

/-- Registers 100 and 101 are both printed as 0.50 degC. -/
theorem printedText_eq_iff_lastBit :
    printedText (Frame.encode fun _ => 100).measurement =
      printedText (Frame.encode fun i => if i = 5 then 101 else 100).measurement :=
  (printedText_eq_iff (canonical_decodeMeasurement _) (canonical_decodeMeasurement _)).mpr
    ⟨by decide +kernel, by decide +kernel⟩

end Sen66
