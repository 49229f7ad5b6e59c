import Sen66Accessory.Binary32.Arithmetic
import Sen66Accessory.AirQualityEndpoint.Adapter

open Sen66 MeasurementService Binary32

namespace AirQualityEndpoint

namespace Single

/-- The conversions and the policy as the code computes them, in single precision. -/
def co2RawToPpm (raw : UInt16) : Float32 := raw.toFloat32

def pmRawToUgm3 (raw : UInt16) : Float32 := raw.toFloat32 / 10.0

structure ChannelBreakpoints where
  good : Float32
  fair : Float32
  moderate : Float32
  poor : Float32
  veryPoor : Float32

def kCo2BreakpointsPpm : ChannelBreakpoints := ⟨800.0, 1000.0, 1500.0, 2500.0, 5000.0⟩
def kPm2p5BreakpointsUgm3 : ChannelBreakpoints := ⟨9.0, 35.4, 55.4, 125.4, 225.4⟩
def kPm10BreakpointsUgm3 : ChannelBreakpoints := ⟨54.0, 154.0, 254.0, 354.0, 424.0⟩

def classifyChannel (value : Float32) (bp : ChannelBreakpoints) : AirQualityLevel :=
  if value ≤ bp.good then .good
  else if value ≤ bp.fair then .fair
  else if value ≤ bp.moderate then .moderate
  else if value ≤ bp.poor then .poor
  else if value ≤ bp.veryPoor then .veryPoor
  else .extremelyPoor

def considerChannel (worst : AirQualityLevel) (value : Float32) (bp : ChannelBreakpoints) :
    AirQualityLevel :=
  let level := classifyChannel value bp
  if level.toNat > worst.toNat then level else worst

def evaluateAirQuality (inputs : PolicyInputs) : AirQualityLevel :=
  let worst := .unknown
  let anyValid := inputs.co2Valid || inputs.pm2p5Valid || inputs.pm10Valid
  let worst :=
    if inputs.co2Valid then considerChannel worst (co2RawToPpm inputs.co2Raw) kCo2BreakpointsPpm
    else worst
  let worst :=
    if inputs.pm2p5Valid then
      considerChannel worst (pmRawToUgm3 inputs.pm2p5Raw) kPm2p5BreakpointsUgm3
    else worst
  let worst :=
    if inputs.pm10Valid then considerChannel worst (pmRawToUgm3 inputs.pm10Raw) kPm10BreakpointsUgm3
    else worst
  if anyValid then worst else .unknown

/-- The float ten. -/
theorem regular_ten : Regular 10.0 ∧ toRat 10.0 = 10 := by
  have hten : (10.0 : Float32) = (10 : UInt16).toFloat32 := by decide +kernel
  obtain ⟨hregular, hvalue⟩ := regular_toFloat32 10
  rw [hten]
  exact ⟨hregular, hvalue⟩

theorem toNat_le (raw : UInt16) : (raw.toNat : Rat) ≤ 65535 := by
  exact_mod_cast Nat.le_of_lt_succ raw.toNat_lt

/-- The one division is rounded once. -/
theorem pmRawToUgm3_spec (raw : UInt16) :
    Regular (pmRawToUgm3 raw) ∧
    |toRat (pmRawToUgm3 raw) - AirQualityEndpoint.pmRawToUgm3 raw| ≤
      AirQualityEndpoint.pmRawToUgm3 raw / 2 ^ 24 := by
  obtain ⟨hraw, hvalue⟩ := regular_toFloat32 raw
  obtain ⟨hten, hvalue'⟩ := regular_ten
  have hrange : toRat raw.toFloat32 = 0 ∨
      2 ^ (-124 : Int) ≤ toRat raw.toFloat32 / toRat 10.0 ∧
        toRat raw.toFloat32 / toRat 10.0 ≤ 2 ^ (126 : Int) := by
    rw [hvalue, hvalue']
    rcases Nat.eq_zero_or_pos raw.toNat with hzero | hpos
    · exact Or.inl (by rw [hzero, Nat.cast_zero])
    · have hlow : (1 : Rat) ≤ raw.toNat := by exact_mod_cast hpos
      have hhigh := toNat_le raw
      refine Or.inr ⟨le_trans (show _ ≤ (1 / 10 : Rat) by norm_num) ?_,
        le_trans ?_ (show (6554 : Rat) ≤ _ by norm_num)⟩ <;> linarith
  have hdiv := hraw.div hten (by rw [hvalue']; norm_num) hrange
  rw [hvalue, hvalue'] at hdiv
  exact hdiv

/-- Registers are in the order of their floats. -/
theorem co2RawToPpm_le_iff (a b : UInt16) :
    co2RawToPpm a ≤ co2RawToPpm b ↔
      AirQualityEndpoint.co2RawToPpm a ≤ AirQualityEndpoint.co2RawToPpm b := by
  obtain ⟨ha, hvalue⟩ := regular_toFloat32 a
  obtain ⟨hb, hvalue'⟩ := regular_toFloat32 b
  rw [co2RawToPpm, co2RawToPpm, ha.le_iff hb, hvalue, hvalue']
  rfl

/-- The rounding is far less than a unit of the register. -/
theorem pmRawToUgm3_near (raw : UInt16) :
    |toRat (pmRawToUgm3 raw) - raw.toNat / 10| ≤ 1 / 100 := by
  have hhigh := toNat_le raw
  refine (pmRawToUgm3_spec raw).2.trans ?_
  rw [AirQualityEndpoint.pmRawToUgm3, div_le_div_iff₀ (by norm_num) (by norm_num)]
  linarith

theorem pmRawToUgm3_lt {a b : UInt16} (hlt : a.toNat < b.toNat) :
    toRat (pmRawToUgm3 a) < toRat (pmRawToUgm3 b) := by
  have hstep : (a.toNat + 1 : Rat) ≤ b.toNat := by exact_mod_cast hlt
  have ha := (abs_le.mp (pmRawToUgm3_near a)).2
  have hb := (abs_le.mp (pmRawToUgm3_near b)).1
  linarith

theorem pmRawToUgm3_le_iff (a b : UInt16) :
    pmRawToUgm3 a ≤ pmRawToUgm3 b ↔
      AirQualityEndpoint.pmRawToUgm3 a ≤ AirQualityEndpoint.pmRawToUgm3 b := by
  rw [(pmRawToUgm3_spec a).1.le_iff (pmRawToUgm3_spec b).1, AirQualityEndpoint.pmRawToUgm3,
    AirQualityEndpoint.pmRawToUgm3, div_le_div_iff_of_pos_right (by norm_num), Nat.cast_le]
  rcases lt_trichotomy a.toNat b.toNat with hlt | heq | hgt
  · exact iff_of_true (pmRawToUgm3_lt hlt).le hlt.le
  · rw [UInt16.toNat_inj.mp heq]
    exact iff_of_true (le_refl _) (le_refl _)
  · exact iff_of_false (pmRawToUgm3_lt hgt).not_ge hgt.not_ge

/-- Every bound is what some register converts to, in both precisions. -/
structure Bounds (single : UInt16 → Float32) (exact : UInt16 → Rat) (bp : ChannelBreakpoints)
    (bp' : AirQualityEndpoint.ChannelBreakpoints) : Prop where
  good : ∃ raw, bp.good = single raw ∧ bp'.good = exact raw
  fair : ∃ raw, bp.fair = single raw ∧ bp'.fair = exact raw
  moderate : ∃ raw, bp.moderate = single raw ∧ bp'.moderate = exact raw
  poor : ∃ raw, bp.poor = single raw ∧ bp'.poor = exact raw
  veryPoor : ∃ raw, bp.veryPoor = single raw ∧ bp'.veryPoor = exact raw

/-- Conversions that order the registers alike lead to the same levels. -/
theorem Bounds.considerChannel_eq {single : UInt16 → Float32} {exact : UInt16 → Rat}
    {bp : ChannelBreakpoints} {bp' : AirQualityEndpoint.ChannelBreakpoints}
    (h : Bounds single exact bp bp') (hle : ∀ a b, single a ≤ single b ↔ exact a ≤ exact b)
    (worst : AirQualityLevel) (raw : UInt16) :
    considerChannel worst (single raw) bp =
      AirQualityEndpoint.considerChannel worst (exact raw) bp' := by
  obtain ⟨_, hgood, hgood'⟩ := h.good
  obtain ⟨_, hfair, hfair'⟩ := h.fair
  obtain ⟨_, hmoderate, hmoderate'⟩ := h.moderate
  obtain ⟨_, hpoor, hpoor'⟩ := h.poor
  obtain ⟨_, hveryPoor, hveryPoor'⟩ := h.veryPoor
  have hlevel : classifyChannel (single raw) bp =
      AirQualityEndpoint.classifyChannel (exact raw) bp' := by
    simp only [classifyChannel, AirQualityEndpoint.classifyChannel, hgood, hgood', hfair, hfair',
      hmoderate, hmoderate', hpoor, hpoor', hveryPoor, hveryPoor', hle]
  rw [considerChannel, AirQualityEndpoint.considerChannel, hlevel]

theorem bounds_co2 : Bounds co2RawToPpm AirQualityEndpoint.co2RawToPpm kCo2BreakpointsPpm
    AirQualityEndpoint.kCo2BreakpointsPpm :=
  ⟨⟨800, by decide +kernel, rfl⟩, ⟨1000, by decide +kernel, rfl⟩, ⟨1500, by decide +kernel, rfl⟩,
    ⟨2500, by decide +kernel, rfl⟩, ⟨5000, by decide +kernel, rfl⟩⟩

theorem bounds_pm2p5 : Bounds pmRawToUgm3 AirQualityEndpoint.pmRawToUgm3 kPm2p5BreakpointsUgm3
    AirQualityEndpoint.kPm2p5BreakpointsUgm3 :=
  ⟨⟨90, by decide +kernel, by decide +kernel⟩, ⟨354, by decide +kernel, by decide +kernel⟩,
    ⟨554, by decide +kernel, by decide +kernel⟩, ⟨1254, by decide +kernel, by decide +kernel⟩,
    ⟨2254, by decide +kernel, by decide +kernel⟩⟩

theorem bounds_pm10 : Bounds pmRawToUgm3 AirQualityEndpoint.pmRawToUgm3 kPm10BreakpointsUgm3
    AirQualityEndpoint.kPm10BreakpointsUgm3 :=
  ⟨⟨540, by decide +kernel, by decide +kernel⟩, ⟨1540, by decide +kernel, by decide +kernel⟩,
    ⟨2540, by decide +kernel, by decide +kernel⟩, ⟨3540, by decide +kernel, by decide +kernel⟩,
    ⟨4240, by decide +kernel, by decide +kernel⟩⟩

/-- Rounding changes no level. -/
theorem evaluateAirQuality_single (inputs : PolicyInputs) :
    evaluateAirQuality inputs = AirQualityEndpoint.evaluateAirQuality inputs := by
  simp only [evaluateAirQuality, bounds_co2.considerChannel_eq co2RawToPpm_le_iff,
    bounds_pm2p5.considerChannel_eq pmRawToUgm3_le_iff,
    bounds_pm10.considerChannel_eq pmRawToUgm3_le_iff]
  rfl

/-- The concentration an instance shows for a measurement. -/
def convert (m : Measurement) : ConcentrationInstance → Float32
  | .co2 => co2RawToPpm m.co2
  | .pm1 => pmRawToUgm3 m.pm1p0
  | .pm25 => pmRawToUgm3 m.pm2p5
  | .pm10 => pmRawToUgm3 m.pm10

/-- The value the code shows in each attribute for a measurement. A cell for a
    float holds the number the float stands for. -/
def shown (m : Measurement) : (a : Attribute) → a.Value
  | .temperature endpoint => (Attribute.temperature endpoint).shown m
  | .humidity => Attribute.humidity.shown m
  | .concentration i => if m.has i.field then some (toRat (convert m i)) else none
  | .airQuality => evaluateAirQuality (.ofMeasurement m)

/-- The numbers a float cell can hold. -/
def singleConcentrations : Set Rat := Set.range toRat

section

variable {σ : Type} (store : AttributeStore σ)

/-- The writes of `ApplyLatestMeasurement`. -/
def applyLatestMeasurement (shared : Snapshot) (s : σ) : σ :=
  let (ok, snapshot) := MeasurementService.getLatest shared
  if !ok then s
  else
    let m := snapshot.measurement
    let s :=
      if m.has .temperature then
        let centiDegC := temperatureRawToMatterCentiDegC m.temperature
        let s := store.write s (.temperature kEndpointId) (some centiDegC)
        store.write s (.temperature kTemperatureEndpointId) (some centiDegC)
      else
        let s := store.write s (.temperature kEndpointId) none
        store.write s (.temperature kTemperatureEndpointId) none
    let s :=
      if m.has .humidity then
        store.write s .humidity (some (humidityRawToMatterCentiPercent m.humidity))
      else store.write s .humidity none
    let s := store.write s (.concentration .co2)
      (if m.has .co2 then some (toRat (co2RawToPpm m.co2)) else none)
    let s := store.write s (.concentration .pm1)
      (if m.has .pm1p0 then some (toRat (pmRawToUgm3 m.pm1p0)) else none)
    let s := store.write s (.concentration .pm25)
      (if m.has .pm2p5 then some (toRat (pmRawToUgm3 m.pm2p5)) else none)
    let s := store.write s (.concentration .pm10)
      (if m.has .pm10 then some (toRat (pmRawToUgm3 m.pm10)) else none)
    let inputs : PolicyInputs := {
      co2Valid := m.has .co2
      co2Raw := m.co2
      pm2p5Valid := m.has .pm2p5
      pm2p5Raw := m.pm2p5
      pm10Valid := m.has .pm10
      pm10Raw := m.pm10 }
    store.write s .airQuality (evaluateAirQuality inputs)

variable {store}

theorem applyLatestMeasurement_eq (shared : Snapshot) (s : σ) :
    applyLatestMeasurement store shared s =
      if shared.everValid then
        Attribute.published.foldl (fun s a => store.write s a (shown shared.measurement a)) s
      else s := by
  cases hever : shared.everValid with
  | false => simp [applyLatestMeasurement, getLatest, hever]
  | true =>
    rw [applyLatestMeasurement, getLatest, if_pos rfl, hever]
    cases htemp : shared.measurement.has .temperature <;>
      cases hhumidity : shared.measurement.has .humidity <;>
      simp only [htemp, hhumidity, Attribute.published, shown, Attribute.shown,
        List.foldl_cons] <;> rfl

/-- Every concentration shown is a single-precision number. -/
theorem within_shown (m : Measurement) (a : Attribute) :
    a.Within singleConcentrations (shown m a) := by
  cases a with
  | temperature endpoint => trivial
  | humidity => trivial
  | concentration i =>
    intro concentration hconcentration
    obtain ⟨_, hvalue⟩ := Option.ite_none_right_eq_some.mp hconcentration
    cases hvalue
    exact ⟨convert m i, rfl⟩
  | airQuality => trivial

/-- Rounding puts nothing else out of a store's reach. -/
theorem representable_shown (m : Measurement) (a : Attribute)
    (ha : a = .humidity → m.has .humidity = true → m.humidity ≠ -1) :
    a.Representable (shown m a) := by
  cases a with
  | temperature endpoint => exact Attribute.representable_shown m (.temperature endpoint) ha
  | humidity => exact Attribute.representable_shown m .humidity ha
  | concentration i => trivial
  | airQuality => exact representable_airQuality _

/-- After an apply every published attribute shows the value for the shared
    measurement, whatever it held before. -/
theorem read_applyLatestMeasurement (hlawful : store.LawfulOn singleConcentrations)
    {shared : Snapshot} (hever : shared.everValid = true) {a : Attribute}
    (ha : a ∈ Attribute.published)
    (hhumidity : a = .humidity → shared.measurement.has .humidity = true →
      shared.measurement.humidity ≠ -1) (s : σ) :
    store.read (applyLatestMeasurement store shared s) a = shown shared.measurement a := by
  rw [applyLatestMeasurement_eq, if_pos hever]
  have hwithin := within_shown shared.measurement
  refine hlawful.read_foldl hwithin (List.Subset.refl _) Attribute.nodup_published ha (fun s => ?_) s
  exact hlawful.read_write s a ha _ (hwithin a) (representable_shown _ _ hhumidity)

/-- Before the service has a valid measurement an apply writes nothing. -/
theorem applyLatestMeasurement_of_not_everValid {shared : Snapshot}
    (hever : shared.everValid = false) (s : σ) :
    applyLatestMeasurement store shared s = s := by
  rw [applyLatestMeasurement_eq, hever]
  rfl

end

end Single

/-- A number rounded to single precision. The reading it came from is the tenth
    next to it. -/
structure Rounded (exact single : Rat) : Prop where
  near : |single - exact| ≤ exact / 2 ^ 24
  nearest : (round (single * 10) : Rat) = exact * 10

/-- A value of an attribute in both precisions. -/
def Attribute.Rounded : (a : Attribute) → a.Value → a.Value → Prop
  | .temperature _, exact, single => single = exact
  | .humidity, exact, single => single = exact
  | .concentration _, exact, single => Option.Rel AirQualityEndpoint.Rounded exact single
  | .airQuality, exact, single => single = exact

namespace Single

theorem rounded_co2 (raw : UInt16) :
    Rounded (AirQualityEndpoint.co2RawToPpm raw) (toRat (co2RawToPpm raw)) := by
  have hvalue : toRat (co2RawToPpm raw) = raw.toNat := (regular_toFloat32 raw).2
  rw [hvalue, AirQualityEndpoint.co2RawToPpm]
  constructor
  · rw [sub_self, abs_zero]
    positivity
  · have hcast : (raw.toNat * 10 : Rat) = ((raw.toNat * 10 : Nat) : Rat) := by norm_cast
    rw [hcast, round_natCast, Int.cast_natCast]

theorem rounded_pm (raw : UInt16) :
    Rounded (AirQualityEndpoint.pmRawToUgm3 raw) (toRat (pmRawToUgm3 raw)) := by
  refine ⟨(pmRawToUgm3_spec raw).2, ?_⟩
  obtain ⟨hlow, hhigh⟩ := abs_le.mp (pmRawToUgm3_near raw)
  have hround : round (toRat (pmRawToUgm3 raw) * 10) = raw.toNat := by
    rw [round_eq, Int.floor_eq_iff]
    push_cast
    constructor <;> linarith
  rw [hround, AirQualityEndpoint.pmRawToUgm3, Int.cast_natCast]
  ring

theorem rounded_convert (m : Measurement) (i : ConcentrationInstance) :
    Rounded (i.convert m) (toRat (convert m i)) := by
  cases i with
  | co2 => exact rounded_co2 m.co2
  | pm1 => exact rounded_pm m.pm1p0
  | pm25 => exact rounded_pm m.pm2p5
  | pm10 => exact rounded_pm m.pm10

/-- The code shows what it should, rounded. -/
theorem rounded_shown (m : Measurement) (a : Attribute) : a.Rounded (a.shown m) (shown m a) := by
  cases a with
  | temperature endpoint => rfl
  | humidity => rfl
  | concentration i =>
    change Option.Rel AirQualityEndpoint.Rounded
      (if m.has i.field then some (i.convert m) else none)
      (if m.has i.field then some (toRat (convert m i)) else none)
    split
    · exact .some (rounded_convert m i)
    · exact .none
  | airQuality => exact evaluateAirQuality_single _

end Single

/-- What single precision does to the code. Every overall air quality is the one of
    exact arithmetic, and every concentration is that of its register to half a
    unit in the last place, with the register still to be read off it. -/
theorem single_precision (inputs : PolicyInputs) (raw : UInt16) :
    Single.evaluateAirQuality inputs = evaluateAirQuality inputs ∧
    Rounded (co2RawToPpm raw) (toRat (Single.co2RawToPpm raw)) ∧
    Rounded (pmRawToUgm3 raw) (toRat (Single.pmRawToUgm3 raw)) :=
  ⟨Single.evaluateAirQuality_single inputs, Single.rounded_co2 raw, Single.rounded_pm raw⟩

end AirQualityEndpoint
