import Sen66Accessory.AirQualityEndpoint.Aggregation
import Sen66Accessory.AirQualityEndpoint.Attribute
import Sen66Accessory.MeasurementService.Service

open Sen66 MeasurementService

namespace AirQualityEndpoint

section

variable {σ : Type} (store : AttributeStore σ)

/-- The writes of `ApplyLatestMeasurement`, which does nothing before the
    service has a measurement to hand out. -/
def applyLatestMeasurement (shared : Snapshot) (s : σ) : σ :=
  let (ok, snapshot) := MeasurementService.getLatest shared
  if !ok then s
  else
    let m := snapshot.measurement
    let s :=
      if m.has .temperature then
        let centiDegC := temperatureRawToMatterCentiDegC m.temperature
        let s := store.write s (.temperature kEndpointId) (some centiDegC)
        store.write s (.temperature kTemperatureEndpointId) (some centiDegC)
      else
        let s := store.write s (.temperature kEndpointId) none
        store.write s (.temperature kTemperatureEndpointId) none
    let s :=
      if m.has .humidity then
        store.write s .humidity (some (humidityRawToMatterCentiPercent m.humidity))
      else store.write s .humidity none
    let s := store.write s (.concentration .co2)
      (if m.has .co2 then some (co2RawToPpm m.co2) else none)
    let s := store.write s (.concentration .pm1)
      (if m.has .pm1p0 then some (pmRawToUgm3 m.pm1p0) else none)
    let s := store.write s (.concentration .pm25)
      (if m.has .pm2p5 then some (pmRawToUgm3 m.pm2p5) else none)
    let s := store.write s (.concentration .pm10)
      (if m.has .pm10 then some (pmRawToUgm3 m.pm10) else none)
    let inputs : PolicyInputs := {
      co2Valid := m.has .co2
      co2Raw := m.co2
      pm2p5Valid := m.has .pm2p5
      pm2p5Raw := m.pm2p5
      pm10Valid := m.has .pm10
      pm10Raw := m.pm10 }
    store.write s .airQuality (evaluateAirQuality inputs)

end

/-- The channel a concentration instance shows. -/
def ConcentrationInstance.field : ConcentrationInstance → Field
  | .co2 => .co2
  | .pm1 => .pm1p0
  | .pm25 => .pm2p5
  | .pm10 => .pm10

/-- The concentration an instance shows for a measurement. -/
def ConcentrationInstance.convert (m : Measurement) : ConcentrationInstance → Rat
  | .co2 => co2RawToPpm m.co2
  | .pm1 => pmRawToUgm3 m.pm1p0
  | .pm25 => pmRawToUgm3 m.pm2p5
  | .pm10 => pmRawToUgm3 m.pm10

/-- What the air quality is evaluated from. -/
def PolicyInputs.ofMeasurement (m : Measurement) : PolicyInputs where
  co2Valid := m.has .co2
  co2Raw := m.co2
  pm2p5Valid := m.has .pm2p5
  pm2p5Raw := m.pm2p5
  pm10Valid := m.has .pm10
  pm10Raw := m.pm10

/-- The sensor channel behind a channel of the policy. -/
def PolicyChannel.field : PolicyChannel → Field
  | .co2 => .co2
  | .pm2p5 => .pm2p5
  | .pm10 => .pm10

/-- The instance that shows a channel of the policy. -/
def PolicyChannel.shownBy : PolicyChannel → ConcentrationInstance
  | .co2 => .co2
  | .pm2p5 => .pm25
  | .pm10 => .pm10

namespace PolicyInputs

theorem valid_ofMeasurement (m : Measurement) (channel : PolicyChannel) :
    (ofMeasurement m).valid channel = m.has channel.field := by
  cases channel <;> rfl

theorem raw_ofMeasurement (m : Measurement) (channel : PolicyChannel) :
    (((ofMeasurement m).raw channel).toNat : Int) = m.raw channel.field := by
  cases channel <;> rfl

theorem concentration_ofMeasurement (m : Measurement) (channel : PolicyChannel) :
    (ofMeasurement m).concentration channel = channel.shownBy.convert m := by
  cases channel <;> rfl

end PolicyInputs

/-- The value each attribute should show for a measurement: null for a channel
    that is not valid. -/
def Attribute.shown (m : Measurement) : (a : Attribute) → a.Value
  | .temperature _ =>
    if m.has .temperature then some (temperatureRawToMatterCentiDegC m.temperature) else none
  | .humidity =>
    if m.has .humidity then some (humidityRawToMatterCentiPercent m.humidity) else none
  | .concentration i => if m.has i.field then some (i.convert m) else none
  | .airQuality => evaluateAirQuality (.ofMeasurement m)

section

variable {σ : Type} {store : AttributeStore σ}

/-- Applying writes to every attribute the value it should show. -/
theorem applyLatestMeasurement_eq (shared : Snapshot) (s : σ) :
    applyLatestMeasurement store shared s =
      if shared.everValid then
        Attribute.published.foldl
          (fun s a => store.write s a (a.shown shared.measurement)) s
      else s := by
  cases hever : shared.everValid with
  | false => simp [applyLatestMeasurement, getLatest, hever]
  | true =>
    rw [applyLatestMeasurement, getLatest, if_pos rfl, hever]
    cases htemp : shared.measurement.has .temperature <;>
      cases hhumidity : shared.measurement.has .humidity <;>
      simp only [htemp, hhumidity, Attribute.published, Attribute.shown, List.foldl_cons] <;> rfl

namespace AttributeStore

variable {concentrations : Set Rat} {value : (a : Attribute) → a.Value}

/-- Writing some attributes leaves every other one as it was. -/
theorem LawfulOn.read_foldl_of_notMem (hlawful : store.LawfulOn concentrations)
    (hwithin : ∀ a : Attribute, a.Within concentrations (value a)) {attributes : List Attribute}
    (hpublished : attributes ⊆ Attribute.published) {b : Attribute}
    (hb : b ∈ Attribute.published) (hnew : b ∉ attributes) (s : σ) :
    store.read (attributes.foldl (fun s a => store.write s a (value a)) s) b =
      store.read s b := by
  induction attributes generalizing s with
  | nil => rfl
  | cons a attributes ih =>
    obtain ⟨ha, hrest⟩ := List.cons_subset.mp hpublished
    rw [List.mem_cons, not_or] at hnew
    rw [List.foldl_cons, ih hrest hnew.2,
      hlawful.read_write_ne s a ha b hb _ (hwithin a) hnew.1]

/-- After writing distinct attributes each one reads back its own value, where
    a write of it does. -/
theorem LawfulOn.read_foldl (hlawful : store.LawfulOn concentrations)
    (hwithin : ∀ a : Attribute, a.Within concentrations (value a)) {attributes : List Attribute}
    (hpublished : attributes ⊆ Attribute.published) (hnodup : attributes.Nodup) {b : Attribute}
    (hb : b ∈ attributes) (hvalue : ∀ s, store.read (store.write s b (value b)) b = value b)
    (s : σ) :
    store.read (attributes.foldl (fun s a => store.write s a (value a)) s) b = value b := by
  induction attributes generalizing s with
  | nil => cases hb
  | cons a attributes ih =>
    obtain ⟨ha, hpublished'⟩ := List.cons_subset.mp hpublished
    obtain ⟨hnew, hrest⟩ := List.nodup_cons.mp hnodup
    rw [List.foldl_cons]
    rcases List.mem_cons.mp hb with rfl | hb
    · rw [hlawful.read_foldl_of_notMem hwithin hpublished' ha hnew, hvalue s]
    · exact ih hpublished' hrest hb _

end AttributeStore

theorem Attribute.nodup_published : Attribute.published.Nodup := by decide

/-- Every concentration shown is that of a register. -/
theorem Attribute.within_shown (m : Measurement) (a : Attribute) :
    a.Within registerConcentrations (a.shown m) := by
  cases a with
  | temperature endpoint => trivial
  | humidity => trivial
  | concentration i =>
    intro concentration hconcentration
    obtain ⟨_, hvalue⟩ := Option.ite_none_right_eq_some.mp hconcentration
    cases hvalue
    cases i with
    | co2 => exact ⟨m.co2, Or.inl rfl⟩
    | pm1 => exact ⟨m.pm1p0, Or.inr rfl⟩
    | pm25 => exact ⟨m.pm2p5, Or.inr rfl⟩
    | pm10 => exact ⟨m.pm10, Or.inr rfl⟩
  | airQuality => trivial

/-- Only one value cannot be shown: the humidity register -1, whose conversion
    is the null encoding of its attribute. -/
theorem Attribute.representable_shown (m : Measurement) (a : Attribute)
    (ha : a = .humidity → m.has .humidity = true → m.humidity ≠ -1) :
    a.Representable (a.shown m) := by
  cases a with
  | temperature endpoint =>
    simp only [Attribute.shown]
    split
    · exact representable_temperature endpoint m.temperature
    · intro h
      cases h
  | humidity =>
    simp only [Attribute.shown]
    split
    · rename_i hvalid
      intro h
      have hword : m.humidity.toUInt16 = 0xFFFF := Option.some_inj.mp h
      exact ha rfl hvalid (by rw [← Int16.toInt16_toUInt16 m.humidity, hword]; rfl)
    · intro h
      cases h
  | concentration i => trivial
  | airQuality => exact representable_airQuality _

/-- After an apply every published attribute shows the value for the shared
    measurement, whatever it held before. -/
theorem read_applyLatestMeasurement (hlawful : store.Lawful) {shared : Snapshot}
    (hever : shared.everValid = true) {a : Attribute} (ha : a ∈ Attribute.published)
    (hhumidity : a = .humidity → shared.measurement.has .humidity = true →
      shared.measurement.humidity ≠ -1) (s : σ) :
    store.read (applyLatestMeasurement store shared s) a = a.shown shared.measurement := by
  rw [applyLatestMeasurement_eq, if_pos hever]
  have hwithin := Attribute.within_shown shared.measurement
  refine hlawful.read_foldl hwithin (List.Subset.refl _) Attribute.nodup_published ha (fun s => ?_) s
  exact hlawful.read_write s a ha _ (hwithin a) (Attribute.representable_shown _ _ hhumidity)

/-- Before the service has a valid measurement an apply writes nothing. -/
theorem applyLatestMeasurement_of_not_everValid {shared : Snapshot}
    (hever : shared.everValid = false) (s : σ) :
    applyLatestMeasurement store shared s = s := by
  rw [applyLatestMeasurement_eq, hever]
  rfl

end

/-- The channels an attribute is computed from. -/
def Attribute.fields : Attribute → List Field
  | .temperature _ => [.temperature]
  | .humidity => [.humidity]
  | .concentration i => [i.field]
  | .airQuality => [.co2, .pm2p5, .pm10]

/-- An attribute is null or unknown exactly when none of its channels is valid. -/
theorem Attribute.shown_eq_initial_iff (m : Measurement) (a : Attribute) :
    a.shown m = a.initial ↔ ∀ f ∈ a.fields, m.has f = false := by
  have hnullable {α : Type} (f : Field) (value : α) :
      (if m.has f = true then some value else none) = none ↔ ∀ g ∈ [f], m.has g = false := by
    cases hf : m.has f <;> simp [hf]
  cases a with
  | temperature endpoint => exact hnullable _ _
  | humidity => exact hnullable _ _
  | concentration i => exact hnullable _ _
  | airQuality =>
    obtain ⟨hunknown, hgreatest⟩ := evaluateAirQuality_spec (.ofMeasurement m)
    rw [PolicyInputs.levels_eq_nil] at hunknown
    rw [Ne, PolicyInputs.levels_eq_nil] at hgreatest
    simp only [fields, List.forall_mem_cons, List.not_mem_nil, false_implies, implies_true,
      and_true]
    refine ⟨fun hshown => ?_, hunknown⟩
    by_contra hsome
    exact level_ne_unknown (hgreatest hsome).1 hshown

end AirQualityEndpoint
