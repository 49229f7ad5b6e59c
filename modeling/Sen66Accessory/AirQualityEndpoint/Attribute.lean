import Sen66Accessory.AirQualityEndpoint.Policy

namespace AirQualityEndpoint

abbrev EndpointId := UInt16

def kEndpointId : EndpointId := 1
def kTemperatureEndpointId : EndpointId := 2

/-- The concentration measurement instances of the adapter. -/
inductive ConcentrationInstance where
  | co2
  | pm1
  | pm25
  | pm10
  deriving DecidableEq

/-- The attributes the adapter writes: the measured values of the temperature,
    humidity and concentration clusters, and the air quality. -/
inductive Attribute where
  | temperature (endpoint : EndpointId)
  | humidity
  | concentration (of : ConcentrationInstance)
  | airQuality
  deriving DecidableEq

/-- The attributes the adapter writes, in its order. -/
def Attribute.published : List Attribute :=
  [.temperature kEndpointId, .temperature kTemperatureEndpointId, .humidity,
    .concentration .co2, .concentration .pm1, .concentration .pm25, .concentration .pm10,
    .airQuality]

/-- The optional features of the air quality cluster. -/
inductive Feature where
  | fair
  | moderate
  | veryPoor
  | extremelyPoor
  deriving DecidableEq

/-- The features `sAirQualityInstance` is constructed with. -/
def airQualityFeatures : List Feature := [.fair, .moderate, .veryPoor, .extremelyPoor]

/-- The feature a level needs, if it is an optional one. -/
def AirQualityLevel.feature? : AirQualityLevel → Option Feature
  | .fair => some .fair
  | .moderate => some .moderate
  | .veryPoor => some .veryPoor
  | .extremelyPoor => some .extremelyPoor
  | _ => none

/-- The values of an attribute, `none` being Matter-null. -/
abbrev Attribute.Value : Attribute → Type
  | .temperature _ => Option Int16
  | .humidity => Option UInt16
  | .concentration _ => Option Rat
  | .airQuality => AirQualityLevel

instance : (a : Attribute) → DecidableEq a.Value
  | .temperature _ => inferInstanceAs (DecidableEq (Option Int16))
  | .humidity => inferInstanceAs (DecidableEq (Option UInt16))
  | .concentration _ => inferInstanceAs (DecidableEq (Option Rat))
  | .airQuality => inferInstanceAs (DecidableEq AirQualityLevel)

/-- The value of an attribute before its first write: null, or unknown. -/
def Attribute.initial : (a : Attribute) → a.Value
  | .temperature _ => none
  | .humidity => none
  | .concentration _ => none
  | .airQuality => AirQualityLevel.unknown

/-- The values a write can express. The two integer attributes keep one word
    each for null, their generated default, and the air quality is limited to
    the levels its features allow. -/
def Attribute.Representable : (a : Attribute) → a.Value → Prop
  | .temperature _, value => value ≠ some Int16.minValue
  | .humidity, value => value ≠ some 0xFFFF
  | .concentration _, _ => True
  | .airQuality, level => ∀ feature, AirQualityLevel.feature? level = some feature →
      feature ∈ airQualityFeatures

/-- The concentrations a register converts to in exact arithmetic. -/
def registerConcentrations : Set Rat :=
  {concentration | ∃ raw : UInt16,
    concentration = co2RawToPpm raw ∨ concentration = pmRawToUgm3 raw}

/-- A value that is null or, for a concentration, one of the given ones. -/
def Attribute.Within (concentrations : Set Rat) : (a : Attribute) → a.Value → Prop
  | .concentration _, value => ∀ concentration ∈ value, concentration ∈ concentrations
  | _, _ => True

/-- The attribute storage behind the generated accessors and the cluster
    instances. -/
structure AttributeStore (σ : Type) where
  read : σ → (a : Attribute) → a.Value
  write : σ → (a : Attribute) → a.Value → σ

/-- What the adapter relies on, of the attributes it writes and the concentrations
    it writes to them: a representable value is read back, and a write touches no
    other attribute. -/
structure AttributeStore.LawfulOn {σ : Type} (store : AttributeStore σ)
    (concentrations : Set Rat) : Prop where
  read_write : ∀ (s : σ), ∀ a ∈ Attribute.published, ∀ value : a.Value,
    a.Within concentrations value → a.Representable value →
    store.read (store.write s a value) a = value
  read_write_ne : ∀ (s : σ), ∀ a ∈ Attribute.published, ∀ b ∈ Attribute.published,
    ∀ value : a.Value, a.Within concentrations value → b ≠ a →
    store.read (store.write s a value) b = store.read s b

/-- A store for the exact conversions of the registers. -/
abbrev AttributeStore.Lawful {σ : Type} (store : AttributeStore σ) : Prop :=
  store.LawfulOn registerConcentrations

/-- With every optional feature enabled no level is refused. -/
theorem representable_airQuality (level : AirQualityLevel) :
    Attribute.airQuality.Representable level := by
  intro feature _
  cases feature <;> decide

/-- A converted temperature is always expressible. -/
theorem representable_temperature (endpoint : EndpointId) (raw : Int16) :
    (Attribute.temperature endpoint).Representable
      (some (temperatureRawToMatterCentiDegC raw)) := by
  intro h
  exact temperatureRawToMatterCentiDegC_ne_minValue raw (Option.some_inj.mp h)

instance : (a : Attribute) → (value : a.Value) → Decidable (a.Representable value)
  | .temperature _ => fun (value : Option Int16) =>
    inferInstanceAs (Decidable (value ≠ some Int16.minValue))
  | .humidity => fun (value : Option UInt16) =>
    inferInstanceAs (Decidable (value ≠ some 0xFFFF))
  | .concentration _ => fun _ => .isTrue trivial
  | .airQuality => fun level => .isTrue (representable_airQuality level)

/-- Plain memory: one cell for each attribute, in which a value that cannot be
    expressed is not stored. -/
def attributeRam : AttributeStore ((a : Attribute) → a.Value) where
  read cells := cells
  write cells a value :=
    if a.Representable value then Function.update cells a value else cells

/-- It keeps whatever concentrations it is given. -/
theorem lawfulOn_attributeRam (concentrations : Set Rat) : attributeRam.LawfulOn concentrations := by
  constructor
  · intro cells a _ value _ hvalue
    simp [attributeRam, hvalue]
  · intro cells a _ b _ value _ hne
    by_cases hvalue : a.Representable value <;> simp [attributeRam, hvalue, hne]

theorem lawful_attributeRam : attributeRam.Lawful := lawfulOn_attributeRam _

end AirQualityEndpoint
