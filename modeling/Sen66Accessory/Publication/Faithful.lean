import Sen66Accessory.Publication.SinglePrecision

open Sen66 MeasurementService AirQualityEndpoint Binary32

namespace Publication

/-- The big-endian value of a word of a response. -/
def wireValue (raw : Vector UInt8 kMeasurementBytes) (i : Fin kMeasurementWords) : Nat :=
  256 * (wordByte raw i 0).toNat + (wordByte raw i 1).toNat

/-- The same word in two's complement. -/
def wireSigned (raw : Vector UInt8 kMeasurementBytes) (i : Fin kMeasurementWords) : Int :=
  if wireValue raw i < 32768 then wireValue raw i else wireValue raw i - 65536

/-- The word a concentration is read from. -/
def wireWord : ConcentrationInstance → Fin kMeasurementWords
  | .co2 => 8
  | .pm1 => 0
  | .pm25 => 1
  | .pm10 => 3

/-- The counts per unit of a concentration word. -/
def wireScale : ConcentrationInstance → Rat
  | .co2 => 1
  | _ => 10

/-- A concentration word in the unit of its attribute, divided as a float. -/
def wireSingle (raw : Vector UInt8 kMeasurementBytes) (i : ConcentrationInstance) : Float32 :=
  let value := (UInt16.ofNat (wireValue raw (wireWord i))).toFloat32
  match i with
  | .co2 => value
  | _ => value / 10.0

/-- The attributes say what a response says. A concentration is the quotient of its
    word rounded to single precision, the air quality is rated by the documented
    bounds of the exact quotients. -/
structure Faithful {σ : Type} (store : AttributeStore σ) (raw : Vector UInt8 kMeasurementBytes)
    (s : σ) : Prop where
  concentration_null : ∀ i, store.read s (.concentration i) = none ↔
    wireValue raw (wireWord i) = 0xFFFF
  concentration : ∀ i, wireValue raw (wireWord i) ≠ 0xFFFF →
    store.read s (.concentration i) = some (toRat (wireSingle raw i)) ∧
    Rounded (wireValue raw (wireWord i) / wireScale i) (toRat (wireSingle raw i))
  co2 : wireValue raw 8 ≠ 0xFFFF →
    store.read s (.concentration .co2) = some (wireValue raw 8 : Rat)
  temperature_null : ∀ endpoint ∈ [kEndpointId, kTemperatureEndpointId],
    (store.read s (.temperature endpoint) = none ↔ wireValue raw 5 = 0x7FFF)
  temperature : ∀ endpoint ∈ [kEndpointId, kTemperatureEndpointId], wireValue raw 5 ≠ 0x7FFF →
    ∃ centiDegC : Int16, store.read s (.temperature endpoint) = some centiDegC ∧
      centiDegC.toInt = (wireSigned raw 5).tdiv 2 ∧ centiDegC ≠ Int16.minValue
  humidity : wireValue raw 4 ≠ 0xFFFF → store.read s .humidity =
    if wireValue raw 4 = 0x7FFF then none else some (UInt16.ofNat (wireValue raw 4))
  airQuality_unknown : store.read s .airQuality = AirQualityLevel.unknown ↔
    ∀ channel : PolicyChannel, store.read s (.concentration channel.shownBy) = none
  airQuality : ∀ category below : AirQualityLevel, category.below = some below →
    (category ≤ (store.read s .airQuality : AirQualityLevel) ↔
      ∃ (channel : PolicyChannel) (bound : Rat),
        store.read s (.concentration channel.shownBy) ≠ none ∧
        channel.documentedBound below = some bound ∧
        bound < wireValue raw (wireWord channel.shownBy) / wireScale channel.shownBy)

theorem toNat_word_eq_wireValue (raw : Vector UInt8 kMeasurementBytes)
    (i : Fin kMeasurementWords) : (word raw i).toNat = wireValue raw i :=
  toNat_word raw i

theorem toInt_word_eq_wireSigned (raw : Vector UInt8 kMeasurementBytes)
    (i : Fin kMeasurementWords) : (word raw i).toInt16.toInt = wireSigned raw i := by
  rw [toInt_toInt16, toNat_word_eq_wireValue]
  rfl

/-- A concentration channel is valid unless its word is the unsigned sentinel. -/
theorem has_concentration (raw : Vector UInt8 kMeasurementBytes) (i : ConcentrationInstance) :
    (decodeMeasurement raw).has i.field = true ↔ wireValue raw (wireWord i) ≠ 0xFFFF := by
  have hword (j : Fin kMeasurementWords) :
      (word raw j != kUnavailableUnsigned) = true ↔ wireValue raw j ≠ 0xFFFF := by
    rw [bne_iff_ne, Ne, ← UInt16.toNat_inj, toNat_word_eq_wireValue]
    rfl
  rw [has_decodeMeasurement]
  cases i <;> exact hword _

/-- A signed channel is valid unless its word is the signed sentinel. -/
theorem toInt16_word_ne_unavailable (raw : Vector UInt8 kMeasurementBytes)
    (i : Fin kMeasurementWords) :
    ((word raw i).toInt16 != kUnavailableSigned) = true ↔ wireValue raw i ≠ 0x7FFF := by
  have hlt := (word raw i).toNat_lt
  rw [toNat_word_eq_wireValue] at hlt
  rw [bne_iff_ne, Ne, ← Int16.toInt_inj, toInt_word_eq_wireSigned,
    show kUnavailableSigned.toInt = 32767 from rfl, wireSigned]
  split <;> omega

theorem convert_decodeMeasurement (raw : Vector UInt8 kMeasurementBytes)
    (i : ConcentrationInstance) :
    i.convert (decodeMeasurement raw) = wireValue raw (wireWord i) / wireScale i := by
  cases i with
  | co2 =>
    change ((word raw 8).toNat : Rat) = wireValue raw 8 / 1
    rw [toNat_word_eq_wireValue, div_one]
  | pm1 =>
    change ((word raw 0).toNat : Rat) / 10 = wireValue raw 0 / 10
    rw [toNat_word_eq_wireValue]
  | pm25 =>
    change ((word raw 1).toNat : Rat) / 10 = wireValue raw 1 / 10
    rw [toNat_word_eq_wireValue]
  | pm10 =>
    change ((word raw 3).toNat : Rat) / 10 = wireValue raw 3 / 10
    rw [toNat_word_eq_wireValue]

theorem single_convert_decodeMeasurement (raw : Vector UInt8 kMeasurementBytes)
    (i : ConcentrationInstance) : Single.convert (decodeMeasurement raw) i = wireSingle raw i := by
  have hword (j : Fin kMeasurementWords) : UInt16.ofNat (wireValue raw j) = word raw j := by
    rw [← toNat_word_eq_wireValue, UInt16.ofNat_toNat]
  cases i <;> simp only [wireSingle, hword] <;> rfl

/-- A concentration shows its word in the unit of its attribute. -/
theorem shown_concentration (raw : Vector UInt8 kMeasurementBytes) (i : ConcentrationInstance) :
    Single.shown (decodeMeasurement raw) (.concentration i) =
      if wireValue raw (wireWord i) = 0xFFFF then none
      else some (toRat (wireSingle raw i)) := by
  rw [Single.shown, single_convert_decodeMeasurement]
  by_cases hword : wireValue raw (wireWord i) = 0xFFFF
  · rw [if_pos hword, if_neg (mt (has_concentration raw i).mp (not_not_intro hword))]
  · rw [if_neg hword, if_pos ((has_concentration raw i).mpr hword)]

/-- A humidity shows its word as it is. -/
theorem shown_humidity (raw : Vector UInt8 kMeasurementBytes) :
    Attribute.humidity.shown (decodeMeasurement raw) =
      if wireValue raw 4 = 0x7FFF then none else some (UInt16.ofNat (wireValue raw 4)) := by
  have hvalid : (decodeMeasurement raw).has .humidity = true ↔ wireValue raw 4 ≠ 0x7FFF := by
    rw [has_decodeMeasurement]
    exact toInt16_word_ne_unavailable raw 4
  have hconvert : humidityRawToMatterCentiPercent (decodeMeasurement raw).humidity =
      UInt16.ofNat (wireValue raw 4) := by
    rw [← toNat_word_eq_wireValue, UInt16.ofNat_toNat]
    rfl
  rw [Attribute.shown, hconvert]
  by_cases hword : wireValue raw 4 = 0x7FFF
  · rw [if_pos hword, if_neg (mt hvalid.mp (not_not_intro hword))]
  · rw [if_neg hword, if_pos (hvalid.mpr hword)]

/-- A temperature is halved toward zero, which no valid word takes out of range
    or to the null encoding. -/
theorem shown_temperature (raw : Vector UInt8 kMeasurementBytes) (endpoint : EndpointId) :
    ((Attribute.temperature endpoint).shown (decodeMeasurement raw) = none ↔
      wireValue raw 5 = 0x7FFF) ∧
    (wireValue raw 5 ≠ 0x7FFF → ∃ centiDegC : Int16,
      (Attribute.temperature endpoint).shown (decodeMeasurement raw) = some centiDegC ∧
      centiDegC.toInt = (wireSigned raw 5).tdiv 2 ∧ centiDegC ≠ Int16.minValue) := by
  have hvalid : (decodeMeasurement raw).has .temperature = true ↔ wireValue raw 5 ≠ 0x7FFF := by
    rw [has_decodeMeasurement]
    exact toInt16_word_ne_unavailable raw 5
  constructor
  · rw [show (none : Option Int16) = Attribute.initial (.temperature endpoint) from rfl,
      Attribute.shown_eq_initial_iff, Attribute.fields, List.forall_mem_singleton,
      Bool.eq_false_iff, Ne, hvalid, not_not]
  · intro hword
    refine ⟨_, if_pos (hvalid.mpr hword), ?_, temperatureRawToMatterCentiDegC_ne_minValue _⟩
    rw [toInt_temperatureRawToMatterCentiDegC, ← toInt_word_eq_wireSigned]
    rfl

/-- A channel of the policy is valid where the concentration that shows it is not
    null. -/
theorem valid_decodeMeasurement (raw : Vector UInt8 kMeasurementBytes) (channel : PolicyChannel) :
    (PolicyInputs.ofMeasurement (decodeMeasurement raw)).valid channel = true ↔
      wireValue raw (wireWord channel.shownBy) ≠ 0xFFFF := by
  rw [← has_concentration, PolicyInputs.valid_ofMeasurement]
  cases channel <;> rfl

/-- Attributes that show a decoded response say what it says. -/
theorem Faithful.of_shown {σ : Type} {store : AttributeStore σ}
    {raw : Vector UInt8 kMeasurementBytes} {s : σ}
    (hshown : ∀ a ∈ Attribute.published, (a = .humidity → wireValue raw 4 ≠ 0xFFFF) →
      store.read s a = Single.shown (decodeMeasurement raw) a) : Faithful store raw s := by
  have hconcentration (i : ConcentrationInstance) : store.read s (.concentration i) =
      if wireValue raw (wireWord i) = 0xFFFF then none
      else some (toRat (wireSingle raw i)) := by
    rw [← shown_concentration]
    exact hshown (.concentration i) (by cases i <;> decide) nofun
  have hnull (i : ConcentrationInstance) :
      store.read s (.concentration i) = none ↔ wireValue raw (wireWord i) = 0xFFFF := by
    rw [hconcentration]
    split <;> simp_all
  have hrounded (i : ConcentrationInstance) :
      Rounded (wireValue raw (wireWord i) / wireScale i) (toRat (wireSingle raw i)) := by
    rw [← convert_decodeMeasurement, ← single_convert_decodeMeasurement]
    exact Single.rounded_convert _ i
  have htemperature (endpoint : EndpointId)
      (hendpoint : endpoint ∈ [kEndpointId, kTemperatureEndpointId]) :
      store.read s (.temperature endpoint) =
        (Attribute.temperature endpoint).shown (decodeMeasurement raw) := by
    refine hshown (.temperature endpoint) ?_ nofun
    rcases List.mem_pair.mp hendpoint with rfl | rfl <;> decide
  have hquality : store.read s .airQuality =
      evaluateAirQuality (.ofMeasurement (decodeMeasurement raw)) := by
    rw [← Single.evaluateAirQuality_single]
    exact hshown .airQuality (by decide) nofun
  constructor
  · exact hnull
  · intro i hword
    rw [hconcentration, if_neg hword]
    exact ⟨rfl, hrounded i⟩
  · intro hword
    have hvalue : toRat (wireSingle raw .co2) = wireValue raw 8 := by
      rw [← single_convert_decodeMeasurement, ← toNat_word_eq_wireValue]
      exact (regular_toFloat32 (word raw 8)).2
    rw [← hvalue]
    exact (hconcentration .co2).trans (if_neg hword)
  · intro endpoint hendpoint
    rw [htemperature endpoint hendpoint]
    exact (shown_temperature raw endpoint).1
  · intro endpoint hendpoint hword
    rw [htemperature endpoint hendpoint]
    exact (shown_temperature raw endpoint).2 hword
  · intro hword
    rw [hshown _ (by decide) fun _ => hword]
    exact shown_humidity raw
  · rw [hquality, PolicyInputs.evaluateAirQuality_eq_unknown_iff]
    refine forall_congr' fun channel => ?_
    rw [hnull, Bool.eq_false_iff, Ne, valid_decodeMeasurement, not_not]
  · intro category below hbelow
    rw [hquality, PolicyInputs.le_evaluateAirQuality_iff_exceeds _ hbelow]
    simp only [Ne, hnull, valid_decodeMeasurement, PolicyInputs.concentration_ofMeasurement,
      convert_decodeMeasurement]

/-- Publication is faithful from the wire to the attributes. An apply in any
    state of any interleaving, whatever the attributes held before, writes
    nothing as long as no response with a valid channel has been published, and
    from then on makes the attributes say exactly what the newest published
    response says, every word of which matched its CRC. -/
theorem publication_faithful {σ : Type} {store : AttributeStore σ}
    (hlawful : store.LawfulOn Single.singleConcentrations) {config : PolicyConfig} {p₀ : Policy}
    (hboot : Booted config p₀) {x : System σ} {h : History}
    (hreach : SingleReaches store p₀ x h) (s : σ) :
    ((∀ reading ∈ p₀.readings h.poll.published, reading.frame.valid = 0) →
      Single.applyLatestMeasurement store x.poller.snapshot s = s) ∧
    ((∃ reading ∈ p₀.readings h.poll.published, reading.frame.valid ≠ 0) →
      ∃ newest older, p₀.readings h.poll.published = newest :: older ∧
        checkWordsCrc kMeasurementWords newest.raw = true ∧
        Faithful store newest.raw (Single.applyLatestMeasurement store x.poller.snapshot s)) := by
  have hblank := hboot.blank
  have hsnapshot := hreach.traced.snapshot
  have hever := Policy.snapshotAfter_everValid hblank h.poll.published
  obtain ⟨hlatest, hseen, _⟩ := Policy.afterTicks_data hblank h.poll.published
  rw [← hsnapshot, hseen] at hever
  constructor
  · intro hnone
    apply Single.applyLatestMeasurement_of_not_everValid
    rw [hever, List.any_eq_false]
    intro reading hmem
    simpa using hnone reading hmem
  · rintro ⟨reading, hmem, hvalid⟩
    have hany : (p₀.readings h.poll.published).any (fun r => r.frame.valid != 0) = true :=
      List.any_eq_true.mpr ⟨reading, hmem, by simpa using hvalid⟩
    have hmeasurement := Policy.snapshotAfter_measurement hblank h.poll.published
    rw [← hsnapshot, hseen, hany, if_pos rfl, hlatest] at hmeasurement
    cases hreadings : p₀.readings h.poll.published with
    | nil =>
      rw [hreadings] at hmem
      cases hmem
    | cons newest older =>
      rw [hreadings] at hmeasurement
      refine ⟨newest, older, rfl,
        Policy.crc_of_mem_readings (hreadings ▸ List.mem_cons_self), Faithful.of_shown ?_⟩
      intro a ha hhumidity
      change x.poller.snapshot.measurement = decodeMeasurement newest.raw at hmeasurement
      rw [← hmeasurement]
      refine Single.read_applyLatestMeasurement hlawful (hever.trans hany) ha
        (fun ha _ hword => ?_) s
      rw [hmeasurement, ← Int16.toInt_inj] at hword
      have hsigned := (toInt_word_eq_wireSigned newest.raw 4).symm.trans hword
      have hne := hhumidity ha
      have hlt := (word newest.raw 4).toNat_lt
      rw [toNat_word_eq_wireValue] at hlt
      rw [wireSigned, show (-1 : Int16).toInt = -1 from rfl] at hsigned
      split at hsigned <;> omega

/-- One tick after a clean boot an apply says what its frame says. -/
theorem publication_faithful_firstFrame :
    Faithful attributeRam (Frame.encode fun _ => 100).raw
      (Single.applyLatestMeasurement attributeRam
        (singleRun (tickOf (.encode fun _ => 100) 1000)).1.poller.snapshot Attribute.initial) := by
  have hfirst : cleanBoot.readings
      (singleRun (tickOf (.encode fun _ => 100) 1000)).2.poll.published =
        [⟨(Frame.encode fun _ => 100).raw, 1000⟩] := by
    decide +kernel
  obtain ⟨newest, older, hreadings, _, hfaithful⟩ :=
    (publication_faithful (lawfulOn_attributeRam _) booted_cleanBoot
      (reaches_singleRun (tickOf (.encode fun _ => 100) 1000)) Attribute.initial).2
      (by rw [hfirst]; exact ⟨_, List.mem_cons_self, by decide +kernel⟩)
  rw [hfirst] at hreadings
  cases hreadings
  exact hfaithful

end Publication
