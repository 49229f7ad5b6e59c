import Sen66Accessory.Publication.Drift
import Sen66Accessory.Publication.Freshness
import Sen66Accessory.Publication.ShellAgreement
import Sen66Accessory.Sen66.ShellCommand
import Sen66Accessory.Sen66.ShellText

open Sen66 MeasurementService AirQualityEndpoint

namespace Publication

/-- Two readings of one channel: both unavailable, or both within a tolerance. -/
def Near (tolerance : Rat) : Option Rat → Option Rat → Prop
  | none, none => True
  | some p, some q => |p - q| ≤ tolerance
  | _, _ => False

/-- What an attribute may lag behind the newest snapshot, in its unit: twice the
    largest change that is not notified. The temperature register is halved. -/
def tolerance (t : ChangeThresholds) : Field → Rat
  | .humidity => 2 * ((t.of .humidity).toNat - 1 : Nat) / 100
  | .temperature => ((t.of .temperature).toNat - 1 : Nat) / 100
  | .co2 => 2 * ((t.of .co2).toNat - 1 : Nat)
  | f => 2 * ((t.of f).toNat - 1 : Nat) / 10

/-- No relative humidity read so far is negative, nor the sentinel of another
    type. -/
def HumidityNonneg (p₀ : Policy) (ticks : List Tick) : Prop :=
  ∀ reading ∈ p₀.readings ticks, (word reading.raw 4).toNat < 0x8000

/-- An attribute that shows a frame has the number the shell would display. -/
theorem numberOf_shown {m : Measurement} {f : Field} {a : Attribute} (ha : a ∈ attributesOf f)
    (hhumidity : 0 ≤ m.humidity.toInt) : numberOf a (a.shown m) = m.displayed f := by
  have hcast (n : Nat) : ((n : Int) : Rat) = n := Int.cast_natCast n
  cases f with
  | pm4p0 | vocIndex | noxIndex => exact absurd ha List.not_mem_nil
  | pm1p0 | pm2p5 | pm10 | co2 =>
    obtain rfl := List.mem_singleton.mp ha
    simp only [Measurement.displayed, Measurement.number, Measurement.raw, hcast]
    rfl
  | humidity =>
    obtain rfl := List.mem_singleton.mp ha
    have hword := (toNat_toUInt16_eq_iff m.humidity).mpr hhumidity
    rw [numberOf_humidity, Measurement.displayed, Measurement.number, Measurement.raw, ← hword,
      hcast]
  | temperature =>
    rcases List.mem_pair.mp ha with rfl | rfl <;> exact numberOf_temperature m _

/-- Registers close to each other are displayed close to each other. -/
theorem abs_number_sub_le {t : ChangeThresholds} {m m' : Measurement} {f : Field}
    (hclose : (m.raw f - m'.raw f).natAbs ≤ 2 * ((t.of f).toNat - 1)) :
    |m.number f - m'.number f| ≤ tolerance t f := by
  have hraw : |(m.raw f : Rat) - m'.raw f| ≤ 2 * ((t.of f).toNat - 1 : Nat) := by
    have hint : |m.raw f - m'.raw f| ≤ 2 * (((t.of f).toNat - 1 : Nat) : Int) := by
      rw [Int.abs_eq_natAbs]
      omega
    exact_mod_cast hint
  have hscaled {scale : Rat} (hpos : 0 < scale) :
      |(m.raw f : Rat) / scale - m'.raw f / scale| ≤
        2 * ((t.of f).toNat - 1 : Nat) / scale := by
    rw [← sub_div, abs_div, abs_of_pos hpos]
    gcongr
  cases f with
  | humidity => exact hscaled (by norm_num)
  | co2 => exact hraw
  | pm1p0 | pm2p5 | pm4p0 | pm10 | vocIndex | noxIndex => exact hscaled (by norm_num)
  | temperature =>
    have hhalf : |(m.raw .temperature).tdiv 2 - (m'.raw .temperature).tdiv 2| ≤
        (((t.of .temperature).toNat - 1 : Nat) : Int) := by
      rw [Int.abs_eq_natAbs, Int.tdiv_eq_ediv, Int.tdiv_eq_ediv, show Int.sign 2 = 1 from rfl]
      split <;> split <;> omega
    have hhundred : (0 : Rat) < 100 := by norm_num
    have hnumber : |(((m.raw .temperature).tdiv 2 : Int) : Rat) - ((m'.raw .temperature).tdiv 2 : Int)| ≤
        ((t.of .temperature).toNat - 1 : Nat) := by
      exact_mod_cast hhalf
    simp only [Measurement.number, tolerance]
    rw [← sub_div, abs_div, abs_of_pos hhundred]
    gcongr

section

variable {σ : Type} {store : AttributeStore σ} {config : PolicyConfig} {p₀ : Policy}
  {x : System σ} {h : History}

/-- A snapshot displays what the policy's latest frame displays. -/
theorem displayed_snapshotAfter (hblank : p₀.Blank) (ticks : List Tick) (f : Field) :
    (p₀.snapshotAfter ticks).measurement.displayed f =
      (p₀.afterTicks ticks).latest.displayed f := by
  rw [Policy.snapshotAfter_measurement hblank]
  cases hever : (p₀.afterTicks ticks).everValid with
  | true => rfl
  | false =>
    have hnone := (Policy.coherent_afterTicks hblank ticks).latest hever
    rw [if_neg Bool.false_ne_true, Measurement.displayed, Measurement.displayed,
      Measurement.has, Measurement.has, hnone]
    change (if Flags.has 0 f = true then _ else none) = _
    rw [Flags.has_zero]
    rfl

theorem HumidityNonneg.inRange {ticks : List Tick} (hnonneg : HumidityNonneg p₀ ticks) :
    HumidityInRange p₀ ticks := by
  intro reading hmem hword
  have hlt := hnonneg reading hmem
  rw [hword] at hlt
  revert hlt
  decide

theorem HumidityNonneg.shownFrame (hblank : p₀.Blank)
    (hwritten : h.written.getD [] <:+ h.poll.ticks)
    (hnonneg : HumidityNonneg p₀ h.poll.ticks) :
    0 ≤ (shownFrame p₀ h).humidity.toInt := by
  rw [Publication.shownFrame, (Policy.afterTicks_data hblank _).1]
  cases hreading : (p₀.readings (h.written.getD [])).head? with
  | none => decide
  | some reading =>
    have hmem := (Policy.readings_suffix p₀ hwritten).subset (List.mem_of_mem_head? hreading)
    have hlt := hnonneg reading hmem
    change 0 ≤ (word reading.raw 4).toInt16.toInt
    rw [toInt_toInt16, if_pos hlt]
    exact Int.natCast_nonneg _

/-- What an operator sees when comparing the controller with `sen66 latest`. In
    every state of every interleaving with nothing left to deliver, each
    attribute is null exactly where the shell prints that its channel is not
    available, and otherwise its number is within the tolerance of the decimal
    printed, in the unit printed. -/
theorem shell_near_attributes (hlawful : store.Lawful) (hboot : Booted config p₀)
    (hpositive : ∀ f, 0 < (config.thresholds.of f).toNat) (hreach : Reaches store p₀ x h)
    (hfinished : x.cluster = .finished) (hidle : x.poller.stage = .idle) (hqueued : x.queued = 0)
    (hnonneg : HumidityNonneg p₀ h.poll.ticks) (f : Field) {a : Attribute}
    (ha : a ∈ attributesOf f) :
    ∃ line shown, (printMeasurement x.poller.snapshot.measurement)[f.index]? = some line ∧
      (x.poller.snapshot.everValid = true →
        (cmdLatest x.poller.snapshot).output[f.index + 1]? = some line.message) ∧
      line.Shows (unitOf a) shown ∧
      Near (tolerance config.thresholds f) shown (numberOf a (store.read x.attributes a)) := by
  have hblank := hboot.blank
  have htracked := hreach.tracked hblank
  have hcaught : CaughtUp p₀ x h := CaughtUp.of_idle hfinished hidle hqueued
  have hprogress := htracked.traced.progress
  rw [hidle] at hprogress
  obtain ⟨hpolicy, hpublished⟩ := hprogress
  have hsnapshot := htracked.traced.snapshot
  rw [hpublished] at hsnapshot
  have hhumidity := hnonneg.shownFrame hblank htracked.written_suffix
  obtain ⟨line, hrow, _, hshows⟩ := shows_printMeasurement x.poller.snapshot.measurement f
  have hunit : unitOf a = f.unit := by
    have hall : ∀ f ∈ Field.all, ∀ a ∈ attributesOf f, unitOf a = f.unit := by decide
    exact hall f f.mem_all a ha
  refine ⟨line, _, hrow, fun hever => ?_, hunit ▸ hshows, ?_⟩
  · rw [cmdLatest_output hever, hrow, Option.map_some]
  have hread := htracked.read_attributes hblank hlawful (attributesOf_published ha) fun _ _ =>
    HumidityInRange.shownFrame hblank htracked.written_suffix hnonneg.inRange
  rw [hread, numberOf_shown ha hhumidity, hsnapshot, displayed_snapshotAfter hblank]
  have hhas := htracked.has_shownFrame hblank hcaught f
  rw [hpolicy] at hhas
  rw [Measurement.displayed, Measurement.displayed, hhas]
  cases hvalid : (p₀.afterTicks h.poll.ticks).latest.has f with
  | false => exact trivial
  | true =>
    exact abs_number_sub_le (shownFrame_near_latest hboot hpositive hreach
      ⟨hfinished, hidle, hqueued⟩ (hhas.trans hvalid))

/-- The attribute still shows the first of two frames, and the shell prints the
    second one. -/
theorem shell_near_attributes_quietRun :
    ∃ line shown, (printMeasurement (cleanRun quietRun).1.poller.snapshot.measurement)[8]? =
        some line ∧
      ((cleanRun quietRun).1.poller.snapshot.everValid = true →
        (cmdLatest (cleanRun quietRun).1.poller.snapshot).output[9]? = some line.message) ∧
      line.Shows "ppm" shown ∧
      Near (tolerance defaultConfig.thresholds .co2) shown
        (numberOf (.concentration .co2)
          (attributeRam.read (cleanRun quietRun).1.attributes (.concentration .co2))) := by
  have hnonneg : HumidityNonneg cleanBoot (cleanRun quietRun).2.poll.ticks := by
    unfold HumidityNonneg
    decide +kernel
  exact shell_near_attributes lawful_attributeRam booted_cleanBoot (by decide)
    (reaches_cleanRun quietRun) (by decide +kernel) (by decide +kernel) (by decide +kernel)
    hnonneg .co2 List.mem_cons_self

end

end Publication
