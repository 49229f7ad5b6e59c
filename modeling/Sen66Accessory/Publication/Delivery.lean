import Sen66Accessory.Publication.Invariant

open Sen66 MeasurementService AirQualityEndpoint

namespace Publication

section

variable {σ : Type} {store : AttributeStore σ} {p₀ : Policy} {x : System σ} {h : History}

/-- Between ticks nothing of the current tick is still to come. -/
theorem CaughtUp.of_idle (hfinished : x.cluster = .finished) (hidle : x.poller.stage = .idle)
    (hqueued : x.queued = 0) : CaughtUp p₀ x h :=
  ⟨hfinished, hqueued, fun _ _ _ _ => hidle⟩

/-- No humidity register read so far is the one word whose conversion its
    attribute reserves for null. -/
def HumidityInRange (p₀ : Policy) (ticks : List Tick) : Prop :=
  ∀ reading ∈ p₀.readings ticks, word reading.raw 4 ≠ 0xFFFF

theorem HumidityInRange.shownFrame (hblank : p₀.Blank)
    (hwritten : h.written.getD [] <:+ h.poll.ticks) (hrange : HumidityInRange p₀ h.poll.ticks) :
    (shownFrame p₀ h).humidity ≠ -1 := by
  rw [Publication.shownFrame, (Policy.afterTicks_data hblank _).1]
  cases hreading : (p₀.readings (h.written.getD [])).head? with
  | none => decide
  | some reading =>
    have hmem := (Policy.readings_suffix p₀ hwritten).subset
      (List.mem_of_mem_head? hreading)
    intro hword
    apply hrange reading hmem
    rw [← UInt16.toUInt16_toInt16 (word reading.raw 4)]
    exact congrArg Int16.toUInt16 hword

end

/-- In every state of every interleaving in which `ClusterInit` has finished, no
    tick is under way and no work item is queued, no validity update is lost.
    Either no tick has notified and nothing was written, or the attributes were
    written from a snapshot that was published after the last notifying tick.
    In both cases an attribute is null, or the air quality unknown, exactly when
    none of its channels is valid in the policy's latest frame. -/
theorem no_update_lost {σ : Type} {store : AttributeStore σ} (hlawful : store.Lawful)
    {config : PolicyConfig} {p₀ : Policy} (hboot : Booted config p₀) {x : System σ} {h : History}
    (hreach : Reaches store p₀ x h) (hfinished : x.cluster = .finished)
    (hidle : x.poller.stage = .idle) (hqueued : x.queued = 0) :
    ((h.written = none ∧ (∀ a, store.read x.attributes a = a.initial) ∧
        ∀ tick earlier, tick :: earlier <:+ h.poll.ticks →
          (p₀.afterTicks earlier).notifies tick = false) ∨
      ∃ ticks, h.written = some ticks ∧ ticks <:+ h.poll.ticks ∧
        (∃ s, x.attributes = applyLatestMeasurement store (p₀.snapshotAfter ticks) s) ∧
        (∃ tick earlier, tick :: earlier <:+ ticks ∧
          (p₀.afterTicks earlier).notifies tick = true) ∧
        ∀ tick earlier, tick :: earlier <:+ h.poll.ticks →
          (p₀.afterTicks earlier).notifies tick = true → tick :: earlier <:+ ticks) ∧
    (∀ a ∈ Attribute.published, a ≠ .humidity ∨ HumidityInRange p₀ h.poll.ticks →
      (store.read x.attributes a = a.initial ↔
        ∀ f ∈ a.fields, x.poller.policy.latest.has f = false)) ∧
    (x.poller.policy.latest.has .humidity = false →
      store.read x.attributes .humidity = Attribute.initial .humidity) := by
  have hblank := hboot.blank
  have htracked := hreach.tracked hblank
  have hcaught : CaughtUp p₀ x h := CaughtUp.of_idle hfinished hidle hqueued
  have hwithin := htracked.notifiedWithin hcaught
  refine ⟨?_, ?_, ?_⟩
  · have hwritten := htracked.written
    have hsuffix := htracked.written_suffix
    cases hhistory : h.written with
    | none =>
      rw [hhistory] at hwritten hwithin
      refine Or.inl ⟨rfl, hwritten, fun tick earlier hsuffix => ?_⟩
      by_contra hnotifies
      rw [Bool.not_eq_false] at hnotifies
      cases List.suffix_nil.mp (hwithin tick earlier hsuffix hnotifies)
    | some ticks =>
      rw [hhistory] at hwritten hwithin hsuffix
      obtain ⟨hever, happlied⟩ := hwritten
      exact Or.inr ⟨ticks, rfl, hsuffix, happlied,
        Policy.exists_notifies_of_everValid hblank ticks hever, hwithin⟩
  · intro a ha hrange
    have hshown := htracked.read_attributes hblank hlawful ha fun hhumidity _ =>
      HumidityInRange.shownFrame hblank htracked.written_suffix
        (hrange.resolve_left (not_not_intro hhumidity))
    simp only [hshown, Attribute.shown_eq_initial_iff, htracked.has_shownFrame hblank hcaught]
  · intro hinvalid
    rw [← htracked.has_shownFrame hblank hcaught] at hinvalid
    have hshown := htracked.read_attributes hblank hlawful (a := .humidity) (by decide)
      fun _ hvalid => by rw [hinvalid] at hvalid; cases hvalid
    rw [hshown, Attribute.shown_eq_initial_iff]
    simpa [Attribute.fields] using hinvalid

/-- A frame is notified before the callback is registered, and the loss of all
    its channels afterwards, during `ClusterInit`. -/
def lossRun : List Event :=
  tickOf (.encode fun _ => 100) 1000 ++ [.registerCallback] ++ tickOf .warmUp 2000 ++
    [.directApply, .dequeuedApply]

theorem end_lossRun :
    (cleanRun lossRun).1.cluster = .finished ∧ (cleanRun lossRun).1.poller.stage = .idle ∧
      (cleanRun lossRun).1.queued = 0 ∧ (cleanRun lossRun).1.poller.policy.latest.valid = 0 := by
  decide +kernel

/-- Both updates arrive: the CO2 value is null in the end. -/
theorem no_update_lost_lossRun :
    attributeRam.read (cleanRun lossRun).1.attributes (.concentration .co2) = none := by
  obtain ⟨hfinished, hidle, hqueued, hvalid⟩ := end_lossRun
  have hshown := (no_update_lost lawful_attributeRam booted_cleanBoot (reaches_cleanRun lossRun)
    hfinished hidle hqueued).2.1 (.concentration .co2) (by decide) (Or.inl nofun)
  refine hshown.mpr fun f _ => ?_
  rw [Measurement.has, hvalid, Flags.has_zero]

end Publication
