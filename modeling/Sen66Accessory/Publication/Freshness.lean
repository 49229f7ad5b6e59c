import Sen66Accessory.MeasurementService.Clock
import Sen66Accessory.Publication.Delivery

open Sen66 MeasurementService AirQualityEndpoint

namespace Publication

section

variable {σ : Type} {store : AttributeStore σ} {config : PolicyConfig} {p₀ : Policy}
  {x x' : System σ} {h h' : History}

/-- The attributes show one accepted frame, taken from a reading of the run. The
    humidity is excepted where the frame carries the register -1, which its
    attribute reserves for null. -/
structure Shows (store : AttributeStore σ) (p₀ : Policy) (x : System σ) (h : History)
    (source : Reading) : Prop where
  mem : source ∈ p₀.readings h.poll.ticks
  frame : shownFrame p₀ h = source.frame
  readMs : (p₀.afterTicks (h.written.getD [])).lastUpdateMs = source.readMs
  attributes : ∀ a ∈ Attribute.published,
    (a = .humidity → source.frame.has .humidity = true → source.frame.humidity ≠ -1) →
    store.read x.attributes a = a.shown source.frame

/-- What was written after a valid frame is a reading of the run. -/
theorem Tracked.exists_shows (htracked : Tracked store p₀ x h) (hblank : p₀.Blank)
    (hlawful : store.Lawful) (hever : (p₀.afterTicks (h.written.getD [])).everValid = true) :
    ∃ source, Shows store p₀ x h source := by
  obtain ⟨hlatest, hany, hupdate⟩ := Policy.afterTicks_data hblank (h.written.getD [])
  cases hreadings : p₀.readings (h.written.getD []) with
  | nil =>
    rw [hany, hreadings] at hever
    cases hever
  | cons source older =>
    rw [hreadings] at hlatest hupdate
    change (p₀.afterTicks (h.written.getD [])).latest = source.frame at hlatest
    have hmem : source ∈ p₀.readings (h.written.getD []) := hreadings ▸ List.mem_cons_self
    refine ⟨source, (Policy.readings_suffix p₀ htracked.written_suffix).subset hmem, hlatest,
      hupdate, fun a ha hhumidity => ?_⟩
    rw [← hlatest] at hhumidity ⊢
    exact htracked.read_attributes hblank hlawful ha hhumidity

/-- Matter is never more than a notify interval behind the sensor. In every
    state of every interleaving in which nothing is left to deliver, as long as
    the newest accepted frame has a valid channel, all attributes show one and
    the same accepted frame, read less than a notify interval before that one,
    whatever polls failed since. Only where the frame shown carries the humidity
    word 0xFFFF, which its attribute reserves for null, that attribute may still
    show an earlier one. -/
theorem shown_fresh (hlawful : store.Lawful) (hboot : Booted config p₀)
    (hreach : Reaches store p₀ x h) (hfinished : x.cluster = .finished)
    (hidle : x.poller.stage = .idle) (hqueued : x.queued = 0) (hclocked : Clocked h.poll.ticks)
    {newest : Reading} {older : List Reading}
    (hreadings : p₀.readings h.poll.ticks = newest :: older) (hvalid : newest.frame.valid ≠ 0) :
    ∃ source, Shows store p₀ x h source ∧ source.readMs ≤ newest.readMs ∧
      newest.readMs - source.readMs ≤ ((config.notifyIntervalMs.toNat - 1 : Nat) : Int) := by
  have hblank := hboot.blank
  have htracked := hreach.tracked hblank
  have hwithin := htracked.notifiedWithin (CaughtUp.of_idle hfinished hidle hqueued)
  have hsuffix := htracked.written_suffix
  obtain ⟨hlatest, hany, hupdate⟩ := Policy.afterTicks_data hblank h.poll.ticks
  rw [hreadings] at hlatest hany hupdate
  change _ = newest.frame at hlatest
  change _ = newest.readMs at hupdate
  -- The first valid frame notified, so it was written, and with it its successors.
  obtain ⟨tick, earlier, hpart, hnotifies⟩ :=
    Policy.exists_notifies_of_everValid hblank h.poll.ticks (by rw [hany]; simp [hvalid])
  have hever := Policy.everValid_of_suffix hblank (hwithin tick earlier hpart hnotifies)
    (Policy.everValid_of_notifies hnotifies)
  obtain ⟨source, hshows⟩ := htracked.exists_shows hblank hlawful hever
  have hlate := Policy.lastUpdateMs_sub_lastNotifyMs_le hblank h.poll.ticks (hlatest ▸ hvalid)
  have hread := Policy.lastNotifyMs_le hblank (hclocked.of_suffix hsuffix)
  have horder := Policy.lastUpdateMs_mono hblank hclocked hsuffix
  rw [hwithin.lastNotifyMs_eq hblank hsuffix, hboot.config_eq] at hlate
  rw [hshows.readMs] at hread horder
  exact ⟨source, hshows, by omega, by omega⟩

/-- A first frame that has been delivered. -/
def firstRun : List Event :=
  [.registerCallback, .directApply] ++ tickOf (.encode fun _ => 100) 1000 ++ [.dequeuedApply]

/-- The second frame is too close to the first one to be notified. -/
def quietRun : List Event := firstRun ++ tickOf (.encode fun _ => 110) 3000

/-- The attributes stay at the first frame. -/
theorem shown_fresh_quietRun :
    ∃ source, Shows attributeRam cleanBoot (cleanRun quietRun).1 (cleanRun quietRun).2 source ∧
      source.readMs ≤ 3000 ∧ 3000 - source.readMs ≤ 6999 := by
  have hreadings : cleanBoot.readings (cleanRun quietRun).2.poll.ticks =
      [⟨(Frame.encode fun _ => 110).raw, 3000⟩, ⟨(Frame.encode fun _ => 100).raw, 1000⟩] := by
    decide +kernel
  exact shown_fresh lawful_attributeRam booted_cleanBoot (reaches_cleanRun quietRun)
    (by decide +kernel) (by decide +kernel) (by decide +kernel)
    ⟨by decide +kernel, by decide +kernel⟩ hreadings (by decide +kernel)

/-- What was written stays written. -/
theorem Reaches.written_suffix (hblank : p₀.Blank) (hreach : Reaches store p₀ x h)
    {events : List Event}
    (hrun : ((System.machine store).observe History.record).run (x, h) events = some (x', h')) :
    h.written.getD [] <:+ h'.written.getD [] := by
  refine hreach.run_rel (R := fun a b => a.2.written.getD [] <:+ b.2.written.getD [])
    (fun _ => List.suffix_rfl) (fun _ _ _ => List.IsSuffix.trans) ?_ hrun
  rintro ⟨x, h⟩ e ⟨x', h'⟩ hreach hstep
  have htracked := Reaches.tracked hblank hreach
  obtain ⟨_, hrecord⟩ := Machine.observe_step.mp hstep
  dsimp only at hrecord ⊢
  rw [hrecord]
  have happlied : h.written.getD [] <:+
      (if x.poller.snapshot.everValid then some h.poll.published else h.written).getD [] := by
    split
    · exact htracked.published
    · exact List.suffix_rfl
  cases e with
  | directApply => exact happlied
  | dequeuedApply => exact happlied
  | poll e => exact List.suffix_rfl
  | clusterFailure => exact List.suffix_rfl
  | registerCallback => exact List.suffix_rfl

/-- Matter never goes back in time. Once the attributes show an accepted frame
    they show one after every further step of any run, in the middle of a tick or
    with work items still queued, and never one that was read before. Only the
    humidity attribute is left behind by a frame with the humidity word 0xFFFF,
    which it reserves for null. -/
theorem shown_never_older (hlawful : store.Lawful) (hboot : Booted config p₀)
    (hreach : Reaches store p₀ x h) {ticks : List Tick} (hwritten : h.written = some ticks)
    {events : List Event}
    (hrun : ((System.machine store).observe History.record).run (x, h) events = some (x', h'))
    (hclocked : Clocked h'.poll.ticks) :
    ∃ source source', Shows store p₀ x h source ∧ Shows store p₀ x' h' source' ∧
      source.readMs ≤ source'.readMs ∧
      source'.readMs ≤ (p₀.afterTicks h'.poll.published).lastUpdateMs := by
  have hblank := hboot.blank
  have htracked := hreach.tracked hblank
  have htracked' := Reaches.tracked hblank (Machine.Reachable.run hreach hrun)
  have hgrows := hreach.written_suffix hblank hrun
  have hever : (p₀.afterTicks (h.written.getD [])).everValid = true := by
    have hfrom := htracked.written
    rw [hwritten] at hfrom ⊢
    exact hfrom.1
  obtain ⟨source, hshows⟩ := htracked.exists_shows hblank hlawful hever
  obtain ⟨source', hshows'⟩ := htracked'.exists_shows hblank hlawful
    (Policy.everValid_of_suffix hblank hgrows hever)
  refine ⟨source, source', hshows, hshows', ?_, ?_⟩
  · rw [← hshows.readMs, ← hshows'.readMs]
    exact Policy.lastUpdateMs_mono hblank (hclocked.of_suffix htracked'.written_suffix) hgrows
  · rw [← hshows'.readMs]
    exact Policy.lastUpdateMs_mono hblank
      (hclocked.of_suffix htracked'.traced.published_suffix) htracked'.published

/-- A larger frame after the first one, with its work item still queued. -/
def largerFrame : System ((a : Attribute) → a.Value) × History :=
  (((System.machine attributeRam).observe History.record).run (cleanRun firstRun)
    (tickOf (.encode fun _ => 200) 3000)).getD (cleanRun firstRun)

/-- Until it runs the attributes stay where they were. -/
theorem shown_never_older_larger :
    ∃ source source',
      Shows attributeRam cleanBoot (cleanRun firstRun).1 (cleanRun firstRun).2 source ∧
      Shows attributeRam cleanBoot largerFrame.1 largerFrame.2 source' ∧
      source.readMs ≤ source'.readMs ∧
      source'.readMs ≤ (cleanBoot.afterTicks largerFrame.2.poll.published).lastUpdateMs := by
  have hrun : ((System.machine attributeRam).observe History.record).run
      ((cleanRun firstRun).1, (cleanRun firstRun).2) (tickOf (.encode fun _ => 200) 3000) =
      some (largerFrame.1, largerFrame.2) := by
    rw [Prod.mk.eta, Prod.mk.eta]
    exact Machine.run_eq_getD (by decide +kernel) _
  have hwritten : (cleanRun firstRun).2.written =
      some [.ofFrame (.encode fun _ => 100) 1000] := by
    decide +kernel
  exact shown_never_older lawful_attributeRam booted_cleanBoot (reaches_cleanRun firstRun)
    hwritten hrun ⟨by decide +kernel, by decide +kernel⟩

end

end Publication
