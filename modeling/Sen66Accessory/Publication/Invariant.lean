import Sen66Accessory.MeasurementService.Settled
import Sen66Accessory.Publication.System

open Sen66 MeasurementService AirQualityEndpoint

namespace Publication

/-- A part of the history whose newest tick, too, is past its notify step. -/
structure Completed (s : Poller) (h : PollHistory) (ticks : List Tick) : Prop where
  suffix : ticks <:+ h.ticks
  idle : ticks = h.ticks → s.stage = .idle

/-- What is past its notify step has been published before. -/
theorem Completed.published {p₀ : Policy} {s : Poller} {h : PollHistory} {ticks : List Tick}
    (hcompleted : Completed s h ticks) (htraced : Traced p₀ s h) : ticks <:+ h.published := by
  have hprogress := htraced.progress
  cases hstage : s.stage with
  | idle =>
    rw [hstage] at hprogress
    rw [hprogress.2]
    exact hcompleted.suffix
  | read tick =>
    rw [hstage] at hprogress
    have hsuffix := hcompleted.suffix
    rw [hprogress.2, List.suffix_cons_iff, ← hprogress.2] at hsuffix
    refine hsuffix.resolve_left fun hcurrent => ?_
    have hidle := hcompleted.idle hcurrent
    rw [hstage] at hidle
    cases hidle
  | published tick =>
    rw [hstage] at hprogress
    obtain ⟨earlier, _, _, hpublished⟩ := hprogress
    rw [hpublished]
    exact hcompleted.suffix

/-- Before the notify step of the current tick only earlier ticks are past
    theirs. -/
theorem Completed.of_poll {s s' : Poller} {h : PollHistory} {e : PollStep} {ticks : List Tick}
    (hcompleted : Completed s' (h.record e) ticks) (hstep : s.step e = some s') :
    Completed s h ticks ∨ e = .notify ∧ ticks = h.ticks := by
  obtain ⟨tick, rfl, hstage, rfl⟩ | ⟨tick, rfl, hstage, rfl⟩ | ⟨tick, rfl, hstage, rfl⟩ :=
    Poller.step_cases hstep
  · left
    obtain hcurrent | hsuffix := List.suffix_cons_iff.mp hcompleted.suffix
    · cases hcompleted.idle hcurrent
    · exact ⟨hsuffix, fun _ => hstage⟩
  · left
    exact ⟨hcompleted.suffix, fun hcurrent => by cases hcompleted.idle hcurrent⟩
  · by_cases hcurrent : ticks = h.ticks
    · exact Or.inr ⟨rfl, hcurrent⟩
    · exact Or.inl ⟨hcompleted.suffix, fun h => absurd h hcurrent⟩

section

variable {σ : Type} {store : AttributeStore σ} {p₀ : Policy} {x x' : System σ} {h : History}

/-- The invariant of all interleavings. Once `ClusterInit` has finished, a tick
    that notified is in the part of the history the attributes were written
    from, unless a work item is still queued. -/
structure Tracked (store : AttributeStore σ) (p₀ : Policy) (x : System σ) (h : History) :
    Prop where
  traced : Traced p₀ x.poller h.poll
  callback : x.cluster = .registered ∨ x.cluster = .finished → x.callback = true
  dormant : x.cluster = .initialising ∨ x.cluster = .failed →
    x.callback = false ∧ x.queued = 0 ∧ h.written = none
  written : WrittenFrom store p₀ x.attributes h.written
  published : h.written.getD [] <:+ h.poll.published
  delivered : x.cluster = .finished → x.queued = 0 → ∀ tick earlier,
    Completed x.poller h.poll (tick :: earlier) →
    (p₀.afterTicks earlier).notifies tick = true → tick :: earlier <:+ h.written.getD []

namespace Tracked

theorem start {x : System σ} (hstart : System.Start store p₀ x) : Tracked store p₀ x {} where
  traced := by
    rw [hstart.poller]
    exact Traced.start p₀
  callback hregistered := by
    rw [hstart.cluster] at hregistered
    rcases hregistered with hregistered | hfinished
    · cases hregistered
    · cases hfinished
  dormant _ := ⟨hstart.callback, hstart.queued, rfl⟩
  written := hstart.attributes
  published := List.suffix_rfl
  delivered hfinished := by
    rw [hstart.cluster] at hfinished
    cases hfinished

/-- A step of the poll thread keeps the invariant: a notification finds either
    the callback set, and leaves a work item, or `ClusterInit` unfinished. -/
theorem poll (htracked : Tracked store p₀ x h) {e : PollStep}
    (hstep : System.step store x (.poll e) = some x') :
    Tracked store p₀ x' (h.record x (.poll e)) := by
  obtain ⟨poller, hpoller, rfl⟩ := Option.map_eq_some_iff.mp hstep
  have htraced := htracked.traced.step hpoller
  refine ⟨htraced, htracked.callback, ?_, htracked.written, ?_, ?_⟩
  · intro hdormant
    obtain ⟨hcallback, hqueued, hwritten⟩ := htracked.dormant hdormant
    refine ⟨hcallback, ?_, hwritten⟩
    cases e <;> simp [System.enqueues, hcallback, hqueued]
  · refine htracked.published.trans ?_
    cases e with
    | readResult tick => exact List.suffix_rfl
    | publish => exact htracked.traced.published_suffix
    | notify => exact List.suffix_rfl
  · intro hfinished hqueued tick earlier hcompleted hnotifies
    obtain ⟨hqueued, hnone⟩ := Nat.add_eq_zero_iff.mp hqueued
    rcases hcompleted.of_poll hpoller with hcompleted | ⟨rfl, hcurrent⟩
    · exact htracked.delivered hfinished hqueued tick earlier hcompleted hnotifies
    · -- The current tick notifies, so with the callback set it left a work item.
      obtain ⟨_, hevent, _⟩ | ⟨_, hevent, _⟩ | ⟨current, _, hstage, _⟩ :=
        Poller.step_cases hpoller
      · cases hevent
      · cases hevent
      obtain ⟨before, hticks, hdecision⟩ := htracked.traced.notification_isSome hstage
      rw [hticks] at hcurrent
      cases hcurrent
      rw [hnotifies] at hdecision
      rw [System.enqueues, hdecision, htracked.callback (Or.inr hfinished)] at hnone
      cases hnone

/-- An apply writes everything published so far, so it covers every tick that
    is past its notify step. -/
theorem apply (htracked : Tracked store p₀ x h) (hblank : p₀.Blank)
    {attributes : σ} {written : Option (List Tick)}
    (hattributes : attributes = applyLatestMeasurement store x.poller.snapshot x.attributes)
    (hwritten : written =
      if x.poller.snapshot.everValid then some h.poll.published else h.written) :
    WrittenFrom store p₀ attributes written ∧ written.getD [] <:+ h.poll.published ∧
    ∀ tick earlier, Completed x.poller h.poll (tick :: earlier) →
      (p₀.afterTicks earlier).notifies tick = true → tick :: earlier <:+ written.getD [] := by
  have hsnapshot := htracked.traced.snapshot
  have hever := Policy.snapshotAfter_everValid hblank h.poll.published
  rw [← hsnapshot] at hever
  cases hvalid : x.poller.snapshot.everValid with
  | true =>
    rw [hvalid, if_pos rfl] at hwritten
    subst hwritten
    refine ⟨⟨by rw [← hever, hvalid], x.attributes, by rw [hattributes, hsnapshot]⟩,
      List.suffix_rfl, ?_⟩
    intro tick earlier hcompleted _
    exact hcompleted.published htracked.traced
  | false =>
    rw [hvalid, if_neg Bool.false_ne_true] at hwritten
    subst hwritten
    rw [applyLatestMeasurement_of_not_everValid hvalid] at hattributes
    refine ⟨by rw [hattributes]; exact htracked.written, htracked.published, ?_⟩
    intro tick earlier hcompleted hnotifies
    have hseen := Policy.everValid_of_suffix hblank (hcompleted.published htracked.traced)
      (Policy.everValid_of_notifies hnotifies)
    rw [hever, hseen] at hvalid
    cases hvalid

/-- Every step keeps the invariant. -/
theorem step (htracked : Tracked store p₀ x h) (hblank : p₀.Blank) {e : Event}
    (hstep : System.step store x e = some x') : Tracked store p₀ x' (h.record x e) := by
  cases e with
  | poll e => exact htracked.poll hstep
  | clusterFailure =>
    obtain ⟨hinitialising, hnext⟩ := Option.ite_none_right_eq_some.mp hstep
    cases hnext
    exact ⟨htracked.traced, nofun, fun _ => htracked.dormant (Or.inl hinitialising),
      htracked.written, htracked.published, nofun⟩
  | registerCallback =>
    obtain ⟨_, hnext⟩ := Option.ite_none_right_eq_some.mp hstep
    cases hnext
    exact ⟨htracked.traced, fun _ => rfl, nofun, htracked.written, htracked.published, nofun⟩
  | directApply =>
    obtain ⟨hregistered, hnext⟩ := Option.ite_none_right_eq_some.mp hstep
    cases hnext
    obtain ⟨hwritten, hpublished, hcovered⟩ := htracked.apply hblank rfl rfl
    exact ⟨htracked.traced, fun _ => htracked.callback (Or.inl hregistered), nofun, hwritten,
      hpublished, fun _ _ => hcovered⟩
  | dequeuedApply =>
    obtain ⟨hqueued, hnext⟩ := Option.ite_none_right_eq_some.mp hstep
    cases hnext
    obtain ⟨hwritten, hpublished, hcovered⟩ := htracked.apply hblank rfl rfl
    refine ⟨htracked.traced, htracked.callback, fun hdormant => ?_, hwritten, hpublished,
      fun _ _ => hcovered⟩
    rw [(htracked.dormant hdormant).2.1] at hqueued
    cases hqueued

end Tracked

/-- The invariant holds in every state of every run. -/
theorem Reaches.tracked (hblank : p₀.Blank) (hreach : Reaches store p₀ x h) :
    Tracked store p₀ x h := by
  apply hreach.invariant (I := fun s => Tracked store p₀ s.1 s.2)
  · rintro ⟨x, h⟩ ⟨hstart, hhistory⟩
    cases hhistory
    exact Tracked.start hstart
  · rintro ⟨x, h⟩ e ⟨x', h'⟩ _ htracked hstep
    obtain ⟨hnext, hrecord⟩ := Machine.observe_step.mp hstep
    cases hrecord
    exact htracked.step hblank hnext

/-- Nothing is left to be delivered: `ClusterInit` has finished, no work item is
    queued, and no tick that notifies still has its notify step to come. -/
structure CaughtUp (p₀ : Policy) (x : System σ) (h : History) : Prop where
  finished : x.cluster = .finished
  queued : x.queued = 0
  current : ∀ tick earlier, h.poll.ticks = tick :: earlier →
    (p₀.afterTicks earlier).notifies tick = true → x.poller.stage = .idle

/-- The frame the attributes were last written from. -/
def shownFrame (p₀ : Policy) (h : History) : Measurement :=
  (p₀.afterTicks (h.written.getD [])).latest

/-- Once caught up, the attributes were written after the last notifying tick
    had published. -/
theorem Tracked.notifiedWithin (htracked : Tracked store p₀ x h) (hcaught : CaughtUp p₀ x h) :
    Policy.NotifiedWithin p₀ h.poll.ticks (h.written.getD []) := by
  intro tick earlier hsuffix hnotifies
  refine htracked.delivered hcaught.finished hcaught.queued tick earlier ⟨hsuffix, ?_⟩ hnotifies
  intro hcurrent
  exact hcaught.current tick earlier hcurrent.symm hnotifies

theorem Tracked.written_suffix (htracked : Tracked store p₀ x h) :
    h.written.getD [] <:+ h.poll.ticks :=
  htracked.published.trans htracked.traced.published_suffix

/-- Every attribute shows the frame it was last written from, or is still
    initial, as for a frame without a valid channel. -/
theorem Tracked.read_attributes (htracked : Tracked store p₀ x h) (hblank : p₀.Blank)
    (hlawful : store.Lawful) {a : Attribute} (ha : a ∈ Attribute.published)
    (hhumidity : a = .humidity → (shownFrame p₀ h).has .humidity = true →
      (shownFrame p₀ h).humidity ≠ -1) :
    store.read x.attributes a = a.shown (shownFrame p₀ h) := by
  have hwritten := htracked.written
  cases hhistory : h.written with
  | none =>
    rw [hhistory] at hwritten
    rw [shownFrame, hhistory, hwritten a]
    change a.initial = a.shown p₀.latest
    rw [hblank.latest, (Attribute.shown_eq_initial_iff {} a).mpr fun f _ => Flags.has_zero f]
  | some ticks =>
    rw [hhistory] at hwritten
    obtain ⟨hever, s, hattributes⟩ := hwritten
    have hmeasurement := Policy.snapshotAfter_measurement hblank ticks
    rw [hever, if_pos rfl] at hmeasurement
    rw [shownFrame, hhistory, Option.getD_some, ← hmeasurement] at hhumidity ⊢
    rw [hattributes]
    refine read_applyLatestMeasurement hlawful ?_ ha hhumidity s
    rw [Policy.snapshotAfter_everValid hblank, hever]

/-- Once caught up, the frame shown and the latest frame have the same valid
    channels. -/
theorem Tracked.has_shownFrame (htracked : Tracked store p₀ x h) (hblank : p₀.Blank)
    (hcaught : CaughtUp p₀ x h) (f : Field) :
    (shownFrame p₀ h).has f = x.poller.policy.latest.has f := by
  have hnotified :=
    (htracked.notifiedWithin hcaught).lastNotified_eq htracked.written_suffix
  rw [Measurement.has, Measurement.has, shownFrame, Policy.valid_afterTicks hblank, ← hnotified,
    ← Policy.valid_afterTicks hblank, htracked.traced.policy_eq.1]

end

end Publication
