import Sen66Accessory.MeasurementService.Settled
import Sen66Accessory.MeasurementService.SnapshotStore

open Sen66

namespace MeasurementService

section

variable {Reader : Type} [DecidableEq Reader] {p₀ : Policy} {s s' : Service Reader}
  {h h' : PollHistory}

theorem ServiceReaches.traced (hreach : ServiceReaches p₀ s h) :
    ∃ t, Refines s t ∧ Traced p₀ t h := by
  obtain ⟨t, hpoller, hrefines⟩ := hreach.refines
  exact ⟨t, hrefines, hpoller.traced⟩

/-- A call returns the snapshot of the last tick that has published, whole. -/
theorem ServiceReaches.returns_eq (hreach : ServiceReaches p₀ s h) {r : Reader} {out : Snapshot}
    (hreturns : s.Returns r out) : out = p₀.snapshotAfter h.published := by
  obtain ⟨t, hrefines, htraced⟩ := hreach.traced
  rw [hrefines.guarded.loaded hreturns, htraced.snapshot]

/-- Published ticks stay published. -/
theorem ServiceReaches.published_suffix (hreach : ServiceReaches p₀ s h)
    {events : List (ServiceStep Reader)}
    (hrun : ((Service.machine Reader).observe fun h _ e => PollHistory.recordService h e).run
      (s, h) events = some (s', h')) : h.published <:+ h'.published := by
  refine hreach.run_rel (R := fun x y => x.2.published <:+ y.2.published)
    (fun _ => List.suffix_rfl) (fun _ _ _ => List.IsSuffix.trans) ?_ hrun
  rintro ⟨s, h⟩ e ⟨s', h'⟩ hreach hstep
  obtain ⟨t, _, htraced⟩ := ServiceReaches.traced hreach
  obtain ⟨_, hrecord⟩ := Machine.observe_step.mp hstep
  dsimp only at hrecord ⊢
  rw [hrecord]
  cases e with
  | publishUnlock => exact htraced.published_suffix
  | _ => exact List.suffix_rfl

end

namespace Policy

variable {p₀ : Policy}

/-- A failed tick publishes the snapshot it found, but for its age. -/
theorem snapshotAfter_of_no_response (hblank : p₀.Blank) {tick : Tick} {earlier : List Tick}
    (h : (p₀.afterTicks earlier).response tick = none) :
    p₀.snapshotAfter (tick :: earlier) =
      { p₀.snapshotAfter earlier with ageMs := (p₀.snapshotAfter (tick :: earlier)).ageMs } := by
  have hnext := tick_rejected h
  have hmeasurement : (p₀.snapshotAfter (tick :: earlier)).measurement =
      (p₀.snapshotAfter earlier).measurement := by
    rw [snapshotAfter_measurement hblank, snapshotAfter_measurement hblank, afterTicks,
      hnext.everValid, hnext.latest]
  have hever : (p₀.snapshotAfter (tick :: earlier)).everValid =
      (p₀.snapshotAfter earlier).everValid := by
    rw [snapshotAfter_everValid hblank, snapshotAfter_everValid hblank, afterTicks,
      hnext.everValid]
  dsimp only
  rw [← hmeasurement, ← hever]

/-- A snapshot is valid once a valid frame has been read. -/
theorem snapshotAfter_everValid_iff (hblank : p₀.Blank) (ticks : List Tick) :
    (p₀.snapshotAfter ticks).everValid = true ↔
      ∃ reading ∈ p₀.readings ticks, reading.frame.valid ≠ 0 := by
  rw [snapshotAfter_everValid hblank, (afterTicks_data hblank ticks).2.1, List.any_eq_true]
  simp

/-- A valid snapshot holds the newest reading, and its age at its publication. -/
theorem snapshotAfter_of_everValid (hblank : p₀.Blank) {ticks : List Tick}
    (hever : (p₀.snapshotAfter ticks).everValid = true) :
    ∃ newest older, p₀.readings ticks = newest :: older ∧
      (p₀.snapshotAfter ticks).measurement = newest.frame ∧
      ∃ tick earlier, ticks = tick :: earlier ∧
        (p₀.snapshotAfter ticks).ageMs = tick.nowMs - newest.readMs := by
  have hseen := hever
  rw [snapshotAfter_everValid hblank] at hseen
  obtain ⟨reading, hmem, _⟩ := (snapshotAfter_everValid_iff hblank ticks).mp hever
  obtain ⟨hlatest, _, hupdate⟩ := afterTicks_data hblank ticks
  cases hreadings : p₀.readings ticks with
  | nil =>
    rw [hreadings] at hmem
    cases hmem
  | cons newest older =>
    rw [hreadings] at hlatest hupdate
    refine ⟨newest, older, rfl, ?_, ?_⟩
    · rw [snapshotAfter_measurement hblank, hseen, if_pos rfl, hlatest]
      rfl
    · cases ticks with
      | nil => cases hreadings
      | cons tick earlier =>
        refine ⟨tick, earlier, rfl, ?_⟩
        rw [snapshotAfter_ageMs, hseen, if_pos rfl, hupdate]
        rfl

end Policy

/-- The law of the shared snapshot, for a call to `GetLatest` at any point of any
    run. It succeeds exactly when some published tick has read a valid channel,
    so never again fails; it then returns the newest frame read by a published
    tick, valid or not, and before that the zero measurement. What it returns is
    the snapshot of one tick, never a mix, and a failed tick changes only the
    age in it. -/
theorem getLatest_law {Reader : Type} [DecidableEq Reader] {config : PolicyConfig} {p₀ : Policy}
    (hboot : Booted config p₀) {s : Service Reader} {h : PollHistory}
    (hreach : ServiceReaches p₀ s h) {r : Reader} {out : Snapshot} (hreturns : s.Returns r out) :
    let (ok, snapshot) := getLatest out
    (ok = true ↔ ∃ reading ∈ p₀.readings h.published, reading.frame.valid ≠ 0) ∧
    (ok = true → ∀ (events : List (ServiceStep Reader)) (s' : Service Reader) (h' : PollHistory)
      (r' : Reader) (out' : Snapshot),
      ((Service.machine Reader).observe fun h _ e => PollHistory.recordService h e).run
        (s, h) events = some (s', h') →
      s'.Returns r' out' → (getLatest out').1 = true) ∧
    (ok = true → ∃ newest older, p₀.readings h.published = newest :: older ∧
      snapshot.measurement = newest.frame) ∧
    (ok = false → snapshot.measurement = {}) ∧
    snapshot = p₀.snapshotAfter h.published ∧
    ∀ tick earlier, h.published = tick :: earlier →
      (p₀.afterTicks earlier).response tick = none →
      snapshot = { p₀.snapshotAfter earlier with ageMs := snapshot.ageMs } := by
  have hblank := hboot.blank
  have hout := hreach.returns_eq hreturns
  have hok := Policy.snapshotAfter_everValid_iff hblank h.published
  rw [← hout] at hok
  refine ⟨hok, ?_, ?_, ?_, hout, ?_⟩
  · intro hvalid events s' h' r' out' hrun hreturns'
    have hout' := ServiceReaches.returns_eq (Machine.Reachable.run hreach hrun) hreturns'
    obtain ⟨reading, hmem, hreading⟩ := hok.mp hvalid
    have hmem' := (Policy.readings_suffix p₀ (hreach.published_suffix hrun)).subset hmem
    change out'.everValid = true
    rw [hout', Policy.snapshotAfter_everValid_iff hblank]
    exact ⟨reading, hmem', hreading⟩
  · intro hvalid
    change out.everValid = true at hvalid
    rw [hout] at hvalid
    obtain ⟨newest, older, hreadings, hmeasurement, _⟩ :=
      Policy.snapshotAfter_of_everValid hblank hvalid
    exact ⟨newest, older, hreadings, by rw [hout, hmeasurement]⟩
  · intro hinvalid
    change out.everValid = false at hinvalid
    rw [hout, Policy.snapshotAfter_everValid hblank] at hinvalid
    rw [hout, Policy.snapshotAfter_measurement hblank, hinvalid]
    rfl
  · intro tick earlier hpublished hfailed
    rw [hout, hpublished]
    exact Policy.snapshotAfter_of_no_response hblank hfailed

/-- One whole tick over the shared snapshot, and one call to `GetLatest` up to
    its return. -/
def serviceTick (frame : Frame) (nowMs : Int) : List (ServiceStep Unit) :=
  [.readResult (.ofFrame frame nowMs), .publishLock] ++ List.replicate 12 .publishCopy ++
    [.publishUnlock, .notify]

def serviceCall : List (ServiceStep Unit) :=
  .getLatestLock () {} :: List.replicate 12 (.getLatestCopy ())

/-- A cleanly booted service after its first tick and a call. -/
def firstCall : Service Unit × PollHistory :=
  (((Service.machine Unit).observe fun h _ e => PollHistory.recordService h e).run
    ({ policy := cleanBoot }, {})
    (serviceTick (.encode fun _ => 100) 1000 ++ serviceCall)).getD ({ policy := cleanBoot }, {})

theorem reaches_firstCall : ServiceReaches cleanBoot firstCall.1 firstCall.2 := by
  have hstart : ServiceReaches cleanBoot ({ policy := cleanBoot } : Service Unit) {} :=
    .start ⟨rfl, rfl⟩
  rw [ServiceReaches, Prod.mk.eta, firstCall]
  exact hstart.run_getD _

/-- What that call returns. -/
def firstSnapshot : Snapshot :=
  { measurement := (Frame.encode fun _ => 100).measurement, ageMs := 0, everValid := true }

theorem returns_firstSnapshot : firstCall.1.Returns () firstSnapshot := by decide +kernel

/-- The call returns the frame of the tick. -/
theorem getLatest_law_firstCall :
    ∃ newest older, cleanBoot.readings firstCall.2.published = newest :: older ∧
      firstSnapshot.measurement = newest.frame :=
  (getLatest_law booted_cleanBoot reaches_firstCall returns_firstSnapshot).2.2.1 rfl

/-- The age a call returns is the age at the last publication. It is the time
    since the newest read only for a call at the very uptime that publication
    recorded. -/
theorem age_exact_iff {Reader : Type} [DecidableEq Reader] {config : PolicyConfig} {p₀ : Policy}
    (hboot : Booted config p₀) {s : Service Reader} {h : PollHistory}
    (hreach : ServiceReaches p₀ s h) {r : Reader} {out : Snapshot} (hreturns : s.Returns r out)
    (hok : (getLatest out).1 = true) :
    ∃ newest older tick earlier, p₀.readings h.published = newest :: older ∧
      h.published = tick :: earlier ∧
      ∀ uptimeMs : Int,
        (getLatest out).2.ageMs = uptimeMs - newest.readMs ↔ uptimeMs = tick.nowMs := by
  have hblank := hboot.blank
  have hout := hreach.returns_eq hreturns
  change out.everValid = true at hok
  rw [hout] at hok
  obtain ⟨newest, older, hreadings, _, tick, earlier, hpublished, hage⟩ :=
    Policy.snapshotAfter_of_everValid hblank hok
  refine ⟨newest, older, tick, earlier, hreadings, hpublished, fun uptimeMs => ?_⟩
  change out.ageMs = _ ↔ _
  rw [hout, hage]
  constructor
  · intro h
    omega
  · intro h
    rw [h]

/-- Half a second after the only tick the call still returns age 0. -/
theorem age_stale :
    ¬ ∀ (s : Service Unit) (h : PollHistory) (out : Snapshot), ServiceReaches cleanBoot s h →
      s.Returns () out → (getLatest out).1 = true → ∀ uptimeMs : Int,
      (∀ tick ∈ h.ticks, tick.nowMs ≤ uptimeMs) →
      ∀ newest older, cleanBoot.readings h.published = newest :: older →
      (getLatest out).2.ageMs = uptimeMs - newest.readMs := by
  intro hexact
  have hage := hexact firstCall.1 firstCall.2 firstSnapshot reaches_firstCall
    returns_firstSnapshot rfl 1500 (by decide +kernel)
    ⟨(Frame.encode fun _ => 100).raw, 1000⟩ [] (by decide +kernel)
  cases hage

/-- At the very moment of the publication the age is exact. -/
theorem age_exact_iff_firstCall :
    ∃ newest older tick earlier, cleanBoot.readings firstCall.2.published = newest :: older ∧
      firstCall.2.published = tick :: earlier ∧
      ∀ uptimeMs : Int,
        firstSnapshot.ageMs = uptimeMs - newest.readMs ↔ uptimeMs = tick.nowMs :=
  age_exact_iff booted_cleanBoot reaches_firstCall returns_firstSnapshot rfl

end MeasurementService
