import Sen66Accessory.GuardedCell
import Sen66Accessory.MeasurementService.Poller

open Sen66 GuardedCell

namespace MeasurementService

/-- The members a snapshot is copied by. -/
inductive SnapshotMember where
  | pm1p0
  | pm2p5
  | pm4p0
  | pm10
  | humidity
  | temperature
  | voc_index
  | nox_index
  | co2
  | valid
  | ageMs
  | everValid
  deriving DecidableEq

instance : MemberwiseCopy Snapshot SnapshotMember where
  members := [.pm1p0, .pm2p5, .pm4p0, .pm10, .humidity, .temperature, .voc_index, .nox_index,
    .co2, .valid, .ageMs, .everValid]
  copy
    | .pm1p0, s, t => { t with measurement.pm1p0 := s.measurement.pm1p0 }
    | .pm2p5, s, t => { t with measurement.pm2p5 := s.measurement.pm2p5 }
    | .pm4p0, s, t => { t with measurement.pm4p0 := s.measurement.pm4p0 }
    | .pm10, s, t => { t with measurement.pm10 := s.measurement.pm10 }
    | .humidity, s, t => { t with measurement.humidity := s.measurement.humidity }
    | .temperature, s, t => { t with measurement.temperature := s.measurement.temperature }
    | .voc_index, s, t => { t with measurement.voc_index := s.measurement.voc_index }
    | .nox_index, s, t => { t with measurement.nox_index := s.measurement.nox_index }
    | .co2, s, t => { t with measurement.co2 := s.measurement.co2 }
    | .valid, s, t => { t with measurement.valid := s.measurement.valid }
    | .ageMs, s, t => { t with ageMs := s.ageMs }
    | .everValid, s, t => { t with everValid := s.everValid }
  copy_all _ _ := rfl

/-- The threads that touch the shared snapshot. -/
inductive Caller (Reader : Type) where
  | poll
  | reader (r : Reader)
  deriving DecidableEq

/-- The service with any number of readers. The poll thread stays in its read
    stage until `PublishSnapshot` has released the mutex. -/
structure Service (Reader : Type) where
  policy : Policy
  stage : PollStage := .idle
  cell : Cell (Caller Reader) Snapshot SnapshotMember := { record := {} }

/-- The steps of all threads: those of a tick, with `PublishSnapshot` taken
    apart, and those of a call to `GetLatest` with the caller's buffer. -/
inductive ServiceStep (Reader : Type) where
  | readResult (tick : Tick)
  | publishLock
  | publishCopy
  | publishUnlock
  | notify
  | getLatestLock (r : Reader) (out : Snapshot)
  | getLatestCopy (r : Reader)
  | getLatestUnlock (r : Reader)

/-- The step of a tick that a step completes, if any. -/
def ServiceStep.pollStep {Reader : Type} : ServiceStep Reader → Option PollStep
  | .readResult tick => some (.readResult tick)
  | .publishUnlock => some .publish
  | .notify => some .notify
  | _ => none

namespace Service

variable {Reader : Type} [DecidableEq Reader]

def step (s : Service Reader) : ServiceStep Reader → Option (Service Reader)
  | .readResult tick =>
    match s.stage with
    | .idle => some { s with policy := s.policy.read tick, stage := .read tick }
    | _ => none
  | .publishLock =>
    match s.stage with
    | .read tick =>
      (s.cell.step .poll (.lockStore (publishSnapshot s.policy tick.nowMs))).map
        fun cell => { s with cell }
    | _ => none
  | .publishCopy => (s.cell.step .poll .copy).map fun cell => { s with cell }
  | .publishUnlock =>
    match s.stage with
    | .read tick =>
      (s.cell.step .poll .unlock).map fun cell => { s with cell, stage := .published tick }
    | _ => none
  | .notify =>
    match s.stage with
    | .published tick =>
      some { s with policy := (MeasurementService.notify s.policy tick.nowMs).1, stage := .idle }
    | _ => none
  | .getLatestLock r out =>
    (s.cell.step (.reader r) (.lockLoad out)).map fun cell => { s with cell }
  | .getLatestCopy r => (s.cell.step (.reader r) .copy).map fun cell => { s with cell }
  | .getLatestUnlock r => (s.cell.step (.reader r) .unlock).map fun cell => { s with cell }

def machine (Reader : Type) [DecidableEq Reader] : Machine (Service Reader) (ServiceStep Reader) :=
  ⟨step⟩

end Service

def PollHistory.recordService {Reader : Type} (h : PollHistory) (e : ServiceStep Reader) :
    PollHistory :=
  (e.pollStep.map h.record).getD h

/-- The states a run of the service can reach, with its history. -/
def ServiceReaches {Reader : Type} [DecidableEq Reader] (p₀ : Policy) (s : Service Reader)
    (h : PollHistory) : Prop :=
  ((Service.machine Reader).observe fun h _ e => PollHistory.recordService h e).Reachable
    (fun x => x.1 = { policy := p₀ } ∧ x.2 = {}) (s, h)

/-- A call to `GetLatest` that has copied everything and is about to return. -/
def Service.Returns {Reader : Type} (s : Service Reader) (r : Reader) (out : Snapshot) : Prop :=
  s.cell.job (.reader r) = .loading out []

instance {Reader : Type} (s : Service Reader) (r : Reader) (out : Snapshot) :
    Decidable (s.Returns r out) :=
  inferInstanceAs (Decidable (s.cell.job (.reader r) = .loading out []))

/-- The service at member-by-member grain against the poll thread whose
    publication is one atomic step. -/
structure Refines {Reader : Type} (s : Service Reader) (t : Poller) : Prop where
  policy : s.policy = t.policy
  stage : s.stage = t.stage
  guarded : Guarded s.cell t.snapshot
  poll : s.cell.job .poll = .none ∨ ∃ tick rest, s.stage = .read tick ∧
    s.cell.job .poll = .storing (publishSnapshot s.policy tick.nowMs) rest
  readers : ∀ r value rest, s.cell.job (.reader r) ≠ .storing value rest

namespace Refines

variable {Reader : Type} [DecidableEq Reader] {s s' : Service Reader} {t : Poller}
  {cell : Cell (Caller Reader) Snapshot SnapshotMember}

omit [DecidableEq Reader] in
theorem start (p₀ : Policy) :
    Refines ({ policy := p₀ } : Service Reader) { policy := p₀ } :=
  ⟨rfl, rfl, Guarded.start _, Or.inl rfl, fun _ _ _ h => nomatch h⟩

omit [DecidableEq Reader] in
/-- A busy poll thread is publishing the snapshot of its current tick. -/
theorem busy (hrefines : Refines s t) (hjob : s.cell.job .poll ≠ .none) :
    ∃ tick rest, s.stage = .read tick ∧
      s.cell.job .poll = .storing (publishSnapshot s.policy tick.nowMs) rest :=
  hrefines.poll.resolve_left hjob

/-- A reader's steps are invisible to the poll thread. -/
theorem reader (hrefines : Refines s t) {r : Reader} {e : Step Snapshot}
    (hstep : s.cell.step (.reader r) e = some cell) (hload : ∀ value, e ≠ .lockStore value) :
    Refines { s with cell } t where
  policy := hrefines.policy
  stage := hrefines.stage
  guarded := by
    have hnext := hrefines.guarded.step hstep
    rwa [Cell.commit_of_not_storing _ _ fun value => hrefines.readers r value []] at hnext
  poll := by
    have hframe := Cell.job_of_ne hstep (u := .poll) nofun
    dsimp only
    rw [hframe]
    exact hrefines.poll
  readers r' value rest := by
    by_cases hr : r' = r
    · subst hr
      obtain ⟨value, rfl, _⟩ | ⟨_, rfl, _, rfl⟩ | ⟨_, _, _, _, hjob, _⟩ | ⟨_, _, _, rfl, _, rfl⟩ |
        ⟨_, rfl, _, rfl⟩ | ⟨_, rfl, _, rfl⟩ := Cell.step_cases hstep
      · exact absurd rfl (hload value)
      · simp
      · exact absurd hjob (hrefines.readers r' _ _)
      · simp
      · simp
      · simp
    · dsimp only
      rw [Cell.job_of_ne hstep (by simpa using hr)]
      exact hrefines.readers r' value rest

/-- The poll thread starts no store for a reader. -/
theorem readers_of_poll (hrefines : Refines s t) {e : Step Snapshot}
    (hstep : s.cell.step .poll e = some cell) (r : Reader) (value : Snapshot)
    (rest : List SnapshotMember) : cell.job (.reader r) ≠ .storing value rest := by
  rw [Cell.job_of_ne hstep (u := .reader r) nofun]
  exact hrefines.readers r value rest

/-- The poll thread takes the mutex and copies members without anyone seeing a
    new snapshot. -/
theorem publishing (hrefines : Refines s t) {e : Step Snapshot}
    (hstep : s.cell.step .poll e = some cell) {tick : Tick} (hstage : s.stage = .read tick)
    (hjob : ∃ rest, cell.job .poll = .storing (publishSnapshot s.policy tick.nowMs) rest)
    (hlocked : e ≠ .unlock) : Refines { s with cell } t where
  policy := hrefines.policy
  stage := hrefines.stage
  guarded := by
    have hnext := hrefines.guarded.step hstep
    cases e with
    | unlock => exact absurd rfl hlocked
    | lockStore value => exact hnext
    | lockLoad buffer => exact hnext
    | copy => exact hnext
  poll := by
    obtain ⟨rest, hjob⟩ := hjob
    exact Or.inr ⟨tick, rest, hstage, hjob⟩
  readers := hrefines.readers_of_poll hstep

/-- A step that completes no step of a tick leaves the abstract poll thread
    where it is. -/
theorem wait (hrefines : Refines s t) {e : ServiceStep Reader} (hstep : s.step e = some s')
    (hsilent : e.pollStep = none) : Refines s' t := by
  cases e with
  | readResult tick => cases hsilent
  | publishUnlock => cases hsilent
  | notify => cases hsilent
  | publishLock =>
    dsimp only [Service.step] at hstep
    split at hstep
    · rename_i tick hstage
      obtain ⟨cell, hcell, rfl⟩ := Option.map_eq_some_iff.mp hstep
      refine hrefines.publishing hcell hstage ?_ nofun
      obtain ⟨_, hnext⟩ := Option.ite_none_right_eq_some.mp hcell
      cases hnext
      exact ⟨MemberwiseCopy.members Snapshot, by simp⟩
    · cases hstep
  | publishCopy =>
    obtain ⟨cell, hcell, rfl⟩ := Option.map_eq_some_iff.mp hstep
    obtain ⟨_, h, _⟩ | ⟨_, h, _⟩ | ⟨value, i, rest, _, hjob, hnext⟩ | ⟨_, _, _, _, hjob, _⟩ |
      ⟨_, h, _⟩ | ⟨_, h, _⟩ := Cell.step_cases hcell
    · cases h
    · cases h
    · obtain ⟨tick, left, hstage, hstoring⟩ := hrefines.busy (by rw [hjob]; nofun)
      rw [hstoring] at hjob
      cases hjob
      refine hrefines.publishing hcell hstage ⟨rest, ?_⟩ nofun
      simp [hnext]
    · obtain ⟨_, _, _, hstoring⟩ := hrefines.busy (by rw [hjob]; nofun)
      rw [hstoring] at hjob
      cases hjob
    · cases h
    · cases h
  | getLatestLock r out =>
    obtain ⟨cell, hcell, rfl⟩ := Option.map_eq_some_iff.mp hstep
    exact hrefines.reader hcell nofun
  | getLatestCopy r =>
    obtain ⟨cell, hcell, rfl⟩ := Option.map_eq_some_iff.mp hstep
    exact hrefines.reader hcell nofun
  | getLatestUnlock r =>
    obtain ⟨cell, hcell, rfl⟩ := Option.map_eq_some_iff.mp hstep
    exact hrefines.reader hcell nofun

/-- Releasing the mutex after the last member publishes the whole snapshot at
    once. -/
theorem publish (hrefines : Refines s t) (hstep : s.step .publishUnlock = some s') :
    ∃ t', t.step .publish = some t' ∧ Refines s' t' := by
  cases hstage : s.stage <;> simp only [Service.step, hstage] at hstep
  · cases hstep
  · rename_i tick
    obtain ⟨cell, hcell, rfl⟩ := Option.map_eq_some_iff.mp hstep
    have hbusy : s.cell.job .poll ≠ .none := by
      intro hnone
      rw [Cell.step, hnone] at hcell
      cases hcell
    obtain ⟨current, rest, hread, hstoring⟩ := hrefines.busy hbusy
    rw [hstage] at hread
    cases hread
    refine ⟨{ t with
      snapshot := publishSnapshot t.policy tick.nowMs
      stage := .published tick }, by simp only [Poller.step, ← hrefines.stage, hstage], ?_⟩
    obtain ⟨_, h, _⟩ | ⟨_, h, _⟩ | ⟨_, _, _, h, _⟩ | ⟨_, _, _, h, _⟩ | ⟨value, _, hjob, hnext⟩ |
      ⟨_, _, hjob, _⟩ := Cell.step_cases hcell
    · cases h
    · cases h
    · cases h
    · cases h
    · have hguarded := hrefines.guarded.step hcell
      rw [Cell.commit, hjob] at hguarded
      rw [hstoring] at hjob
      cases hjob
      refine ⟨hrefines.policy, rfl, by rw [← hrefines.policy]; exact hguarded, Or.inl ?_,
        hrefines.readers_of_poll hcell⟩
      simp [hnext]
    · rw [hstoring] at hjob
      cases hjob
  · cases hstep

/-- Each step of the service completes at most one step of the atomic poll
    thread. -/
theorem simulates (hrefines : Refines s t) {e : ServiceStep Reader} (hstep : s.step e = some s') :
    match e.pollStep with
    | none => Refines s' t
    | some f => ∃ t', t.step f = some t' ∧ Refines s' t' := by
  cases e with
  | readResult tick =>
    cases hstage : s.stage <;> simp only [Service.step, hstage] at hstep
    · cases hstep
      refine ⟨{ t with policy := t.policy.read tick, stage := .read tick },
        by simp only [Poller.step, ← hrefines.stage, hstage], ?_⟩
      refine ⟨by rw [hrefines.policy], rfl, hrefines.guarded, Or.inl ?_, hrefines.readers⟩
      by_contra hbusy
      obtain ⟨_, _, hread, _⟩ := hrefines.busy hbusy
      rw [hstage] at hread
      cases hread
    · cases hstep
    · cases hstep
  | publishUnlock => exact hrefines.publish hstep
  | notify =>
    cases hstage : s.stage <;> simp only [Service.step, hstage] at hstep
    · cases hstep
    · cases hstep
    · cases hstep
      rename_i tick
      refine ⟨{ t with
        policy := (MeasurementService.notify t.policy tick.nowMs).1
        stage := .idle }, by simp only [Poller.step, ← hrefines.stage, hstage], ?_⟩
      refine ⟨by rw [hrefines.policy], rfl, hrefines.guarded, Or.inl ?_, hrefines.readers⟩
      by_contra hbusy
      obtain ⟨_, _, hread, _⟩ := hrefines.busy hbusy
      rw [hstage] at hread
      cases hread
  | publishLock => exact hrefines.wait hstep rfl
  | publishCopy => exact hrefines.wait hstep rfl
  | getLatestLock r out => exact hrefines.wait hstep rfl
  | getLatestCopy r => exact hrefines.wait hstep rfl
  | getLatestUnlock r => exact hrefines.wait hstep rfl

end Refines

/-- Every reachable state of the service refines a reachable state of the poll
    thread with the same history. -/
theorem ServiceReaches.refines {Reader : Type} [DecidableEq Reader] {p₀ : Policy}
    {s : Service Reader} {h : PollHistory} (hreach : ServiceReaches p₀ s h) :
    ∃ t, PollerReaches p₀ t h ∧ Refines s t := by
  suffices hsimulated : ∃ y : Poller × PollHistory, PollerReaches p₀ y.1 y.2 ∧
      Refines s y.1 ∧ h = y.2 by
    obtain ⟨⟨t, h'⟩, hpoller, hrefines, rfl⟩ := hsimulated
    exact ⟨t, hpoller, hrefines⟩
  refine Machine.Reachable.simulate
    (N := Poller.machine.observe fun h _ e => PollHistory.record h e)
    (R := fun (x : Service Reader × PollHistory) (y : Poller × PollHistory) =>
      Refines x.1 y.1 ∧ x.2 = y.2) ?_ ?_ hreach
  · rintro ⟨s, h⟩ ⟨rfl, rfl⟩
    exact ⟨({ policy := p₀ }, {}), ⟨rfl, rfl⟩, Refines.start p₀, rfl⟩
  · rintro ⟨s, h⟩ e ⟨s', h'⟩ ⟨t, _⟩ ⟨hrefines, rfl⟩ hstep
    obtain ⟨hnext, hrecord⟩ := Machine.observe_step.mp hstep
    have hmatch := hrefines.simulates hnext
    cases he : e.pollStep with
    | none =>
      rw [he] at hmatch
      refine Or.inl ⟨hmatch, ?_⟩
      dsimp only at hrecord ⊢
      rw [hrecord, PollHistory.recordService, he]
      rfl
    | some f =>
      rw [he] at hmatch
      obtain ⟨t', hpoll, hnext⟩ := hmatch
      refine Or.inr ⟨f, (t', h.record f), Machine.observe_step.mpr ⟨hpoll, rfl⟩, hnext, ?_⟩
      dsimp only at hrecord ⊢
      rw [hrecord, PollHistory.recordService, he]
      rfl

end MeasurementService
