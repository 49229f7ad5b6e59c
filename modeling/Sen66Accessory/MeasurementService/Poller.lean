import Sen66Accessory.Machine
import Sen66Accessory.MeasurementService.History

open Sen66

namespace MeasurementService

/-- How far the poll thread is with its current tick. -/
inductive PollStage where
  | idle
  | read (tick : Tick)
  | published (tick : Tick)
  deriving DecidableEq

/-- The poll thread's policy and the snapshot it shares with other threads. -/
structure Poller where
  policy : Policy
  snapshot : Snapshot := {}
  stage : PollStage := .idle

/-- The steps of `PollWorkHandler`, each of them atomic. -/
inductive PollStep where
  | readResult (tick : Tick)
  | publish
  | notify

/-- The ticks of a run, newest first: those whose read is over, and those that
    have published as well. -/
structure PollHistory where
  ticks : List Tick := []
  published : List Tick := []

namespace Poller

def step (s : Poller) : PollStep → Option Poller
  | .readResult tick =>
    match s.stage with
    | .idle => some { s with policy := s.policy.read tick, stage := .read tick }
    | _ => none
  | .publish =>
    match s.stage with
    | .read tick =>
      some { s with snapshot := publishSnapshot s.policy tick.nowMs, stage := .published tick }
    | _ => none
  | .notify =>
    match s.stage with
    | .published tick =>
      some { s with policy := (MeasurementService.notify s.policy tick.nowMs).1, stage := .idle }
    | _ => none

/-- What the notify step passes on. -/
def notification (s : Poller) : Option Notification :=
  match s.stage with
  | .published tick => (MeasurementService.notify s.policy tick.nowMs).2
  | _ => none

def machine : Machine Poller PollStep := ⟨step⟩

/-- All that a step of the poll thread can do. -/
theorem step_cases {s s' : Poller} {e : PollStep} (hstep : s.step e = some s') :
    (∃ tick, e = .readResult tick ∧ s.stage = .idle ∧
      s' = { s with policy := s.policy.read tick, stage := .read tick }) ∨
    (∃ tick, e = .publish ∧ s.stage = .read tick ∧
      s' = { s with
        snapshot := publishSnapshot s.policy tick.nowMs
        stage := .published tick }) ∨
    (∃ tick, e = .notify ∧ s.stage = .published tick ∧
      s' = { s with
        policy := (MeasurementService.notify s.policy tick.nowMs).1
        stage := .idle }) := by
  cases e with
  | readResult tick =>
    cases hstage : s.stage <;> simp [step, hstage] at hstep
    exact .inl ⟨tick, rfl, rfl, hstep.symm⟩
  | publish =>
    cases hstage : s.stage <;> simp [step, hstage] at hstep
    exact .inr (.inl ⟨_, rfl, rfl, hstep.symm⟩)
  | notify =>
    cases hstage : s.stage <;> simp [step, hstage] at hstep
    exact .inr (.inr ⟨_, rfl, rfl, hstep.symm⟩)

/-- The three steps of a tick compute `PollWorkHandler`. -/
theorem run_tick (s : Poller) (hidle : s.stage = .idle) (tick : Tick) :
    machine.run s [.readResult tick, .publish, .notify] =
      let (p, snapshot, _) := (pollWorkHandler Answers.bus s.policy tick.answers tick.nowMs).1
      some { policy := p, snapshot, stage := .idle } := by
  simp only [Machine.run, machine, step, hidle, Option.bind_some]
  rfl

end Poller

/-- A tick joins the history when its read is over, and again when it has
    published. -/
def PollHistory.record (h : PollHistory) : PollStep → PollHistory
  | .readResult tick => { h with ticks := tick :: h.ticks }
  | .publish => { h with published := h.ticks }
  | .notify => h

namespace Policy

/-- The shared snapshot once a history of ticks has published. -/
def snapshotAfter (p₀ : Policy) : List Tick → Snapshot
  | [] => {}
  | tick :: earlier => publishSnapshot (afterTicks p₀ (tick :: earlier)) tick.nowMs

section

variable {p₀ : Policy}

theorem snapshotAfter_everValid (hblank : p₀.Blank) (ticks : List Tick) :
    (snapshotAfter p₀ ticks).everValid = (afterTicks p₀ ticks).everValid := by
  cases ticks with
  | nil => exact hblank.everValid.symm
  | cons tick earlier => exact publishSnapshot_everValid _ _

theorem snapshotAfter_measurement (hblank : p₀.Blank) (ticks : List Tick) :
    (snapshotAfter p₀ ticks).measurement =
      if (afterTicks p₀ ticks).everValid then (afterTicks p₀ ticks).latest else {} := by
  cases ticks with
  | nil => rw [afterTicks, hblank.everValid]; rfl
  | cons tick earlier => exact publishSnapshot_measurement _ _

theorem snapshotAfter_ageMs (tick : Tick) (earlier : List Tick) :
    (snapshotAfter p₀ (tick :: earlier)).ageMs =
      if (afterTicks p₀ (tick :: earlier)).everValid then
        tick.nowMs - (afterTicks p₀ (tick :: earlier)).lastUpdateMs
      else 0 :=
  publishSnapshot_ageMs _ _

/-- The notify step changes nothing the snapshot shows. -/
theorem publishSnapshot_notify (p : Policy) (nowMs : Int) :
    publishSnapshot (notify p nowMs).1 nowMs = publishSnapshot p nowMs := by
  simp only [publishSnapshot, getLatest, notify_everValid, notify_latest, notify_lastUpdateMs]

end

end Policy

/-- The policy and the history of a poll thread at each stage of its tick. -/
def PollStage.Progress (p₀ policy : Policy) (h : PollHistory) : PollStage → Prop
  | .idle => policy = p₀.afterTicks h.ticks ∧ h.published = h.ticks
  | .read tick => policy = (p₀.afterTicks h.published).read tick ∧ h.ticks = tick :: h.published
  | .published tick => ∃ earlier, policy = (p₀.afterTicks earlier).read tick ∧
      h.ticks = tick :: earlier ∧ h.published = h.ticks

/-- A poll thread state together with the history that led to it. -/
structure Traced (p₀ : Policy) (s : Poller) (h : PollHistory) : Prop where
  progress : s.stage.Progress p₀ s.policy h
  snapshot : s.snapshot = p₀.snapshotAfter h.published

namespace Traced

variable {p₀ : Policy} {s s' : Poller} {h : PollHistory}

theorem start (p₀ : Policy) : Traced p₀ { policy := p₀ } {} := ⟨⟨rfl, rfl⟩, rfl⟩

/-- Every step of the poll thread continues its history. -/
theorem step (htraced : Traced p₀ s h) {e : PollStep} (hstep : s.step e = some s') :
    Traced p₀ s' (h.record e) := by
  obtain ⟨hprogress, hsnapshot⟩ := htraced
  obtain ⟨tick, rfl, hstage, rfl⟩ | ⟨tick, rfl, hstage, rfl⟩ | ⟨tick, rfl, hstage, rfl⟩ :=
    Poller.step_cases hstep
  · rw [hstage] at hprogress
    obtain ⟨hpolicy, hpublished⟩ := hprogress
    refine ⟨⟨?_, ?_⟩, hsnapshot⟩
    · rw [hpolicy, PollHistory.record, hpublished]
    · rw [PollHistory.record, hpublished]
  · rw [hstage] at hprogress
    obtain ⟨hpolicy, hticks⟩ := hprogress
    refine ⟨⟨h.published, hpolicy, hticks, rfl⟩, ?_⟩
    dsimp only [PollHistory.record]
    rw [hticks, Policy.snapshotAfter, Policy.afterTicks, Policy.tick,
      Policy.publishSnapshot_notify, ← hpolicy]
  · rw [hstage] at hprogress
    obtain ⟨earlier, hpolicy, hticks, hpublished⟩ := hprogress
    refine ⟨⟨?_, hpublished⟩, hsnapshot⟩
    dsimp only [PollHistory.record]
    rw [hticks, Policy.afterTicks, Policy.tick, ← hpolicy]

/-- Publication lags behind the reads by at most the current tick. -/
theorem published_suffix (htraced : Traced p₀ s h) : h.published <:+ h.ticks := by
  have hprogress := htraced.progress
  cases hstage : s.stage with
  | idle =>
    rw [hstage] at hprogress
    exact hprogress.2 ▸ List.suffix_rfl
  | read tick =>
    rw [hstage] at hprogress
    rw [hprogress.2]
    exact List.suffix_cons tick h.published
  | published tick =>
    rw [hstage] at hprogress
    obtain ⟨earlier, _, _, hpublished⟩ := hprogress
    exact hpublished ▸ List.suffix_rfl

/-- The notify step of a tick leaves its frame and its backoff alone, so both
    are known before it. -/
theorem policy_eq (htraced : Traced p₀ s h) :
    s.policy.latest = (p₀.afterTicks h.ticks).latest ∧
    s.policy.needsRestart = (p₀.afterTicks h.ticks).needsRestart := by
  have hprogress := htraced.progress
  have hread {earlier : List Tick} {tick : Tick}
      (hpolicy : s.policy = (p₀.afterTicks earlier).read tick)
      (hticks : h.ticks = tick :: earlier) :
      s.policy.latest = (p₀.afterTicks h.ticks).latest ∧
      s.policy.needsRestart = (p₀.afterTicks h.ticks).needsRestart := by
    rw [hticks, Policy.afterTicks, Policy.tick, notify_latest, notify_needsRestart, hpolicy]
    exact ⟨rfl, rfl⟩
  cases hstage : s.stage with
  | idle =>
    rw [hstage] at hprogress
    rw [hprogress.1]
    exact ⟨rfl, rfl⟩
  | read tick =>
    rw [hstage] at hprogress
    exact hread hprogress.1 hprogress.2
  | published tick =>
    rw [hstage] at hprogress
    obtain ⟨earlier, hpolicy, hticks, _⟩ := hprogress
    exact hread hpolicy hticks

/-- What the notify step decides is decided by the tick and its history. -/
theorem notification_isSome (htraced : Traced p₀ s h) {tick : Tick}
    (hstage : s.stage = .published tick) :
    ∃ earlier, h.ticks = tick :: earlier ∧
      s.notification.isSome = (p₀.afterTicks earlier).notifies tick := by
  have hprogress := htraced.progress
  rw [hstage] at hprogress
  obtain ⟨earlier, hpolicy, hticks, _⟩ := hprogress
  refine ⟨earlier, hticks, ?_⟩
  rw [Poller.notification, hstage, Policy.notifies, ← hpolicy]

end Traced

/-- The states a run of the poll thread can reach, with its history. -/
def PollerReaches (p₀ : Policy) (s : Poller) (h : PollHistory) : Prop :=
  (Poller.machine.observe fun h _ e => PollHistory.record h e).Reachable
    (fun x => x.1 = { policy := p₀ } ∧ x.2 = {}) (s, h)

/-- Every reachable poll thread state is the one its history determines. -/
theorem PollerReaches.traced {p₀ : Policy} {s : Poller} {h : PollHistory}
    (hreach : PollerReaches p₀ s h) : Traced p₀ s h := by
  apply hreach.invariant (I := fun x => Traced p₀ x.1 x.2)
  · rintro ⟨s, h⟩ ⟨rfl, rfl⟩
    exact Traced.start p₀
  · rintro ⟨s, h⟩ e ⟨s', h'⟩ _ htraced hstep
    obtain ⟨hnext, hrecord⟩ := Machine.observe_step.mp hstep
    cases hrecord
    exact htraced.step hnext

end MeasurementService
