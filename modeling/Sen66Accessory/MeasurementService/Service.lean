import Sen66Accessory.Sen66.Driver
import Sen66Accessory.MeasurementService.Policy.Step

open Sen66

namespace MeasurementService

/-- The copy of the policy's latest state handed to other threads. -/
structure Snapshot where
  measurement : Measurement := {}
  ageMs : Int := 0
  everValid : Bool := false
  deriving DecidableEq

/-- What the update callback is called with, and when. -/
structure Notification where
  snapshot : Measurement
  changedMask : UInt16
  nowMs : Int

/-- The driver calls at the start of `PollWorkHandler`: a failed restart skips
    the read, which then leaves the measurement zero. -/
def pollRead (needsRestart : Bool) : Transfer (Int × Measurement) := do
  let err ← if needsRestart then startMeasurement else pure 0
  if err = 0 then readMeasurement {} else return (err, {})

/-- What `PublishSnapshot` stores. -/
def publishSnapshot (p : Policy) (nowMs : Int) : Snapshot :=
  let (latest, ageMs) := (p.getLatest nowMs).getD ({}, 0)
  { measurement := latest, ageMs, everValid := (p.getLatest nowMs).isSome }

/-- The end of `PollWorkHandler`: mark a pending notification delivered and
    pass it on, unless the policy has no measurement to hand out. -/
def notify (p : Policy) (nowMs : Int) : Policy × Option Notification :=
  if p.shouldNotify then
    match p.getLatest nowMs with
    | some (latest, _) =>
      (p.markNotified nowMs, some { snapshot := latest, changedMask := p.changedMask, nowMs })
    | none => (p, none)
  else (p, none)

/-- `Init` with its first start command sent over the bus. A failure counts as
    the first failed read. -/
def init {σ : Type} (config : PolicyConfig) (bus : Bus σ) (s : σ) (uptimeMs : Int) : Policy × σ :=
  let (err, s) := startMeasurement.run bus s
  let p : Policy := { config }
  (if err ≠ 0 then p.onReadResult err {} uptimeMs else p, s)

/-- The policy after the read of one poll over a bus, at the uptime sampled
    right after it. -/
def readTick {σ : Type} (bus : Bus σ) (p : Policy) (s : σ) (nowMs : Int) : Policy × σ :=
  let ((err, measurement), s) := (pollRead p.needsRestart).run bus s
  (p.onReadResult err measurement nowMs, s)

/-- One poll, from its read to its notification. -/
def pollWorkHandler {σ : Type} (bus : Bus σ) (p : Policy) (s : σ) (nowMs : Int) :
    (Policy × Snapshot × Option Notification) × σ :=
  let (p, s) := readTick bus p s nowMs
  let snapshot := publishSnapshot p nowMs
  let (p, notification) := notify p nowMs
  ((p, snapshot, notification), s)

/-- `GetLatest(Snapshot &)`: the shared copy and its validity. -/
def getLatest (shared : Snapshot) : Bool × Snapshot := (shared.everValid, shared)

@[simp] theorem publishSnapshot_everValid (p : Policy) (nowMs : Int) :
    (publishSnapshot p nowMs).everValid = p.everValid := by
  cases h : p.everValid <;> simp [publishSnapshot, Policy.getLatest, h]

theorem publishSnapshot_measurement (p : Policy) (nowMs : Int) :
    (publishSnapshot p nowMs).measurement = if p.everValid then p.latest else {} := by
  cases h : p.everValid <;> simp [publishSnapshot, Policy.getLatest, h]

theorem publishSnapshot_ageMs (p : Policy) (nowMs : Int) :
    (publishSnapshot p nowMs).ageMs = if p.everValid then nowMs - p.lastUpdateMs else 0 := by
  cases h : p.everValid <;> simp [publishSnapshot, Policy.getLatest, h]

/-- Notifying at most marks the notification delivered. -/
theorem notify_eq (p : Policy) (nowMs : Int) :
    (notify p nowMs).1 = if p.shouldNotify && p.everValid then p.markNotified nowMs else p := by
  cases hpending : p.shouldNotify <;> cases hever : p.everValid <;>
    simp [notify, Policy.getLatest, hpending, hever]

theorem notify_isSome (p : Policy) (nowMs : Int) :
    (notify p nowMs).2.isSome = (p.shouldNotify && p.everValid) := by
  cases hpending : p.shouldNotify <;> cases hever : p.everValid <;>
    simp [notify, Policy.getLatest, hpending, hever]

/-- A delivered notification carries the latest frame and the time given. -/
theorem notify_of_isSome {p : Policy} {nowMs : Int} (h : (notify p nowMs).2.isSome = true) :
    ∃ mask, (notify p nowMs).2 = some ⟨p.latest, mask, nowMs⟩ := by
  rw [notify_isSome, Bool.and_eq_true] at h
  exact ⟨p.changedMask, by simp [notify, Policy.getLatest, h]⟩

section

variable (p : Policy) (nowMs : Int)

@[simp] theorem notify_config : (notify p nowMs).1.config = p.config := by
  rw [notify_eq]
  split <;> rfl

@[simp] theorem notify_latest : (notify p nowMs).1.latest = p.latest := by
  rw [notify_eq]
  split <;> rfl

@[simp] theorem notify_everValid : (notify p nowMs).1.everValid = p.everValid := by
  rw [notify_eq]
  split <;> rfl

@[simp] theorem notify_lastUpdateMs : (notify p nowMs).1.lastUpdateMs = p.lastUpdateMs := by
  rw [notify_eq]
  split <;> rfl

@[simp] theorem notify_needsRestart : (notify p nowMs).1.needsRestart = p.needsRestart := by
  rw [notify_eq]
  split <;> rfl

@[simp] theorem notify_nextDelayMs : (notify p nowMs).1.nextDelayMs = p.nextDelayMs := by
  rw [notify_eq]
  split <;> rfl

end

@[simp] theorem init_config {σ : Type} (config : PolicyConfig) (bus : Bus σ) (s : σ)
    (uptimeMs : Int) : (init config bus s uptimeMs).1.config = config := by
  simp only [init]
  split
  · rw [Policy.onReadResult_config]
  · rfl

/-- A poll sends the restart only in backoff, and reads only when it need not
    restart or the restart was accepted. -/
theorem pollRead_run {σ : Type} (needsRestart : Bool) (bus : Bus σ) (s : σ) :
    (pollRead needsRestart).run bus s =
      if needsRestart then
        let started := bus.write s Command.startMeasurement.bytes
        if started.1 = 0 then (readMeasurement {}).run bus started.2
        else ((started.1, {}), started.2)
      else (readMeasurement {}).run bus s := by
  cases needsRestart with
  | false => rfl
  | true =>
    have h := startMeasurement_run bus s
    simp only [pollRead, if_true, Transfer.run_bind, Transfer.run_ite, Transfer.run_pure]
    rw [h]

/-- A poll that fails hands the policy an error and the zero measurement; one
    that succeeds hands it the frame of a response whose every CRC matches. -/
theorem pollRead_result {σ : Type} (needsRestart : Bool) (bus : Bus σ) (s : σ) :
    (∃ err, err ≠ 0 ∧ ((pollRead needsRestart).run bus s).1 = (err, {})) ∨
    ∃ raw, checkWordsCrc kMeasurementWords raw = true ∧
      ((pollRead needsRestart).run bus s).1 = (0, decodeMeasurement raw) := by
  have hread : ∀ s, (∃ err, err ≠ 0 ∧ ((readMeasurement {}).run bus s).1 = (err, {})) ∨
      ∃ raw, checkWordsCrc kMeasurementWords raw = true ∧
        ((readMeasurement {}).run bus s).1 = (0, decodeMeasurement raw) := by
    intro s
    rw [readMeasurement_run]
    dsimp only
    split
    · exact Or.inl ⟨_, ‹_›, rfl⟩
    split
    · exact Or.inl ⟨_, ‹_›, rfl⟩
    split
    · exact Or.inr ⟨_, ‹_›, rfl⟩
    · exact Or.inl ⟨eio, by decide, rfl⟩
  rw [pollRead_run]
  split
  · dsimp only
    split
    · exact hread _
    · exact Or.inl ⟨_, ‹_›, rfl⟩
  · exact hread s

end MeasurementService
