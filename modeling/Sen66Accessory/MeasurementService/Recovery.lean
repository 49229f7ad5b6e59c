import Sen66Accessory.Machine
import Sen66Accessory.MeasurementService.Service
import Sen66Accessory.Sen66.Encoding

open Sen66

namespace MeasurementService

/-- The sensor's hidden mode. -/
inductive Mode where
  | idle
  | measuring
  deriving DecidableEq

/-- A failed bus transaction. The error may hide a command that reached the
    sensor all the same. -/
structure Fault where
  err : Int
  err_ne : err ≠ 0
  reached : Bool

/-- The error code by which the controller reports a NACK. -/
structure Nack where
  err : Int
  err_ne : err ≠ 0

/-- The sensor during one poll: its mode, the frame it would answer with, and
    the faults of the coming transactions, `none` for one that goes through. -/
structure Sensor where
  mode : Mode
  frame : Frame
  faults : List (Option Fault)

/-- The sensor's own answer to a command. -/
def Sensor.execute (nack : Nack) (mode : Mode) (bytes : List UInt8) : Int × Mode :=
  match mode with
  | .idle =>
    if bytes = Command.startMeasurement.bytes then (0, .measuring) else (nack.err, .idle)
  | .measuring =>
    if bytes = Command.readMeasuredValues.bytes then (0, .measuring) else (nack.err, .measuring)

/-- Only a power cycle ends a measurement. -/
@[simp] theorem Sensor.execute_measuring (nack : Nack) (bytes : List UInt8) :
    (Sensor.execute nack .measuring bytes).2 = .measuring := by
  simp only [Sensor.execute]
  split <;> rfl

/-- The bus with the sensor on it. -/
def Sensor.bus (nack : Nack) : Bus Sensor where
  write s bytes :=
    let (answer, mode) := Sensor.execute nack s.mode bytes
    match s.faults.head? with
    | some (some fault) =>
      (fault.err, { s with
        mode := if fault.reached then mode else s.mode
        faults := s.faults.tail })
    | _ => (answer, { s with mode, faults := s.faults.tail })
  read s length :=
    let data := Vector.ofFn fun i : Fin length => s.frame.raw.toArray.getD i 0
    match s.faults.head? with
    | some (some fault) => ((fault.err, data), { s with faults := s.faults.tail })
    | _ =>
      ((if s.mode = .measuring then 0 else nack.err, data), { s with faults := s.faults.tail })

/-- The polling service together with the sensor it polls. -/
structure Plant where
  policy : Policy
  mode : Mode

/-- What can happen to the plant between two waits. -/
inductive Plant.Event where
  | tick (frame : Frame) (faults : List (Option Fault)) (nowMs : Int)
  | powerCycle

namespace Plant

def tick (nack : Nack) (plant : Plant) (frame : Frame) (faults : List (Option Fault))
    (nowMs : Int) : Plant :=
  let ((policy, _, _), sensor) :=
    pollWorkHandler (Sensor.bus nack) plant.policy { mode := plant.mode, frame, faults } nowMs
  { policy, mode := sensor.mode }

def machine (nack : Nack) : Machine Plant Event where
  step
    | plant, .tick frame faults nowMs => some (plant.tick nack frame faults nowMs)
    | plant, .powerCycle => some { plant with mode := .idle }

/-- The plant after `Init`, with the sensor found in either mode and the first
    start command subject to faults. -/
def Booted (nack : Nack) (config : PolicyConfig) (plant : Plant) : Prop :=
  ∃ (sensor : Sensor) (uptimeMs : Int),
    let (policy, sensor) := init config (Sensor.bus nack) sensor uptimeMs
    plant = { policy, mode := sensor.mode }

/-- Full recovery: no restart pending, the normal cadence, and the frame the
    sensor answered with stored. -/
def Recovered (config : PolicyConfig) (plant : Plant) (frame : Frame) : Prop :=
  plant.policy.needsRestart = false ∧
  plant.policy.nextDelayMs = config.pollIntervalMs ∧
  plant.policy.latest = frame.measurement

section

variable (nack : Nack) (plant : Plant)

theorem tick_policy (frame : Frame) (faults : List (Option Fault)) (nowMs : Int) :
    (plant.tick nack frame faults nowMs).policy =
      (notify (readTick (Sensor.bus nack) plant.policy ⟨plant.mode, frame, faults⟩ nowMs).1
        nowMs).1 :=
  rfl

theorem tick_mode (frame : Frame) (faults : List (Option Fault)) (nowMs : Int) :
    (plant.tick nack frame faults nowMs).mode =
      (readTick (Sensor.bus nack) plant.policy ⟨plant.mode, frame, faults⟩ nowMs).2.mode :=
  rfl

/-- From backoff, an idle sensor is restarted and read within one poll. -/
theorem readTick_idle (hrestart : plant.policy.needsRestart = true) (hmode : plant.mode = .idle)
    (frame : Frame) (nowMs : Int) :
    (readTick (Sensor.bus nack) plant.policy ⟨plant.mode, frame, []⟩ nowMs).1 =
      plant.policy.onReadResult 0 frame.measurement nowMs := by
  have hread : (pollRead true).run (Sensor.bus nack) ⟨.idle, frame, []⟩ =
      ((0, frame.measurement), ⟨.measuring, frame, []⟩) := by
    rw [pollRead_run]
    simp only [if_true, readMeasurement_run]
    simp [Sensor.bus, Sensor.execute, frame.crc, Frame.measurement]
  simp only [readTick, hrestart, hmode, hread]

/-- From backoff, a sensor that is still measuring refuses the restart, or the
    bus fails, and either way the poll ends without a read. -/
theorem readTick_measuring (hrestart : plant.policy.needsRestart = true)
    (hmode : plant.mode = .measuring) (frame : Frame) (faults : List (Option Fault))
    (nowMs : Int) :
    ∃ err, err ≠ 0 ∧
      (readTick (Sensor.bus nack) plant.policy ⟨plant.mode, frame, faults⟩ nowMs).1 =
        plant.policy.onReadResult err {} nowMs ∧
      (readTick (Sensor.bus nack) plant.policy ⟨plant.mode, frame, faults⟩ nowMs).2.mode =
        .measuring := by
  have hstart : ∃ err sensor, err ≠ 0 ∧ sensor.mode = .measuring ∧
      (Sensor.bus nack).write ⟨.measuring, frame, faults⟩ Command.startMeasurement.bytes =
        (err, sensor) := by
    simp only [Sensor.bus]
    split
    · rename_i fault _
      exact ⟨fault.err, _, fault.err_ne, by simp, rfl⟩
    · exact ⟨nack.err, _, nack.err_ne, rfl, rfl⟩
  obtain ⟨err, sensor, herr, hsensor, hwrite⟩ := hstart
  have hread : (pollRead true).run (Sensor.bus nack) ⟨.measuring, frame, faults⟩ =
      ((err, {}), sensor) := by
    rw [pollRead_run]
    simp [hwrite, herr]
  refine ⟨err, herr, ?_, ?_⟩
  · simp only [readTick, hrestart, hmode, hread]
  · simp only [readTick, hrestart, hmode, hread, hsensor]

/-- A measuring sensor keeps the service in backoff through any poll. -/
theorem tick_measuring (hrestart : plant.policy.needsRestart = true)
    (hmode : plant.mode = .measuring) (frame : Frame) (faults : List (Option Fault))
    (nowMs : Int) :
    (plant.tick nack frame faults nowMs).policy.needsRestart = true ∧
    (plant.tick nack frame faults nowMs).mode = .measuring := by
  obtain ⟨err, herr, hpolicy, hstill⟩ :=
    readTick_measuring nack plant hrestart hmode frame faults nowMs
  refine ⟨?_, by rw [tick_mode, hstill]⟩
  rw [tick_policy, notify_needsRestart, hpolicy, Policy.onReadResult_failure _ herr]
  simpa [Policy.needsRestart] using Or.inl hrestart

end

/-- No poll changes the configuration. -/
theorem tick_config (nack : Nack) (plant : Plant) (frame : Frame) (faults : List (Option Fault))
    (nowMs : Int) : (plant.tick nack frame faults nowMs).policy.config = plant.policy.config := by
  rw [tick_policy, notify_config, readTick, Policy.onReadResult_config]

theorem config_of_reachable {nack : Nack} {config : PolicyConfig} {plant : Plant}
    (hreach : (machine nack).Reachable (Booted nack config) plant) :
    plant.policy.config = config := by
  apply hreach.invariant (I := fun plant => plant.policy.config = config)
  · rintro plant ⟨sensor, uptimeMs, rfl⟩
    exact init_config _ _ _ _
  · rintro plant (⟨frame, faults, nowMs⟩ | _) next _ hconfig hstep
    · cases hstep
      rw [tick_config, hconfig]
    · cases hstep
      exact hconfig

/-- One fault-free poll from backoff recovers exactly when the sensor is idle:
    a sensor that kept measuring through the fault refuses the restart, and the
    poll never gets to read it. -/
theorem recovers_iff_idle (nack : Nack) (config : PolicyConfig) (plant : Plant)
    (hreach : (machine nack).Reachable (Booted nack config) plant)
    (hrestart : plant.policy.needsRestart = true) (frame : Frame) (nowMs : Int) :
    (plant.tick nack frame [] nowMs).Recovered config frame ↔ plant.mode = .idle := by
  constructor
  · rintro ⟨hrecovered, _⟩
    by_contra hmode
    have hmeasuring : plant.mode = .measuring := by
      cases h : plant.mode with
      | idle => exact absurd h hmode
      | measuring => rfl
    rw [(tick_measuring nack plant hrestart hmeasuring frame [] nowMs).1] at hrecovered
    cases hrecovered
  · intro hmode
    have hpolicy := tick_policy nack plant frame [] nowMs
    rw [readTick_idle nack plant hrestart hmode, Policy.onReadResult_success] at hpolicy
    refine ⟨?_, ?_, ?_⟩
    · rw [hpolicy, notify_needsRestart]
      rfl
    · rw [hpolicy, notify_nextDelayMs, ← config_of_reachable hreach]
      rfl
    · rw [hpolicy, notify_latest]

/-- A frame with every channel valid. -/
def sampleFrame : Frame := .encode fun _ => 100

def sampleNack : Nack := ⟨-5, by decide⟩

/-- A clean start of an idle sensor. -/
def cleanStart : Plant :=
  let started := init defaultConfig (Sensor.bus sampleNack) ⟨.idle, sampleFrame, []⟩ 0
  { policy := started.1, mode := started.2.mode }

/-- A poll whose first command write fails on the bus. -/
def faultyTick (plant : Plant) (nowMs : Int) : Plant :=
  plant.tick sampleNack sampleFrame [some ⟨-5, by decide, false⟩] nowMs

/-- Three faulty polls after a clean start. The sensor keeps measuring
    throughout. -/
def transientFault : Plant :=
  ((cleanStart.faultyTick 100).faultyTick 1100).faultyTick 2100

theorem reachable_transientFault :
    (machine sampleNack).Reachable (Booted sampleNack defaultConfig) transientFault := by
  have hfault {plant : Plant} (nowMs : Int)
      (hreach : (machine sampleNack).Reachable (Booted sampleNack defaultConfig) plant) :
      (machine sampleNack).Reachable (Booted sampleNack defaultConfig) (plant.faultyTick nowMs) :=
    .step (.tick sampleFrame [some ⟨-5, by decide, false⟩] nowMs) hreach rfl
  exact hfault 2100 (hfault 1100 (hfault 100 (.start ⟨⟨.idle, sampleFrame, []⟩, 0, rfl⟩)))

/-- Once the bus is healthy again, the poll after a transient fault fails. -/
theorem not_recovered_transientFault :
    ¬ ∀ plant, (machine sampleNack).Reachable (Booted sampleNack defaultConfig) plant →
      plant.policy.needsRestart = true → ∀ (frame : Frame) (nowMs : Int),
        (plant.tick sampleNack frame [] nowMs).Recovered defaultConfig frame := by
  intro hrecovers
  have hrestart : transientFault.policy.needsRestart = true := by decide +kernel
  have hmode : transientFault.mode = .measuring := by decide +kernel
  have hrecovered := (hrecovers _ reachable_transientFault hrestart sampleFrame 4100).1
  rw [(tick_measuring sampleNack transientFault hrestart hmode sampleFrame [] 4100).1] at hrecovered
  cases hrecovered

/-- The same fault followed by a power cycle is recovered from. -/
theorem recovers_after_power_cycle :
    (Plant.tick sampleNack { transientFault with mode := .idle } sampleFrame [] 4100).Recovered
      defaultConfig sampleFrame :=
  (recovers_iff_idle sampleNack defaultConfig { transientFault with mode := .idle }
    (.step .powerCycle reachable_transientFault rfl) (by decide +kernel) sampleFrame 4100).mpr rfl

end Plant

end MeasurementService
