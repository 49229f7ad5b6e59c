import Sen66Accessory.MeasurementService.Convergence
import Sen66Accessory.MeasurementService.TimedTicks
import Sen66Accessory.Sen66.Exchange
import Sen66Accessory.Sen66.ShellCommand

open Sen66

namespace MeasurementService

/-- The driver calls the shell commands are made of. Nothing in the program
    stops a measurement. -/
inductive ShellCall where
  | readSerialNumber (out : CharBuffer)
  | startMeasurement
  | isDataReady
  | readMeasurement (out : Measurement)

namespace ShellCall

def driverCall : ShellCall → DriverCall
  | readSerialNumber out => .readSerialNumber out
  | startMeasurement => .startMeasurement
  | isDataReady => .isDataReady
  | readMeasurement out => .readMeasurement out

/-- The bus after a call. -/
def run {σ : Type} (bus : Bus σ) (s : σ) (call : ShellCall) : σ :=
  (call.driverCall.routine.run bus s).2

/-- A command polls for data by so many questions. -/
theorem awaitReady_calls {σ : Type} (bus : Bus σ) (turns : Nat) (s : σ) :
    ∃ polls ≤ turns, ((awaitReady turns).run bus s).2 =
      (List.replicate polls isDataReady).foldl (run bus) s := by
  induction turns generalizing s with
  | zero => exact ⟨0, le_rfl, rfl⟩
  | succ turns ih =>
    rw [awaitReady_succ_run]
    split
    · exact ⟨1, Nat.succ_pos turns, rfl⟩
    · obtain ⟨polls, hpolls, hrest⟩ := ih (Sen66.isDataReady.run bus s).2
      exact ⟨polls + 1, Nat.succ_le_succ hpolls, hrest⟩

/-- On the bus `sen66 read` is a start, the questions for data, and at most one
    read. -/
theorem cmdRead_calls {σ : Type} (bus : Bus σ) (s : σ) (m : Measurement) :
    ∃ polls ≤ kDataReadyPollCount, ∃ reads ≤ 1, ((cmdRead m).run bus s).2 =
      (startMeasurement :: List.replicate polls isDataReady ++
        List.replicate reads (readMeasurement m)).foldl (run bus) s := by
  obtain ⟨polls, hpolls, hawait⟩ :=
    awaitReady_calls bus kDataReadyPollCount (Sen66.startMeasurement.run bus s).2
  refine ⟨polls, hpolls, ?_⟩
  simp only [List.cons_append, List.foldl_cons, List.foldl_append]
  change ∃ reads ≤ 1, _ = List.foldl _ (List.foldl _ (Sen66.startMeasurement.run bus s).2 _) _
  rw [cmdRead_run, ← hawait]
  dsimp only
  split
  · exact ⟨0, Nat.zero_le 1, rfl⟩
  · refine ⟨1, le_rfl, ?_⟩
    split <;> rfl

end ShellCall

namespace Plant

/-- The plant after a shell command's driver call between two polls. What the
    sensor answers does not matter here, only what it does. -/
def call (nack : Nack) (plant : Plant) (call : ShellCall) (frame : Frame)
    (faults : List (Option Fault)) : Plant :=
  { plant with mode := (call.run (Sensor.bus nack) ⟨plant.mode, frame, faults⟩).mode }

/-- What can happen to a plant with an operator at the shell. -/
inductive OperatorEvent where
  | tick (frame : Frame) (faults : List (Option Fault)) (nowMs : Int)
  | call (call : ShellCall) (frame : Frame) (faults : List (Option Fault))
  | powerCycle

def operated (nack : Nack) : Machine Plant OperatorEvent where
  step
    | plant, .tick frame faults nowMs => some (plant.tick nack frame faults nowMs)
    | plant, .call call frame faults => some (plant.call nack call frame faults)
    | plant, .powerCycle => some { plant with mode := .idle }

/-- In backoff with a sensor that keeps measuring. -/
structure Stranded (plant : Plant) : Prop where
  restarting : plant.policy.needsRestart = true
  measuring : plant.mode = .measuring

section

variable (nack : Nack) (plant : Plant)

/-- No routine ends a measurement. -/
theorem call_measuring (hmode : plant.mode = .measuring) (call : ShellCall) (frame : Frame)
    (faults : List (Option Fault)) : (plant.call nack call frame faults).mode = .measuring := by
  refine Transfer.run_invariant (I := fun sensor : Sensor => sensor.mode = .measuring) ?_ ?_
    call.driverCall.routine hmode
  · intro sensor bytes hmeasuring
    simp only [Sensor.bus, hmeasuring, Sensor.execute_measuring]
    split
    · exact ite_self _
    · rfl
  · intro sensor length hmeasuring
    simp only [Sensor.bus]
    split <;> exact hmeasuring

/-- A start that gets through leaves the sensor measuring, whether it was idle
    and accepts it or was measuring and refuses it. -/
theorem call_startMeasurement (frame : Frame) :
    (plant.call nack .startMeasurement frame []).mode = .measuring := by
  change (startMeasurement.run (Sensor.bus nack) ⟨plant.mode, frame, []⟩).2.mode = .measuring
  rw [startMeasurement_run]
  cases plant.mode <;> rfl

end

/-- A poll of a stranded service fails, and leaves its data alone. -/
theorem Stranded.tick {plant : Plant} (h : plant.Stranded) (nack : Nack) (frame : Frame)
    (faults : List (Option Fault)) (nowMs : Int) :
    (plant.tick nack frame faults nowMs).Stranded ∧
    Policy.SameData (plant.tick nack frame faults nowMs).policy plant.policy := by
  obtain ⟨hrestart, hmode⟩ := h
  obtain ⟨hnext, hstill⟩ := tick_measuring nack plant hrestart hmode frame faults nowMs
  obtain ⟨err, herr, hread, _⟩ := readTick_measuring nack plant hrestart hmode frame faults nowMs
  refine ⟨⟨hnext, hstill⟩, ?_⟩
  rw [tick_policy, hread]
  have hfailed : TimedTick.succeeded ⟨err, {}, nowMs⟩ = false := by
    simpa [TimedTick.succeeded] using herr
  exact (Policy.SameData.timedTick_failed plant.policy hfailed).1

/-- Whatever else happens, only a power cycle ends it. -/
theorem Stranded.run {nack : Nack} {plant : Plant} (h : plant.Stranded)
    (events : List OperatorEvent) (hpowered : .powerCycle ∉ events) :
    ∃ next, (operated nack).run plant events = some next ∧ next.Stranded ∧
      Policy.SameData next.policy plant.policy := by
  induction events generalizing plant with
  | nil => exact ⟨plant, rfl, h, .refl _⟩
  | cons event events ih =>
    obtain ⟨hfirst, hrest⟩ := not_or.mp (mt List.mem_cons.mpr hpowered)
    cases event with
    | tick frame faults nowMs =>
      obtain ⟨hstep, hsame⟩ := h.tick nack frame faults nowMs
      obtain ⟨next, hrun, hstranded, hdata⟩ := ih hstep hrest
      exact ⟨next, hrun, hstranded, hdata.trans hsame⟩
    | call call frame faults =>
      exact ih ⟨h.restarting, call_measuring nack plant h.measuring call frame faults⟩ hrest
    | powerCycle => exact absurd rfl hfirst

/-- What an operator does to a service by the start that `sen66 read` begins
    with. In backoff it is a trap: where the next healthy poll would have restarted
    and read an idle sensor, from now on the sensor refuses every restart, and
    whatever polls, faults and shell commands follow, the service fails and hands
    out its old data until the next power cycle. Outside backoff it is a cure:
    the next healthy poll succeeds, also where the sensor had stopped. -/
theorem operator_start (nack : Nack) (plant : Plant) (frame : Frame) :
    let started := plant.call nack .startMeasurement frame []
    (plant.policy.needsRestart = true →
      (plant.mode = .idle → ∀ (fresh : Frame) (nowMs : Int),
        (plant.tick nack fresh [] nowMs).Live fresh) ∧
      ∀ events : List OperatorEvent, .powerCycle ∉ events →
        ∃ next, (operated nack).run started events = some next ∧ next.Stranded ∧
          Policy.SameData next.policy plant.policy) ∧
    (plant.policy.needsRestart = false → ∀ (fresh : Frame) (nowMs : Int),
      (started.tick nack fresh [] nowMs).Live fresh) := by
  intro started
  have hmeasuring : started.mode = .measuring := call_startMeasurement nack plant frame
  refine ⟨fun hrestart => ⟨fun hmode fresh nowMs => ?_, fun events hpowered => ?_⟩,
    fun hrunning fresh nowMs => ?_⟩
  · exact live_of_readTick nack plant (readTick_restarted nack plant hrestart hmode fresh nowMs)
  · have hstranded : started.Stranded := ⟨hrestart, hmeasuring⟩
    exact hstranded.run events hpowered
  · exact live_of_readTick nack started (readTick_running nack started hrunning hmeasuring fresh nowMs)

/-- The sensor loses its power during a bus fault that outlasts the threshold, and
    someone looks at it from the shell: fault-free polls no longer help. -/
theorem operator_start_powerCycled :
    let stopped : Plant := { transientFault with mode := .idle }
    ∃ next, (operated sampleNack).run (stopped.call sampleNack .startMeasurement sampleFrame [])
        [.tick sampleFrame [] 4100, .call .isDataReady sampleFrame [], .tick sampleFrame [] 9100] =
      some next ∧ next.Stranded ∧ Policy.SameData next.policy stopped.policy :=
  ((operator_start sampleNack { transientFault with mode := .idle } sampleFrame).1
    (by decide +kernel)).2 _ (by simp)

end Plant

end MeasurementService
