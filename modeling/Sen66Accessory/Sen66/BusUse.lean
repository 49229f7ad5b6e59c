import Sen66Accessory.BusThreads.Courtesy
import Sen66Accessory.Sen66.Linearizability
import Sen66Accessory.Sen66.ShellCommand

open BusThreads MeasurementService

namespace Sen66

/-- All that the program does with the bus: the shell commands, the start that
    the service is initialized with, and the driver calls of a poll. -/
inductive BusUse where
  | serial (out : CharBuffer)
  | read (out : Measurement)
  | start
  | poll (needsRestart : Bool)

namespace BusUse

abbrev Result : BusUse → Type
  | serial _ => ShellResult
  | read _ => ShellResult
  | start => Int
  | poll _ => Int × Measurement

def routine : (use : BusUse) → Transfer use.Result
  | serial out => cmdSerial out
  | read out => cmdRead out
  | start => startMeasurement
  | poll needsRestart => pollRead needsRestart

end BusUse

section

variable {limit : Nat}

theorem courteous_startMeasurement (hlimit : kExecStartMs ≤ limit) :
    startMeasurement.Courteous limit false none := by
  apply Transfer.Courteous.locked
  refine ⟨rfl, fun err => ?_⟩
  dsimp only [Transfer.bind]
  split
  · rfl
  · exact ⟨hlimit, rfl⟩

/-- A call that sends a command, waits for the answer and reads it is courteous
    if what it does with the answer needs no bus. -/
theorem courteous_read {α : Type} {cmd : Command} {length : Nat} {failed : Int → Transfer α}
    {answered : Int × Vector UInt8 length → Transfer α} (hlimit : kExecReadMs ≤ limit)
    (hfailed : ∀ err left, (failed err).Courteous limit true (some left))
    (hanswered : ∀ answer left, (answered answer).Courteous limit true (some left)) :
    (Transfer.locked do
      let err ← sendCommand cmd
      if err ≠ 0 then
        failed err
      else
        msleep kExecReadMs
        let answer ← readBytes length
        answered answer).Courteous limit false none := by
  apply Transfer.Courteous.locked
  refine ⟨rfl, fun err => ?_⟩
  dsimp only [Transfer.bind]
  split
  · exact hfailed err limit
  · exact ⟨hlimit, rfl, fun answer => hanswered answer _⟩

theorem courteous_isDataReady (hlimit : kExecReadMs ≤ limit) :
    isDataReady.Courteous limit false none := by
  refine courteous_read hlimit (fun _ _ => rfl) ?_
  rintro ⟨err, raw⟩ left
  dsimp only
  split
  · rfl
  · split <;> rfl

theorem courteous_readMeasurement (hlimit : kExecReadMs ≤ limit) (out : Measurement) :
    (readMeasurement out).Courteous limit false none := by
  refine courteous_read hlimit (fun _ _ => rfl) ?_
  rintro ⟨err, raw⟩ left
  dsimp only
  split
  · rfl
  · obtain ⟨accepted, parsed⟩ := parseMeasurement raw out
    cases accepted <;> rfl

theorem courteous_readSerialNumber (hlimit : kExecReadMs ≤ limit) (out : CharBuffer) :
    (readSerialNumber out).Courteous limit false none := by
  refine courteous_read hlimit (fun _ _ => rfl) ?_
  rintro ⟨err, raw⟩ left
  dsimp only
  split
  · rfl
  · obtain ⟨accepted, parsed⟩ := parseSerialNumber raw out
    cases accepted <;> rfl

theorem courteous_awaitReady (hlimit : kExecReadMs ≤ limit) (turns : Nat) :
    (awaitReady turns).Courteous limit false none := by
  induction turns with
  | zero => rfl
  | succ turns ih =>
    refine (courteous_isDataReady hlimit).andThen fun ready => ?_
    cases ready with
    | true => rfl
    | false => exact ih

theorem courteous_cmdSerial (hlimit : kExecReadMs ≤ limit) (serial : CharBuffer) :
    (cmdSerial serial).Courteous limit false none := by
  refine (courteous_readSerialNumber hlimit serial).andThen fun result => ?_
  dsimp only
  split <;> rfl

/-- Nothing is held while the command waits for its next turn. -/
theorem courteous_cmdRead (hlimit : kExecStartMs ≤ limit) (m : Measurement) :
    (cmdRead m).Courteous limit false none := by
  have hread : kExecReadMs ≤ limit := le_trans (by decide) hlimit
  refine (courteous_startMeasurement hlimit).andThen fun _ => ?_
  refine (courteous_awaitReady hread kDataReadyPollCount).andThen fun ready => ?_
  cases ready with
  | false => rfl
  | true =>
    refine (courteous_readMeasurement hread m).andThen fun result => ?_
    dsimp only
    split <;> rfl

/-- The lock is given back between the restart and the read of a poll. -/
theorem courteous_pollRead (hlimit : kExecStartMs ≤ limit) (needsRestart : Bool) :
    (pollRead needsRestart).Courteous limit false none := by
  have hread : kExecReadMs ≤ limit := le_trans (by decide) hlimit
  have hfetch (err : Int) :
      (if err = 0 then readMeasurement {} else return (err, {})).Courteous limit false none := by
    split
    · exact courteous_readMeasurement hread {}
    · rfl
  cases needsRestart with
  | true => exact (courteous_startMeasurement hlimit).andThen hfetch
  | false => exact hfetch 0

end

theorem BusUse.courteous_routine (use : BusUse) :
    use.routine.Courteous kExecStartMs false none := by
  cases use with
  | serial out => exact courteous_cmdSerial (by decide) out
  | read out => exact courteous_cmdRead le_rfl out
  | start => exact courteous_startMeasurement le_rfl
  | poll needsRestart => exact courteous_pollRead le_rfl needsRestart

/-- However the threads that use the bus come between one another and whatever
    it answers, none keeps the others from it. In every state of every interleaving
    the mutex's owner has waited since it took it for no longer than the start of a
    measurement takes; while the mutex is free every thread in a call can go on;
    and its owner is in a call whose own steps give it back. -/
theorem bus_shared {Thread σ : Type} [DecidableEq Thread] (bus : Bus σ)
    {s : System Thread BusUse.Result} {held : Nat}
    (hreach : ((machine BusUse.routine).observe recordHeld).Reachable
      (fun x => x.1 = ({} : System Thread BusUse.Result) ∧ x.2 = 0) (s, held)) :
    held ≤ kExecStartMs ∧
    (s.owner = none → ∀ t job, s.job t = some job →
      ∃ e : Step Thread BusUse, e.thread = t ∧ (s.step BusUse.routine e).isSome = true) ∧
    ∀ t, s.owner = some t → (s.job t).isSome = true ∧ ∀ b, ∃ s' b',
      OwnRun bus BusUse.routine t (s, b) (s', b') ∧ s'.owner = none := by
  have hpolite := polite_of_reachable BusUse.courteous_routine hreach
  exact ⟨hpolite.held_le, fun hfree t job hjob => hpolite.can_step hfree hjob,
    fun t howner => ⟨hpolite.owning t howner, fun b => hpolite.exists_free howner b⟩⟩

/-- A poll comes between two questions of `sen66 read`, which then finds the mutex
    taken. -/
def interruptedRead : System Bool BusUse.Result × Nat :=
  (((machine BusUse.routine).observe recordHeld).run (({} : System Bool BusUse.Result), 0)
    [.call true (.read {}), .lock true, .write true 0 true, .sleep true, .unlock true,
      .lock true, .write true 0 true, .sleep true, .read true 0 fun _ => 0, .parse true,
      .unlock true, .call false (.poll false), .lock false, .write false 0 true,
      .sleep false, .sleep true]).getD ({}, 0)

/-- The poll has kept the bus for 20 ms, and gives it back to the command. -/
theorem bus_shared_interruptedRead :
    interruptedRead.1.owner = some false ∧ ∃ s' b', OwnRun silentBus BusUse.routine false
      (interruptedRead.1, 0) (s', b') ∧ s'.owner = none := by
  have howner : interruptedRead.1.owner = some false := by decide +kernel
  have hreach : ((machine BusUse.routine).observe recordHeld).Reachable
      (fun x => x.1 = ({} : System Bool BusUse.Result) ∧ x.2 = 0)
      (interruptedRead.1, interruptedRead.2) := by
    rw [Prod.mk.eta, interruptedRead]
    exact Machine.Reachable.run_getD (.start ⟨rfl, rfl⟩) _
  exact ⟨howner, ((bus_shared silentBus hreach).2.2 false howner).2 0⟩

end Sen66
