import Sen66Accessory.BusThreads
import Sen66Accessory.Sen66.Driver

open BusThreads

namespace Sen66

/-- The calls a thread can make of the driver, with the out-parameters it
    passes. -/
inductive DriverCall where
  | readSerialNumber (out : CharBuffer)
  | startMeasurement
  | stopMeasurement
  | isDataReady
  | readMeasurement (out : Measurement)

/-- The time the sensor takes to execute a command, by the bytes of its opcode. -/
def executionMs (bytes : List UInt8) : Nat :=
  if bytes = Command.startMeasurement.bytes then kExecStartMs
  else if bytes = Command.stopMeasurement.bytes then kExecStopMs
  else kExecReadMs

namespace DriverCall

abbrev Result : DriverCall → Type
  | readSerialNumber _ => Int × CharBuffer
  | startMeasurement => Int
  | stopMeasurement => Int
  | isDataReady => Bool
  | readMeasurement _ => Int × Measurement

def routine : (c : DriverCall) → Transfer c.Result
  | readSerialNumber out => Sen66.readSerialNumber out
  | startMeasurement => Sen66.startMeasurement
  | stopMeasurement => Sen66.stopMeasurement
  | isDataReady => Sen66.isDataReady
  | readMeasurement out => Sen66.readMeasurement out

/-- Every driver call is one exchange under the bus lock. -/
theorem exchange_routine (c : DriverCall) : Exchange executionMs c.routine := by
  cases c with
  | startMeasurement => exact exchange_locked rfl rfl
  | stopMeasurement => exact exchange_locked rfl rfl
  | readSerialNumber out =>
    refine exchange_locked rfl ?_
    rintro ⟨err, raw⟩
    dsimp only [Transfer.bind]
    split
    · exact rfl
    · obtain ⟨accepted, parsed⟩ := parseSerialNumber raw out
      cases accepted <;> exact rfl
  | isDataReady =>
    refine exchange_locked rfl ?_
    rintro ⟨err, raw⟩
    dsimp only [Transfer.bind]
    split
    · exact rfl
    · split <;> exact rfl
  | readMeasurement out =>
    refine exchange_locked rfl ?_
    rintro ⟨err, raw⟩
    dsimp only [Transfer.bind]
    split
    · exact rfl
    · obtain ⟨accepted, parsed⟩ := parseMeasurement raw out
      cases accepted <;> exact rfl

end DriverCall

/-- Driver calls of any number of threads never cross, in any interleaving and
    with any errors on the bus. Between a command and the return of its call no
    other call sends one. What a call looks at is the sensor's answer to a
    command that this call sent and the sensor accepted. An accepted command, one
    whose write was acknowledged, is given its own execution time before the next
    command is sent. The mutex is held exactly by the call in progress, and every
    way a call returns leaves it free. -/
theorem exchanges_never_cross {Thread : Type} [DecidableEq Thread]
    {s : System Thread DriverCall.Result} {log : List Entry}
    (hreach : Reaches DriverCall.routine s log) :
    (∀ newer middle older id id' bytes bytes' err err',
      log = newer ++ .command id' bytes' err' :: (middle ++ .command id bytes err :: older) →
      id' ≠ id → .returned id ∈ middle) ∧
    (∀ newer older id source, log = newer ++ .parsed id source :: older →
      ∃ bytes, source = some (id, bytes) ∧ .command id bytes 0 ∈ older) ∧
    (∀ newer middle older id id' bytes bytes' err',
      log = newer ++ .command id' bytes' err' :: (middle ++ .command id bytes 0 :: older) →
      .delay id (executionMs bytes) ∈ middle) ∧
    (∀ t, s.owner = some t ↔ ∃ job, s.job t = some job ∧ job.InProgress) ∧
    (∀ e s' t, s.step DriverCall.routine e = some s' → (s.job t).isSome = true →
      s'.job t = none → s.owner = some t ∧ s'.owner = none) := by
  have hdisciplined := hreach.disciplined DriverCall.exchange_routine
  obtain ⟨current, hserial⟩ := hdisciplined.serial
  refine ⟨?_, ?_, ?_, fun t => hdisciplined.owner_iff, ?_⟩
  · rintro newer middle older id id' bytes bytes' err err' rfl hother
    exact hserial.returned_between hother
  · rintro newer older id source rfl
    exact hserial.source_of_parsed
  · rintro newer middle older id id' bytes bytes' err' rfl
    exact hserial.delay_between
  · intro e s' t hstep hcall hreturn
    exact hdisciplined.owner_of_return DriverCall.exchange_routine hstep hcall hreturn

/-- One thread starts the measurement while another waits to read. -/
def twoCallers : System Bool DriverCall.Result × List Entry :=
  (((machine DriverCall.routine).observe record).run ({}, [])
    [.call false .startMeasurement, .lock false, .call true (.readMeasurement {}),
      .write false 0 true, .sleep false, .unlock false, .lock true, .write true 0 true]).getD
    ({}, [])

theorem reaches_twoCallers : Reaches DriverCall.routine twoCallers.1 twoCallers.2 := by
  have hstart : Reaches DriverCall.routine ({} : System Bool DriverCall.Result) [] :=
    .start ⟨rfl, rfl⟩
  rw [Reaches, Prod.mk.eta, twoCallers]
  exact hstart.run_getD _

/-- The second command is sent only after the first call has returned. -/
theorem exchanges_never_cross_twoCallers :
    Entry.returned 0 ∈ [Entry.locked 1, .returned 0, .delay 0 50] :=
  (exchanges_never_cross reaches_twoCallers).1 [] _ [.locked 0] 0 1
    Command.startMeasurement.bytes Command.readMeasuredValues.bytes 0 0 (by decide +kernel)
    (by decide)

end Sen66
