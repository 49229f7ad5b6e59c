import Sen66Accessory.Bus
import Sen66Accessory.Sen66.Protocol

namespace Sen66

/-- The error code of a response that fails its CRC, `-EIO`. -/
def eio : Int := -5

def kExecReadMs : Nat := 20
def kExecStartMs : Nat := 50
def kExecStopMs : Nat := 1000

/-- The two bytes of a command, most significant first. -/
def Command.bytes (cmd : Command) : List UInt8 :=
  [(cmd.opcode >>> 8).toUInt8, (cmd.opcode &&& 0xFF).toUInt8]

def sendCommand (cmd : Command) : Transfer Int :=
  .write cmd.bytes .done

def readBytes (length : Nat) : Transfer (Int × Vector UInt8 length) :=
  .read length .done

def msleep (ms : Nat) : Transfer Unit :=
  .sleep ms (.done ())

/-- Returns the error code with the out-parameter. -/
def readSerialNumber (out : CharBuffer) : Transfer (Int × CharBuffer) := .locked do
  let err ← sendCommand .getSerialNumber
  if err ≠ 0 then
    return (err, out)
  msleep kExecReadMs
  let (err, raw) ← readBytes kSerialBytes
  if err ≠ 0 then
    return (err, out)
  let (accepted, out) := parseSerialNumber raw out
  if !accepted then
    return (eio, out)
  return (0, out)

def startMeasurement : Transfer Int := .locked do
  let err ← sendCommand .startMeasurement
  if err ≠ 0 then
    return err
  msleep kExecStartMs
  return 0

def stopMeasurement : Transfer Int := .locked do
  let err ← sendCommand .stopMeasurement
  if err ≠ 0 then
    return err
  msleep kExecStopMs
  return 0

/-- The data-ready flag is the low byte of its word. -/
def isDataReady : Transfer Bool := .locked do
  let err ← sendCommand .getDataReady
  if err ≠ 0 then
    return false
  msleep kExecReadMs
  let (err, raw) ← readBytes kDataReadyBytes
  if err ≠ 0 then
    return false
  if !checkWordsCrc 1 raw then
    return false
  return raw[1] == 0x01

/-- Returns the error code with the out-parameter. -/
def readMeasurement (out : Measurement) : Transfer (Int × Measurement) := .locked do
  let err ← sendCommand .readMeasuredValues
  if err ≠ 0 then
    return (err, out)
  msleep kExecReadMs
  let (err, raw) ← readBytes kMeasurementBytes
  if err ≠ 0 then
    return (err, out)
  let (accepted, out) := parseMeasurement raw out
  if !accepted then
    return (eio, out)
  return (0, out)

section

variable {σ : Type} (bus : Bus σ) (s : σ)

@[simp] theorem sendCommand_run (cmd : Command) :
    (sendCommand cmd).run bus s = bus.write s cmd.bytes := rfl

@[simp] theorem readBytes_run (length : Nat) :
    (readBytes length).run bus s = bus.read s length := rfl

@[simp] theorem msleep_run (ms : Nat) : (msleep ms).run bus s = ((), s) := rfl

/-- Starting reports the code of its one write. -/
theorem startMeasurement_run :
    startMeasurement.run bus s = bus.write s Command.startMeasurement.bytes := by
  simp only [startMeasurement, Transfer.run_locked, Transfer.run_bind, Transfer.run_ite,
    Transfer.run_pure]
  dsimp +instances only [sendCommand_run, msleep_run]
  split
  · rfl
  · rename_i hzero
    rw [not_not] at hzero
    rw [← hzero]

/-- A read is answered by the sensor only when the command was accepted. Its
    out-parameter is written only by a response whose every CRC matches. -/
theorem readMeasurement_run (out : Measurement) :
    (readMeasurement out).run bus s =
      let sent := bus.write s Command.readMeasuredValues.bytes
      if sent.1 ≠ 0 then ((sent.1, out), sent.2)
      else
        let answer := bus.read sent.2 kMeasurementBytes
        if answer.1.1 ≠ 0 then ((answer.1.1, out), answer.2)
        else if checkWordsCrc kMeasurementWords answer.1.2 then
          ((0, decodeMeasurement answer.1.2), answer.2)
        else ((eio, out), answer.2) := by
  simp only [readMeasurement, Transfer.run_locked, Transfer.run_bind, Transfer.run_ite,
    Transfer.run_pure]
  dsimp +instances only [sendCommand_run, msleep_run, readBytes_run]
  simp only [parseMeasurement_eq]
  split
  · rfl
  split
  · rfl
  split <;> simp_all

end

end Sen66
