import Sen66Accessory.Sen66.Protocol

open Sen66

namespace MeasurementService

/-- Least raw change of a channel against the last notified snapshot that is
    worth an early publish. -/
structure ChangeThresholds where
  pm : UInt16 := 50
  temperature : UInt16 := 100
  humidity : UInt16 := 300
  co2 : UInt16 := 50
  index : UInt16 := 20

abbrev kBackoffStepCount : Nat := 4

instance : NeZero kBackoffStepCount := ⟨by decide⟩

structure PolicyConfig where
  pollIntervalMs : UInt32 := 1000
  notifyIntervalMs : UInt32 := 7000
  failureThreshold : UInt32 := 3
  backoffStepsMs : Vector UInt32 kBackoffStepCount := #v[2000, 5000, 10000, 30000]
  thresholds : ChangeThresholds := {}

/-- The configuration the service's own policy is constructed with. -/
def defaultConfig : PolicyConfig := {}

/-- The threshold group of each channel. -/
def ChangeThresholds.of (t : ChangeThresholds) : Field → UInt16
  | .pm1p0 | .pm2p5 | .pm4p0 | .pm10 => t.pm
  | .humidity => t.humidity
  | .temperature => t.temperature
  | .vocIndex | .noxIndex => t.index
  | .co2 => t.co2

def absDeltaU16 (a b : UInt16) : UInt16 := if a > b then a - b else b - a

def absDeltaS16 (a b : Int16) : UInt16 :=
  let diff : Int32 := a.toInt32 - b.toInt32
  (if diff < 0 then -diff else diff).toUInt32.toUInt16

/-- The difference taken for each channel, by its signedness. -/
def absDelta (prev fresh : Measurement) : Field → UInt16
  | .pm1p0 => absDeltaU16 prev.pm1p0 fresh.pm1p0
  | .pm2p5 => absDeltaU16 prev.pm2p5 fresh.pm2p5
  | .pm4p0 => absDeltaU16 prev.pm4p0 fresh.pm4p0
  | .pm10 => absDeltaU16 prev.pm10 fresh.pm10
  | .humidity => absDeltaS16 prev.humidity fresh.humidity
  | .temperature => absDeltaS16 prev.temperature fresh.temperature
  | .vocIndex => absDeltaS16 prev.voc_index fresh.voc_index
  | .noxIndex => absDeltaS16 prev.nox_index fresh.nox_index
  | .co2 => absDeltaU16 prev.co2 fresh.co2

/-- Channels valid in both snapshots that moved by at least their threshold. -/
def deltaMask (prev fresh : Measurement) (t : ChangeThresholds) : UInt16 :=
  let bothValid := prev.valid &&& fresh.valid
  Flags.collect Field.all fun f => Flags.has bothValid f && absDelta prev fresh f ≥ t.of f

/-- The policy object. The step index cannot leave the backoff table. -/
structure Policy where
  config : PolicyConfig
  latest : Measurement := {}
  everValid : Bool := false
  lastUpdateMs : Int := 0
  lastNotified : Measurement := {}
  lastNotifyMs : Int := 0
  shouldNotify : Bool := false
  changedMask : UInt16 := 0
  consecutiveFailures : UInt32 := 0
  inBackoff : Bool := false
  backoffStepIndex : Fin kBackoffStepCount := 0

namespace Policy

def evaluateNotify (p : Policy) (fresh : Measurement) : Policy :=
  if fresh.valid == 0 && p.lastNotified.valid == 0 then p
  else
    let mask := fresh.valid ^^^ p.lastNotified.valid
    let mask := mask ||| deltaMask p.lastNotified fresh p.config.thresholds
    let intervalElapsed : Bool := p.lastUpdateMs - p.lastNotifyMs ≥ p.config.notifyIntervalMs.toNat
    if mask != 0 || intervalElapsed then { p with shouldNotify := true, changedMask := mask }
    else p

/-- The failure counter is 32 bits wide and wraps. -/
def onReadResult (p : Policy) (err : Int) (measurement : Measurement) (nowMs : Int) : Policy :=
  let p := { p with shouldNotify := false, changedMask := 0 }
  if err ≠ 0 then
    let p := { p with consecutiveFailures := p.consecutiveFailures + 1 }
    if p.consecutiveFailures ≥ p.config.failureThreshold then
      if !p.inBackoff then { p with inBackoff := true, backoffStepIndex := 0 }
      else if hroom : p.backoffStepIndex + 1 < kBackoffStepCount then
        { p with backoffStepIndex := ⟨p.backoffStepIndex + 1, hroom⟩ }
      else p
    else p
  else
    let p := { p with consecutiveFailures := 0, inBackoff := false, backoffStepIndex := 0 }
    let p := { p with latest := measurement, lastUpdateMs := nowMs }
    let p := if measurement.valid != 0 then { p with everValid := true } else p
    p.evaluateNotify measurement

/-- The latest snapshot with its age, once a valid frame has been observed. -/
def getLatest (p : Policy) (nowMs : Int) : Option (Measurement × Int) :=
  if p.everValid then some (p.latest, nowMs - p.lastUpdateMs) else none

def markNotified (p : Policy) (nowMs : Int) : Policy :=
  { p with
    lastNotified := p.latest
    lastNotifyMs := nowMs
    shouldNotify := false
    changedMask := 0 }

def nextDelayMs (p : Policy) : UInt32 :=
  if p.inBackoff then p.config.backoffStepsMs[p.backoffStepIndex] else p.config.pollIntervalMs

def needsRestart (p : Policy) : Bool := p.inBackoff

end Policy

end MeasurementService
