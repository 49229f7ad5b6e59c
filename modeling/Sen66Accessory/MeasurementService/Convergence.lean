import Sen66Accessory.MeasurementService.Policy.Backoff
import Sen66Accessory.MeasurementService.Recovery

open Sen66

namespace MeasurementService

@[simp] theorem notify_consecutiveFailures (p : Policy) (nowMs : Int) :
    (notify p nowMs).1.consecutiveFailures = p.consecutiveFailures := by
  rw [notify_eq]
  split <;> rfl

namespace Policy

/-- Outside backoff the failures counted stay below the threshold. -/
def Counting (p : Policy) : Prop :=
  p.needsRestart = false → p.consecutiveFailures.toNat < p.config.sustained

/-- One more failure is one more in the counter, or begins the backoff. -/
theorem Counting.needsRestart_fail {p : Policy} (hp : p.Counting) (hrunning : p.needsRestart = false)
    {err : Int} (herr : err ≠ 0) (m : Measurement) (nowMs : Int) :
    (p.onReadResult err m nowMs).consecutiveFailures.toNat = p.consecutiveFailures.toNat + 1 ∧
    ((p.onReadResult err m nowMs).needsRestart = true ↔
      p.config.sustained ≤ p.consecutiveFailures.toNat + 1) := by
  have hnext : (p.consecutiveFailures + 1).toNat = p.consecutiveFailures.toNat + 1 := by
    have hlow := hp hrunning
    have hthreshold := p.config.failureThreshold.toNat_lt
    rw [PolicyConfig.sustained] at hlow
    rw [UInt32.toNat_add]
    exact Nat.mod_eq_of_lt (by simp; omega)
  have hout : p.inBackoff = false := hrunning
  rw [onReadResult_failure p herr]
  refine ⟨hnext, ?_⟩
  simp only [needsRestart, hout, Bool.false_or, decide_eq_true_eq, UInt32.le_iff_toNat_le, hnext,
    PolicyConfig.sustained]
  omega

theorem Counting.onReadResult {p : Policy} (hp : p.Counting) (err : Int) (m : Measurement)
    (nowMs : Int) : (p.onReadResult err m nowMs).Counting := by
  intro hrunning'
  by_cases herr : err = 0
  · subst herr
    rw [onReadResult_success]
    exact p.config.sustained_pos
  · have hrunning : p.needsRestart = false := by
      rw [onReadResult_failure p herr] at hrunning'
      exact (Bool.or_eq_false_iff.mp hrunning').1
    obtain ⟨hcount, hreached⟩ := hp.needsRestart_fail hrunning herr m nowMs
    have hlow := mt hreached.mpr (by rw [hrunning']; nofun)
    rw [hcount, onReadResult_config]
    omega

theorem Counting.notify {p : Policy} (hp : p.Counting) (nowMs : Int) :
    (notify p nowMs).1.Counting := by
  rw [notify_eq]
  split
  · exact hp
  · exact hp

theorem counting_init {σ : Type} (config : PolicyConfig) (bus : Bus σ) (s : σ) (uptimeMs : Int) :
    (init config bus s uptimeMs).1.Counting := by
  have hfresh : Policy.Counting { config } := fun _ => config.sustained_pos
  simp only [init]
  split
  · exact hfresh.onReadResult _ _ _
  · exact hfresh

end Policy

namespace Plant

/-- The service has just read the given frame from a measuring sensor. -/
structure Live (plant : Plant) (frame : Frame) : Prop where
  running : plant.policy.needsRestart = false
  measuring : plant.mode = .measuring
  latest : plant.policy.latest = frame.measurement

/-- Polls without faults on the bus and without power cycles, oldest first. -/
def healthyRun (nack : Nack) (plant : Plant) (polls : List (Frame × Int)) : Plant :=
  polls.foldl (fun plant poll => plant.tick nack poll.1 [] poll.2) plant

/-- The waits that follow the polls of such a run. -/
def waits (nack : Nack) : Plant → List (Frame × Int) → Nat
  | _, [] => 0
  | plant, poll :: polls =>
    let next := plant.tick nack poll.1 [] poll.2
    next.policy.nextDelayMs.toNat + waits nack next polls

/-- The number of healthy polls it takes to be live, if any number does. A
    sensor found idle has to fail its reads first, as often as makes up a
    sustained fault. -/
def pollsToLive (plant : Plant) : Option Nat :=
  match plant.mode, plant.policy.needsRestart with
  | .measuring, true => none
  | .measuring, false => some 1
  | .idle, true => some 1
  | .idle, false =>
    some (plant.policy.config.sustained - plant.policy.consecutiveFailures.toNat + 1)

section

variable (nack : Nack) (plant : Plant)

theorem counting_tick (hcounting : plant.policy.Counting) (frame : Frame)
    (faults : List (Option Fault)) (nowMs : Int) :
    (plant.tick nack frame faults nowMs).policy.Counting := by
  rw [tick_policy, readTick]
  exact (hcounting.onReadResult _ _ _).notify _

theorem counting_of_reachable {nack : Nack} {config : PolicyConfig} {plant : Plant}
    (hreach : (machine nack).Reachable (Booted nack config) plant) : plant.policy.Counting := by
  apply hreach.invariant (I := fun plant => plant.policy.Counting)
  · rintro plant ⟨sensor, uptimeMs, rfl⟩
    exact Policy.counting_init _ _ _ _
  · rintro plant (⟨frame, faults, nowMs⟩ | _) next _ hcounting hstep
    · cases hstep
      exact counting_tick nack plant hcounting frame faults nowMs
    · cases hstep
      exact hcounting

/-- A measuring sensor answers the read of a service that is not in backoff. -/
theorem readTick_running (hrunning : plant.policy.needsRestart = false)
    (hmode : plant.mode = .measuring) (frame : Frame) (nowMs : Int) :
    readTick (Sensor.bus nack) plant.policy ⟨plant.mode, frame, []⟩ nowMs =
      (plant.policy.onReadResult 0 frame.measurement nowMs, ⟨.measuring, frame, []⟩) := by
  have hread : (pollRead false).run (Sensor.bus nack) ⟨.measuring, frame, []⟩ =
      ((0, frame.measurement), ⟨.measuring, frame, []⟩) := by
    rw [pollRead_run]
    simp only [Bool.false_eq_true, if_false, readMeasurement_run]
    simp [Sensor.bus, Sensor.execute, frame.crc, Frame.measurement]
  simp only [readTick, hrunning, hmode, hread]

/-- An idle sensor refuses the read, and stays idle. -/
theorem readTick_refused (hrunning : plant.policy.needsRestart = false)
    (hmode : plant.mode = .idle) (frame : Frame) (nowMs : Int) :
    readTick (Sensor.bus nack) plant.policy ⟨plant.mode, frame, []⟩ nowMs =
      (plant.policy.onReadResult nack.err {} nowMs, ⟨.idle, frame, []⟩) := by
  have hbytes : Command.readMeasuredValues.bytes ≠ Command.startMeasurement.bytes := by decide
  have hread : (pollRead false).run (Sensor.bus nack) ⟨.idle, frame, []⟩ =
      ((nack.err, {}), ⟨.idle, frame, []⟩) := by
    rw [pollRead_run]
    simp only [Bool.false_eq_true, if_false, readMeasurement_run]
    simp [Sensor.bus, Sensor.execute, hbytes, nack.err_ne]
  simp only [readTick, hrunning, hmode, hread]

/-- An idle sensor accepts the restart of a service in backoff, and is read. -/
theorem readTick_restarted (hrestart : plant.policy.needsRestart = true)
    (hmode : plant.mode = .idle) (frame : Frame) (nowMs : Int) :
    readTick (Sensor.bus nack) plant.policy ⟨plant.mode, frame, []⟩ nowMs =
      (plant.policy.onReadResult 0 frame.measurement nowMs, ⟨.measuring, frame, []⟩) := by
  have hread : (pollRead true).run (Sensor.bus nack) ⟨.idle, frame, []⟩ =
      ((0, frame.measurement), ⟨.measuring, frame, []⟩) := by
    rw [pollRead_run]
    simp only [if_true, readMeasurement_run]
    simp [Sensor.bus, Sensor.execute, frame.crc, Frame.measurement]
  simp only [readTick, hrestart, hmode, hread]

/-- A poll that reads the frame of a measuring sensor leaves the plant live. -/
theorem live_of_readTick {frame : Frame} {nowMs : Int}
    (hread : readTick (Sensor.bus nack) plant.policy ⟨plant.mode, frame, []⟩ nowMs =
      (plant.policy.onReadResult 0 frame.measurement nowMs, ⟨.measuring, frame, []⟩)) :
    (plant.tick nack frame [] nowMs).Live frame := by
  constructor
  · rw [tick_policy, notify_needsRestart, hread, Policy.onReadResult_success]
    rfl
  · rw [tick_mode, hread]
  · rw [tick_policy, notify_latest, hread, Policy.onReadResult_success]


/-- A healthy poll that an idle sensor refuses is one failure more. The last one
    before the restart is followed by the first backoff step. -/
theorem pollsToLive_refused (hcounting : plant.policy.Counting)
    (hrunning : plant.policy.needsRestart = false) (hmode : plant.mode = .idle) (frame : Frame)
    (nowMs : Int) :
    let next := plant.tick nack frame [] nowMs
    next.mode = .idle ∧ ∃ n, plant.pollsToLive = some (n + 2) ∧ next.pollsToLive = some (n + 1) ∧
      next.policy.nextDelayMs = if n = 0 then plant.policy.config.backoffStepsMs[0]
        else plant.policy.config.pollIntervalMs := by
  intro next
  have hread := readTick_refused nack plant hrunning hmode frame nowMs
  have hidle : next.mode = .idle := by rw [tick_mode, hread]
  have hpolicy : next.policy =
      (notify (plant.policy.onReadResult nack.err {} nowMs) nowMs).1 := by
    rw [tick_policy, hread]
  have hlow := hcounting hrunning
  obtain ⟨hcount, hreached⟩ := hcounting.needsRestart_fail hrunning nack.err_ne {} nowMs
  have hout : plant.policy.inBackoff = false := hrunning
  refine ⟨hidle, plant.policy.config.sustained - plant.policy.consecutiveFailures.toNat - 1,
    ?_, ?_, ?_⟩
  · simp only [pollsToLive, hmode, hrunning, Option.some_inj]
    omega
  · cases hrestart : next.policy.needsRestart with
    | true =>
      rw [hpolicy, notify_needsRestart, hreached] at hrestart
      simp only [pollsToLive, hidle, hpolicy, notify_needsRestart, hreached.mpr hrestart,
        Option.some_inj]
      omega
    | false =>
      have hbelow := hrestart
      rw [hpolicy, notify_needsRestart, Bool.eq_false_iff, Ne, hreached] at hbelow
      simp only [pollsToLive, hidle, hrestart, Option.some_inj]
      rw [hpolicy, notify_consecutiveFailures, hcount, notify_config, Policy.onReadResult_config]
      omega
  · have hlast : plant.policy.config.sustained - plant.policy.consecutiveFailures.toNat - 1 = 0 ↔
        plant.policy.config.failureThreshold ≤ plant.policy.consecutiveFailures + 1 := by
      rw [Policy.onReadResult_failure _ nack.err_ne] at hreached
      simp only [Policy.needsRestart, hout, Bool.false_or, decide_eq_true_eq] at hreached
      rw [hreached]
      omega
    rw [hpolicy, notify_nextDelayMs, Policy.onReadResult_failure _ nack.err_ne, Policy.nextDelayMs]
    simp only [hlast, hout, Bool.false_or, decide_eq_true_eq, Bool.false_eq_true, if_false]
    split <;> rfl

/-- All that a healthy poll can do to the count of polls left. -/
theorem tick_healthy (hcounting : plant.policy.Counting) (frame : Frame) (nowMs : Int) :
    let next := plant.tick nack frame [] nowMs
    (plant.pollsToLive = none ∧ next.pollsToLive = none) ∨
    (plant.pollsToLive = some 1 ∧ next.Live frame) ∨
    ∃ n, plant.pollsToLive = some (n + 2) ∧ next.pollsToLive = some (n + 1) ∧
      next.mode = .idle ∧
      next.policy.nextDelayMs = if n = 0 then plant.policy.config.backoffStepsMs[0]
        else plant.policy.config.pollIntervalMs := by
  intro next
  cases hmode : plant.mode with
  | idle =>
    cases hrestart : plant.policy.needsRestart with
    | true =>
      exact .inr (.inl ⟨by simp only [pollsToLive, hmode, hrestart],
        live_of_readTick nack plant (readTick_restarted nack plant hrestart hmode frame nowMs)⟩)
    | false =>
      obtain ⟨hidle, n, hbefore, hafter, hdelay⟩ :=
        pollsToLive_refused nack plant hcounting hrestart hmode frame nowMs
      exact .inr (.inr ⟨n, hbefore, hafter, hidle, hdelay⟩)
  | measuring =>
    cases hrestart : plant.policy.needsRestart with
    | true =>
      obtain ⟨hnext, hstill⟩ := tick_measuring nack plant hrestart hmode frame [] nowMs
      exact .inl ⟨by simp only [pollsToLive, hmode, hrestart],
        by simp only [next, pollsToLive, hstill, hnext]⟩
    | false =>
      exact .inr (.inl ⟨by simp only [pollsToLive, hmode, hrestart],
        live_of_readTick nack plant (readTick_running nack plant hrestart hmode frame nowMs)⟩)

theorem Live.pollsToLive {plant : Plant} {frame : Frame} (h : plant.Live frame) :
    plant.pollsToLive = some 1 := by
  simp only [Plant.pollsToLive, h.measuring, h.running]

/-- A healthy run ends live exactly when it is long enough. -/
theorem live_healthyRun_iff (hcounting : plant.policy.Counting) (polls : List (Frame × Int))
    (frame : Frame) (nowMs : Int) :
    (healthyRun nack plant (polls ++ [(frame, nowMs)])).Live frame ↔
      ∃ n, plant.pollsToLive = some n ∧ n ≤ polls.length + 1 := by
  induction polls generalizing plant with
  | nil =>
    change (plant.tick nack frame [] nowMs).Live frame ↔ _
    obtain ⟨hbefore, hafter⟩ | ⟨hbefore, hlive⟩ | ⟨n, hbefore, hafter, hidle, _⟩ :=
      tick_healthy nack plant hcounting frame nowMs
    · rw [hbefore]
      refine ⟨fun hlive => ?_, nofun⟩
      cases hafter.symm.trans hlive.pollsToLive
    · rw [hbefore]
      exact ⟨fun _ => ⟨1, rfl, by simp⟩, fun _ => hlive⟩
    · rw [hbefore]
      refine ⟨fun hlive => ?_, fun ⟨m, hm, hle⟩ => ?_⟩
      · cases hidle.symm.trans hlive.measuring
      · cases hm
        simp at hle
  | cons poll polls ih =>
    change (healthyRun nack (plant.tick nack poll.1 [] poll.2)
      (polls ++ [(frame, nowMs)])).Live frame ↔ _
    rw [ih _ (counting_tick nack plant hcounting poll.1 [] poll.2), List.length_cons]
    obtain ⟨hbefore, hafter⟩ | ⟨hbefore, hlive⟩ | ⟨n, hbefore, hafter, _⟩ :=
      tick_healthy nack plant hcounting poll.1 poll.2
    · rw [hbefore, hafter]
      simp
    · rw [hbefore, hlive.pollsToLive]
      simp
    · rw [hbefore, hafter]
      simp

/-- What a sensor found idle keeps the service waiting for. -/
theorem waits_eq (hcounting : plant.policy.Counting) {n : Nat} {polls : List (Frame × Int)}
    (hpolls : polls.length = n + 1) (hleft : plant.pollsToLive = some (n + 2)) :
    waits nack plant polls = n * plant.policy.config.pollIntervalMs.toNat +
      plant.policy.config.backoffStepsMs[0].toNat := by
  induction polls generalizing plant n with
  | nil => cases hpolls
  | cons poll polls ih =>
    have hrest : polls.length = n := by simpa using hpolls
    obtain ⟨hbefore, _⟩ | ⟨hbefore, _⟩ | ⟨m, hbefore, hafter, _, hdelay⟩ :=
      tick_healthy nack plant hcounting poll.1 poll.2
    · cases hleft.symm.trans hbefore
    · cases hleft.symm.trans hbefore
    obtain rfl : n = m := by
      have hsame := hleft.symm.trans hbefore
      simpa using hsame
    rw [waits, hdelay]
    cases n with
    | zero =>
      rw [List.length_eq_zero_iff.mp hrest, if_pos rfl, waits]
      omega
    | succ n =>
      rw [ih _ (counting_tick nack plant hcounting poll.1 [] poll.2) hrest hafter, tick_config,
        if_neg (Nat.succ_ne_zero n), Nat.succ_mul]
      omega

end

/-- From any state a run can reach, healthy polls bring the service to a fresh
    frame of a measuring sensor exactly unless it is in backoff with the sensor
    still measuring. It takes at most one poll more than a sustained fault has
    failures, and once it has come that far it stays there for as long as the
    polls are healthy. A sensor found idle outside backoff costs the poll
    intervals up to the sustained fault and the first backoff step. -/
theorem converges (nack : Nack) (config : PolicyConfig) (plant : Plant)
    (hreach : (machine nack).Reachable (Booted nack config) plant) :
    (plant.pollsToLive = none ↔ plant.policy.needsRestart = true ∧ plant.mode = .measuring) ∧
    (∀ n, plant.pollsToLive = some n → n ≤ config.sustained + 1) ∧
    (∀ (polls : List (Frame × Int)) (frame : Frame) (nowMs : Int),
      (healthyRun nack plant (polls ++ [(frame, nowMs)])).Live frame ↔
        ∃ n, plant.pollsToLive = some n ∧ n ≤ polls.length + 1) ∧
    ∀ (n : Nat) (polls : List (Frame × Int)), plant.pollsToLive = some (n + 2) →
      polls.length = n + 1 → waits nack plant polls =
        n * config.pollIntervalMs.toNat + config.backoffStepsMs[0].toNat := by
  have hcounting := counting_of_reachable hreach
  have hconfig := config_of_reachable hreach
  have hpos := config.sustained_pos
  refine ⟨?_, ?_, fun polls frame nowMs => live_healthyRun_iff nack plant hcounting polls frame nowMs,
    fun n polls hleft hpolls => hconfig ▸ waits_eq nack plant hcounting hpolls hleft⟩
  · cases hmode : plant.mode <;> cases hrestart : plant.policy.needsRestart <;>
      simp [pollsToLive, hmode, hrestart]
  · intro n hn
    cases hmode : plant.mode <;> cases hrestart : plant.policy.needsRestart <;>
      simp only [pollsToLive, hmode, hrestart, Option.some_inj, hconfig] at hn
    · omega
    · omega
    · omega
    · cases hn

/-- The sensor power-cycles right after a clean start, and answers again on the
    fourth poll. -/
theorem converges_powerCycled :
    (healthyRun sampleNack { cleanStart with mode := .idle }
      (List.replicate 3 (sampleFrame, 0) ++ [(sampleFrame, 0)])).Live sampleFrame := by
  have hreach : (machine sampleNack).Reachable (Booted sampleNack defaultConfig)
      { cleanStart with mode := .idle } :=
    .step .powerCycle (.start ⟨⟨.idle, sampleFrame, []⟩, 0, rfl⟩) rfl
  exact ((converges sampleNack defaultConfig _ hreach).2.2.1 _ sampleFrame 0).mpr
    ⟨4, by decide +kernel, by decide⟩

end Plant

end MeasurementService
