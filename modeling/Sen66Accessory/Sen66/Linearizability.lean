import Sen66Accessory.BusThreads.Atomicity
import Sen66Accessory.Sen66.Exchange

open BusThreads

namespace Sen66

/-- Over any bus, any interleaving of the steps of driver calls makes of the bus
    and returns to every caller what the same calls make and return one after
    another, in the order of their returns. A call that holds the mutex will
    return what it would have returned alone, behind those calls. That order
    keeps the calls' order in time: every return is the only one of a call
    invoked before it, and nothing of a call happens before its invocation. -/
theorem driver_calls_linearizable {Thread σ : Type} [DecidableEq Thread] (bus : Bus σ) {b₀ b : σ}
    {s : System Thread DriverCall.Result} {events : List (CallEvent DriverCall.Result)}
    (hreach : ReachesOn DriverCall.routine bus b₀ s b events) :
    (∃ settled, Sequential DriverCall.routine bus b₀ (returns events) settled ∧
      (s.owner = none → b = settled) ∧
      ∀ t job, s.owner = some t → s.job t = some job →
        job.stage.run bus b = job.call.routine.run bus settled) ∧
    (∀ newer id c result older, events = newer ++ .returned id c result :: older →
      .invoked id c ∈ older ∧ ∀ c' result', .returned id c' result' ∉ older) ∧
    (∀ newer id c older, events = newer ++ .invoked id c :: older →
      ∀ event ∈ older, event.id < id) := by
  obtain ⟨hatomic, hnumbered⟩ := hreach.atomic DriverCall.exchange_routine
  refine ⟨?_, hnumbered.matched, hnumbered.fresh⟩
  cases howner : s.owner with
  | none => exact ⟨b, hatomic.free howner, fun _ => rfl, nofun⟩
  | some t =>
    obtain ⟨log, hdisciplined⟩ := hatomic.disciplined
    obtain ⟨job, _, hjob, _⟩ := hdisciplined.holding t howner
    obtain ⟨settled, hsettled, hrun⟩ := hatomic.holding t job howner hjob
    refine ⟨settled, hsettled, nofun, fun u other hu hother => ?_⟩
    cases hu
    cases hjob.symm.trans hother
    exact hrun

/-- A bus that accepts every command, fails every read and counts both. -/
def silentBus : Bus Nat where
  write n _ := (0, n + 1)
  read n length := ((-5, Vector.replicate length 0), n + 1)

/-- A question for data waits while another thread starts the measurement, and
    then finds no answer. -/
def waitingQuestion : (System Bool DriverCall.Result × Nat) × List (CallEvent DriverCall.Result) :=
  (((onBus DriverCall.routine silentBus).observe recordEvent).run (({}, 0), [])
    [.call true .isDataReady, .call false .startMeasurement, .lock false, .write false 0 true,
      .sleep false, .unlock false, .lock true, .write true 0 true, .sleep true,
      .read true (-5) fun _ => 0, .parse true, .unlock true]).getD (({}, 0), [])

theorem reaches_waitingQuestion :
    ReachesOn DriverCall.routine silentBus 0 waitingQuestion.1.1 waitingQuestion.1.2
      waitingQuestion.2 := by
  have hstart : ReachesOn DriverCall.routine silentBus 0 ({} : System Bool DriverCall.Result) 0
      [] := .start ⟨rfl, rfl⟩
  rw [ReachesOn, Prod.mk.eta, waitingQuestion]
  exact hstart.run_getD _

/-- The two calls leave the bus where they leave it one after the other. -/
theorem driver_calls_linearizable_waitingQuestion :
    ∃ settled, Sequential DriverCall.routine silentBus 0
      [⟨.isDataReady, false⟩, ⟨.startMeasurement, 0⟩] settled ∧ 3 = settled := by
  have hbus : waitingQuestion.1.2 = 3 := by decide +kernel
  obtain ⟨settled, hsettled, hfree, _⟩ :=
    (driver_calls_linearizable silentBus reaches_waitingQuestion).1
  rw [hbus] at hfree
  exact ⟨settled, hsettled, hfree (by decide +kernel)⟩

end Sen66
