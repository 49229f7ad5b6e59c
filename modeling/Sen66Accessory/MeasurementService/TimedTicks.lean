import Sen66Accessory.MeasurementService.Service

open Sen66

namespace MeasurementService

/-- One tick as the policy sees it: the outcome of the read and its time. -/
structure TimedTick where
  err : Int
  measurement : Measurement
  nowMs : Int
  deriving DecidableEq

def TimedTick.succeeded (tick : TimedTick) : Bool := tick.err == 0

namespace Policy

/-- The end of a tick: `OnReadResult`, then the notification it calls for. -/
def timedTick (p : Policy) (tick : TimedTick) : Policy × Option Notification :=
  notify (p.onReadResult tick.err tick.measurement tick.nowMs) tick.nowMs

/-- The policy after a history of ticks, newest first. -/
def afterTimed (config : PolicyConfig) : List TimedTick → Policy
  | [] => { config }
  | tick :: earlier => ((afterTimed config earlier).timedTick tick).1

/-- The notifications of a history of ticks, newest first. -/
def delivered (config : PolicyConfig) : List TimedTick → List Notification
  | [] => []
  | tick :: earlier =>
    ((afterTimed config earlier).timedTick tick).2.toList ++ delivered config earlier

/-- A poll over a bus ends as the tick with the outcome of its read. -/
theorem pollWorkHandler_eq_timedTick {σ : Type} (bus : Bus σ) (p : Policy) (s : σ) (nowMs : Int) :
    let result := ((pollRead p.needsRestart).run bus s).1
    let handled := (pollWorkHandler bus p s nowMs).1
    (handled.1, handled.2.2) = p.timedTick ⟨result.1, result.2, nowMs⟩ :=
  rfl

/-- The same data and notification state: all that is left out is the count of
    failures, the backoff and a notification not yet decided upon. -/
structure SameData (p q : Policy) : Prop where
  config : p.config = q.config
  latest : p.latest = q.latest
  everValid : p.everValid = q.everValid
  lastUpdateMs : p.lastUpdateMs = q.lastUpdateMs
  lastNotified : p.lastNotified = q.lastNotified
  lastNotifyMs : p.lastNotifyMs = q.lastNotifyMs

namespace SameData

variable {p q r : Policy}

theorem refl (p : Policy) : SameData p p := ⟨rfl, rfl, rfl, rfl, rfl, rfl⟩

theorem trans (hpq : SameData p q) (hqr : SameData q r) : SameData p r where
  config := hpq.config.trans hqr.config
  latest := hpq.latest.trans hqr.latest
  everValid := hpq.everValid.trans hqr.everValid
  lastUpdateMs := hpq.lastUpdateMs.trans hqr.lastUpdateMs
  lastNotified := hpq.lastNotified.trans hqr.lastNotified
  lastNotifyMs := hpq.lastNotifyMs.trans hqr.lastNotifyMs

theorem getLatest_eq (h : SameData p q) (nowMs : Int) : p.getLatest nowMs = q.getLatest nowMs := by
  rw [getLatest, getLatest, h.everValid, h.latest, h.lastUpdateMs]

/-- A successful read sets everything else from the data. -/
theorem onReadResult_eq (h : SameData p q) (m : Measurement) (nowMs : Int) :
    p.onReadResult 0 m nowMs = q.onReadResult 0 m nowMs := by
  simp only [onReadResult_success, due, h.config, h.everValid, h.lastNotified, h.lastNotifyMs]

/-- A failed read leaves the data as it was, whatever error and measurement come
    with it, and notifies nobody. -/
theorem timedTick_failed (p : Policy) {tick : TimedTick} (hfailed : tick.succeeded = false) :
    SameData (p.timedTick tick).1 p ∧ (p.timedTick tick).2 = none := by
  have herr : tick.err ≠ 0 := by simpa [TimedTick.succeeded] using hfailed
  rw [timedTick, onReadResult_failure p herr]
  exact ⟨⟨rfl, rfl, rfl, rfl, rfl, rfl⟩, rfl⟩

/-- Ticks with failed reads can be dropped from a history: what is left has the
    same data and the same notifications. -/
theorem afterTimed_filter (config : PolicyConfig) (ticks : List TimedTick) :
    SameData (afterTimed config ticks) (afterTimed config (ticks.filter TimedTick.succeeded)) ∧
    delivered config ticks = delivered config (ticks.filter TimedTick.succeeded) := by
  induction ticks with
  | nil => exact ⟨refl _, rfl⟩
  | cons tick earlier ih =>
    obtain ⟨hdata, hdelivered⟩ := ih
    cases hsucceeded : tick.succeeded with
    | false =>
      obtain ⟨hkept, hquiet⟩ := timedTick_failed (afterTimed config earlier) hsucceeded
      rw [List.filter_cons_of_neg (by simp [hsucceeded]), delivered, hquiet]
      exact ⟨hkept.trans hdata, hdelivered⟩
    | true =>
      have herr : tick.err = 0 := by simpa [TimedTick.succeeded] using hsucceeded
      have hsame : (afterTimed config earlier).timedTick tick =
          (afterTimed config (earlier.filter TimedTick.succeeded)).timedTick tick := by
        rw [timedTick, timedTick, herr, hdata.onReadResult_eq]
      rw [List.filter_cons_of_pos hsucceeded, afterTimed, afterTimed, delivered, delivered, hsame,
        hdelivered]
      exact ⟨refl _, rfl⟩

end SameData

/-- Failed reads leave no trace. Two histories with the same successful reads, in
    the same order and at the same times, deliver the same notifications and
    hand out the same measurement and age, whatever failures come between. -/
theorem failed_reads_leave_no_trace (config : PolicyConfig) (ticks₁ ticks₂ : List TimedTick)
    (hsame : ticks₁.filter TimedTick.succeeded = ticks₂.filter TimedTick.succeeded) :
    delivered config ticks₁ = delivered config ticks₂ ∧
    ∀ nowMs, (afterTimed config ticks₁).getLatest nowMs =
      (afterTimed config ticks₂).getLatest nowMs := by
  obtain ⟨hdata₁, hdelivered₁⟩ := SameData.afterTimed_filter config ticks₁
  obtain ⟨hdata₂, hdelivered₂⟩ := SameData.afterTimed_filter config ticks₂
  refine ⟨?_, fun nowMs => ?_⟩
  · rw [hdelivered₁, hdelivered₂, hsame]
  · rw [hdata₁.getLatest_eq, hdata₂.getLatest_eq, hsame]

/-- A frame, and the same frame with failures around it. -/
theorem failed_reads_leave_no_trace_bracketed :
    let frame : TimedTick := ⟨0, { co2 := 400, valid := 256 }, 1000⟩
    delivered defaultConfig [⟨-5, { co2 := 7, valid := 256 }, 2000⟩, frame, ⟨-11, {}, 500⟩] =
      delivered defaultConfig [frame] :=
  (failed_reads_leave_no_trace defaultConfig _ _ (by decide)).1

end Policy

end MeasurementService
