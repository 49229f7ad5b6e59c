import Sen66Accessory.MeasurementService.Policy.Delta

open Sen66

namespace MeasurementService.Policy

/-- The next rung of the backoff table; the last one repeats. -/
def escalate (step : Fin kBackoffStepCount) : Fin kBackoffStepCount :=
  if hroom : step + 1 < kBackoffStepCount then ⟨step + 1, hroom⟩ else step

@[simp] theorem val_escalate (step : Fin kBackoffStepCount) :
    (escalate step : Nat) = min ((step : Nat) + 1) 3 := by
  have hlt : (step : Nat) < 4 := step.isLt
  unfold escalate
  split
  · rename_i hroom
    change (step : Nat) + 1 < 4 at hroom
    simp only
    omega
  · rename_i hroom
    change ¬ (step : Nat) + 1 < 4 at hroom
    omega

/-- A failed read drops any pending notification, counts the failure and moves
    the backoff. It never looks at the measurement it is passed. -/
theorem onReadResult_failure (p : Policy) {err : Int} (herr : err ≠ 0) (m : Measurement)
    (nowMs : Int) :
    p.onReadResult err m nowMs =
      { p with
        shouldNotify := false
        changedMask := 0
        consecutiveFailures := p.consecutiveFailures + 1
        inBackoff := p.inBackoff || p.config.failureThreshold ≤ p.consecutiveFailures + 1
        backoffStepIndex :=
          if p.config.failureThreshold ≤ p.consecutiveFailures + 1 then
            if p.inBackoff then escalate p.backoffStepIndex else 0
          else p.backoffStepIndex } := by
  unfold onReadResult
  simp only [if_pos herr, ge_iff_le]
  by_cases hreached : p.config.failureThreshold ≤ p.consecutiveFailures + 1
  · cases hbackoff : p.inBackoff with
    | false => simp [hreached]
    | true =>
      by_cases hroom : (p.backoffStepIndex : Nat) + 1 < kBackoffStepCount <;>
        simp [hreached, escalate, hroom]
  · cases hbackoff : p.inBackoff <;> simp [hreached]

/-- Whether a fresh frame read at `nowMs` calls for a notification. -/
def due (p : Policy) (fresh : Measurement) (nowMs : Int) : Bool :=
  (fresh.valid != 0 || p.lastNotified.valid != 0) &&
    (changeMask p.config.thresholds p.lastNotified fresh != 0 ||
      decide (nowMs - p.lastNotifyMs ≥ p.config.notifyIntervalMs.toNat))

/-- The evaluation overwrites a cleared notification with its verdict. When the
    early return is taken the mask it would have computed is zero anyway. -/
theorem evaluateNotify_eq (p : Policy) (fresh : Measurement) (hclear : p.shouldNotify = false)
    (hmask : p.changedMask = 0) :
    p.evaluateNotify fresh =
      { p with
        shouldNotify := p.due fresh p.lastUpdateMs
        changedMask := changeMask p.config.thresholds p.lastNotified fresh } := by
  have hkeep : p = { p with shouldNotify := false, changedMask := 0 } := by
    rw [← hclear, ← hmask]
  by_cases hearly : fresh.valid = 0 ∧ p.lastNotified.valid = 0
  · have hzero := changeMask_of_invalid p.config.thresholds hearly.2 hearly.1
    simpa [evaluateNotify, due, hearly, hzero] using hkeep
  · have hguard : (fresh.valid == 0 && p.lastNotified.valid == 0) = false := by
      simpa using hearly
    have hopen : (fresh.valid != 0 || p.lastNotified.valid != 0) = true := by
      simpa [imp_iff_not_or] using hearly
    simp only [evaluateNotify, due, hguard, hopen, Bool.false_eq_true, if_false, Bool.true_and,
      ← changeMask.eq_def]
    by_cases hdue : changeMask p.config.thresholds p.lastNotified fresh = 0
    · by_cases hinterval : p.lastUpdateMs - p.lastNotifyMs ≥ p.config.notifyIntervalMs.toNat
      · simp [hinterval]
      · simpa [hdue, hinterval] using hkeep
    · simp [hdue]

/-- A successful read recovers fully, stores the frame and decides whether to
    notify. The reported mask is the change mask in every case. -/
theorem onReadResult_success (p : Policy) (m : Measurement) (nowMs : Int) :
    p.onReadResult 0 m nowMs =
      { p with
        latest := m
        everValid := p.everValid || m.valid != 0
        lastUpdateMs := nowMs
        shouldNotify := p.due m nowMs
        changedMask := changeMask p.config.thresholds p.lastNotified m
        consecutiveFailures := 0
        inBackoff := false
        backoffStepIndex := 0 } := by
  unfold onReadResult
  simp only [ne_eq, not_true, if_false]
  cases hvalid : m.valid != 0 with
  | false => simp [evaluateNotify_eq, due]
  | true => simp [evaluateNotify_eq, due]

@[simp] theorem onReadResult_config (p : Policy) (err : Int) (m : Measurement) (nowMs : Int) :
    (p.onReadResult err m nowMs).config = p.config := by
  by_cases herr : err = 0
  · subst herr
    rw [onReadResult_success]
  · rw [onReadResult_failure p herr]

end MeasurementService.Policy
