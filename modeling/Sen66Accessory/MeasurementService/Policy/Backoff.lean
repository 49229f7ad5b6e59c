import Sen66Accessory.MeasurementService.Policy.Calls

open Sen66

namespace MeasurementService

/-- The number of failures in a row that counts as sustained. A threshold of
    zero acts like one, because only a failure compares the counter with it. -/
def PolicyConfig.sustained (config : PolicyConfig) : Nat := max config.failureThreshold.toNat 1

theorem PolicyConfig.sustained_pos (config : PolicyConfig) : 0 < config.sustained := by
  simp [PolicyConfig.sustained]

namespace Policy

/-- How the three backoff fields follow from the failures in a row. Only the
    counter wraps. -/
structure Laddered (p : Policy) (failures : Nat) : Prop where
  counter : p.consecutiveFailures.toNat = failures % 2 ^ 32
  inBackoff : p.inBackoff = decide (p.config.sustained ≤ failures)
  step : (p.backoffStepIndex : Nat) = min (failures - p.config.sustained) 3

/-- One more failure climbs one rung, also when the counter wraps: by then the
    ladder has reached its last rung. -/
theorem Laddered.fail {p : Policy} {failures : Nat} (h : p.Laddered failures)
    (hthreshold : p.config.failureThreshold.toNat ≤ 2 ^ 32 - 4) {err : Int} (herr : err ≠ 0)
    (m : Measurement) (nowMs : Int) :
    (p.onReadResult err m nowMs).Laddered (failures + 1) := by
  obtain ⟨hcounter, hback, hstep⟩ := h
  have hnext : (p.consecutiveFailures + 1).toNat = (failures + 1) % 2 ^ 32 := by
    rw [UInt32.toNat_add, hcounter]
    simp
  have hreached : p.config.failureThreshold ≤ p.consecutiveFailures + 1 ↔
      p.config.failureThreshold.toNat ≤ (failures + 1) % 2 ^ 32 := by
    rw [UInt32.le_iff_toNat_le, hnext]
  have hsustained : p.config.sustained = max p.config.failureThreshold.toNat 1 := rfl
  rw [onReadResult_failure p herr]
  refine ⟨hnext, ?_, ?_⟩
  · change (p.inBackoff || decide (p.config.failureThreshold ≤ p.consecutiveFailures + 1)) =
      decide (p.config.sustained ≤ failures + 1)
    rw [hback, ← Bool.decide_or, decide_eq_decide, hreached]
    omega
  · change ((if p.config.failureThreshold ≤ p.consecutiveFailures + 1 then
          if p.inBackoff then escalate p.backoffStepIndex else 0
        else p.backoffStepIndex : Fin _) : Nat) =
      min (failures + 1 - p.config.sustained) 3
    simp only [hreached, hback, decide_eq_true_eq]
    split
    · split
      · rw [val_escalate, hstep]
        omega
      · change 0 = _
        omega
    · -- Below the threshold again after a wrap, the ladder is already at its top.
      rw [hstep]
      omega

theorem laddered_after (config : PolicyConfig)
    (hthreshold : config.failureThreshold.toNat ≤ 2 ^ 32 - 4) (calls : List Call) :
    (after config calls).Laddered (failures calls) := by
  induction calls with
  | nil =>
    have hpos : 0 < config.sustained := by simp [PolicyConfig.sustained]
    exact ⟨rfl, by simp [after, failures]; omega, by simp [after, failures]⟩
  | cons call earlier ih =>
    cases call with
    | onReadResult err m nowMs =>
      by_cases herr : err = 0
      · have hpos : 0 < config.sustained := by simp [PolicyConfig.sustained]
        subst herr
        refine ⟨?_, ?_, ?_⟩ <;> simp [after, apply, onReadResult_success, failures]
        omega
      · rw [failures, if_neg herr]
        exact ih.fail (by simpa using hthreshold) herr m nowMs
    | markNotified nowMs => exact ⟨ih.counter, ih.inBackoff, ih.step⟩

/-- The backoff after any history, for runs of any length: it depends on
    nothing but the number of failures in a row. -/
theorem backoff_closed_form (config : PolicyConfig)
    (hthreshold : config.failureThreshold.toNat ≤ 2 ^ 32 - 4) (calls : List Call) :
    let p := after config calls
    let k := failures calls
    let sustained := max config.failureThreshold.toNat 1
    (p.needsRestart = true ↔ k ≥ sustained) ∧
    p.nextDelayMs =
      (if k < sustained then config.pollIntervalMs
        else config.backoffStepsMs[min (k - sustained) 3]) ∧
    (p.backoffStepIndex : Nat) = min (k - sustained) 3 := by
  obtain ⟨_, hback, hstep⟩ := laddered_after config hthreshold calls
  rw [after_config] at hback hstep
  change _ = decide (max config.failureThreshold.toNat 1 ≤ _) at hback
  refine ⟨?_, ?_, hstep⟩
  · rw [needsRestart, hback, decide_eq_true_eq]
  · by_cases hlow : failures calls < max config.failureThreshold.toNat 1
    · have hout : (after config calls).inBackoff = false := by
        rw [hback, decide_eq_false_iff_not]
        omega
      simp only [nextDelayMs, hout, hlow, if_true, Bool.false_eq_true, if_false, after_config]
    · have hin : (after config calls).inBackoff = true := by
        rw [hback, decide_eq_true_eq]
        omega
      have hrung : ((after config calls).backoffStepIndex : Nat) =
          min (failures calls - max config.failureThreshold.toNat 1) 3 := hstep
      simp only [nextDelayMs, hin, hlow, if_true, if_false, after_config, Fin.getElem_fin, hrung]

/-- The default ladder after five failures in a row stands on its third rung. -/
theorem backoff_closed_form_fifth_failure :
    let p := after defaultConfig (List.replicate 5 (.onReadResult (-5) {} 0))
    p.needsRestart = true ∧ p.nextDelayMs = 10000 ∧ (p.backoffStepIndex : Nat) = 2 := by
  have h := backoff_closed_form defaultConfig (by decide)
    (List.replicate 5 (.onReadResult (-5) {} 0))
  exact ⟨h.1.mpr (by decide), h.2.1.trans (by decide), h.2.2.trans (by decide)⟩

end Policy

end MeasurementService
