import Sen66Accessory.MeasurementService.Tick
import Sen66Accessory.MeasurementService.Policy.Calls

open Sen66

namespace MeasurementService.Policy

/-- No history of calls has anything to report before its first valid frame. -/
theorem coherent_after (config : PolicyConfig) (calls : List Call) :
    (after config calls).Coherent := by
  induction calls with
  | nil => exact ⟨fun _ => rfl, fun _ => rfl⟩
  | cons call earlier ih =>
    cases call with
    | onReadResult err m nowMs =>
      by_cases herr : err = 0
      · subst herr
        rw [after, apply, onReadResult_success]
        constructor
        · intro hever
          simpa using (Bool.or_eq_false_iff.mp hever).2
        · intro hever
          exact ih.notified (Bool.or_eq_false_iff.mp hever).1
      · rw [after, apply, onReadResult_failure _ herr]
        exact ⟨ih.latest, ih.notified⟩
    | markNotified nowMs => exact ⟨ih.latest, ih.latest⟩

/-- A read leaves a notification pending only when it succeeded, and then there
    is a valid frame to hand out. -/
theorem Coherent.of_shouldNotify {p : Policy} (hp : p.Coherent) {err : Int} {m : Measurement}
    {nowMs : Int} (hpending : (p.onReadResult err m nowMs).shouldNotify = true) :
    err = 0 ∧ (p.onReadResult err m nowMs).everValid = true := by
  by_cases herr : err = 0
  · subst herr
    rw [onReadResult_success] at hpending ⊢
    exact ⟨rfl, hp.everValid_of_due hpending⟩
  · rw [onReadResult_failure p herr] at hpending
    cases hpending

theorem everValid_of_shouldNotify {config : PolicyConfig} {calls : List Call}
    (hpending : (after config calls).shouldNotify = true) :
    (after config calls).everValid = true := by
  cases calls with
  | nil => cases hpending
  | cons call earlier =>
    cases call with
    | onReadResult err m nowMs => exact ((coherent_after config earlier).of_shouldNotify hpending).2
    | markNotified nowMs => cases hpending

/-- A pending notification is never discarded. After any history of calls a
    policy that would notify has a measurement to hand out, and a poll from there
    that decides to notify marks the notification delivered, leaving nothing
    pending and the frame it has just read as the one notified last, and passes
    that frame on. -/
theorem pending_never_discarded (config : PolicyConfig) (calls : List Call) :
    ((after config calls).shouldNotify = true →
      ∀ nowMs, ((after config calls).getLatest nowMs).isSome = true) ∧
    ∀ {σ : Type} (bus : Bus σ) (s : σ) (nowMs : Int),
      let p := (readTick bus (after config calls) s nowMs).1
      let handled := (pollWorkHandler bus (after config calls) s nowMs).1
      p.shouldNotify = true → ∃ raw, checkWordsCrc kMeasurementWords raw = true ∧
        ((pollRead (after config calls).needsRestart).run bus s).1 = (0, decodeMeasurement raw) ∧
        handled.1 = p.markNotified nowMs ∧
        handled.1.shouldNotify = false ∧ handled.1.changedMask = 0 ∧
        handled.1.lastNotified = decodeMeasurement raw ∧ handled.1.lastNotifyMs = nowMs ∧
        handled.2.2 = some ⟨decodeMeasurement raw, p.changedMask, nowMs⟩ := by
  constructor
  · intro hpending nowMs
    simp [getLatest, everValid_of_shouldNotify hpending]
  · intro σ bus s nowMs p handled hpending
    have hp : p = (after config calls).onReadResult
        ((pollRead (after config calls).needsRestart).run bus s).1.1
        ((pollRead (after config calls).needsRestart).run bus s).1.2 nowMs := rfl
    rw [hp] at hpending
    obtain ⟨hread, hever⟩ := (coherent_after config calls).of_shouldNotify hpending
    obtain ⟨err, herr, hresult⟩ | ⟨raw, hcrc, hresult⟩ :=
      pollRead_result (after config calls).needsRestart bus s
    · rw [hresult] at hread
      exact absurd hread herr
    · rw [← hp] at hpending hever
      have hlatest : p.latest = decodeMeasurement raw := by
        rw [hp, hresult, onReadResult_success]
      have hmarked : handled.1 = p.markNotified nowMs := by
        change (notify p nowMs).1 = _
        rw [notify_eq, hpending, hever]
        rfl
      rw [hmarked]
      refine ⟨raw, hcrc, hresult, rfl, rfl, rfl, hlatest, rfl, ?_⟩
      · change (notify p nowMs).2 = _
        rw [notify, hpending, if_pos rfl, Policy.getLatest, hever, if_pos rfl, hlatest]

/-- A first valid frame after a stray marking is pending, and is handed out. -/
theorem pending_never_discarded_stray :
    ((after defaultConfig [.onReadResult 0 { co2 := 400, valid := 256 } 1000,
      .markNotified 500]).getLatest 1000).isSome = true :=
  (pending_never_discarded defaultConfig _).1 (by decide +kernel) 1000

end MeasurementService.Policy
