import Sen66Accessory.MeasurementService.Policy.Calls
import Mathlib.Data.Finset.Insert

open Sen66

namespace MeasurementService

/-- A successful read passes a frame whose mask uses only the nine validity
    bits. The frame passed along with an error is arbitrary. -/
def Call.Framed : Call → Prop
  | .onReadResult err measurement _ => err = 0 → Flags.Within Field measurement.valid
  | .markNotified _ => True

theorem within_lastRead {calls : List Call} (hframed : ∀ call ∈ calls, call.Framed) :
    Flags.Within Field (lastRead calls).valid := by
  induction calls with
  | nil => exact Flags.within_zero
  | cons call earlier ih =>
    have hearlier := ih fun call hcall => hframed call (List.mem_cons_of_mem _ hcall)
    cases call with
    | onReadResult err m nowMs =>
      by_cases herr : err = 0
      · simpa [lastRead, herr] using hframed _ List.mem_cons_self herr
      · simpa [lastRead, herr] using hearlier
    | markNotified nowMs => exact hearlier

theorem within_markedFrame {calls : List Call} (hframed : ∀ call ∈ calls, call.Framed) :
    Flags.Within Field (markedFrame calls).valid := by
  induction calls with
  | nil => exact Flags.within_zero
  | cons call earlier ih =>
    have hrest : ∀ call ∈ earlier, call.Framed :=
      fun call hcall => hframed call (List.mem_cons_of_mem _ hcall)
    cases call with
    | onReadResult err m nowMs => exact ih hrest
    | markNotified nowMs => exact within_lastRead hrest

namespace Policy

/-- A nonzero change mask is always due; an unchanged frame is due only as a
    heartbeat. -/
theorem due_iff (p : Policy) (fresh : Measurement) (nowMs : Int) :
    p.due fresh nowMs = true ↔
      changeMask p.config.thresholds p.lastNotified fresh ≠ 0 ∨
        (fresh.valid ≠ 0 ∨ p.lastNotified.valid ≠ 0) ∧
          nowMs - p.lastNotifyMs ≥ p.config.notifyIntervalMs.toNat := by
  have hmask : changeMask p.config.thresholds p.lastNotified fresh ≠ 0 →
      fresh.valid ≠ 0 ∨ p.lastNotified.valid ≠ 0 := by
    intro hne
    by_contra hnone
    rw [not_or, not_not, not_not] at hnone
    exact hne (changeMask_of_invalid _ hnone.2 hnone.1)
  simp only [due, Bool.and_eq_true, Bool.or_eq_true, bne_iff_ne, decide_eq_true_eq]
  constructor
  · rintro ⟨hopen, hchanged | hinterval⟩
    · exact Or.inl hchanged
    · exact Or.inr ⟨hopen, hinterval⟩
  · rintro (hchanged | ⟨hopen, hinterval⟩)
    · exact ⟨hmask hchanged, Or.inl hchanged⟩
    · exact ⟨hopen, Or.inr hinterval⟩

/-- The decision after any history. A successful read reports exactly the
    channels that changed against the last marked frame, and notifies whenever
    there are any; otherwise only the interval can make it notify. Every other
    call leaves nothing pending. -/
theorem notify_decision_exact (config : PolicyConfig) (calls : List Call)
    (hframed : ∀ call ∈ calls, call.Framed) :
    (∀ (fresh : Measurement) (nowMs : Int), Flags.Within Field fresh.valid →
      let p := after config (.onReadResult 0 fresh nowMs :: calls)
      let changed := changes config.thresholds (markedFrame calls) fresh
      (changed ≠ ∅ → p.shouldNotify = true ∧ p.changedMask = Field.maskOf changed) ∧
      (changed = ∅ → p.changedMask = 0 ∧
        (p.shouldNotify = true → nowMs - markedAt calls ≥ config.notifyIntervalMs.toNat))) ∧
    (∀ (err : Int) (garbage : Measurement) (nowMs : Int), err ≠ 0 →
      let p := after config (.onReadResult err garbage nowMs :: calls)
      p.shouldNotify = false ∧ p.changedMask = 0) ∧
    (∀ nowMs : Int,
      let p := after config (.markNotified nowMs :: calls)
      p.shouldNotify = false ∧ p.changedMask = 0) := by
  refine ⟨?_, ?_, fun _ => ⟨rfl, rfl⟩⟩
  · intro fresh nowMs hfresh
    have hmask := changeMask_eq_maskOf config.thresholds (within_markedFrame hframed) hfresh
    have hzero : changeMask config.thresholds (markedFrame calls) fresh = 0 ↔
        changes config.thresholds (markedFrame calls) fresh = ∅ := by
      rw [hmask, (Field.within_maskOf _).eq_zero_iff, Finset.eq_empty_iff_forall_notMem]
      simp
    have hdue := due_iff (after config calls) fresh nowMs
    simp only [after_config, after_lastNotified, after_lastNotifyMs] at hdue
    simp only [after, apply, onReadResult_success, after_config, after_lastNotified]
    constructor
    · intro hchanged
      exact ⟨hdue.mpr (Or.inl (mt hzero.mp hchanged)), hmask⟩
    · intro hunchanged
      refine ⟨hzero.mpr hunchanged, fun hnotify => ?_⟩
      exact ((hdue.mp hnotify).resolve_left (not_not_intro (hzero.mpr hunchanged))).2
  · intro err garbage nowMs herr
    simp [after, apply, onReadResult_failure _ herr]

/-- A first frame, marked at time 0, then a PM2.5 jump of exactly the threshold
    500 ms later. -/
theorem notify_decision_exact_jump :
    let base : Measurement := { pm2p5 := 150, valid := 2 }
    let jump : Measurement := { pm2p5 := 200, valid := 2 }
    let p := after defaultConfig [.onReadResult 0 jump 500, .markNotified 0, .onReadResult 0 base 0]
    p.shouldNotify = true ∧ p.changedMask = Field.maskOf {.pm2p5} := by
  have hwithin : Flags.Within Field 2 := Flags.within_bit Field.pm2p5
  have hframed : ∀ call ∈ [Call.markNotified 0, .onReadResult 0 { pm2p5 := 150, valid := 2 } 0],
      call.Framed := by
    simp [Call.Framed, hwithin]
  have h := (notify_decision_exact defaultConfig _ hframed).1
    { pm2p5 := 200, valid := 2 } 500 hwithin
  have hchanged : changes defaultConfig.thresholds
      { pm2p5 := 150, valid := 2 } { pm2p5 := 200, valid := 2 } = {Field.pm2p5} := by
    decide +kernel
  simpa [markedFrame, lastRead, hchanged] using h.1

end Policy

end MeasurementService
