import Sen66Accessory.MeasurementService.Tick
import Sen66Accessory.Sen66.Encoding

open Sen66

namespace MeasurementService

/-- The policy `Init` leaves for the first poll, whatever the start command
    came back with. -/
def Booted (config : PolicyConfig) (p : Policy) : Prop :=
  ∃ (answers : Answers) (uptimeMs : Int), p = (init config Answers.bus answers uptimeMs).1

/-- The policy of a clean boot. -/
def cleanBoot : Policy := (init defaultConfig Answers.bus ⟨0, 0, 0, Frame.warmUp.raw⟩ 0).1

theorem booted_cleanBoot : Booted defaultConfig cleanBoot := ⟨_, _, rfl⟩

/-- A poll in which every transaction succeeds and the frame is read. -/
def Tick.ofFrame (frame : Frame) (nowMs : Int) : Tick := ⟨⟨0, 0, 0, frame.raw⟩, nowMs⟩

/-- An accepted response and the uptime recorded for it. -/
structure Reading where
  raw : Vector UInt8 kMeasurementBytes
  readMs : Int
  deriving DecidableEq

def Reading.frame (reading : Reading) : Measurement := decodeMeasurement reading.raw

namespace Policy

/-- The policy after a history of polls, newest first. -/
def afterTicks (p₀ : Policy) : List Tick → Policy
  | [] => p₀
  | tick :: earlier => (afterTicks p₀ earlier).tick tick

/-- The successful reads of a history, newest first. -/
def readings (p₀ : Policy) : List Tick → List Reading
  | [] => []
  | tick :: earlier =>
    match (afterTicks p₀ earlier).response tick with
    | some raw => ⟨raw, tick.nowMs⟩ :: readings p₀ earlier
    | none => readings p₀ earlier

/-- The notifications of a history, newest first. -/
def notifications (p₀ : Policy) : List Tick → List Notification
  | [] => []
  | tick :: earlier =>
    match (notify ((afterTicks p₀ earlier).read tick) tick.nowMs).2 with
    | some notification => notification :: notifications p₀ earlier
    | none => notifications p₀ earlier

/-- Before the first poll nothing has been read or notified. -/
structure Blank (p : Policy) : Prop where
  latest : p.latest = {}
  everValid : p.everValid = false
  lastUpdateMs : p.lastUpdateMs = 0
  lastNotified : p.lastNotified = {}
  lastNotifyMs : p.lastNotifyMs = 0

end Policy

theorem Booted.blank {config : PolicyConfig} {p : Policy} (h : Booted config p) : p.Blank := by
  obtain ⟨answers, uptimeMs, rfl⟩ := h
  simp only [init]
  split
  · rename_i herr
    rw [Policy.onReadResult_failure _ herr]
    exact ⟨rfl, rfl, rfl, rfl, rfl⟩
  · exact ⟨rfl, rfl, rfl, rfl, rfl⟩

theorem Booted.config_eq {config : PolicyConfig} {p : Policy} (h : Booted config p) :
    p.config = config := by
  obtain ⟨answers, uptimeMs, rfl⟩ := h
  exact init_config _ _ _ _

namespace Policy

theorem Blank.coherent {p : Policy} (h : p.Blank) : p.Coherent := by
  constructor
  · intro _
    rw [h.latest]
  · intro _
    rw [h.lastNotified]

section

variable {p₀ : Policy}

theorem readings_of_response {ticks : List Tick} {tick : Tick}
    {raw : Vector UInt8 kMeasurementBytes} (h : (afterTicks p₀ ticks).response tick = some raw) :
    readings p₀ (tick :: ticks) = ⟨raw, tick.nowMs⟩ :: readings p₀ ticks := by
  simp only [readings, h]

theorem readings_of_no_response {ticks : List Tick} {tick : Tick}
    (h : (afterTicks p₀ ticks).response tick = none) :
    readings p₀ (tick :: ticks) = readings p₀ ticks := by
  simp only [readings, h]

/-- Every reading passed the CRC check. -/
theorem crc_of_mem_readings {ticks : List Tick} {reading : Reading}
    (hmem : reading ∈ readings p₀ ticks) :
    checkWordsCrc kMeasurementWords reading.raw = true := by
  induction ticks with
  | nil => cases hmem
  | cons tick earlier ih =>
    cases h : (afterTicks p₀ earlier).response tick with
    | none => exact ih (by rwa [readings_of_no_response h] at hmem)
    | some raw =>
      rw [readings_of_response h, List.mem_cons] at hmem
      rcases hmem with rfl | hmem
      · exact Answers.crc_of_response h
      · exact ih hmem

@[simp] theorem afterTicks_config (p₀ : Policy) (ticks : List Tick) :
    (afterTicks p₀ ticks).config = p₀.config := by
  induction ticks with
  | nil => rfl
  | cons tick earlier ih =>
    rw [afterTicks, Policy.tick, notify_config, Policy.read, readTick, onReadResult_config, ih]

theorem coherent_afterTicks (hblank : p₀.Blank) (ticks : List Tick) :
    (afterTicks p₀ ticks).Coherent := by
  induction ticks with
  | nil => exact hblank.coherent
  | cons tick earlier ih => exact ih.tick tick

/-- The policy's data is that of the newest successful read. -/
theorem afterTicks_data (hblank : p₀.Blank) (ticks : List Tick) :
    (afterTicks p₀ ticks).latest = ((readings p₀ ticks).head?.map Reading.frame).getD {} ∧
    (afterTicks p₀ ticks).everValid = (readings p₀ ticks).any (fun r => r.frame.valid != 0) ∧
    (afterTicks p₀ ticks).lastUpdateMs = ((readings p₀ ticks).head?.map Reading.readMs).getD 0 := by
  induction ticks with
  | nil => exact ⟨hblank.latest, hblank.everValid, hblank.lastUpdateMs⟩
  | cons tick earlier ih =>
    cases h : (afterTicks p₀ earlier).response tick with
    | none =>
      have hnext := tick_rejected h
      rw [readings_of_no_response h, afterTicks, hnext.latest, hnext.everValid, hnext.lastUpdateMs]
      exact ih
    | some raw =>
      have hnext := tick_accepted (coherent_afterTicks hblank earlier) h
      rw [readings_of_response h, afterTicks, hnext.latest, hnext.everValid, hnext.lastUpdateMs,
        ih.2.1]
      exact ⟨rfl, Bool.or_comm _ _, rfl⟩

/-- A poll that notifies passes on its own frame; no other poll adds a
    notification. -/
theorem notifications_cons_of_coherent {earlier : List Tick}
    (hcoherent : (afterTicks p₀ earlier).Coherent) (tick : Tick) :
    (∃ raw mask, (afterTicks p₀ earlier).response tick = some raw ∧
      (afterTicks p₀ earlier).notifies tick = true ∧
      notifications p₀ (tick :: earlier) =
        ⟨decodeMeasurement raw, mask, tick.nowMs⟩ :: notifications p₀ earlier) ∨
    (afterTicks p₀ earlier).notifies tick = false ∧
      notifications p₀ (tick :: earlier) = notifications p₀ earlier := by
  cases h : (afterTicks p₀ earlier).response tick with
  | none =>
    have hquiet := notifies_of_no_response h
    refine Or.inr ⟨hquiet, ?_⟩
    rw [notifies, Option.isSome_eq_false_iff, Option.isNone_iff_eq_none] at hquiet
    simp only [notifications, hquiet]
  | some raw =>
    have hnext := tick_accepted hcoherent h
    cases hnotifies : (afterTicks p₀ earlier).notifies tick with
    | false =>
      refine Or.inr ⟨rfl, ?_⟩
      rw [notifies, Option.isSome_eq_false_iff, Option.isNone_iff_eq_none] at hnotifies
      simp only [notifications, hnotifies]
    | true =>
      obtain ⟨mask, hnotify⟩ := notify_of_isSome hnotifies
      have hlatest : ((afterTicks p₀ earlier).read tick).latest = decodeMeasurement raw := by
        rw [← hnext.latest, Policy.tick, notify_latest]
      refine Or.inl ⟨raw, mask, rfl, rfl, ?_⟩
      simp only [notifications, hnotify, hlatest]

theorem notifications_cons (hblank : p₀.Blank) (tick : Tick) (earlier : List Tick) :
    (∃ raw mask, (afterTicks p₀ earlier).response tick = some raw ∧
      (afterTicks p₀ earlier).notifies tick = true ∧
      notifications p₀ (tick :: earlier) =
        ⟨decodeMeasurement raw, mask, tick.nowMs⟩ :: notifications p₀ earlier) ∨
    (afterTicks p₀ earlier).notifies tick = false ∧
      notifications p₀ (tick :: earlier) = notifications p₀ earlier :=
  notifications_cons_of_coherent (coherent_afterTicks hblank earlier) tick

/-- The frame and the time of the newest notification are the policy's record
    of it. -/
theorem afterTicks_notified (hblank : p₀.Blank) (ticks : List Tick) :
    (afterTicks p₀ ticks).lastNotified =
      ((notifications p₀ ticks).head?.map Notification.snapshot).getD {} ∧
    (afterTicks p₀ ticks).lastNotifyMs =
      ((notifications p₀ ticks).head?.map Notification.nowMs).getD 0 := by
  induction ticks with
  | nil => exact ⟨hblank.lastNotified, hblank.lastNotifyMs⟩
  | cons tick earlier ih =>
    obtain ⟨raw, mask, hresponse, hnotifies, hcons⟩ | ⟨hquiet, hcons⟩ :=
      notifications_cons hblank tick earlier
    · have hnext := tick_accepted (coherent_afterTicks hblank earlier) hresponse
      rw [hcons, afterTicks, hnext.lastNotified, hnext.lastNotifyMs, hnotifies]
      exact ⟨rfl, rfl⟩
    · rw [hcons, afterTicks]
      cases h : (afterTicks p₀ earlier).response tick with
      | none =>
        have hnext := tick_rejected h
        rw [hnext.lastNotified, hnext.lastNotifyMs]
        exact ih
      | some raw =>
        have hnext := tick_accepted (coherent_afterTicks hblank earlier) h
        rw [hnext.lastNotified, hnext.lastNotifyMs, hquiet]
        exact ih

end

end Policy

end MeasurementService
