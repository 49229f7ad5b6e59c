import Sen66Accessory.MeasurementService.Clock
import Sen66Accessory.MeasurementService.Convergence
import Sen66Accessory.MeasurementService.Heartbeat
import Mathlib.Algebra.BigOperators.Group.Finset.Basic

open Sen66

namespace MeasurementService

/-- The delay that follows a number of failures in a row. -/
def PolicyConfig.delayAfter (config : PolicyConfig) (failures : Nat) : UInt32 :=
  if failures < config.sustained then config.pollIntervalMs
  else config.backoffStepsMs[min (failures - config.sustained) 3]

/-- From the last rung on every delay is the same. -/
theorem PolicyConfig.delayAfter_of_ge (config : PolicyConfig) {failures : Nat}
    (hlast : config.sustained + 3 ≤ failures) :
    config.delayAfter failures = config.backoffStepsMs[3] := by
  have hrung : min (failures - config.sustained) 3 = 3 := by omega
  rw [PolicyConfig.delayAfter, if_neg (by omega)]
  simp only [hrung]

namespace Policy

theorem Laddered.nextDelayMs_eq {p : Policy} {failures : Nat} (h : p.Laddered failures) :
    p.nextDelayMs = p.config.delayAfter failures := by
  by_cases hlow : failures < p.config.sustained
  · have hout : p.inBackoff = false := by
      rw [h.inBackoff, decide_eq_false_iff_not]
      omega
    rw [nextDelayMs, hout, PolicyConfig.delayAfter, if_pos hlow]
    rfl
  · have hin : p.inBackoff = true := by
      rw [h.inBackoff, decide_eq_true_eq]
      omega
    rw [nextDelayMs, hin, PolicyConfig.delayAfter, if_neg hlow]
    simp only [if_true, Fin.getElem_fin, h.step]

theorem Laddered.notify {p : Policy} {failures : Nat} (h : p.Laddered failures) (nowMs : Int) :
    (notify p nowMs).1.Laddered failures := by
  rw [notify_eq]
  split
  · exact ⟨h.counter, h.inBackoff, h.step⟩
  · exact h

/-- A policy that starts anew has no failure behind it. -/
theorem Laddered.fresh {p : Policy} (hcount : p.consecutiveFailures = 0)
    (hout : p.inBackoff = false) (hstep : p.backoffStepIndex = 0) : p.Laddered 0 := by
  have hpos := p.config.sustained_pos
  refine ⟨by rw [hcount]; rfl, ?_, by rw [hstep, Nat.zero_sub]; rfl⟩
  rw [hout, eq_comm, decide_eq_false_iff_not]
  omega

section

variable {config : PolicyConfig} {p₀ : Policy}

/-- The polls in a row that have failed, with a failed start at boot. -/
def failuresInRow (p₀ : Policy) : List Tick → Nat
  | [] => p₀.consecutiveFailures.toNat
  | tick :: earlier =>
    if (afterTicks p₀ earlier).response tick = none then failuresInRow p₀ earlier + 1 else 0

theorem laddered_of_booted (hthreshold : config.failureThreshold.toNat ≤ 2 ^ 32 - 4)
    (hboot : Booted config p₀) : p₀.Laddered p₀.consecutiveFailures.toNat := by
  have hfresh : Policy.Laddered { config } 0 := .fresh rfl rfl rfl
  obtain ⟨answers, uptimeMs, rfl⟩ := hboot
  rw [init]
  dsimp only
  split
  · rename_i herr
    have hfirst := hfresh.fail hthreshold herr {} uptimeMs
    rwa [hfirst.counter]
  · exact hfresh

/-- The backoff of a running service follows from the failures in a row. -/
theorem laddered_afterTicks (hthreshold : config.failureThreshold.toNat ≤ 2 ^ 32 - 4)
    (hboot : Booted config p₀) (ticks : List Tick) :
    (afterTicks p₀ ticks).Laddered (failuresInRow p₀ ticks) := by
  induction ticks with
  | nil => exact laddered_of_booted hthreshold hboot
  | cons tick earlier ih =>
    rw [afterTicks, Policy.tick, failuresInRow]
    apply Laddered.notify
    cases h : (afterTicks p₀ earlier).response tick with
    | none =>
      obtain ⟨err, herr, hread⟩ := read_of_no_response h
      rw [hread, if_pos rfl]
      exact ih.fail (by rwa [afterTicks_config, hboot.config_eq]) herr {} tick.nowMs
    | some raw =>
      rw [read_of_response h, onReadResult_success, if_neg (Option.some_ne_none raw)]
      exact .fresh rfl rfl rfl

theorem nextDelayMs_afterTicks (hthreshold : config.failureThreshold.toNat ≤ 2 ^ 32 - 4)
    (hboot : Booted config p₀) (ticks : List Tick) :
    (afterTicks p₀ ticks).nextDelayMs = config.delayAfter (failuresInRow p₀ ticks) := by
  rw [(laddered_afterTicks hthreshold hboot ticks).nextDelayMs_eq, afterTicks_config,
    hboot.config_eq]

/-- The polls of a history, newest first, keep to the delays the policy asks for:
    none reads earlier, and none later than by a slack. -/
def Paced (p₀ : Policy) (slack : Nat) : List Tick → Prop
  | [] => True
  | tick :: earlier =>
    Paced p₀ slack earlier ∧ ∀ previous, earlier.head? = some previous →
      previous.nowMs + (afterTicks p₀ earlier).nextDelayMs.toNat ≤ tick.nowMs ∧
      tick.nowMs ≤ previous.nowMs + (afterTicks p₀ earlier).nextDelayMs.toNat + slack

/-- A stretch of polls that all fail, newest first, with the history before it. -/
def Failing (p₀ : Policy) (before : List Tick) : List Tick → Prop
  | [] => True
  | tick :: stretch =>
    (afterTicks p₀ (stretch ++ before)).response tick = none ∧ Failing p₀ before stretch

theorem Failing.failuresInRow_eq {before stretch : List Tick} (h : Failing p₀ before stretch) :
    failuresInRow p₀ (stretch ++ before) = failuresInRow p₀ before + stretch.length := by
  induction stretch with
  | nil => rfl
  | cons tick stretch ih =>
    rw [List.cons_append, failuresInRow, if_pos h.1, ih h.2, List.length_cons, Nat.add_assoc]

end

end Policy

/-- What the ladder makes a number of failures after some others last. -/
def PolicyConfig.ladderMs (config : PolicyConfig) (failures polls : Nat) : Nat :=
  ∑ i ∈ Finset.range polls, (config.delayAfter (failures + i)).toNat

theorem PolicyConfig.ladderMs_succ (config : PolicyConfig) (failures polls : Nat) :
    config.ladderMs failures (polls + 1) =
      config.ladderMs failures polls + (config.delayAfter (failures + polls)).toNat :=
  Finset.sum_range_succ _ _

/-- Every poll beyond the last rung takes its whole delay. -/
theorem PolicyConfig.le_ladderMs (config : PolicyConfig) (failures polls : Nat) :
    (polls - (config.sustained + 3 - failures)) * config.backoffStepsMs[3].toNat ≤
      config.ladderMs failures polls := by
  induction polls with
  | zero => simp
  | succ polls ih =>
    rw [config.ladderMs_succ]
    by_cases hlast : config.sustained + 3 ≤ failures + polls
    · rw [config.delayAfter_of_ge hlast, show polls + 1 - (config.sustained + 3 - failures) =
        polls - (config.sustained + 3 - failures) + 1 by omega, Nat.succ_mul]
      exact Nat.add_le_add_right ih _
    · rw [show polls + 1 - (config.sustained + 3 - failures) = 0 by omega, Nat.zero_mul]
      exact Nat.zero_le _

namespace Policy

variable {config : PolicyConfig} {p₀ : Policy}

/-- Polls that all fail but for the newest, which may end the outage, take the
    delays after the failures so far, each with some slack. -/
theorem Paced.elapsed (hthreshold : config.failureThreshold.toNat ≤ 2 ^ 32 - 4)
    (hboot : Booted config p₀) {slack : Nat} {stretch before : List Tick} {start : Tick}
    (hpaced : Paced p₀ slack (stretch ++ start :: before))
    (hfailing : Failing p₀ (start :: before) stretch.tail) :
    let ladder := config.ladderMs (failuresInRow p₀ (start :: before)) stretch.length
    start.nowMs + ladder ≤ (stretch.head?.getD start).nowMs ∧
    (stretch.head?.getD start).nowMs ≤ start.nowMs + ladder + stretch.length * slack := by
  induction stretch with
  | nil => simp [PolicyConfig.ladderMs]
  | cons tick stretch ih =>
    have hpaced : Paced p₀ slack (tick :: (stretch ++ start :: before)) := hpaced
    have hfailing : Failing p₀ (start :: before) stretch := hfailing
    have hearlier : Failing p₀ (start :: before) stretch.tail := by
      cases stretch with
      | nil => trivial
      | cons previous stretch => exact hfailing.2
    obtain ⟨hlow, hhigh⟩ := ih hpaced.1 hearlier
    have hhead : (stretch ++ start :: before).head? = some (stretch.head?.getD start) := by
      cases stretch <;> rfl
    have hdelay : (afterTicks p₀ (stretch ++ start :: before)).nextDelayMs =
        config.delayAfter (failuresInRow p₀ (start :: before) + stretch.length) := by
      rw [nextDelayMs_afterTicks hthreshold hboot, hfailing.failuresInRow_eq]
    obtain ⟨hearly, hlate⟩ := hpaced.2 _ hhead
    rw [hdelay] at hearly hlate
    rw [List.head?_cons, Option.getD_some, List.length_cons, config.ladderMs_succ]
    push_cast
    rw [Int.add_mul, Int.one_mul]
    constructor <;> omega

/-- An outage in real time. From any poll on, the polls up to the first success
    come when the backoff ladder says after the failures so far, with some slack
    for each; and from its last rung on a failing sensor costs no more than one poll
    for the longest delay. -/
theorem outage_paced (hthreshold : config.failureThreshold.toNat ≤ 2 ^ 32 - 4)
    (hboot : Booted config p₀) {slack : Nat} {stretch before : List Tick} {start : Tick}
    (hpaced : Paced p₀ slack (stretch ++ start :: before))
    (hfailing : Failing p₀ (start :: before) stretch.tail) :
    let failures := failuresInRow p₀ (start :: before)
    let elapsed := (stretch.head?.getD start).nowMs - start.nowMs
    config.ladderMs failures stretch.length ≤ elapsed ∧
    elapsed ≤ config.ladderMs failures stretch.length + stretch.length * slack ∧
    ((stretch.length - (config.sustained + 3 - failures) : Nat) : Int) *
      config.backoffStepsMs[3].toNat ≤ elapsed := by
  intro failures elapsed
  obtain ⟨hlow, hhigh⟩ := hpaced.elapsed hthreshold hboot hfailing
  have hladder : (config.ladderMs failures stretch.length : Int) ≤ elapsed := by
    simp only [elapsed, failures]
    omega
  refine ⟨hladder, ?_, le_trans ?_ hladder⟩
  · simp only [elapsed, failures]
    omega
  · exact_mod_cast config.le_ladderMs failures stretch.length

/-- A poll that gets no answer. -/
def unanswered (nowMs : Int) : Tick := ⟨⟨-5, -5, -5, Frame.warmUp.raw⟩, nowMs⟩

/-- A poll that reads a frame with every channel valid. -/
def answered (nowMs : Int) : Tick := .ofFrame (.encode fun _ => 100) nowMs

/-- Three polls without an answer. The last of them begins the backoff. -/
def brokenOff : List Tick := [unanswered 4000, unanswered 3000, unanswered 2000]

theorem failing_brokenOff : Failing cleanBoot [answered 1000] brokenOff :=
  ⟨by decide +kernel, by decide +kernel, by decide +kernel, trivial⟩

theorem paced_brokenOff : Paced cleanBoot 0 (answered 6000 :: (brokenOff ++ [answered 1000])) := by
  refine ⟨⟨⟨⟨⟨trivial, nofun⟩, ?_⟩, ?_⟩, ?_⟩, ?_⟩
  all_goals
    rintro _ ⟨⟩
    decide +kernel

/-- The next answer comes 5 s after the one before the outage: after three poll
    intervals and the first step of the backoff. -/
theorem outage_paced_brokenOff :
    (defaultConfig.ladderMs (failuresInRow cleanBoot [answered 1000]) 4 : Int) = 6000 - 1000 := by
  have hpaced : Paced cleanBoot 0 ((answered 6000 :: brokenOff) ++ [answered 1000]) :=
    paced_brokenOff
  obtain ⟨hlow, hhigh, _⟩ := outage_paced (by decide) booted_cleanBoot hpaced failing_brokenOff
  refine le_antisymm hlow (hhigh.trans_eq ?_)
  rw [show ((0 : Nat) : Int) = 0 from rfl, Int.mul_zero, Int.add_zero]
  rfl

/-- Failing polls notify nobody. -/
theorem Failing.notifications_eq (hblank : p₀.Blank) {before stretch : List Tick}
    (h : Failing p₀ before stretch) :
    notifications p₀ (stretch ++ before) = notifications p₀ before := by
  induction stretch with
  | nil => rfl
  | cons tick stretch ih =>
    obtain ⟨raw, _, hresponse, _⟩ | ⟨_, hcons⟩ :=
      notifications_cons hblank tick (stretch ++ before)
    · cases h.1.symm.trans hresponse
    · rw [List.cons_append, hcons, ih h.2]

/-- The age of what was notified last, in real time. At any poll that follows a
    reading with a valid channel and then so many failed polls, the newest
    notification is no older than a notify interval, less a millisecond, and the
    delays since that reading: within the poll interval while no poll fails. -/
theorem notification_age (hthreshold : config.failureThreshold.toNat ≤ 2 ^ 32 - 4)
    (hboot : Booted config p₀) {slack : Nat} {tick start : Tick} {stretch before : List Tick}
    (hpaced : Paced p₀ slack (tick :: (stretch ++ start :: before)))
    {raw : Vector UInt8 kMeasurementBytes} (hresponse : (afterTicks p₀ before).response start = some raw)
    (hvalid : (decodeMeasurement raw).valid ≠ 0) (hfailing : Failing p₀ (start :: before) stretch) :
    ∃ last, (notifications p₀ (stretch ++ start :: before)).head? = some last ∧
      tick.nowMs - last.nowMs ≤ (config.notifyIntervalMs.toNat - 1 : Nat) +
        config.ladderMs 0 (stretch.length + 1) + (stretch.length + 1 : Nat) * slack := by
  have hblank := hboot.blank
  have hread := tick_accepted (coherent_afterTicks hblank before) hresponse
  have hlatest : (afterTicks p₀ (start :: before)).latest.valid ≠ 0 := by
    rw [afterTicks, hread.latest]
    exact hvalid
  have hever : (afterTicks p₀ (start :: before)).everValid = true := by
    rw [afterTicks, hread.everValid]
    simpa using Or.inr hvalid
  obtain ⟨last, hlast⟩ := notified_of_everValid hblank _ hever
  have hfresh := lastUpdateMs_sub_lastNotifyMs_le hblank _ hlatest
  rw [(afterTicks_notified hblank (start :: before)).2, hlast, afterTicks, hread.lastUpdateMs,
    hboot.config_eq, Option.map_some, Option.getD_some] at hfresh
  have hnone : failuresInRow p₀ (start :: before) = 0 := by
    rw [failuresInRow, hresponse, if_neg (Option.some_ne_none raw)]
  have hstretch : Paced p₀ slack ((tick :: stretch) ++ start :: before) := hpaced
  have helapsed := (hstretch.elapsed hthreshold hboot hfailing).2
  rw [hnone, List.head?_cons, Option.getD_some, List.length_cons] at helapsed
  refine ⟨last, by rw [hfailing.notifications_eq hblank, hlast], ?_⟩
  omega

/-- By then the newest notification is at most 12 s old. -/
theorem notification_age_brokenOff :
    ∃ last, (notifications cleanBoot (brokenOff ++ [answered 1000])).head? = some last ∧
      6000 - last.nowMs ≤ (6999 + defaultConfig.ladderMs 0 4 + 4 * 0 : Nat) := by
  obtain ⟨last, hlast, hage⟩ := notification_age (by decide) booted_cleanBoot paced_brokenOff
    (show (afterTicks cleanBoot []).response (answered 1000) =
      some (Frame.encode fun _ => 100).raw by decide +kernel) (by decide +kernel) failing_brokenOff
  exact ⟨last, hlast, hage⟩

end Policy

end MeasurementService
