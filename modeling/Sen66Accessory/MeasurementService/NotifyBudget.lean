import Sen66Accessory.Deadband
import Sen66Accessory.MeasurementService.History
import Sen66Accessory.MeasurementService.Policy.Notify
import Mathlib.Algebra.Order.Field.Rat
import Mathlib.Algebra.Order.Field.Basic
import Mathlib.Algebra.Order.BigOperators.Group.Finset
import Mathlib.Tactic.Linarith

open Sen66 Deadband

namespace MeasurementService

/-- What a notification is judged by. -/
structure Sample where
  frame : Measurement
  nowMs : Int

namespace Policy

/-- The successful reads of a history as samples, newest first. -/
def samples (p : Policy) (ticks : List Tick) : List Sample :=
  (p.readings ticks).map fun reading => ⟨reading.frame, reading.readMs⟩

/-- The sample notified last. -/
def notified (p : Policy) : Sample := ⟨p.lastNotified, p.lastNotifyMs⟩

/-- Whether a sample calls for a notification against the one notified last. -/
def dueAgainst (config : PolicyConfig) (reference fresh : Sample) : Bool :=
  due { config, lastNotified := reference.frame, lastNotifyMs := reference.nowMs } fresh.frame
    fresh.nowMs

theorem Coherent.afterTicks {p : Policy} (hp : p.Coherent) (ticks : List Tick) :
    (p.afterTicks ticks).Coherent := by
  induction ticks with
  | nil => exact hp
  | cons tick earlier ih => exact ih.tick tick

theorem afterTicks_append (p : Policy) (newer earlier : List Tick) :
    p.afterTicks (newer ++ earlier) = (p.afterTicks earlier).afterTicks newer := by
  induction newer with
  | nil => rfl
  | cons tick newer ih => rw [List.cons_append, Policy.afterTicks, Policy.afterTicks, ih]

theorem notifications_append (p : Policy) (newer earlier : List Tick) :
    p.notifications (newer ++ earlier) =
      (p.afterTicks earlier).notifications newer ++ p.notifications earlier := by
  induction newer with
  | nil => rfl
  | cons tick newer ih =>
    simp only [List.cons_append, notifications, afterTicks_append, ih]
    cases (notify (((p.afterTicks earlier).afterTicks newer).read tick) tick.nowMs).2 <;> rfl

/-- The notifications of a run are the samples that call for one, each judged
    against the last. -/
theorem Coherent.notifications_eq {p : Policy} (hp : p.Coherent) (ticks : List Tick) :
    (p.afterTicks ticks).notified =
      reference (dueAgainst p.config) p.notified (p.samples ticks) ∧
    (p.notifications ticks).map (fun n => Sample.mk n.snapshot n.nowMs) =
      reports (dueAgainst p.config) p.notified (p.samples ticks) := by
  induction ticks with
  | nil => exact ⟨rfl, rfl⟩
  | cons tick earlier ih =>
    obtain ⟨hreference, hreports⟩ := ih
    have hcoherent := hp.afterTicks earlier
    cases h : (p.afterTicks earlier).response tick with
    | none =>
      have hnext := tick_rejected h
      have hsamples : p.samples (tick :: earlier) = p.samples earlier := by
        rw [samples, readings_of_no_response h, ← samples]
      have hnotified : (p.afterTicks (tick :: earlier)).notified = (p.afterTicks earlier).notified := by
        rw [Policy.afterTicks, Policy.notified, hnext.lastNotified, hnext.lastNotifyMs, ← Policy.notified]
      obtain ⟨_, _, hresponse, _⟩ | ⟨_, hcons⟩ := notifications_cons_of_coherent hcoherent tick
      · cases h.symm.trans hresponse
      rw [hsamples, hcons, hnotified]
      exact ⟨hreference, hreports⟩
    | some raw =>
      have hnext := tick_accepted hcoherent h
      have hdue : (p.afterTicks earlier).notifies tick =
          dueAgainst p.config (reference (dueAgainst p.config) p.notified (p.samples earlier))
            ⟨decodeMeasurement raw, tick.nowMs⟩ := by
        rw [notifies_of_response hcoherent h, ← hreference, dueAgainst, due, due, afterTicks_config]
        rfl
      have hsamples : p.samples (tick :: earlier) =
          ⟨decodeMeasurement raw, tick.nowMs⟩ :: p.samples earlier := by
        rw [samples, readings_of_response h]
        rfl
      have hnotified : (p.afterTicks (tick :: earlier)).notified =
          if (p.afterTicks earlier).notifies tick then ⟨decodeMeasurement raw, tick.nowMs⟩
          else (p.afterTicks earlier).notified := by
        rw [Policy.afterTicks, Policy.notified, hnext.lastNotified, hnext.lastNotifyMs]
        split <;> rfl
      rw [hsamples, reference, reports, ← hdue, hnotified]
      obtain ⟨raw', mask, hresponse, hnotifies, hcons⟩ | ⟨hquiet, hcons⟩ :=
        notifications_cons_of_coherent hcoherent tick
      · cases h.symm.trans hresponse
        rw [hnotifies, hcons, List.map_cons, hreports]
        exact ⟨rfl, rfl⟩
      · rw [hquiet, hcons, hreports]
        exact ⟨hreference, rfl⟩

end Policy

/-- How far a channel moved from one frame to another, in thresholds and at
    most one. A flip of its validity counts as one. -/
def moved (t : ChangeThresholds) (f : Field) (a b : Measurement) : ℚ :=
  if a.has f = b.has f then
    if a.has f then min 1 ((b.raw f - a.raw f).natAbs / (t.of f).toNat) else 0
  else 1

/-- How much time passed, in notify intervals and at most one. -/
def elapsed (config : PolicyConfig) (a b : Int) : ℚ :=
  min 1 ((b - a).natAbs / config.notifyIntervalMs.toNat)

/-- What a sample is worth against an earlier one. -/
def worth (config : PolicyConfig) (a b : Sample) : ℚ :=
  elapsed config a.nowMs b.nowMs + ∑ f, moved config.thresholds f a.frame b.frame

theorem moved_self (t : ChangeThresholds) (f : Field) (a : Measurement) : moved t f a a = 0 := by
  simp [moved]

theorem moved_nonneg (t : ChangeThresholds) (f : Field) (a b : Measurement) : 0 ≤ moved t f a b := by
  unfold moved
  split
  · split
    · positivity
    · rfl
  · exact zero_le_one

theorem moved_le_one (t : ChangeThresholds) (f : Field) (a b : Measurement) : moved t f a b ≤ 1 := by
  unfold moved
  split
  · split
    · exact min_le_left 1 _
    · exact zero_le_one
  · rfl

theorem moved_triangle (t : ChangeThresholds) (f : Field) (a b c : Measurement) :
    moved t f a c ≤ moved t f a b + moved t f b c := by
  by_cases hab : a.has f = b.has f
  · by_cases hbc : b.has f = c.has f
    · cases ha : a.has f with
      | false => simp [moved, ← hbc, ← hab, ha]
      | true =>
        simp only [moved, ← hbc, ← hab, ha, if_true]
        refine min_one_triangle ?_ (by positivity) (by positivity)
        rw [← add_div]
        gcongr
        have hway : (c.raw f - a.raw f).natAbs ≤
            (b.raw f - a.raw f).natAbs + (c.raw f - b.raw f).natAbs := by omega
        exact_mod_cast hway
    · have hflip : moved t f b c = 1 := if_neg hbc
      rw [hflip]
      exact (moved_le_one t f a c).trans (le_add_of_nonneg_left (moved_nonneg t f a b))
  · have hflip : moved t f a b = 1 := if_neg hab
    rw [hflip]
    exact (moved_le_one t f a c).trans (le_add_of_nonneg_right (moved_nonneg t f b c))

theorem worth_self (config : PolicyConfig) (a : Sample) : worth config a a = 0 := by
  simp [worth, elapsed, moved_self]

theorem worth_nonneg (config : PolicyConfig) (a b : Sample) : 0 ≤ worth config a b := by
  refine add_nonneg ?_ (Finset.sum_nonneg fun f _ => moved_nonneg _ f a.frame b.frame)
  unfold elapsed
  positivity

theorem worth_triangle (config : PolicyConfig) (a b c : Sample) :
    worth config a c ≤ worth config a b + worth config b c := by
  have htime : elapsed config a.nowMs c.nowMs ≤ elapsed config a.nowMs b.nowMs + elapsed config b.nowMs c.nowMs := by
    refine min_one_triangle ?_ (by positivity) (by positivity)
    rw [← add_div]
    gcongr
    have hway : (c.nowMs - a.nowMs).natAbs ≤ (b.nowMs - a.nowMs).natAbs + (c.nowMs - b.nowMs).natAbs := by omega
    exact_mod_cast hway
  calc worth config a c
    _ ≤ _ := add_le_add htime (Finset.sum_le_sum fun f _ => moved_triangle _ f a.frame b.frame c.frame)
    _ = _ := by rw [Finset.sum_add_distrib, worth, worth, add_add_add_comm]

/-- A changed channel is worth a notification of its own. -/
theorem moved_of_mem_changes {t : ChangeThresholds} {f : Field}
    (hpositive : 0 < (t.of f).toNat) {a b : Measurement} (hchanged : f ∈ changes t a b) :
    moved t f a b = 1 := by
  rcases mem_changes.mp hchanged with hflip | ⟨ha, hb, hlarge⟩
  · exact if_neg hflip
  · rw [moved, if_pos (ha.trans hb.symm), if_pos ha, min_eq_left]
    rw [le_div_iff₀ (by exact_mod_cast hpositive), one_mul]
    exact_mod_cast hlarge

/-- A notification is worth at least one. -/
theorem one_le_worth {config : PolicyConfig} (hinterval : 0 < config.notifyIntervalMs.toNat)
    (hpositive : ∀ f, 0 < (config.thresholds.of f).toNat) {a b : Sample}
    (ha : Flags.Within Field a.frame.valid) (hb : Flags.Within Field b.frame.valid)
    (hdue : Policy.dueAgainst config a b = true) : 1 ≤ worth config a b := by
  have hmoves : 0 ≤ ∑ f, moved config.thresholds f a.frame b.frame :=
    Finset.sum_nonneg fun f _ => moved_nonneg _ f a.frame b.frame
  have htime : 0 ≤ elapsed config a.nowMs b.nowMs := by unfold elapsed; positivity
  rcases (Policy.due_iff _ _ _).mp hdue with hchanged | ⟨_, hlate⟩
  · rw [changeMask_eq_maskOf _ ha hb] at hchanged
    obtain ⟨f, hf⟩ : (changes config.thresholds a.frame b.frame).Nonempty := by
      rw [Finset.nonempty_iff_ne_empty]
      intro hempty
      exact hchanged (by rw [hempty]; rfl)
    calc (1 : ℚ)
      _ = moved config.thresholds f a.frame b.frame := (moved_of_mem_changes (hpositive f) hf).symm
      _ ≤ ∑ f, moved config.thresholds f a.frame b.frame :=
        Finset.single_le_sum (fun f _ => moved_nonneg _ f a.frame b.frame) (Finset.mem_univ f)
      _ ≤ worth config a b := le_add_of_nonneg_left htime
  · have hfull : elapsed config a.nowMs b.nowMs = 1 := by
      rw [elapsed, min_eq_left]
      rw [le_div_iff₀ (by exact_mod_cast hinterval), one_mul]
      have hlate : config.notifyIntervalMs.toNat ≤ (b.nowMs - a.nowMs).natAbs := by
        dsimp only at hlate
        omega
      exact_mod_cast hlate
    rw [worth, hfull]
    exact le_add_of_nonneg_right hmoves

/-- A frame less than half a threshold away from an operating point on every
    valid channel. -/
structure Around (t : ChangeThresholds) (center m : Measurement) : Prop where
  valid_eq : m.valid = center.valid
  raw_lt : ∀ f, center.has f = true → 2 * (m.raw f - center.raw f).natAbs < (t.of f).toNat

/-- Two frames around one operating point show nothing new against each other. -/
theorem Around.settled {t : ChangeThresholds} {center a b : Measurement} (ha : Around t center a)
    (hb : Around t center b) : Settled t a b := by
  refine ⟨hb.valid_eq.trans ha.valid_eq.symm, fun f hf => ?_⟩
  rw [Measurement.has, ha.valid_eq] at hf
  have hnear := ha.raw_lt f hf
  have hnear' := hb.raw_lt f hf
  omega

namespace Policy

section

variable {config : PolicyConfig} {p₀ : Policy}

theorem within_lastNotified (hblank : p₀.Blank) (ticks : List Tick) :
    Flags.Within Field (afterTicks p₀ ticks).lastNotified.valid := by
  induction ticks with
  | nil =>
    rw [afterTicks, hblank.lastNotified]
    exact Flags.within_zero
  | cons tick earlier ih =>
    rw [afterTicks]
    cases h : (afterTicks p₀ earlier).response tick with
    | none => rwa [(tick_rejected h).lastNotified]
    | some raw =>
      rw [(tick_accepted (coherent_afterTicks hblank earlier) h).lastNotified]
      split
      · exact within_decodeMeasurement raw
      · exact ih

theorem samples_frame {p : Policy} {ticks : List Tick} {sample : Sample}
    (hsample : sample ∈ p.samples ticks) :
    ∃ reading ∈ p.readings ticks, sample = ⟨reading.frame, reading.readMs⟩ := by
  obtain ⟨reading, hmem, rfl⟩ := List.mem_map.mp hsample
  exact ⟨reading, hmem, rfl⟩

/-- The sensor pays for what Matter is told. Over any stretch of any run the
    service sends at most as many notifications as the frames it read are worth
    from one to the next: every channel at most one for a flip of its validity
    and otherwise its move in thresholds, and the time in notify intervals. -/
theorem notifications_length_le (hboot : Booted config p₀)
    (hinterval : 0 < config.notifyIntervalMs.toNat)
    (hpositive : ∀ f, 0 < (config.thresholds.of f).toNat) (newer earlier : List Tick) :
    ((notifications p₀ (newer ++ earlier)).length : ℚ) ≤ (notifications p₀ earlier).length +
      pathLength (worth config) (afterTicks p₀ earlier).notified
        (samples (afterTicks p₀ earlier) newer) := by
  have hblank := hboot.blank
  have hconfig : (afterTicks p₀ earlier).config = config := by
    rw [afterTicks_config, hboot.config_eq]
  obtain ⟨_, hreports⟩ := (coherent_afterTicks hblank earlier).notifications_eq newer
  rw [hconfig] at hreports
  have hframes : ∀ sample ∈ samples (afterTicks p₀ earlier) newer,
      Flags.Within Field sample.frame.valid := by
    intro sample hsample
    obtain ⟨reading, _, rfl⟩ := samples_frame hsample
    exact within_decodeMeasurement reading.raw
  have hstart : Flags.Within Field (notified (afterTicks p₀ earlier)).frame.valid :=
    within_lastNotified hblank earlier
  have hbudget := (nsmul_length_reports_le (worth config) (worth_self config)
    (worth_triangle config) (fun _ _ => one_le_worth hinterval hpositive) hstart hframes).2
  rw [← hreports, List.length_map, nsmul_one] at hbudget
  rw [notifications_append, List.length_append, Nat.cast_add, add_comm]
  gcongr
  exact (le_add_of_nonneg_right (worth_nonneg config _ _)).trans hbudget

/-- A warm-up frame between two valid ones: two flips of every channel. -/
theorem notifications_length_le_flips :
    ((notifications cleanBoot ([.ofFrame (.encode fun _ => 100) 3000, .ofFrame .warmUp 2000] ++
        [.ofFrame (.encode fun _ => 100) 1000])).length : ℚ) ≤
      (notifications cleanBoot [.ofFrame (.encode fun _ => 100) 1000]).length +
        pathLength (worth defaultConfig)
          (afterTicks cleanBoot [.ofFrame (.encode fun _ => 100) 1000]).notified
          (samples (afterTicks cleanBoot [.ofFrame (.encode fun _ => 100) 1000])
            [.ofFrame (.encode fun _ => 100) 3000, .ofFrame .warmUp 2000]) :=
  notifications_length_le booted_cleanBoot (by decide) (by decide) _ _

/-- Noise of less than half a threshold around an operating point never causes
    an early publish: while it lasts, the notifications are at least the notify
    interval apart. -/
theorem notifications_of_noise (hboot : Booted config p₀) (center : Measurement)
    (newer earlier : List Tick)
    (hnotified : Around config.thresholds center (afterTicks p₀ earlier).lastNotified)
    (hnoise : ∀ reading ∈ readings (afterTicks p₀ earlier) newer,
      Around config.thresholds center reading.frame) :
    (notifications (afterTicks p₀ earlier) newer).length * (config.notifyIntervalMs.toNat : Int) ≤
      (afterTicks p₀ (newer ++ earlier)).lastNotifyMs - (afterTicks p₀ earlier).lastNotifyMs := by
  have hconfig : (afterTicks p₀ earlier).config = config := by
    rw [afterTicks_config, hboot.config_eq]
  obtain ⟨hreference, hreports⟩ :=
    (coherent_afterTicks hboot.blank earlier).notifications_eq newer
  rw [hconfig] at hreports hreference
  have hframes : ∀ sample ∈ samples (afterTicks p₀ earlier) newer,
      Around config.thresholds center sample.frame := by
    intro sample hsample
    obtain ⟨reading, hmem, rfl⟩ := samples_frame hsample
    exact hnoise reading hmem
  have hpaid (a b : Sample) (ha : Around config.thresholds center a.frame)
      (hb : Around config.thresholds center b.frame) (hdue : dueAgainst config a b = true) :
      (config.notifyIntervalMs.toNat : Int) ≤ b.nowMs - a.nowMs := by
    rcases (due_iff _ _ _).mp hdue with hchanged | ⟨_, hlate⟩
    · exact absurd ((changeMask_eq_zero_iff _ _ _).mpr (ha.settled hb)) hchanged
    · exact hlate
  have hstart : Around config.thresholds center (notified (afterTicks p₀ earlier)).frame :=
    hnotified
  have hbudget := (nsmul_length_reports_le (fun a b : Sample => b.nowMs - a.nowMs)
    (fun a => sub_self a.nowMs) (fun a b c => (sub_add_sub_cancel' b.nowMs a.nowMs c.nowMs).ge)
    hpaid hstart hframes).2
  rw [← hreports, List.length_map, ← hreference, pathLength_sub, nsmul_eq_mul] at hbudget
  change _ + (_ - ((afterTicks p₀ earlier).afterTicks newer).lastNotifyMs) ≤
    _ - (afterTicks p₀ earlier).lastNotifyMs at hbudget
  rw [afterTicks_append]
  linarith

/-- A service that has notified a frame a little above an operating point reads two
    more, on either side of it. -/
theorem notifications_of_noise_jitter :
    (notifications (afterTicks cleanBoot [.ofFrame (.encode fun _ => 103) 1000])
      [.ofFrame (.encode fun _ => 102) 8000, .ofFrame (.encode fun _ => 97) 4000]).length *
        (defaultConfig.notifyIntervalMs.toNat : Int) ≤
    (afterTicks cleanBoot ([.ofFrame (.encode fun _ => 102) 8000,
        .ofFrame (.encode fun _ => 97) 4000] ++
        [.ofFrame (.encode fun _ => 103) 1000])).lastNotifyMs -
      (afterTicks cleanBoot [.ofFrame (.encode fun _ => 103) 1000]).lastNotifyMs := by
  refine notifications_of_noise booted_cleanBoot
    (decodeMeasurement (Frame.encode fun _ => 100).raw) _ _ ?_ ?_
  · exact ⟨by decide +kernel, by decide +kernel⟩
  · have hread : readings (afterTicks cleanBoot [.ofFrame (.encode fun _ => 103) 1000])
        [.ofFrame (.encode fun _ => 102) 8000, .ofFrame (.encode fun _ => 97) 4000] =
          [⟨(Frame.encode fun _ => 102).raw, 8000⟩, ⟨(Frame.encode fun _ => 97).raw, 4000⟩] := by
      decide +kernel
    intro reading hmem
    rw [hread, List.mem_pair] at hmem
    rcases hmem with rfl | rfl <;> exact ⟨by decide +kernel, by decide +kernel⟩

end

end Policy

end MeasurementService
