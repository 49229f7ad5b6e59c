import Sen66Accessory.MeasurementService.History
import Sen66Accessory.MeasurementService.Policy.Notify

open Sen66

namespace MeasurementService.Policy

variable {p₀ : Policy}

/-- A tick without a notification keeps the record of the last one. -/
theorem tick_quiet {p : Policy} {tick : Tick} (hquiet : p.notifies tick = false) :
    (p.tick tick).lastNotified = p.lastNotified := by
  rw [notifies, notify_isSome] at hquiet
  rw [Policy.tick, notify_eq, hquiet]
  cases h : p.response tick with
  | none =>
    obtain ⟨err, herr, hread⟩ := read_of_no_response h
    rw [hread, onReadResult_failure _ herr]
    rfl
  | some raw =>
    rw [read_of_response h, onReadResult_success]
    rfl

/-- A notifying tick has seen a valid frame. -/
theorem everValid_of_notifies {p : Policy} {tick : Tick} (hnotifies : p.notifies tick = true) :
    (p.tick tick).everValid = true := by
  rw [notifies, notify_isSome, Bool.and_eq_true] at hnotifies
  rw [Policy.tick, notify_everValid, hnotifies.2]

/-- After every tick the latest frame is the notified one, or shows nothing
    worth notifying against it. -/
theorem settled_afterTicks (hblank : p₀.Blank) (ticks : List Tick) :
    (afterTicks p₀ ticks).latest = (afterTicks p₀ ticks).lastNotified ∨
      Settled p₀.config.thresholds (afterTicks p₀ ticks).lastNotified
        (afterTicks p₀ ticks).latest := by
  induction ticks with
  | nil =>
    left
    rw [afterTicks, hblank.latest, hblank.lastNotified]
  | cons tick earlier ih =>
    have hcoherent := coherent_afterTicks hblank earlier
    cases h : (afterTicks p₀ earlier).response tick with
    | none =>
      have hnext := tick_rejected h
      rw [afterTicks, hnext.latest, hnext.lastNotified]
      exact ih
    | some raw =>
      have hnext := tick_accepted hcoherent h
      rw [afterTicks, hnext.latest, hnext.lastNotified]
      cases hnotifies : (afterTicks p₀ earlier).notifies tick with
      | true => exact Or.inl rfl
      | false =>
        right
        rw [if_neg Bool.false_ne_true, ← changeMask_eq_zero_iff]
        by_contra hchanged
        rw [notifies_of_response hcoherent h,
          (due_iff _ _ _).mpr (Or.inl (by rwa [afterTicks_config]))] at hnotifies
        cases hnotifies

/-- The latest frame and the notified one have the same valid channels. -/
theorem valid_afterTicks (hblank : p₀.Blank) (ticks : List Tick) :
    (afterTicks p₀ ticks).latest.valid = (afterTicks p₀ ticks).lastNotified.valid := by
  rcases settled_afterTicks hblank ticks with heq | hsettled
  · rw [heq]
  · exact hsettled.valid_eq

/-- With positive thresholds no valid channel of the latest frame is a whole
    threshold away from the notified value. -/
theorem drift_lt (hblank : p₀.Blank) (ticks : List Tick) (f : Field)
    (hpositive : 0 < (p₀.config.thresholds.of f).toNat)
    (hvalid : (afterTicks p₀ ticks).latest.has f = true) :
    ((afterTicks p₀ ticks).latest.raw f - (afterTicks p₀ ticks).lastNotified.raw f).natAbs <
      (p₀.config.thresholds.of f).toNat := by
  rcases settled_afterTicks hblank ticks with heq | hsettled
  · rw [heq]
    omega
  · apply hsettled.raw_lt
    rw [Measurement.has, ← hsettled.valid_eq]
    exact hvalid

/-- Every notifying tick of a history already happened in an earlier part of it. -/
def NotifiedWithin (p₀ : Policy) (ticks part : List Tick) : Prop :=
  ∀ tick earlier, tick :: earlier <:+ ticks → (afterTicks p₀ earlier).notifies tick = true →
    tick :: earlier <:+ part

/-- What only a notifying tick changes is still the same without one in
    between. -/
theorem NotifiedWithin.eq_of_quiet {α : Type} {f : Policy → α}
    (hquiet : ∀ earlier tick, (afterTicks p₀ earlier).notifies tick = false →
      f ((afterTicks p₀ earlier).tick tick) = f (afterTicks p₀ earlier))
    {ticks part : List Tick} (hpart : part <:+ ticks) (hwithin : NotifiedWithin p₀ ticks part) :
    f (afterTicks p₀ ticks) = f (afterTicks p₀ part) := by
  induction ticks with
  | nil => rw [List.suffix_nil.mp hpart]
  | cons tick earlier ih =>
    rcases List.suffix_cons_iff.mp hpart with rfl | hpart
    · rfl
    have hsilent : (afterTicks p₀ earlier).notifies tick = false := by
      by_contra hnotifies
      have hle := (hwithin tick earlier List.suffix_rfl (by simpa using hnotifies)).length_le
      have hle' := hpart.length_le
      rw [List.length_cons] at hle
      omega
    rw [afterTicks, hquiet earlier tick hsilent]
    exact ih hpart fun t rest hsuffix =>
      hwithin t rest (hsuffix.trans (List.suffix_cons tick earlier))

/-- Without a notifying tick in between the record of the last notification is
    still the same. -/
theorem NotifiedWithin.lastNotified_eq {ticks part : List Tick} (hpart : part <:+ ticks)
    (hwithin : NotifiedWithin p₀ ticks part) :
    (afterTicks p₀ ticks).lastNotified = (afterTicks p₀ part).lastNotified :=
  hwithin.eq_of_quiet (fun _ _ hquiet => tick_quiet hquiet) hpart

/-- The readings of an earlier part of a history are the older ones. -/
theorem readings_suffix (p₀ : Policy) {ticks part : List Tick} (hpart : part <:+ ticks) :
    readings p₀ part <:+ readings p₀ ticks := by
  induction ticks with
  | nil => exact List.suffix_nil.mp hpart ▸ List.suffix_rfl
  | cons tick earlier ih =>
    rcases List.suffix_cons_iff.mp hpart with rfl | hpart
    · exact List.suffix_rfl
    · refine (ih hpart).trans ?_
      rw [readings]
      split
      · exact List.suffix_cons _ _
      · exact List.suffix_rfl

/-- A valid frame is never forgotten. -/
theorem everValid_of_suffix (hblank : p₀.Blank) {ticks part : List Tick} (hpart : part <:+ ticks)
    (hever : (afterTicks p₀ part).everValid = true) : (afterTicks p₀ ticks).everValid = true := by
  rw [(afterTicks_data hblank part).2.1, List.any_eq_true] at hever
  rw [(afterTicks_data hblank ticks).2.1, List.any_eq_true]
  obtain ⟨reading, hmem, hvalid⟩ := hever
  exact ⟨reading, (readings_suffix p₀ hpart).subset hmem, hvalid⟩

/-- The first valid frame notifies at once, so a history that has seen one has
    a notifying tick. -/
theorem exists_notifies_of_everValid (hblank : p₀.Blank) (ticks : List Tick)
    (hever : (afterTicks p₀ ticks).everValid = true) :
    ∃ tick earlier, tick :: earlier <:+ ticks ∧ (afterTicks p₀ earlier).notifies tick = true := by
  induction ticks with
  | nil =>
    rw [afterTicks, hblank.everValid] at hever
    cases hever
  | cons tick earlier ih =>
    by_cases hbefore : (afterTicks p₀ earlier).everValid = true
    · obtain ⟨t, rest, hsuffix, hnotifies⟩ := ih hbefore
      exact ⟨t, rest, hsuffix.trans (List.suffix_cons tick earlier), hnotifies⟩
    · refine ⟨tick, earlier, List.suffix_rfl, ?_⟩
      by_contra hquiet
      rw [Bool.not_eq_true] at hbefore hquiet
      have hcoherent := coherent_afterTicks hblank earlier
      have hvalid := valid_afterTicks hblank (tick :: earlier)
      rw [afterTicks, tick_quiet hquiet, hcoherent.notified hbefore] at hvalid
      rw [afterTicks] at hever
      cases h : (afterTicks p₀ earlier).response tick with
      | none =>
        rw [(tick_rejected h).everValid, hbefore] at hever
        cases hever
      | some raw =>
        have hnext := tick_accepted hcoherent h
        rw [hnext.latest] at hvalid
        rw [hnext.everValid, hbefore, hvalid] at hever
        cases hever

end MeasurementService.Policy
