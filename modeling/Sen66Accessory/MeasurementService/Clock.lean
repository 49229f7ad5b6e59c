import Sen66Accessory.MeasurementService.SnapshotLaw

open Sen66

namespace MeasurementService

/-- The uptimes of a history, newest first: they count from the boot and never
    run backwards. -/
structure Clocked (ticks : List Tick) : Prop where
  ordered : ticks.Pairwise fun newer older => older.nowMs ≤ newer.nowMs
  started : ∀ tick ∈ ticks, 0 ≤ tick.nowMs

theorem Clocked.of_suffix {ticks part : List Tick} (hclocked : Clocked ticks)
    (hpart : part <:+ ticks) : Clocked part :=
  ⟨hclocked.ordered.sublist hpart.sublist,
    fun tick hmem => hclocked.started tick (hpart.subset hmem)⟩

namespace Policy

section

variable {p₀ : Policy} {ticks part : List Tick}

/-- Every reading was taken by a tick, at its uptime. -/
theorem exists_tick_of_mem_readings {reading : Reading} (hmem : reading ∈ readings p₀ ticks) :
    ∃ tick ∈ ticks, tick.nowMs = reading.readMs := by
  induction ticks with
  | nil => cases hmem
  | cons tick earlier ih =>
    have holder (hmem : reading ∈ readings p₀ earlier) :
        ∃ t ∈ tick :: earlier, t.nowMs = reading.readMs := by
      obtain ⟨t, ht, htime⟩ := ih hmem
      exact ⟨t, List.mem_cons_of_mem _ ht, htime⟩
    cases h : (afterTicks p₀ earlier).response tick with
    | none => exact holder (by rwa [readings_of_no_response h] at hmem)
    | some raw =>
      rw [readings_of_response h, List.mem_cons] at hmem
      rcases hmem with rfl | hmem
      · exact ⟨tick, List.mem_cons_self, rfl⟩
      · exact holder hmem

/-- No update is from the future. -/
theorem lastUpdateMs_le (hblank : p₀.Blank) {tick : Tick} (hclocked : Clocked (tick :: ticks)) :
    (afterTicks p₀ ticks).lastUpdateMs ≤ tick.nowMs := by
  rw [(afterTicks_data hblank ticks).2.2]
  cases hreadings : readings p₀ ticks with
  | nil => exact hclocked.started tick List.mem_cons_self
  | cons newest older =>
    obtain ⟨t, ht, htime⟩ :=
      exists_tick_of_mem_readings (hreadings ▸ List.mem_cons_self : newest ∈ readings p₀ ticks)
    have hle := (List.pairwise_cons.mp hclocked.ordered).1 t ht
    rwa [htime] at hle

/-- Updates never go back in time. -/
theorem lastUpdateMs_mono (hblank : p₀.Blank) (hclocked : Clocked ticks) (hpart : part <:+ ticks) :
    (afterTicks p₀ part).lastUpdateMs ≤ (afterTicks p₀ ticks).lastUpdateMs := by
  induction ticks with
  | nil => rw [List.suffix_nil.mp hpart]
  | cons tick earlier ih =>
    rcases List.suffix_cons_iff.mp hpart with rfl | hpart
    · exact le_rfl
    have hbefore := ih (hclocked.of_suffix (List.suffix_cons _ _)) hpart
    rw [afterTicks]
    cases h : (afterTicks p₀ earlier).response tick with
    | none => rwa [(tick_rejected h).lastUpdateMs]
    | some raw =>
      rw [(tick_accepted (coherent_afterTicks hblank earlier) h).lastUpdateMs]
      exact hbefore.trans (lastUpdateMs_le hblank hclocked)

/-- What was notified last had been read by then. -/
theorem lastNotifyMs_le (hblank : p₀.Blank) (hclocked : Clocked ticks) :
    (afterTicks p₀ ticks).lastNotifyMs ≤ (afterTicks p₀ ticks).lastUpdateMs := by
  induction ticks with
  | nil => rw [afterTicks, hblank.lastNotifyMs, hblank.lastUpdateMs]
  | cons tick earlier ih =>
    have hbefore := ih (hclocked.of_suffix (List.suffix_cons _ _))
    rw [afterTicks]
    cases h : (afterTicks p₀ earlier).response tick with
    | none => rwa [(tick_rejected h).lastNotifyMs, (tick_rejected h).lastUpdateMs]
    | some raw =>
      have hnext := tick_accepted (coherent_afterTicks hblank earlier) h
      rw [hnext.lastNotifyMs, hnext.lastUpdateMs]
      split
      · exact le_rfl
      · exact hbefore.trans (lastUpdateMs_le hblank hclocked)

/-- While the latest frame has a valid channel, the last notification is less
    than a notify interval behind the latest update. -/
theorem lastUpdateMs_sub_lastNotifyMs_le (hblank : p₀.Blank) (ticks : List Tick)
    (hvalid : (afterTicks p₀ ticks).latest.valid ≠ 0) :
    (afterTicks p₀ ticks).lastUpdateMs - (afterTicks p₀ ticks).lastNotifyMs ≤
      ((p₀.config.notifyIntervalMs.toNat - 1 : Nat) : Int) := by
  induction ticks with
  | nil => exact absurd (by rw [afterTicks, hblank.latest]) hvalid
  | cons tick earlier ih =>
    rw [afterTicks] at hvalid ⊢
    cases h : (afterTicks p₀ earlier).response tick with
    | none =>
      have hnext := tick_rejected h
      rw [hnext.latest] at hvalid
      rw [hnext.lastUpdateMs, hnext.lastNotifyMs]
      exact ih hvalid
    | some raw =>
      have hcoherent := coherent_afterTicks hblank earlier
      have hnext := tick_accepted hcoherent h
      rw [hnext.latest] at hvalid
      rw [hnext.lastUpdateMs, hnext.lastNotifyMs]
      cases hnotifies : (afterTicks p₀ earlier).notifies tick with
      | true =>
        rw [if_pos rfl, sub_self]
        exact Int.natCast_nonneg _
      | false =>
        rw [if_neg Bool.false_ne_true]
        have hearly : ¬ tick.nowMs - (afterTicks p₀ earlier).lastNotifyMs ≥
            p₀.config.notifyIntervalMs.toNat := by
          intro hlate
          rw [notifies_of_response hcoherent h,
            (due_iff _ _ _).mpr (Or.inr ⟨Or.inl hvalid, by rwa [afterTicks_config]⟩)] at hnotifies
          cases hnotifies
        omega

/-- Without a notifying tick in between the time of the last notification is
    still the same. -/
theorem NotifiedWithin.lastNotifyMs_eq (hblank : p₀.Blank) (hpart : part <:+ ticks)
    (hwithin : NotifiedWithin p₀ ticks part) :
    (afterTicks p₀ ticks).lastNotifyMs = (afterTicks p₀ part).lastNotifyMs := by
  refine hwithin.eq_of_quiet (f := lastNotifyMs) (fun earlier tick hquiet => ?_) hpart
  cases h : (afterTicks p₀ earlier).response tick with
  | none => exact (tick_rejected h).lastNotifyMs
  | some raw =>
    rw [(tick_accepted (coherent_afterTicks hblank earlier) h).lastNotifyMs, hquiet,
      if_neg Bool.false_ne_true]

end

end Policy

section

variable {Reader : Type} [DecidableEq Reader] {config : PolicyConfig} {p₀ : Policy}
  {s s' : Service Reader} {h h' : PollHistory}

/-- Readers never see the sensor go back in time. Once a call to `GetLatest` has
    returned a frame, every call that returns later, to the same reader or to
    another one, returns a frame that was read no earlier. -/
theorem getLatest_never_older (hboot : Booted config p₀) (hreach : ServiceReaches p₀ s h)
    {r r' : Reader} {out out' : Snapshot} (hreturns : s.Returns r out)
    (hok : (getLatest out).1 = true) {events : List (ServiceStep Reader)}
    (hrun : ((Service.machine Reader).observe fun h _ e => PollHistory.recordService h e).run
      (s, h) events = some (s', h'))
    (hreturns' : s'.Returns r' out') (hclocked : Clocked h'.published) :
    (getLatest out').1 = true ∧
    ∃ source ∈ p₀.readings h.published, ∃ source' ∈ p₀.readings h'.published,
      (getLatest out).2.measurement = source.frame ∧
      (getLatest out').2.measurement = source'.frame ∧ source.readMs ≤ source'.readMs := by
  have hblank := hboot.blank
  have hout := hreach.returns_eq hreturns
  have hout' := ServiceReaches.returns_eq (Machine.Reachable.run hreach hrun) hreturns'
  have hgrows := hreach.published_suffix hrun
  change out.everValid = true at hok
  rw [hout] at hok
  have hok' : (p₀.snapshotAfter h'.published).everValid = true := by
    rw [Policy.snapshotAfter_everValid hblank] at hok ⊢
    exact Policy.everValid_of_suffix hblank hgrows hok
  obtain ⟨source, older, hreadings, hframe, _⟩ := Policy.snapshotAfter_of_everValid hblank hok
  obtain ⟨source', older', hreadings', hframe', _⟩ :=
    Policy.snapshotAfter_of_everValid hblank hok'
  have hmono := Policy.lastUpdateMs_mono hblank hclocked hgrows
  rw [(Policy.afterTicks_data hblank _).2.2, (Policy.afterTicks_data hblank _).2.2, hreadings,
    hreadings'] at hmono
  refine ⟨?_, source, hreadings ▸ List.mem_cons_self, source', hreadings' ▸ List.mem_cons_self,
    ?_, ?_, hmono⟩
  · change out'.everValid = true
    rw [hout', hok']
  · change out.measurement = source.frame
    rw [hout, hframe]
  · change out'.measurement = source'.frame
    rw [hout', hframe']

end

/-- Another tick after the first call, and a second call. -/
def secondCall : Service Unit × PollHistory :=
  (((Service.machine Unit).observe fun h _ e => PollHistory.recordService h e).run firstCall
    (.getLatestUnlock () :: (serviceTick (.encode fun _ => 200) 2000 ++ serviceCall))).getD
    firstCall

/-- What the second call returns. -/
def secondSnapshot : Snapshot :=
  { measurement := (Frame.encode fun _ => 200).measurement, ageMs := 0, everValid := true }

/-- It is not older than what the first one returned. -/
theorem getLatest_never_older_secondCall :
    (getLatest secondSnapshot).1 = true ∧
    ∃ source ∈ cleanBoot.readings firstCall.2.published,
      ∃ source' ∈ cleanBoot.readings secondCall.2.published,
      (getLatest firstSnapshot).2.measurement = source.frame ∧
      (getLatest secondSnapshot).2.measurement = source'.frame ∧
      source.readMs ≤ source'.readMs := by
  have hrun : ((Service.machine Unit).observe fun h _ e => PollHistory.recordService h e).run
      (firstCall.1, firstCall.2)
      (.getLatestUnlock () :: (serviceTick (.encode fun _ => 200) 2000 ++ serviceCall)) =
      some (secondCall.1, secondCall.2) := by
    rw [Prod.mk.eta, Prod.mk.eta]
    exact Machine.run_eq_getD (by decide +kernel) _
  have hreturns : secondCall.1.Returns () secondSnapshot := by decide +kernel
  exact getLatest_never_older booted_cleanBoot reaches_firstCall returns_firstSnapshot rfl hrun
    hreturns ⟨by decide +kernel, by decide +kernel⟩

end MeasurementService
