import Sen66Accessory.MeasurementService.Settled

open Sen66

namespace MeasurementService

namespace Policy

section

variable {p₀ : Policy}

/-- The notifications of an earlier part of a history are the older ones. -/
theorem notifications_suffix (hblank : p₀.Blank) {ticks part : List Tick}
    (hpart : part <:+ ticks) : notifications p₀ part <:+ notifications p₀ ticks := by
  induction ticks with
  | nil => exact List.suffix_nil.mp hpart ▸ List.suffix_rfl
  | cons tick earlier ih =>
    rcases List.suffix_cons_iff.mp hpart with rfl | hpart
    · exact List.suffix_rfl
    · obtain ⟨raw, mask, _, _, hcons⟩ | ⟨_, hcons⟩ := notifications_cons hblank tick earlier
      · rw [hcons]
        exact (ih hpart).trans (List.suffix_cons _ _)
      · rw [hcons]
        exact ih hpart

/-- A history that has read a valid frame has a newest notification. -/
theorem notified_of_everValid (hblank : p₀.Blank) (ticks : List Tick)
    (hever : (afterTicks p₀ ticks).everValid = true) :
    ∃ last, (notifications p₀ ticks).head? = some last := by
  obtain ⟨tick, earlier, hsuffix, hnotifies⟩ := exists_notifies_of_everValid hblank ticks hever
  obtain ⟨raw, mask, _, _, hcons⟩ | ⟨hquiet, _⟩ := notifications_cons hblank tick earlier
  · have hmem := (notifications_suffix hblank hsuffix).subset (hcons ▸ List.mem_cons_self)
    exact ⟨_, List.head?_eq_some_head (List.ne_nil_of_mem hmem)⟩
  · rw [hnotifies] at hquiet
    cases hquiet

/-- Once a valid frame has been read, a successful poll at least the notify
    interval after the newest notification notifies exactly when its frame or
    the notified one has a valid channel. The early return stays silent for as
    long as the loss of every channel lasts, not only before the first valid
    frame. -/
theorem heartbeat_iff (config : PolicyConfig) (hboot : Booted config p₀) (ticks : List Tick)
    (hvalid : ∃ reading ∈ readings p₀ ticks, reading.frame.valid ≠ 0) :
    ∃ last, (notifications p₀ ticks).head? = some last ∧
      ∀ (tick : Tick) (raw : Vector UInt8 kMeasurementBytes),
        (afterTicks p₀ ticks).response tick = some raw →
        tick.nowMs - last.nowMs ≥ config.notifyIntervalMs.toNat →
        ((afterTicks p₀ ticks).notifies tick = true ↔
          (decodeMeasurement raw).valid ≠ 0 ∨ last.snapshot.valid ≠ 0) := by
  have hblank := hboot.blank
  have hever : (afterTicks p₀ ticks).everValid = true := by
    rw [(afterTicks_data hblank ticks).2.1, List.any_eq_true]
    obtain ⟨reading, hmem, hreading⟩ := hvalid
    exact ⟨reading, hmem, by simpa using hreading⟩
  obtain ⟨last, hlast⟩ := notified_of_everValid hblank ticks hever
  obtain ⟨hframe, htime⟩ := afterTicks_notified hblank ticks
  simp only [hlast, Option.map_some, Option.getD_some] at hframe htime
  refine ⟨last, hlast, fun tick raw hresponse hinterval => ?_⟩
  have hconfig : (afterTicks p₀ ticks).config = config := by
    rw [afterTicks_config, hboot.config_eq]
  rw [notifies_of_response (coherent_afterTicks hblank ticks) hresponse, due_iff, hframe, htime,
    hconfig]
  constructor
  · rintro (hchanged | ⟨hopen, _⟩)
    · by_contra hnone
      rw [not_or, not_not, not_not] at hnone
      exact hchanged (changeMask_of_invalid _ hnone.2 hnone.1)
    · exact hopen
  · intro hopen
    exact Or.inr ⟨hopen, hinterval⟩

end

/-- One valid frame at 1 s, then the loss of every channel at 2 s, both
    notified. -/
def lossNotified : List Tick :=
  [.ofFrame .warmUp 2000, .ofFrame (.encode fun _ => 100) 1000]

/-- Seven seconds after the loss was notified the heartbeat stays silent. -/
theorem heartbeat_stops :
    ¬ ∀ p₀, Booted defaultConfig p₀ → ∀ ticks : List Tick,
      (∃ reading ∈ readings p₀ ticks, reading.frame.valid ≠ 0) →
      ∀ last, (notifications p₀ ticks).head? = some last →
      ∀ (tick : Tick) (raw : Vector UInt8 kMeasurementBytes),
        (afterTicks p₀ ticks).response tick = some raw →
        tick.nowMs - last.nowMs ≥ defaultConfig.notifyIntervalMs.toNat →
        (afterTicks p₀ ticks).notifies tick = true := by
  intro hbeats
  have hquiet : (afterTicks cleanBoot lossNotified).notifies (.ofFrame .warmUp 9000) = false := by
    decide +kernel
  have htime : (notifications cleanBoot lossNotified).head?.map Notification.nowMs = some 2000 := by
    decide +kernel
  obtain ⟨last, hlast, hlastMs⟩ := Option.map_eq_some_iff.mp htime
  have hbeat := hbeats cleanBoot booted_cleanBoot lossNotified
    ⟨⟨(Frame.encode fun _ => 100).raw, 1000⟩, by decide +kernel, by decide +kernel⟩ last hlast
    (.ofFrame .warmUp 9000) Frame.warmUp.raw (by decide +kernel)
    (by rw [hlastMs]; decide)
  rw [hquiet] at hbeat
  cases hbeat

/-- With its channels still valid the same service does beat. -/
theorem heartbeat_iff_valid :
    (afterTicks cleanBoot [.ofFrame (.encode fun _ => 100) 2000]).notifies
      (.ofFrame (.encode fun _ => 100) 9000) = true := by
  obtain ⟨last, hlast, hbeat⟩ :=
    heartbeat_iff defaultConfig booted_cleanBoot [.ofFrame (.encode fun _ => 100) 2000]
      ⟨⟨(Frame.encode fun _ => 100).raw, 2000⟩, by decide +kernel, by decide +kernel⟩
  have htime : (notifications cleanBoot [.ofFrame (.encode fun _ => 100) 2000]).head?.map
      Notification.nowMs = some 2000 := by
    decide +kernel
  rw [hlast, Option.map_some, Option.some_inj] at htime
  exact (hbeat _ (Frame.encode fun _ => 100).raw (by decide +kernel) (by rw [htime]; decide)).mpr
    (Or.inl (by decide +kernel))

end Policy

end MeasurementService
