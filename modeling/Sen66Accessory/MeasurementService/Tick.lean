import Sen66Accessory.MeasurementService.Service

open Sen66

namespace MeasurementService

/-- What the bus answers during one poll: the codes of the start command, of
    the read command and of the read, and the bytes read. -/
structure Answers where
  start : Int
  request : Int
  fetch : Int
  raw : Vector UInt8 kMeasurementBytes
  deriving DecidableEq

/-- The bus that gives those answers, whatever went over it before. -/
def Answers.bus : Bus Answers where
  write answers bytes :=
    (if bytes = Command.startMeasurement.bytes then answers.start else answers.request, answers)
  read answers length :=
    ((answers.fetch, Vector.ofFn fun i : Fin length => answers.raw.toArray.getD i 0), answers)

/-- The response a poll accepts, if any: every transaction it performs
    succeeds and every CRC of the response matches. -/
def Answers.response (answers : Answers) (needsRestart : Bool) :
    Option (Vector UInt8 kMeasurementBytes) :=
  if (needsRestart = true → answers.start = 0) ∧ answers.request = 0 ∧ answers.fetch = 0 ∧
      checkWordsCrc kMeasurementWords answers.raw = true then
    some answers.raw
  else none

/-- An accepted response passed its CRC check. -/
theorem Answers.crc_of_response {answers : Answers} {needsRestart : Bool}
    {raw : Vector UInt8 kMeasurementBytes} (h : answers.response needsRestart = some raw) :
    checkWordsCrc kMeasurementWords raw = true := by
  unfold Answers.response at h
  split at h
  · rename_i haccepted
    cases h
    exact haccepted.2.2.2
  · cases h

private theorem readMeasurement_answers (answers : Answers) :
    ((readMeasurement {}).run Answers.bus answers).1 =
      if answers.request ≠ 0 then (answers.request, {})
      else if answers.fetch ≠ 0 then (answers.fetch, {})
      else if checkWordsCrc kMeasurementWords answers.raw then
        (0, decodeMeasurement answers.raw)
      else (eio, {}) := by
  have hbytes : Command.readMeasuredValues.bytes ≠ Command.startMeasurement.bytes := by decide
  have hraw : (Vector.ofFn fun i : Fin kMeasurementBytes => answers.raw.toArray.getD i 0) =
      answers.raw := by
    ext i hi
    simp
  rw [readMeasurement_run]
  simp only [Answers.bus, hbytes, if_false, hraw]
  split
  · rfl
  split
  · rfl
  split <;> rfl

/-- A poll hands over the frame of the response it accepts. -/
theorem pollRead_of_response {answers : Answers} {needsRestart : Bool}
    {raw : Vector UInt8 kMeasurementBytes} (h : answers.response needsRestart = some raw) :
    ((pollRead needsRestart).run Answers.bus answers).1 = (0, decodeMeasurement raw) := by
  unfold Answers.response at h
  split at h
  · rename_i haccepted
    obtain ⟨hstart, hrequest, hfetch, hcrc⟩ := haccepted
    cases h
    have hread : ((readMeasurement {}).run Answers.bus answers).1 =
        (0, decodeMeasurement answers.raw) := by
      simp [readMeasurement_answers, hrequest, hfetch, hcrc]
    rw [pollRead_run]
    cases needsRestart with
    | false => exact hread
    | true => simpa [Answers.bus, hstart rfl] using hread
  · cases h

/-- A poll that accepts no response hands over an error and the zero frame. -/
theorem pollRead_of_no_response {answers : Answers} {needsRestart : Bool}
    (h : answers.response needsRestart = none) :
    ∃ err, err ≠ 0 ∧ ((pollRead needsRestart).run Answers.bus answers).1 = (err, {}) := by
  have hread (hfail : ¬ (answers.request = 0 ∧ answers.fetch = 0 ∧
        checkWordsCrc kMeasurementWords answers.raw = true)) :
      ∃ err, err ≠ 0 ∧ ((readMeasurement {}).run Answers.bus answers).1 = (err, {}) := by
    rw [readMeasurement_answers]
    by_cases hrequest : answers.request = 0
    · by_cases hfetch : answers.fetch = 0
      · exact ⟨eio, by decide, by simp_all⟩
      · exact ⟨answers.fetch, hfetch, by simp [hrequest, hfetch]⟩
    · exact ⟨answers.request, hrequest, by simp [hrequest]⟩
  have hfail : ¬ ((needsRestart = true → answers.start = 0) ∧ answers.request = 0 ∧
      answers.fetch = 0 ∧ checkWordsCrc kMeasurementWords answers.raw = true) := by
    intro haccepted
    rw [Answers.response, if_pos haccepted] at h
    cases h
  rw [pollRead_run]
  cases needsRestart with
  | false => exact hread (by simpa using hfail)
  | true =>
    by_cases hstart : answers.start = 0
    · simpa [Answers.bus, hstart] using hread (by simpa [hstart] using hfail)
    · exact ⟨answers.start, hstart, by simp [Answers.bus, hstart]⟩

/-- The scripted answers leave nothing out: what any bus makes a poll hand over,
    some answers make it hand over too. -/
theorem exists_answers {σ : Type} (needsRestart : Bool) (bus : Bus σ) (s : σ) :
    ∃ answers : Answers, ((pollRead needsRestart).run Answers.bus answers).1 =
      ((pollRead needsRestart).run bus s).1 := by
  obtain ⟨err, herr, hresult⟩ | ⟨raw, hcrc, hresult⟩ := pollRead_result needsRestart bus s
  · refine ⟨⟨err, err, 0, Vector.replicate _ 0⟩, ?_⟩
    rw [hresult, pollRead_run]
    cases needsRestart with
    | false => exact (readMeasurement_answers _).trans (if_pos herr)
    | true => simp [Answers.bus, herr]
  · refine ⟨⟨0, 0, 0, raw⟩, ?_⟩
    rw [hresult]
    exact pollRead_of_response (by simp [Answers.response, hcrc])

/-- One poll of the service: the bus answers it gets and the uptime it samples. -/
structure Tick where
  answers : Answers
  nowMs : Int
  deriving DecidableEq

/-- The policy once a poll has called `OnReadResult`. -/
def Policy.read (p : Policy) (tick : Tick) : Policy :=
  (readTick Answers.bus p tick.answers tick.nowMs).1

/-- The policy once a poll is over. -/
def Policy.tick (p : Policy) (tick : Tick) : Policy := (notify (p.read tick) tick.nowMs).1

/-- The response a poll accepts from the policy's current state. -/
def Policy.response (p : Policy) (tick : Tick) : Option (Vector UInt8 kMeasurementBytes) :=
  tick.answers.response p.needsRestart

/-- Whether a poll decides to notify. -/
def Policy.notifies (p : Policy) (tick : Tick) : Bool :=
  (notify (p.read tick) tick.nowMs).2.isSome

namespace Policy

theorem read_of_response {p : Policy} {tick : Tick} {raw : Vector UInt8 kMeasurementBytes}
    (h : p.response tick = some raw) :
    p.read tick = p.onReadResult 0 (decodeMeasurement raw) tick.nowMs := by
  simp only [read, readTick, pollRead_of_response h]

theorem read_of_no_response {p : Policy} {tick : Tick} (h : p.response tick = none) :
    ∃ err, err ≠ 0 ∧ p.read tick = p.onReadResult err {} tick.nowMs := by
  obtain ⟨err, herr, hread⟩ := pollRead_of_no_response h
  exact ⟨err, herr, by simp only [read, readTick, hread]⟩

/-- Before any frame has been valid there is nothing a notification could have
    to report. -/
structure Coherent (p : Policy) : Prop where
  latest : p.everValid = false → p.latest.valid = 0
  notified : p.everValid = false → p.lastNotified.valid = 0

/-- What a poll that accepted a response leaves behind, `fresh` being its frame. -/
structure Accepted (p : Policy) (tick : Tick) (fresh : Measurement) (p' : Policy) : Prop where
  config : p'.config = p.config
  latest : p'.latest = fresh
  everValid : p'.everValid = (p.everValid || fresh.valid != 0)
  lastUpdateMs : p'.lastUpdateMs = tick.nowMs
  lastNotified : p'.lastNotified = if p.notifies tick then fresh else p.lastNotified
  lastNotifyMs : p'.lastNotifyMs = if p.notifies tick then tick.nowMs else p.lastNotifyMs
  needsRestart : p'.needsRestart = false

/-- What a poll that accepted no response leaves behind. -/
structure Rejected (p p' : Policy) : Prop where
  config : p'.config = p.config
  latest : p'.latest = p.latest
  everValid : p'.everValid = p.everValid
  lastUpdateMs : p'.lastUpdateMs = p.lastUpdateMs
  lastNotified : p'.lastNotified = p.lastNotified
  lastNotifyMs : p'.lastNotifyMs = p.lastNotifyMs

/-- A coherent policy that finds a notification due has a valid frame to hand
    out: either the new one, or an earlier one. -/
theorem Coherent.everValid_of_due {p : Policy} (hp : p.Coherent) {m : Measurement} {nowMs : Int}
    (hdue : p.due m nowMs = true) : (p.everValid || m.valid != 0) = true := by
  simp only [due, Bool.and_eq_true, Bool.or_eq_true, bne_iff_ne] at hdue
  rw [Bool.or_eq_true, bne_iff_ne]
  rcases hdue.1 with hfresh | hnotified
  · exact .inr hfresh
  · refine .inl ?_
    by_contra hnever
    exact hnotified (hp.notified (Bool.eq_false_iff.mpr hnever))

/-- A coherent policy notifies exactly when a notification is due. -/
theorem notifies_of_response {p : Policy} (hp : p.Coherent) {tick : Tick}
    {raw : Vector UInt8 kMeasurementBytes} (h : p.response tick = some raw) :
    p.notifies tick = p.due (decodeMeasurement raw) tick.nowMs := by
  rw [notifies, notify_isSome, read_of_response h, onReadResult_success]
  cases hdue : p.due (decodeMeasurement raw) tick.nowMs with
  | false => simp
  | true => simpa using hp.everValid_of_due hdue

theorem notifies_of_no_response {p : Policy} {tick : Tick} (h : p.response tick = none) :
    p.notifies tick = false := by
  obtain ⟨err, herr, hread⟩ := read_of_no_response h
  rw [notifies, notify_isSome, hread, onReadResult_failure _ herr]
  rfl

theorem tick_accepted {p : Policy} (hp : p.Coherent) {tick : Tick}
    {raw : Vector UInt8 kMeasurementBytes} (h : p.response tick = some raw) :
    p.Accepted tick (decodeMeasurement raw) (p.tick tick) := by
  have hnotifies := notifies_of_response hp h
  have hpending : ((p.read tick).shouldNotify && (p.read tick).everValid) = p.notifies tick := by
    rw [notifies, notify_isSome]
  rw [Policy.tick, notify_eq, hpending, read_of_response h, onReadResult_success]
  cases hn : p.notifies tick <;> constructor <;> simp [markNotified, needsRestart, hn]

theorem tick_rejected {p : Policy} {tick : Tick} (h : p.response tick = none) :
    p.Rejected (p.tick tick) := by
  obtain ⟨err, herr, hread⟩ := read_of_no_response h
  rw [Policy.tick, notify_eq, hread, onReadResult_failure _ herr]
  constructor <;> rfl

theorem Coherent.tick {p : Policy} (hp : p.Coherent) (tick : Tick) : (p.tick tick).Coherent := by
  cases h : p.response tick with
  | none =>
    have hnext := tick_rejected h
    constructor
    · rw [hnext.everValid, hnext.latest]
      exact hp.latest
    · rw [hnext.everValid, hnext.lastNotified]
      exact hp.notified
  | some raw =>
    have hnext := tick_accepted hp h
    have hfresh : (p.tick tick).everValid = false →
        p.everValid = false ∧ (decodeMeasurement raw).valid = 0 := by
      rw [hnext.everValid]
      simp
    constructor
    · intro hever
      rw [hnext.latest]
      exact (hfresh hever).2
    · intro hever
      rw [hnext.lastNotified]
      split
      · exact (hfresh hever).2
      · exact hp.notified (hfresh hever).1

end Policy

end MeasurementService
