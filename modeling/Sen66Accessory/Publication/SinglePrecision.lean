import Sen66Accessory.AirQualityEndpoint.SinglePrecision
import Sen66Accessory.Publication.Drift

open Sen66 MeasurementService AirQualityEndpoint

namespace Publication

section

variable {σ τ : Type}

/-- The system with the arithmetic of the code. -/
def System.singleMachine (store : AttributeStore σ) : Machine (System σ) Event :=
  ⟨System.stepWith (Single.applyLatestMeasurement store)⟩

/-- The states a run of it can reach, with the history that led there. -/
def SingleReaches (store : AttributeStore σ) (p₀ : Policy) (x : System σ) (h : History) : Prop :=
  ((System.singleMachine store).observe History.record).Reachable
    (fun x => System.Start store p₀ x.1 ∧ x.2 = {}) (x, h)

/-- What an apply does is nothing to the poll thread. -/
theorem Traced.stepWith {p₀ : Policy} {apply : Snapshot → σ → σ} {x x' : System σ} {h : History}
    {e : Event} (htraced : Traced p₀ x.poller h.poll) (hstep : x.stepWith apply e = some x') :
    Traced p₀ x'.poller (h.record x e).poll := by
  cases e with
  | poll e =>
    obtain ⟨poller, hpoller, rfl⟩ := Option.map_eq_some_iff.mp hstep
    exact htraced.step hpoller
  | clusterFailure | registerCallback | directApply | dequeuedApply =>
    obtain ⟨_, hnext⟩ := Option.ite_none_right_eq_some.mp hstep
    cases hnext
    exact htraced

theorem SingleReaches.traced {store : AttributeStore σ} {p₀ : Policy} {x : System σ} {h : History}
    (hreach : SingleReaches store p₀ x h) : Traced p₀ x.poller h.poll := by
  apply hreach.invariant (I := fun s => Traced p₀ s.1.poller s.2.poll)
  · rintro ⟨x, h⟩ ⟨hstart, hhistory⟩
    cases hhistory
    dsimp only
    rw [hstart.poller]
    exact Traced.start p₀
  · rintro ⟨x, h⟩ e ⟨x', h'⟩ _ htraced hstep
    obtain ⟨hnext, hrecord⟩ := Machine.observe_step.mp hstep
    cases hrecord
    exact Traced.stepWith htraced hnext

/-- The end of a run of the code from a clean boot, or its start if an event is
    refused. -/
def singleRun (events : List Event) : System ((a : Attribute) → a.Value) × History :=
  (((System.singleMachine attributeRam).observe History.record).run cleanStart events).getD
    cleanStart

theorem reaches_singleRun (events : List Event) :
    SingleReaches attributeRam cleanBoot (singleRun events).1 (singleRun events).2 := by
  have hstart : ((System.singleMachine attributeRam).observe History.record).Reachable
      (fun x => System.Start attributeRam cleanBoot x.1 ∧ x.2 = {}) cleanStart :=
    .start ⟨start_cleanStart, rfl⟩
  rw [SingleReaches, Prod.mk.eta, singleRun]
  exact hstart.run_getD events

/-- Systems that differ in their attributes at most. -/
structure Alike (R : σ → τ → Prop) (x : System σ) (y : System τ) : Prop where
  poller : x.poller = y.poller
  callback : x.callback = y.callback
  cluster : x.cluster = y.cluster
  queued : x.queued = y.queued
  attributes : R x.attributes y.attributes

/-- Writes that keep a relation of the attributes keep the systems alike. -/
theorem Alike.stepWith {R : σ → τ → Prop} {apply : Snapshot → σ → σ} {apply' : Snapshot → τ → τ}
    (happly : ∀ shared s t, R s t → R (apply shared s) (apply' shared t)) {x : System σ}
    {y : System τ} (h : Alike R x y) (e : Event) :
    Option.Rel (Alike R) (x.stepWith apply e) (y.stepWith apply' e) := by
  obtain ⟨poller, callback, cluster, queued, attributes⟩ := x
  obtain ⟨_, _, _, _, attributes'⟩ := y
  obtain ⟨rfl, rfl, rfl, rfl, hattributes⟩ := h
  have hwritten := happly poller.snapshot _ _ hattributes
  cases e with
  | poll e =>
    simp only [System.stepWith]
    cases poller.step e with
    | none => exact .none
    | some next => exact .some ⟨rfl, rfl, rfl, rfl, hattributes⟩
  | clusterFailure | registerCallback =>
    simp only [System.stepWith]
    split
    · exact .some ⟨rfl, rfl, rfl, rfl, hattributes⟩
    · exact .none
  | directApply | dequeuedApply =>
    simp only [System.stepWith]
    split
    · exact .some ⟨rfl, rfl, rfl, rfl, hwritten⟩
    · exact .none

end

section

variable {σ τ : Type} {store : AttributeStore σ} {store' : AttributeStore τ}

/-- Every published attribute holds its exact value rounded. The humidity is left
    out, for a store need not keep what it cannot express. -/
def RoundedAttributes (store : AttributeStore σ) (store' : AttributeStore τ) (s : σ) (t : τ) :
    Prop :=
  ∀ a ∈ Attribute.published, a ≠ .humidity → a.Rounded (store.read s a) (store'.read t a)

theorem rounded_initial (a : Attribute) : a.Rounded a.initial a.initial := by
  cases a with
  | concentration i => exact .none
  | temperature endpoint => rfl
  | humidity => rfl
  | airQuality => rfl

/-- An apply leaves rounded attributes, whatever it found. -/
theorem RoundedAttributes.apply (hlawful : store.Lawful)
    (hlawful' : store'.LawfulOn Single.singleConcentrations)
    (shared : Snapshot) (s : σ) (t : τ) (h : RoundedAttributes store store' s t) :
    RoundedAttributes store store' (applyLatestMeasurement store shared s)
      (Single.applyLatestMeasurement store' shared t) := by
  cases hever : shared.everValid with
  | false =>
    rwa [applyLatestMeasurement_of_not_everValid hever,
      Single.applyLatestMeasurement_of_not_everValid hever]
  | true =>
    intro a ha hne
    rw [read_applyLatestMeasurement hlawful hever ha fun heq => absurd heq hne,
      Single.read_applyLatestMeasurement hlawful' hever ha fun heq => absurd heq hne]
    exact Single.rounded_shown shared.measurement a

/-- The code against exact arithmetic, over whole runs. From the same start both
    systems accept and refuse the same events, in whichever order the poll thread
    and the CHIP thread come, and all along they agree in everything but the
    rounding of the concentrations they show. -/
theorem single_precision_lockstep (hlawful : store.Lawful)
    (hlawful' : store'.LawfulOn Single.singleConcentrations) {p₀ : Policy} {x : System σ}
    {y : System τ} (hx : System.Start store p₀ x) (hy : System.Start store' p₀ y)
    (events : List Event) :
    Option.Rel (Alike (RoundedAttributes store store')) ((System.machine store).run x events)
      ((System.singleMachine store').run y events) := by
  have hstart : Alike (RoundedAttributes store store') x y := by
    refine ⟨hx.poller.trans hy.poller.symm, hx.callback.trans hy.callback.symm,
      hx.cluster.trans hy.cluster.symm, hx.queued.trans hy.queued.symm, fun a _ _ => ?_⟩
    rw [hx.attributes a, hy.attributes a]
    exact rounded_initial a
  exact Machine.run_lockstep
    (fun _ _ e halike => halike.stepWith (RoundedAttributes.apply hlawful hlawful') e) hstart events

/-- The run that drifts below the threshold. -/
theorem single_precision_lockstep_driftRun :
    ∃ x y, (System.machine attributeRam).run cleanStart.1 driftRun = some x ∧
      (System.singleMachine attributeRam).run cleanStart.1 driftRun = some y ∧
      Alike (RoundedAttributes attributeRam attributeRam) x y := by
  have haccepted : ((System.machine attributeRam).run cleanStart.1 driftRun).isSome = true := by
    decide +kernel
  have halike := single_precision_lockstep lawful_attributeRam (lawfulOn_attributeRam _)
    start_cleanStart start_cleanStart driftRun
  obtain ⟨x, hx⟩ := Option.isSome_iff_exists.mp haccepted
  rw [hx] at halike
  generalize hy : (System.singleMachine attributeRam).run cleanStart.1 driftRun = final at halike
  cases halike with
  | some h => exact ⟨x, _, hx, rfl, h⟩

end

end Publication
