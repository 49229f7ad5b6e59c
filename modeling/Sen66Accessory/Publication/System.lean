import Sen66Accessory.MeasurementService.Poller
import Sen66Accessory.AirQualityEndpoint.Adapter

open Sen66 MeasurementService AirQualityEndpoint

namespace Publication

/-- How far `ClusterInit` has come. -/
inductive ClusterStage where
  | initialising
  | registered
  | finished
  | failed
  deriving DecidableEq

/-- The poll thread and the CHIP thread: whether the update callback is set, the
    work items queued for the CHIP thread, and the attributes it writes. -/
structure System (σ : Type) where
  poller : Poller
  callback : Bool := false
  cluster : ClusterStage := .initialising
  queued : Nat := 0
  attributes : σ

/-- The atomic steps. `ClusterInit` fails when one of the clusters cannot be
    initialised, and then never registers the callback. -/
inductive Event where
  | poll (e : PollStep)
  | clusterFailure
  | registerCallback
  | directApply
  | dequeuedApply

namespace System

variable {σ : Type}

/-- The work items a step of the poll thread enqueues: one if it notifies and
    the callback is set. -/
def enqueues (x : System σ) : PollStep → Nat
  | .notify => if x.poller.notification.isSome && x.callback then 1 else 0
  | _ => 0

/-- The steps, for an apply that takes the shared snapshot to the attributes. -/
def stepWith (apply : Snapshot → σ → σ) (x : System σ) : Event → Option (System σ)
  | .poll e =>
    (x.poller.step e).map fun poller => { x with poller, queued := x.queued + x.enqueues e }
  | .clusterFailure =>
    if x.cluster = .initialising then some { x with cluster := .failed } else none
  | .registerCallback =>
    if x.cluster = .initialising then some { x with cluster := .registered, callback := true }
    else none
  | .directApply =>
    if x.cluster = .registered then
      some { x with
        cluster := .finished
        attributes := apply x.poller.snapshot x.attributes }
    else none
  | .dequeuedApply =>
    if 0 < x.queued then
      some { x with
        queued := x.queued - 1
        attributes := apply x.poller.snapshot x.attributes }
    else none

def step (store : AttributeStore σ) : System σ → Event → Option (System σ) :=
  stepWith (applyLatestMeasurement store)

def machine (store : AttributeStore σ) : Machine (System σ) Event := ⟨step store⟩

/-- Before the first tick, with `ClusterInit` still to run and every attribute
    null or unknown. -/
structure Start (store : AttributeStore σ) (p₀ : Policy) (x : System σ) : Prop where
  poller : x.poller = { policy := p₀ }
  callback : x.callback = false
  cluster : x.cluster = .initialising
  queued : x.queued = 0
  attributes : ∀ a, store.read x.attributes a = a.initial

end System

/-- The history of a run: its ticks, and those that had published when the
    attributes were last written. -/
structure History where
  poll : PollHistory := {}
  written : Option (List Tick) := none

/-- An apply writes the attributes only when the snapshot is valid. -/
def History.record {σ : Type} (h : History) (x : System σ) : Event → History
  | .poll e => { h with poll := h.poll.record e }
  | .directApply | .dequeuedApply =>
    { h with
      written := if x.poller.snapshot.everValid then some h.poll.published else h.written }
  | _ => h

/-- The states a run can reach, with the history that led there. -/
def Reaches {σ : Type} (store : AttributeStore σ) (p₀ : Policy) (x : System σ) (h : History) :
    Prop :=
  ((System.machine store).observe History.record).Reachable
    (fun x => System.Start store p₀ x.1 ∧ x.2 = {}) (x, h)

/-- The attributes hold what the newest write left, or are still initial. -/
def WrittenFrom {σ : Type} (store : AttributeStore σ) (p₀ : Policy) (attributes : σ) :
    Option (List Tick) → Prop
  | none => ∀ a, store.read attributes a = a.initial
  | some ticks => (p₀.afterTicks ticks).everValid = true ∧
      ∃ s, attributes = applyLatestMeasurement store (p₀.snapshotAfter ticks) s

/-- The history records every run: each reachable state is reached with one. -/
theorem exists_reaches {σ : Type} {store : AttributeStore σ} {p₀ : Policy} {x : System σ}
    (hreach : (System.machine store).Reachable (System.Start store p₀) x) :
    ∃ h, Reaches store p₀ x h :=
  hreach.observe History.record {}

/-- The whole tick that reads a frame. -/
def tickOf (frame : Frame) (nowMs : Int) : List Event :=
  [.poll (.readResult (.ofFrame frame nowMs)), .poll .publish, .poll .notify]

/-- A cleanly booted system over plain memory, with its empty history. -/
def cleanStart : System ((a : Attribute) → a.Value) × History :=
  ({ poller := { policy := cleanBoot }, attributes := Attribute.initial }, {})

theorem start_cleanStart : System.Start attributeRam cleanBoot cleanStart.1 :=
  ⟨rfl, rfl, rfl, rfl, fun _ => rfl⟩

/-- The end of a run from there, or its start if an event is refused. -/
def cleanRun (events : List Event) : System ((a : Attribute) → a.Value) × History :=
  (((System.machine attributeRam).observe History.record).run cleanStart events).getD cleanStart

theorem reaches_cleanRun (events : List Event) :
    Reaches attributeRam cleanBoot (cleanRun events).1 (cleanRun events).2 := by
  have hstart : ((System.machine attributeRam).observe History.record).Reachable
      (fun x => System.Start attributeRam cleanBoot x.1 ∧ x.2 = {}) cleanStart :=
    .start ⟨start_cleanStart, rfl⟩
  rw [Reaches, Prod.mk.eta, cleanRun]
  exact hstart.run_getD events

end Publication
