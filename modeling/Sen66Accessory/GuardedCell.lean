import Mathlib.Logic.Function.Basic

/-- A record type whose values are copied member by member. -/
class MemberwiseCopy (R : Type) (ι : outParam Type) where
  /-- The members, in the order they are copied. -/
  members : List ι
  /-- The destination with one member taken from the source. -/
  copy : ι → R → R → R
  /-- Copying every member makes the destination equal to the source. -/
  copy_all : ∀ source target : R,
    members.foldl (fun target i => copy i source target) target = source

namespace GuardedCell

variable {Thread R ι : Type} [DecidableEq Thread] [MemberwiseCopy R ι]

/-- What a thread is doing with the shared record: nothing, storing a value into
    it, or loading it into a buffer, with the members still to be copied. -/
inductive Job (R ι : Type) where
  | none
  | storing (value : R) (rest : List ι)
  | loading (buffer : R) (rest : List ι)
  deriving DecidableEq

/-- A shared record, the owner of its mutex, and the job of every thread. -/
structure Cell (Thread R ι : Type) where
  record : R
  owner : Option Thread := none
  job : Thread → Job R ι := fun _ => .none

/-- The atomic steps of a thread. Taking the mutex starts a job, and releasing
    it ends one whose every member has been copied. -/
inductive Step (R : Type) where
  | lockStore (value : R)
  | lockLoad (buffer : R)
  | copy
  | unlock

/-- The remaining member copies. -/
def copyAll (rest : List ι) (source target : R) : R :=
  rest.foldl (fun target i => MemberwiseCopy.copy i source target) target

def Cell.step (cell : Cell Thread R ι) (t : Thread) : Step R → Option (Cell Thread R ι)
  | .lockStore value =>
    if cell.owner = none then
      some { cell with
        owner := some t
        job := Function.update cell.job t (.storing value (MemberwiseCopy.members R)) }
    else none
  | .lockLoad buffer =>
    if cell.owner = none then
      some { cell with
        owner := some t
        job := Function.update cell.job t (.loading buffer (MemberwiseCopy.members R)) }
    else none
  | .copy =>
    match cell.job t with
    | .storing value (i :: rest) =>
      some { cell with
        record := MemberwiseCopy.copy i value cell.record
        job := Function.update cell.job t (.storing value rest) }
    | .loading buffer (i :: rest) =>
      some { cell with
        job := Function.update cell.job t
          (.loading (MemberwiseCopy.copy i cell.record buffer) rest) }
    | _ => none
  | .unlock =>
    match cell.job t with
    | .storing _ [] | .loading _ [] =>
      some { cell with owner := none, job := Function.update cell.job t .none }
    | _ => none

/-- All that a step of a thread can do. -/
theorem Cell.step_cases {cell cell' : Cell Thread R ι} {t : Thread} {e : Step R}
    (hstep : cell.step t e = some cell') :
    (∃ value, e = .lockStore value ∧ cell.owner = none ∧
      cell' = { cell with
        owner := some t
        job := Function.update cell.job t (.storing value (MemberwiseCopy.members R)) }) ∨
    (∃ buffer, e = .lockLoad buffer ∧ cell.owner = none ∧
      cell' = { cell with
        owner := some t
        job := Function.update cell.job t (.loading buffer (MemberwiseCopy.members R)) }) ∨
    (∃ value i rest, e = .copy ∧ cell.job t = .storing value (i :: rest) ∧
      cell' = { cell with
        record := MemberwiseCopy.copy i value cell.record
        job := Function.update cell.job t (.storing value rest) }) ∨
    (∃ buffer i rest, e = .copy ∧ cell.job t = .loading buffer (i :: rest) ∧
      cell' = { cell with
        job := Function.update cell.job t
          (.loading (MemberwiseCopy.copy i cell.record buffer) rest) }) ∨
    (∃ value, e = .unlock ∧ cell.job t = .storing value [] ∧
      cell' = { cell with owner := none, job := Function.update cell.job t .none }) ∨
    (∃ buffer, e = .unlock ∧ cell.job t = .loading buffer [] ∧
      cell' = { cell with owner := none, job := Function.update cell.job t .none }) := by
  cases e with
  | lockStore value =>
    obtain ⟨hfree, hnext⟩ := Option.ite_none_right_eq_some.mp hstep
    exact .inl ⟨value, rfl, hfree, (Option.some_inj.mp hnext).symm⟩
  | lockLoad buffer =>
    obtain ⟨hfree, hnext⟩ := Option.ite_none_right_eq_some.mp hstep
    exact .inr (.inl ⟨buffer, rfl, hfree, (Option.some_inj.mp hnext).symm⟩)
  | copy =>
    dsimp only [Cell.step] at hstep
    split at hstep
    · rename_i value i rest hjob
      exact .inr (.inr (.inl ⟨value, i, rest, rfl, hjob, (Option.some_inj.mp hstep).symm⟩))
    · rename_i buffer i rest hjob
      exact .inr (.inr (.inr (.inl ⟨buffer, i, rest, rfl, hjob, (Option.some_inj.mp hstep).symm⟩)))
    · cases hstep
  | unlock =>
    dsimp only [Cell.step] at hstep
    split at hstep
    · rename_i value hjob
      exact .inr (.inr (.inr (.inr (.inl ⟨value, rfl, hjob, (Option.some_inj.mp hstep).symm⟩))))
    · rename_i buffer hjob
      exact .inr (.inr (.inr (.inr (.inr ⟨buffer, rfl, hjob, (Option.some_inj.mp hstep).symm⟩))))
    · cases hstep

/-- A step of one thread leaves the jobs of the others alone. -/
theorem Cell.job_of_ne {cell cell' : Cell Thread R ι} {t u : Thread} {e : Step R}
    (hstep : cell.step t e = some cell') (hu : u ≠ t) : cell'.job u = cell.job u := by
  obtain ⟨_, _, _, rfl⟩ | ⟨_, _, _, rfl⟩ | ⟨_, _, _, _, _, rfl⟩ | ⟨_, _, _, _, _, rfl⟩ |
    ⟨_, _, _, rfl⟩ | ⟨_, _, _, rfl⟩ := Cell.step_cases hstep <;>
  exact Function.update_of_ne hu _ _

/-- The value last stored in full, given the one before the step. -/
def Cell.commit (cell : Cell Thread R ι) (t : Thread) (committed : R) : Step R → R
  | .unlock =>
    match cell.job t with
    | .storing value [] => value
    | _ => committed
  | _ => committed

omit [DecidableEq Thread] [MemberwiseCopy R ι] in
/-- A thread that is not storing commits nothing. -/
theorem Cell.commit_of_not_storing {cell : Cell Thread R ι} {t : Thread} (committed : R)
    (e : Step R) (hjob : ∀ value, cell.job t ≠ .storing value []) :
    cell.commit t committed e = committed := by
  cases e with
  | unlock =>
    dsimp only [Cell.commit]
    split
    · rename_i value h
      exact absurd h (hjob value)
    · rfl
  | lockStore value => rfl
  | lockLoad buffer => rfl
  | copy => rfl

/-- The state of a job that holds the mutex: what is left to copy completes the
    store, or the load of the committed value. -/
def Job.Sound (record committed : R) : Job R ι → Prop
  | .none => False
  | .storing value rest => copyAll rest value record = value
  | .loading buffer rest => record = committed ∧ copyAll rest record buffer = record

/-- The invariant of a guarded record: only the owner of the mutex has a job,
    and without an owner the record is the committed value. -/
structure Guarded (cell : Cell Thread R ι) (committed : R) : Prop where
  free : cell.owner = none → cell.record = committed
  exclusive : ∀ t, cell.owner ≠ some t → cell.job t = .none
  sound : ∀ t, cell.owner = some t → (cell.job t).Sound cell.record committed

namespace Guarded

variable {cell cell' : Cell Thread R ι} {committed : R} {t : Thread}

omit [DecidableEq Thread] in
theorem start (record : R) : Guarded ({ record } : Cell Thread R ι) record where
  free _ := rfl
  exclusive _ _ := rfl
  sound _ h := nomatch h

omit [DecidableEq Thread] in
/-- A thread with a job owns the mutex. -/
theorem owner_eq (hguarded : Guarded cell committed) (hjob : cell.job t ≠ .none) :
    cell.owner = some t := by
  by_contra hother
  exact hjob (hguarded.exclusive t hother)

omit [DecidableEq Thread] in
/-- A thread that has no job left but the last copy of a load has copied the
    committed value, whole. -/
theorem loaded (hguarded : Guarded cell committed) {buffer : R}
    (hjob : cell.job t = .loading buffer []) : buffer = committed := by
  have hsound := hguarded.sound t (hguarded.owner_eq (by rw [hjob]; nofun))
  rw [hjob] at hsound
  exact hsound.2.trans hsound.1

/-- A record stays guarded when its owner alone gets another sound job. -/
theorem hold {record : R} {job : Job R ι} (hothers : ∀ u, u ≠ t → cell.job u = .none)
    (hsound : job.Sound record committed) :
    Guarded ⟨record, some t, Function.update cell.job t job⟩ committed where
  free h := nomatch h
  exclusive u hu := by
    have hne : u ≠ t := fun h => hu (by rw [h])
    simpa only [Function.update_of_ne hne] using hothers u hne
  sound u hu := by
    cases hu
    simpa only [Function.update_self] using hsound

/-- Releasing the mutex leaves no job. -/
theorem release {record : R} (hothers : ∀ u, u ≠ t → cell.job u = .none)
    (hrecord : record = committed) :
    Guarded ⟨record, none, Function.update cell.job t .none⟩ committed where
  free _ := hrecord
  exclusive u _ := by
    dsimp only
    by_cases hu : u = t
    · rw [hu, Function.update_self]
    · rw [Function.update_of_ne hu, hothers u hu]
  sound _ h := nomatch h

/-- Every step of every thread keeps the invariant, with the value it commits. -/
theorem step (hguarded : Guarded cell committed) {e : Step R}
    (hstep : cell.step t e = some cell') : Guarded cell' (cell.commit t committed e) := by
  have hfree (hnone : cell.owner = none) : ∀ u, u ≠ t → cell.job u = .none :=
    fun u _ => hguarded.exclusive u (by rw [hnone]; nofun)
  have hheld (hjob : cell.job t ≠ .none) :
      cell.owner = some t ∧ (cell.job t).Sound cell.record committed ∧
        ∀ u, u ≠ t → cell.job u = .none := by
    have howner := hguarded.owner_eq hjob
    refine ⟨howner, hguarded.sound t howner, fun u hu => hguarded.exclusive u ?_⟩
    rw [howner]
    exact fun h => hu (Option.some_inj.mp h).symm
  obtain ⟨value, rfl, hnone, rfl⟩ | ⟨buffer, rfl, hnone, rfl⟩ | ⟨value, i, rest, rfl, hjob, rfl⟩ |
    ⟨buffer, i, rest, rfl, hjob, rfl⟩ | ⟨value, rfl, hjob, rfl⟩ | ⟨buffer, rfl, hjob, rfl⟩ :=
    Cell.step_cases hstep
  · exact hold (hfree hnone) (MemberwiseCopy.copy_all value cell.record)
  · exact hold (hfree hnone)
      ⟨hguarded.free hnone, MemberwiseCopy.copy_all cell.record buffer⟩
  · obtain ⟨howner, hsound, hothers⟩ := hheld (by rw [hjob]; nofun)
    rw [hjob] at hsound
    rw [howner]
    exact hold hothers hsound
  · obtain ⟨howner, hsound, hothers⟩ := hheld (by rw [hjob]; nofun)
    rw [hjob] at hsound
    rw [howner]
    exact hold hothers hsound
  · obtain ⟨_, hsound, hothers⟩ := hheld (by rw [hjob]; nofun)
    rw [hjob] at hsound
    rw [Cell.commit, hjob]
    exact release hothers hsound
  · obtain ⟨_, hsound, hothers⟩ := hheld (by rw [hjob]; nofun)
    rw [hjob] at hsound
    rw [Cell.commit, hjob]
    exact release hothers hsound.1

end Guarded

end GuardedCell
