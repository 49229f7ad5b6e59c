import Sen66Accessory.Bus.Manners
import Sen66Accessory.BusThreads.Atomicity

/-- A thread in the middle of a courteous routine. -/
def Stage.Courteous {α : Type} (limit : Nat) (held : Option Nat) : Stage α → Prop
  | .running rest => rest.Courteous limit false held
  | .received _ answer next => held.isSome = true ∧ (next answer).Courteous limit false held

namespace BusThreads

variable {Thread Call : Type} [DecidableEq Thread] {Result : Call → Type}

/-- How long the mutex's owner has waited since it took it, or the last one did. -/
def recordHeld (held : Nat) (s : System Thread Result) : Step Thread Call → Nat
  | .lock _ => 0
  | .sleep t =>
    match s.job t with
    | some ⟨_, _, .running (.sleep ms _)⟩ => if s.owner = some t then held + ms else held
    | _ => held
  | _ => held

/-- What a thread may still wait with the mutex in hand, if it has it. -/
def System.left (s : System Thread Result) (limit held : Nat) (t : Thread) : Option Nat :=
  if s.owner = some t then some (limit - held) else none

/-- The invariant of all interleavings of courteous routines. -/
structure Polite (limit : Nat) (s : System Thread Result) (held : Nat) : Prop where
  held_le : held ≤ limit
  owning : ∀ t, s.owner = some t → (s.job t).isSome = true
  courteous : ∀ t job, s.job t = some job → job.stage.Courteous limit (s.left limit held t)
  unfinished : ∀ t job result, s.job t = some job → job.stage ≠ .running (.done result)

namespace Polite

variable {routine : (c : Call) → Transfer (Result c)} {limit held held' : Nat}
  {s s' : System Thread Result} {t : Thread}

theorem start : Polite limit ({} : System Thread Result) 0 where
  held_le := Nat.zero_le limit
  owning _ h := nomatch h
  courteous _ _ h := nomatch h
  unfinished _ _ _ h := nomatch h

theorem left_isSome :
    (s.left limit held t).isSome = true ↔ s.owner = some t := by
  rw [System.left]
  split <;> simp_all

/-- One thread goes on and the others notice nothing. -/
theorem proceed (h : Polite limit s held) (hle : held' ≤ limit) {new : Option (Job Result)}
    (hjob : s'.job = Function.update s.job t new)
    (hothers : ∀ u, u ≠ t → s'.left limit held' u = s.left limit held u)
    (hnew : ∀ job, new = some job → job.stage.Courteous limit (s'.left limit held' t) ∧
      ∀ result, job.stage ≠ .running (.done result))
    (howner : s'.owner = some t → new.isSome = true) : Polite limit s' held' where
  held_le := hle
  owning u hu := by
    by_cases hut : u = t
    · rw [hjob, hut, Function.update_self]
      exact howner (hut ▸ hu)
    · rw [hjob, Function.update_of_ne hut]
      exact h.owning u (left_isSome.mp (hothers u hut ▸ left_isSome.mpr hu))
  courteous u job hu := by
    by_cases hut : u = t
    · rw [hjob, hut, Function.update_self] at hu
      rw [hut]
      exact (hnew job hu).1
    · rw [hjob, Function.update_of_ne hut] at hu
      rw [hothers u hut]
      exact h.courteous u job hu
  unfinished u job result hu := by
    by_cases hut : u = t
    · rw [hjob, hut, Function.update_self] at hu
      exact (hnew job hu).2 result
    · rw [hjob, Function.update_of_ne hut] at hu
      exact h.unfinished u job result hu

/-- A thread goes on with the courteous rest of its call. -/
theorem resume (h : Polite limit s held) (hle : held' ≤ limit) {id : Nat} {c : Call}
    {rest : Transfer (Result c)} (hjob : s'.job = (s.resume t id c rest).job)
    (hothers : ∀ u, u ≠ t → s'.left limit held' u = s.left limit held u)
    (hrest : rest.Courteous limit false (s'.left limit held' t)) : Polite limit s' held' := by
  refine h.proceed hle hjob hothers (fun job hnew => ?_) fun howner => ?_
  · obtain ⟨hdone, hjob⟩ := Option.ite_none_left_eq_some.mp hnew
    cases hjob
    exact ⟨hrest, fun result hstage => hdone (congrArg Transfer.isDone (Stage.running.inj hstage))⟩
  · -- The owner of the mutex has to give it back before it is done.
    cases rest with
    | done result =>
      have hfree : (s'.left limit held' t).isSome = false := hrest
      rw [left_isSome.mpr howner] at hfree
      cases hfree
    | _ => rfl

/-- Every step of every thread keeps the invariant, when every routine is
    courteous. -/
theorem step (hroutine : ∀ c, (routine c).Courteous limit false none) (h : Polite limit s held)
    {e : Step Thread Call} (hstep : s.step routine e = some s') :
    Polite limit s' (recordHeld held s e) := by
  obtain ⟨t, c, rfl, hjob, rfl⟩ | ⟨t, id, c, next, rfl, hjob, hfree, rfl⟩ |
    ⟨t, err, reached, id, c, bytes, next, rfl, hjob, rfl⟩ | ⟨t, id, c, ms, next, rfl, hjob, rfl⟩ |
    ⟨t, err, data, id, c, length, next, rfl, hjob, rfl⟩ |
    ⟨t, id, c, source, length, answer, next, rfl, hjob, rfl⟩ | ⟨t, id, c, next, rfl, hjob, rfl⟩ :=
    System.step_cases routine hstep
  · have hidle : s.left limit held t = none := by
      by_contra hne
      have howning := h.owning t (left_isSome.mp (Option.isSome_iff_ne_none.mpr hne))
      rw [hjob] at howning
      cases howning
    refine h.resume h.held_le rfl (fun _ _ => rfl) ?_
    change (routine c).Courteous limit false (s.left limit held t)
    rw [hidle]
    exact hroutine c
  · have hrest : next.Courteous limit false (some limit) := (h.courteous t _ hjob).2
    refine h.resume (Nat.zero_le limit) rfl (fun u hut => ?_) ?_
    · simp [System.left, hfree, hut.symm]
    · simpa [System.left, recordHeld] using hrest
  · exact h.resume h.held_le rfl (fun _ _ => rfl) ((h.courteous t _ hjob).2 err)
  · have hrest := h.courteous t _ hjob
    by_cases howner : s.owner = some t
    · have hleft : s.left limit held t = some (limit - held) := if_pos howner
      have hheld : recordHeld held s (.sleep t : Step Thread Call) = held + ms := by
        simp [recordHeld, hjob, howner]
      have hle := h.held_le
      rw [Stage.Courteous, hleft] at hrest
      obtain ⟨hshort, hnext⟩ := hrest
      rw [hheld]
      refine h.resume (by omega) rfl (fun u hut => ?_) ?_
      · simp [System.left, System.resume, howner, hut.symm]
      · have hless : (s.resume t id c next).left limit (held + ms) t =
            some (limit - held - ms) := by
          rw [Nat.sub_sub]
          exact if_pos howner
        rwa [hless]
    · have hleft : s.left limit held t = none := if_neg howner
      have hheld : recordHeld held s (.sleep t : Step Thread Call) = held := by
        simp [recordHeld, hjob, howner]
      rw [Stage.Courteous, hleft] at hrest
      rw [hheld]
      refine h.resume h.held_le rfl (fun _ _ => rfl) ?_
      change next.Courteous limit false (s.left limit held t)
      rwa [hleft]
  · obtain ⟨hheld, hrest⟩ := h.courteous t _ hjob
    refine h.proceed h.held_le rfl (fun _ _ => rfl) (fun job hnew => ?_) fun _ => rfl
    cases hnew
    refine ⟨⟨hheld, hrest _⟩, fun result hstage => ?_⟩
    cases hstage
  · exact h.resume h.held_le rfl (fun _ _ => rfl) (h.courteous t _ hjob).2
  · obtain ⟨hheld, hrest⟩ := h.courteous t _ hjob
    have howner : s.owner = some t := left_isSome.mp hheld
    refine h.resume h.held_le rfl (fun u hut => ?_) ?_
    · simp [System.left, howner, hut.symm]
    · simpa [System.left, howner, recordHeld] using hrest

end Polite

section

variable {routine : (c : Call) → Transfer (Result c)} {limit held : Nat}
  {s : System Thread Result}

/-- Every state an interleaving can reach is polite. -/
theorem polite_of_reachable (hroutine : ∀ c, (routine c).Courteous limit false none)
    (hreach : ((machine routine).observe recordHeld).Reachable
      (fun x => x.1 = ({} : System Thread Result) ∧ x.2 = 0) (s, held)) : Polite limit s held := by
  apply hreach.invariant (I := fun x => Polite limit x.1 x.2)
  · rintro ⟨s, held⟩ ⟨rfl, rfl⟩
    exact Polite.start
  · rintro ⟨s, held⟩ e ⟨s', held'⟩ _ hpolite hstep
    obtain ⟨hnext, rfl⟩ := Machine.observe_step.mp hstep
    exact hpolite.step hroutine hnext

/-- While the mutex is free, every thread in a call can go on. -/
theorem Polite.can_step (h : Polite limit s held) (hfree : s.owner = none) {t : Thread}
    {job : Job Result} (hjob : s.job t = some job) :
    ∃ e : Step Thread Call, e.thread = t ∧ (s.step routine e).isSome = true := by
  have hcourteous := h.courteous t job hjob
  have hleft : s.left limit held t = none := by simp [System.left, hfree]
  rw [hleft] at hcourteous
  obtain ⟨id, c, stage⟩ := job
  cases stage with
  | received source answer next => cases hcourteous.1
  | running rest =>
    cases rest with
    | done result => exact absurd rfl (h.unfinished t _ result hjob)
    | lock next => exact ⟨.lock t, rfl, by simp [System.step, hjob, hfree]⟩
    | sleep ms next => exact ⟨.sleep t, rfl, by simp [System.step, hjob]⟩
    | unlock next => cases hcourteous.1
    | write bytes next => cases hcourteous.1
    | read length next => cases hcourteous.1

section

variable {σ : Type} (bus : Bus σ) {t : Thread} {id : Nat} {c : Call}

/-- A run of one thread's steps over a bus. -/
def OwnRun (routine : (c : Call) → Transfer (Result c)) (t : Thread)
    (x x' : System Thread Result × σ) : Prop :=
  ∃ steps : List (Step Thread Call), (∀ e ∈ steps, e.thread = t) ∧
    (onBus routine bus).run x steps = some x'

variable {bus}

theorem OwnRun.cons {s s' : System Thread Result} {b b' : σ} {x : System Thread Result × σ}
    {e : Step Thread Call} (hown : e.thread = t) (hstep : s.step routine e = some s')
    (hanswer : s.answered bus b e = some b') (hrest : OwnRun bus routine t (s', b') x) :
    OwnRun bus routine t (s, b) x := by
  obtain ⟨steps, hsteps, hrun⟩ := hrest
  have hfirst : (onBus routine bus).step (s, b) e = some (s', b') := by
    change (s.step routine e).bind _ = _
    rw [hstep, Option.bind_some, hanswer, Option.map_some]
  refine ⟨e :: steps, fun e' hmem => ?_, by rw [Machine.run, hfirst, Option.bind_some, hrun]⟩
  rcases List.mem_cons.mp hmem with rfl | hmem
  · exact hown
  · exact hsteps e' hmem

/-- A thread that still holds the mutex stays in its call. -/
theorem job_resume_of_courteous {rest : Transfer (Result c)} {left : Nat}
    (hrest : rest.Courteous limit false (some left)) (s : System Thread Result) :
    (s.resume t id c rest).job t = some ⟨id, c, .running rest⟩ := by
  cases rest with
  | done result => cases (show true = false from hrest)
  | _ => exact Function.update_self _ _ _

/-- What is left of a courteous routine gives the mutex back, by its own steps
    and whatever the bus answers. -/
theorem exists_free {rest : Transfer (Result c)} {left : Nat} {b : σ}
    (hrest : rest.Courteous limit false (some left)) (howner : s.owner = some t)
    (hjob : s.job t = some ⟨id, c, .running rest⟩) :
    ∃ s' b', OwnRun bus routine t (s, b) (s', b') ∧ s'.owner = none := by
  induction rest generalizing s b left with
  | done result => cases (show true = false from hrest)
  | lock next => cases hrest.1
  | unlock next =>
    have hstep : s.step routine (.unlock t) = some { s.resume t id c next with owner := none } := by
      simp only [System.step, hjob, howner, if_true]
    exact ⟨_, b, .cons rfl hstep rfl ⟨[], nofun, rfl⟩, rfl⟩
  | write bytes next ih =>
    let err := (bus.write b bytes).1
    obtain ⟨s', b', hrun, hfree⟩ := ih err (hrest.2 err)
      (s := { s.resume t id c (next err) with
        accepted := if err = 0 ∨ false = true then some (id, bytes) else s.accepted })
      (b := (bus.write b bytes).2) howner (job_resume_of_courteous (hrest.2 err) s)
    exact ⟨s', b', .cons (e := .write t err false) rfl (by simp only [System.step, hjob])
      (by simp only [System.answered, hjob, err, if_true]) hrun, hfree⟩
  | sleep ms next ih =>
    obtain ⟨s', b', hrun, hfree⟩ := ih (s := s.resume t id c next) (b := b) hrest.2 howner
      (job_resume_of_courteous hrest.2 s)
    exact ⟨s', b', .cons (e := .sleep t) rfl (by simp only [System.step, hjob]) rfl hrun, hfree⟩
  | read length next ih =>
    let answer := (bus.read b length).1
    let data : Nat → UInt8 := fun i => if h : i < length then answer.2[i] else 0
    have hdata : (Vector.ofFn fun i : Fin length => data i) = answer.2 := by
      ext i hi
      simp [data]
    let received : System Thread Result := { s with
      job := Function.update s.job t (some ⟨id, c, .received s.accepted answer next⟩) }
    obtain ⟨s', b', hrun, hfree⟩ := ih answer (hrest.2 answer)
      (s := received.resume t id c (next answer)) (b := (bus.read b length).2) howner
      (job_resume_of_courteous (hrest.2 answer) received)
    have hread : s.step routine (.read t answer.1 data) = some received := by
      simp only [System.step, hjob, hdata, Prod.mk.eta, received]
    have hparse : received.step routine (.parse t) =
        some (received.resume t id c (next answer)) := by
      simp only [System.step, received, Function.update_self]
    have hanswer : s.answered bus b (.read t answer.1 data) = some (bus.read b length).2 := by
      simp only [System.answered, hjob, hdata, Prod.mk.eta, answer, if_true]
    exact ⟨s', b', .cons rfl hread hanswer (.cons rfl hparse rfl hrun), hfree⟩

/-- The mutex never stays with its owner: from every polite state the owner's
    steps give it back, whatever the bus answers. -/
theorem Polite.exists_free (h : Polite limit s held) (howner : s.owner = some t) (b : σ) :
    ∃ s' b', OwnRun bus routine t (s, b) (s', b') ∧ s'.owner = none := by
  obtain ⟨⟨id, c, stage⟩, hjob⟩ := Option.isSome_iff_exists.mp (h.owning t howner)
  have hcourteous := h.courteous t _ hjob
  have hleft : s.left limit held t = some (limit - held) := if_pos howner
  rw [hleft] at hcourteous
  cases stage with
  | running rest => exact BusThreads.exists_free hcourteous howner hjob
  | received source answer next =>
    obtain ⟨s', b', hrun, hfree⟩ := BusThreads.exists_free (s := s.resume t id c (next answer))
      (b := b) hcourteous.2 howner (job_resume_of_courteous hcourteous.2 s)
    exact ⟨s', b', .cons (e := .parse t) rfl (by simp only [System.step, hjob]) rfl hrun, hfree⟩

end

end

end BusThreads
