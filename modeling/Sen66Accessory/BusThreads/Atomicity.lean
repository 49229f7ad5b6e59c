import Sen66Accessory.BusThreads

/-- Run what is left of a routine alone on a bus. -/
def Stage.run {α σ : Type} (bus : Bus σ) : Stage α → σ → α × σ
  | .running rest, b => rest.run bus b
  | .received _ answer next, b => (next answer).run bus b

namespace BusThreads

/-- What the callers of the bus see of a run, by the number of the call. -/
inductive CallEvent {Call : Type} (Result : Call → Type) where
  | invoked (id : Nat) (c : Call)
  | returned (id : Nat) (c : Call) (result : Result c)

/-- The number of the call an event belongs to. -/
def CallEvent.id {Call : Type} {Result : Call → Type} : CallEvent Result → Nat
  | .invoked id _ => id
  | .returned id _ _ => id

section

variable {Thread Call σ : Type} [DecidableEq Thread] {Result : Call → Type}
  (routine : (c : Call) → Transfer (Result c)) (bus : Bus σ)

/-- Where a step takes the bus, if the answers of the step are those it gives. -/
def System.answered (s : System Thread Result) (b : σ) : Step Thread Call → Option σ
  | .write t err _ =>
    match s.job t with
    | some ⟨_, _, .running (.write bytes _)⟩ =>
      if err = (bus.write b bytes).1 then some (bus.write b bytes).2 else none
    | _ => none
  | .read t err data =>
    match s.job t with
    | some ⟨_, _, .running (.read length _)⟩ =>
      if (err, Vector.ofFn fun i : Fin length => data i) = (bus.read b length).1 then
        some (bus.read b length).2
      else none
    | _ => none
  | _ => some b

/-- The threads together with the bus they share. -/
def onBus : Machine (System Thread Result × σ) (Step Thread Call) where
  step x e := (x.1.step routine e).bind fun s => (x.1.answered bus x.2 e).map fun b => (s, b)

/-- What a step adds to the calls' events. -/
def System.event (s : System Thread Result) : Step Thread Call → Option (CallEvent Result)
  | .call _ c => some (.invoked s.calls c)
  | .unlock t =>
    match s.job t with
    | some ⟨id, c, .running (.unlock (.done result))⟩ => some (.returned id c result)
    | _ => none
  | _ => none

/-- The events of a run, newest first. -/
def recordEvent (events : List (CallEvent Result)) (x : System Thread Result × σ)
    (e : Step Thread Call) : List (CallEvent Result) :=
  (x.1.event e).toList ++ events

/-- The states a run on a bus can reach from no calls at all, with its events. -/
def ReachesOn (b₀ : σ) (s : System Thread Result) (b : σ) (events : List (CallEvent Result)) :
    Prop :=
  ((onBus routine bus).observe recordEvent).Reachable (fun x => x.1 = ({}, b₀) ∧ x.2 = [])
    ((s, b), events)

/-- The returns among the events, with the call each of them answers. -/
def returns : List (CallEvent Result) → List ((c : Call) × Result c)
  | [] => []
  | .invoked _ _ :: events => returns events
  | .returned _ c result :: events => ⟨c, result⟩ :: returns events

/-- The results of calls made one after another, newest first, and where they
    leave the bus. -/
inductive Sequential (b₀ : σ) : List ((c : Call) × Result c) → σ → Prop where
  | nil : Sequential b₀ [] b₀
  | cons {calls : List ((c : Call) × Result c)} {b : σ} (hcalls : Sequential b₀ calls b)
      (c : Call) :
      Sequential b₀ (⟨c, ((routine c).run bus b).1⟩ :: calls) ((routine c).run bus b).2

end

section

variable {Thread Call σ : Type} {Result : Call → Type}
  {execution : List UInt8 → Nat} {routine : (c : Call) → Transfer (Result c)} {bus : Bus σ}
  {b₀ b b' : σ}
  {s s' : System Thread Result} {events : List (CallEvent Result)} {t : Thread}

/-- The invariant of all interleavings over a bus: a call that does not own the
    mutex has not begun, and the rest of the one that does makes of the bus what
    the whole call would have made of it after the calls that have returned. -/
structure Atomic (execution : List UInt8 → Nat) (routine : (c : Call) → Transfer (Result c))
    (bus : Bus σ) (b₀ : σ) (s : System Thread Result) (b : σ)
    (events : List (CallEvent Result)) : Prop where
  disciplined : ∃ log, Disciplined execution s log
  waiting : ∀ t job, s.owner ≠ some t → s.job t = some job →
    job.stage = .running (routine job.call)
  free : s.owner = none → Sequential routine bus b₀ (returns events) b
  holding : ∀ t job, s.owner = some t → s.job t = some job →
    ∃ settled, Sequential routine bus b₀ (returns events) settled ∧
      job.stage.run bus b = (routine job.call).run bus settled

namespace Atomic

theorem start : Atomic execution routine bus b₀ ({} : System Thread Result) b₀ [] where
  disciplined := ⟨[], Disciplined.start⟩
  waiting _ _ _ h := nomatch h
  free _ := .nil
  holding _ _ h := nomatch h

variable [DecidableEq Thread]

/-- The owner of the mutex goes on, or a thread takes it. -/
theorem proceed (h : Atomic execution routine bus b₀ s b events) (hdisciplined : ∃ log, Disciplined execution s' log)
    (howner : s.owner = some t ∨ s.owner = none) (hnext : s'.owner = some t) {id : Nat} {c : Call}
    {stage : Stage (Result c)} (hjob : s'.job = Function.update s.job t (some ⟨id, c, stage⟩))
    {settled : σ} (hsettled : Sequential routine bus b₀ (returns events) settled)
    (hrun : stage.run bus b' = (routine c).run bus settled) :
    Atomic execution routine bus b₀ s' b' events where
  disciplined := hdisciplined
  waiting u job hu hother := by
    have hne : u ≠ t := fun h => hu (by rw [h, hnext])
    rw [hjob, Function.update_of_ne hne] at hother
    refine h.waiting u job (fun h => ?_) hother
    rcases howner with howner | howner
    · exact hne (Option.some_inj.mp (h.symm.trans howner))
    · cases h.symm.trans howner
  free hnone := by
    cases hnext.symm.trans hnone
  holding u job hu hheld := by
    obtain rfl : t = u := Option.some_inj.mp (hnext.symm.trans hu)
    rw [hjob, Function.update_self] at hheld
    cases hheld
    exact ⟨settled, hsettled, hrun⟩

end Atomic

/-- A thread that still owns the mutex has something left to do. -/
theorem Disciplined.job_resume [DecidableEq Thread] {log : List Entry} (h : Disciplined execution s' log)
    (howner : s'.owner = some t) {id : Nat} {c : Call} {rest : Transfer (Result c)}
    (hjob : s'.job = (s.resume t id c rest).job) :
    s'.job = Function.update s.job t (some ⟨id, c, .running rest⟩) := by
  obtain ⟨job, _, hheld, _⟩ := h.holding t howner
  cases hdone : rest.isDone with
  | true =>
    rw [hjob, resume_of_done hdone] at hheld
    dsimp only at hheld
    rw [Function.update_self] at hheld
    cases hheld
  | false => rw [hjob, resume_of_not_done hdone]

/-- Every step of every thread keeps the invariant, when every routine is one
    exchange. -/
theorem Atomic.step [DecidableEq Thread] (hroutine : ∀ c, Exchange execution (routine c))
    (h : Atomic execution routine bus b₀ s b events) {e : Step Thread Call}
    (hstep : s.step routine e = some s') (hanswer : s.answered bus b e = some b') :
    Atomic execution routine bus b₀ s' b' (recordEvent events (s, b) e) := by
  obtain ⟨log, hbefore⟩ := h.disciplined
  have hafter := hbefore.step hroutine hstep
  have hdisciplined : ∃ log, Disciplined execution s' log := ⟨_, hafter⟩
  obtain ⟨t, c, rfl, hjob, rfl⟩ | ⟨t, id, c, next, rfl, hjob, hfree, rfl⟩ |
    ⟨t, err, reached, id, c, bytes, next, rfl, hjob, rfl⟩ | ⟨t, id, c, ms, next, rfl, hjob, rfl⟩ |
    ⟨t, err, data, id, c, length, next, rfl, hjob, rfl⟩ |
    ⟨t, id, c, source, length, answer, next, rfl, hjob, rfl⟩ | ⟨t, id, c, next, rfl, hjob, rfl⟩ :=
    System.step_cases routine hstep
  · -- The new call has yet to take the mutex.
    cases hanswer
    have hidle : s.owner ≠ some t := by
      intro howner
      obtain ⟨_, _, hheld, _⟩ := hbefore.holding t howner
      cases hjob.symm.trans hheld
    rw [resume_of_not_done (hroutine c).not_done] at hdisciplined ⊢
    refine ⟨hdisciplined, fun u job hu hother => ?_, h.free, fun u job hu hheld => ?_⟩
    · dsimp only at hother
      by_cases hut : u = t
      · rw [hut, Function.update_self] at hother
        cases hother
        rfl
      · rw [Function.update_of_ne hut] at hother
        exact h.waiting u job hu hother
    · dsimp only at hheld
      have hut : u ≠ t := fun hut => hidle (by rw [← hut, hu])
      rw [Function.update_of_ne hut] at hheld
      exact h.holding u job hu hheld
  · cases hanswer
    have hwhole := h.waiting t _ (by rw [hfree]; nofun) hjob
    dsimp only at hwhole
    refine h.proceed hdisciplined (.inr hfree) rfl (hafter.job_resume rfl rfl) (h.free hfree) ?_
    rw [← Stage.running.inj hwhole]
    rfl
  · have howner := (hbefore.progress hjob trivial).1
    obtain ⟨settled, hsettled, hrun⟩ := h.holding t _ howner hjob
    simp only [System.answered, hjob] at hanswer
    obtain ⟨rfl, hnext⟩ := Option.ite_none_right_eq_some.mp hanswer
    cases hnext
    exact h.proceed hdisciplined (.inl howner) howner (hafter.job_resume howner rfl) hsettled hrun
  · cases hanswer
    have howner := (hbefore.progress hjob trivial).1
    obtain ⟨settled, hsettled, hrun⟩ := h.holding t _ howner hjob
    exact h.proceed hdisciplined (.inl howner) howner (hafter.job_resume howner rfl) hsettled hrun
  · have howner := (hbefore.progress hjob trivial).1
    obtain ⟨settled, hsettled, hrun⟩ := h.holding t _ howner hjob
    simp only [System.answered, hjob] at hanswer
    obtain ⟨hdata, hnext⟩ := Option.ite_none_right_eq_some.mp hanswer
    cases hnext
    refine h.proceed hdisciplined (.inl howner) howner rfl hsettled ?_
    rw [← hrun, hdata]
    rfl
  · cases hanswer
    have howner := (hbefore.progress hjob trivial).1
    obtain ⟨settled, hsettled, hrun⟩ := h.holding t _ howner hjob
    exact h.proceed hdisciplined (.inl howner) howner (hafter.job_resume howner rfl) hsettled hrun
  · -- The owner releases the mutex and returns.
    cases hanswer
    obtain ⟨howner, phase, hfits, _⟩ := hbefore.progress hjob trivial
    obtain ⟨settled, hsettled, hrun⟩ := h.holding t _ howner hjob
    have hdone : next.isDone = true := by
      cases hfits with
      | rested hrested => exact hrested
      | closing hclosing => exact hclosing
      | ready hready => cases hready
      | sent hsent => cases hsent
    obtain ⟨result, rfl⟩ : ∃ result, next = .done result := by
      cases next <;> first | exact ⟨_, rfl⟩ | cases hdone
    have hreturn : recordEvent events (s, b) (.unlock t) = .returned id c result :: events := by
      simp [recordEvent, System.event, hjob]
    have hcalls := hsettled.cons c
    rw [← hrun] at hcalls
    rw [hreturn]
    rw [resume_of_done hdone, if_pos howner] at hdisciplined ⊢
    refine ⟨hdisciplined, fun u job _ hother => ?_, fun _ => hcalls, nofun⟩
    dsimp only at hother
    by_cases hut : u = t
    · rw [hut, Function.update_self] at hother
      cases hother
    · rw [Function.update_of_ne hut] at hother
      refine h.waiting u job (fun hu => hut ?_) hother
      exact (Option.some_inj.mp (howner.symm.trans hu)).symm

/-- A step begins a call, goes on with one or ends it; it never confuses two. -/
theorem System.job_origin [DecidableEq Thread] {e : Step Thread Call}
    (hstep : s.step routine e = some s') {u : Thread} {job' : Job Result}
    (hjob' : s'.job u = some job') :
    (∃ job, s.job u = some job ∧ job.id = job'.id ∧ job.call = job'.call) ∨
      ∃ c, e = .call u c ∧ job'.id = s.calls ∧ job'.call = c := by
  by_cases hu : u = e.thread
  swap
  · rw [System.job_of_ne hstep hu] at hjob'
    exact .inl ⟨job', hjob', rfl, rfl⟩
  have hresume {id : Nat} {c : Call} {rest : Transfer (Result c)}
      (h : (s.resume u id c rest).job u = some job') : id = job'.id ∧ c = job'.call := by
    rw [System.resume] at h
    dsimp only at h
    rw [Function.update_self] at h
    obtain ⟨_, hjob⟩ := Option.ite_none_left_eq_some.mp h
    cases hjob
    exact ⟨rfl, rfl⟩
  obtain ⟨t, c, rfl, hjob, rfl⟩ | ⟨t, id, c, next, rfl, hjob, _, rfl⟩ |
    ⟨t, err, reached, id, c, bytes, next, rfl, hjob, rfl⟩ | ⟨t, id, c, ms, next, rfl, hjob, rfl⟩ |
    ⟨t, err, data, id, c, length, next, rfl, hjob, rfl⟩ |
    ⟨t, id, c, source, length, answer, next, rfl, hjob, rfl⟩ | ⟨t, id, c, next, rfl, hjob, rfl⟩ :=
    System.step_cases routine hstep
  all_goals obtain rfl : u = t := hu
  · obtain ⟨hid, hcall⟩ := hresume hjob'
    exact .inr ⟨c, rfl, hid.symm, hcall.symm⟩
  · exact .inl ⟨_, hjob, hresume hjob'⟩
  · exact .inl ⟨_, hjob, hresume hjob'⟩
  · exact .inl ⟨_, hjob, hresume hjob'⟩
  · dsimp only at hjob'
    rw [Function.update_self] at hjob'
    cases hjob'
    exact .inl ⟨_, hjob, rfl, rfl⟩
  · exact .inl ⟨_, hjob, hresume hjob'⟩
  · exact .inl ⟨_, hjob, hresume hjob'⟩

/-- The bookkeeping of the calls: every call under way has been invoked and has
    not returned, every return is the only one of a call invoked before, and no
    event of a call comes before its invocation. -/
structure Numbered (s : System Thread Result) (events : List (CallEvent Result)) : Prop where
  bounded : ∀ event ∈ events, event.id < s.calls
  pending : ∀ t job, s.job t = some job →
    .invoked job.id job.call ∈ events ∧ ∀ c result, .returned job.id c result ∉ events
  distinct : ∀ t u job job', s.job t = some job → s.job u = some job' → job.id = job'.id → t = u
  matched : ∀ newer id c result older, events = newer ++ .returned id c result :: older →
    .invoked id c ∈ older ∧ ∀ c' result', .returned id c' result' ∉ older
  fresh : ∀ newer id c older, events = newer ++ .invoked id c :: older →
    ∀ event ∈ older, event.id < id

theorem Numbered.start : Numbered ({} : System Thread Result) [] where
  bounded _ h := nomatch h
  pending _ _ h := nomatch h
  distinct _ _ _ _ h := nomatch h
  matched newer _ _ _ _ h := by cases newer <;> cases h
  fresh newer _ _ _ h := by cases newer <;> cases h

/-- Every call under way in one state is under way in the other. -/
def Kept (s s' : System Thread Result) : Prop :=
  ∀ u job', s'.job u = some job' →
    ∃ job, s.job u = some job ∧ job.id = job'.id ∧ job.call = job'.call

theorem Numbered.distinct_of_kept (h : Numbered s events) (hkept : Kept s s') (t u : Thread)
    (job' other' : Job Result) (hjob' : s'.job t = some job') (hother' : s'.job u = some other')
    (heq : job'.id = other'.id) : t = u := by
  obtain ⟨job, hjob, hid, _⟩ := hkept t job' hjob'
  obtain ⟨other, hother, hid', _⟩ := hkept u other' hother'
  exact h.distinct t u job other hjob hother (hid.trans (heq.trans hid'.symm))

/-- A step begins the call with the next number, or ends one, or is unseen. -/
theorem System.event_cases [DecidableEq Thread] {e : Step Thread Call}
    (hstep : s.step routine e = some s') :
    (∃ t c, e = .call t c ∧ s.event e = some (.invoked s.calls c) ∧ s'.calls = s.calls + 1) ∨
    (∃ t id c result, s.event e = some (.returned id c result) ∧ s'.calls = s.calls ∧
      (∃ stage, s.job t = some ⟨id, c, stage⟩) ∧ s'.job t = none ∧ ∀ t' c', e ≠ .call t' c') ∨
    (s.event e = none ∧ s'.calls = s.calls ∧ ∀ t' c', e ≠ .call t' c') := by
  obtain ⟨t, c, rfl, hjob, rfl⟩ | ⟨t, id, c, next, rfl, hjob, _, rfl⟩ |
    ⟨t, err, reached, id, c, bytes, next, rfl, hjob, rfl⟩ | ⟨t, id, c, ms, next, rfl, hjob, rfl⟩ |
    ⟨t, err, data, id, c, length, next, rfl, hjob, rfl⟩ |
    ⟨t, id, c, source, length, answer, next, rfl, hjob, rfl⟩ | ⟨t, id, c, next, rfl, hjob, rfl⟩ :=
    System.step_cases routine hstep
  · exact .inl ⟨t, c, rfl, rfl, rfl⟩
  · exact .inr (.inr ⟨rfl, rfl, nofun⟩)
  · exact .inr (.inr ⟨rfl, rfl, nofun⟩)
  · exact .inr (.inr ⟨rfl, rfl, nofun⟩)
  · exact .inr (.inr ⟨rfl, rfl, nofun⟩)
  · exact .inr (.inr ⟨rfl, rfl, nofun⟩)
  · cases next with
    | done result =>
      refine .inr (.inl ⟨t, id, c, result, ?_, rfl, ⟨_, hjob⟩, ?_, nofun⟩)
      · simp [System.event, hjob]
      · rw [resume_of_done rfl]
        exact Function.update_self ..
    | _ => exact .inr (.inr ⟨by simp [System.event, hjob], rfl, nofun⟩)

/-- Every step keeps the bookkeeping. -/
theorem Numbered.step [DecidableEq Thread] (h : Numbered s events) {e : Step Thread Call}
    (hstep : s.step routine e = some s') : Numbered s' (recordEvent events (s, b) e) := by
  have horigin {u : Thread} {job' : Job Result} (hjob' : s'.job u = some job') :=
    System.job_origin hstep hjob'
  obtain ⟨t, c, rfl, hevent, hcalls⟩ | ⟨t, id, c, result, hevent, hcalls, ⟨stage, hjob⟩, hgone, he⟩ |
    ⟨hevent, hcalls, he⟩ := System.event_cases hstep
  · have hrecord : recordEvent events (s, b) (.call t c) = .invoked s.calls c :: events := by
      rw [recordEvent, hevent]
      rfl
    rw [hrecord]
    have hearlier {u : Thread} {job : Job Result} (hjob : s.job u = some job) :
        job.id < s.calls :=
      h.bounded _ (h.pending u job hjob).1
    constructor
    · intro event hevent
      rw [hcalls]
      rcases List.mem_cons.mp hevent with rfl | hevent
      · exact Nat.lt_succ_self _
      · exact Nat.lt_succ_of_lt (h.bounded event hevent)
    · intro u job' hjob'
      rcases horigin hjob' with ⟨job, hjob, hid, hcall⟩ | ⟨c', he, hid, hcall⟩
      · obtain ⟨hinvoked, hopen⟩ := h.pending u job hjob
        rw [← hid, ← hcall]
        refine ⟨List.mem_cons_of_mem _ hinvoked, fun c result hreturned => ?_⟩
        rcases List.mem_cons.mp hreturned with hreturned | hreturned
        · cases hreturned
        · exact hopen c result hreturned
      · cases he
        rw [hid, hcall]
        refine ⟨List.mem_cons_self, fun c result hreturned => ?_⟩
        rcases List.mem_cons.mp hreturned with hreturned | hreturned
        · cases hreturned
        · exact absurd (h.bounded _ hreturned) (lt_irrefl _)
    · intro u v job' other' hjob' hother' heq
      rcases horigin hjob' with ⟨job, hjob, hid, _⟩ | ⟨c', he, hid, _⟩
      · rcases horigin hother' with ⟨other, hother, hid', _⟩ | ⟨c'', he', hid', _⟩
        · exact h.distinct u v job other hjob hother (hid.trans (heq.trans hid'.symm))
        · have hlt := hearlier hjob
          omega
      · rcases horigin hother' with ⟨other, hother, hid', _⟩ | ⟨c'', he', _⟩
        · have hlt := hearlier hother
          omega
        · cases he
          cases he'
          rfl
    · intro newer id c' result older hsplit
      cases newer with
      | nil => cases hsplit
      | cons event newer => exact h.matched newer id c' result older (List.cons.inj hsplit).2
    · intro newer id c' older hsplit
      cases newer with
      | nil =>
        cases hsplit
        exact h.bounded
      | cons event newer => exact h.fresh newer id c' older (List.cons.inj hsplit).2
  · have hrecord : recordEvent events (s, b) e = .returned id c result :: events := by
      rw [recordEvent, hevent]
      rfl
    rw [hrecord]
    obtain ⟨hinvoked, hopen⟩ := h.pending t _ hjob
    have hkept : Kept s s' := fun u job' hjob' =>
      (horigin hjob').resolve_right fun ⟨_, hcall, _⟩ => he _ _ hcall
    constructor
    · intro event hevent
      rw [hcalls]
      rcases List.mem_cons.mp hevent with rfl | hevent
      · exact h.bounded (.invoked id c) hinvoked
      · exact h.bounded event hevent
    · intro u job' hjob'
      obtain ⟨job, hbefore, hid, hcall⟩ := hkept u job' hjob'
      obtain ⟨hinvoked', hopen'⟩ := h.pending u job hbefore
      rw [← hid, ← hcall]
      refine ⟨List.mem_cons_of_mem _ hinvoked', fun c' result' hreturned => ?_⟩
      rcases List.mem_cons.mp hreturned with hreturned | hreturned
      · -- Only the thread that returns has a call with this number.
        injection hreturned with hnumber
        obtain rfl := h.distinct u t job _ hbefore hjob hnumber
        cases hgone.symm.trans hjob'
      · exact hopen' c' result' hreturned
    · exact h.distinct_of_kept hkept
    · intro newer id' c' result' older hsplit
      cases newer with
      | nil =>
        cases hsplit
        exact ⟨hinvoked, hopen⟩
      | cons event newer => exact h.matched newer id' c' result' older (List.cons.inj hsplit).2
    · intro newer id' c' older hsplit
      cases newer with
      | nil => cases hsplit
      | cons event newer => exact h.fresh newer id' c' older (List.cons.inj hsplit).2
  · have hrecord : recordEvent events (s, b) e = events := by
      rw [recordEvent, hevent]
      rfl
    rw [hrecord]
    have hkept : Kept s s' := fun u job' hjob' =>
      (horigin hjob').resolve_right fun ⟨_, hcall, _⟩ => he _ _ hcall
    refine ⟨by rw [hcalls]; exact h.bounded, fun u job' hjob' => ?_, ?_, h.matched, h.fresh⟩
    · obtain ⟨job, hbefore, hid, hcall⟩ := hkept u job' hjob'
      rw [← hid, ← hcall]
      exact h.pending u job hbefore
    · exact h.distinct_of_kept hkept

/-- Both invariants hold in every state of every run on a bus. -/
theorem ReachesOn.atomic [DecidableEq Thread] (hroutine : ∀ c, Exchange execution (routine c))
    (hreach : ReachesOn routine bus b₀ s b events) :
    Atomic execution routine bus b₀ s b events ∧ Numbered s events := by
  apply hreach.invariant
    (I := fun x => Atomic execution routine bus b₀ x.1.1 x.1.2 x.2 ∧ Numbered x.1.1 x.2)
  · rintro ⟨⟨s, b⟩, events⟩ ⟨hstart, rfl⟩
    cases hstart
    exact ⟨Atomic.start, Numbered.start⟩
  · rintro ⟨⟨s, b⟩, events⟩ e ⟨⟨s', b'⟩, events'⟩ _ ⟨hatomic, hnumbered⟩ hstep
    obtain ⟨hnext, hrecord⟩ := Machine.observe_step.mp hstep
    cases hrecord
    obtain ⟨next, hthreads, hbus⟩ := Option.bind_eq_some_iff.mp hnext
    obtain ⟨after, hanswer, hpair⟩ := Option.map_eq_some_iff.mp hbus
    cases hpair
    exact ⟨hatomic.step hroutine hthreads hanswer, hnumbered.step hthreads⟩

end

end BusThreads
