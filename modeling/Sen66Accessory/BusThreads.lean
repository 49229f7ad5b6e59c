import Sen66Accessory.Bus
import Sen66Accessory.Machine
import Mathlib.Logic.Function.Basic

/-- Where a thread stands in a routine: at the rest of it, or with the answer to
    a read in hand that it has yet to look at. The source of an answer is the
    command the device answered, with the call that sent it. -/
inductive Stage (α : Type) where
  | running (rest : Transfer α)
  | received (source : Option (Nat × List UInt8)) {length : Nat}
      (answer : Int × Vector UInt8 length) (next : Int × Vector UInt8 length → Transfer α)

/-- Whether a routine has nothing left to do. -/
def Transfer.isDone {α : Type} : Transfer α → Bool
  | .done _ => true
  | _ => false

/-- A property that no finished routine has excludes that the routine is done. -/
theorem Transfer.isDone_eq_false {α : Type} {P : Transfer α → Prop}
    (hdone : ∀ result, ¬P (.done result)) {rest : Transfer α} (h : P rest) :
    rest.isDone = false := by
  cases rest with
  | done result => exact absurd h (hdone result)
  | _ => rfl

namespace BusThreads

/-- A call under way. -/
structure Job {Call : Type} (Result : Call → Type) where
  id : Nat
  call : Call
  stage : Stage (Result call)

/-- Threads that share a bus: the owner of the bus mutex, the call each thread
    is in, the number of calls made so far, and the command the device accepted
    last, with the call that sent it. -/
structure System (Thread : Type) {Call : Type} (Result : Call → Type) where
  owner : Option Thread := none
  job : Thread → Option (Job Result) := fun _ => none
  calls : Nat := 0
  accepted : Option (Nat × List UInt8) := none

/-- The atomic steps of a thread. A failed write may have reached the device all
    the same, and a read may bring any bytes. -/
inductive Step (Thread Call : Type) where
  | call (t : Thread) (c : Call)
  | lock (t : Thread)
  | write (t : Thread) (err : Int) (reached : Bool)
  | sleep (t : Thread)
  | read (t : Thread) (err : Int) (data : Nat → UInt8)
  | parse (t : Thread)
  | unlock (t : Thread)

/-- What can be seen of a step, with the number of the call that takes it. -/
inductive Entry where
  | locked (id : Nat)
  | command (id : Nat) (bytes : List UInt8) (err : Int)
  | delay (id : Nat) (ms : Nat)
  | response (id : Nat) (source : Option (Nat × List UInt8))
  | parsed (id : Nat) (source : Option (Nat × List UInt8))
  | returned (id : Nat)
  deriving DecidableEq

section

variable {Thread Call : Type} [DecidableEq Thread] {Result : Call → Type}
  (routine : (c : Call) → Transfer (Result c))

/-- Let a thread go on with the rest of its call. A call with nothing left to do
    has returned. -/
def System.resume (s : System Thread Result) (t : Thread) (id : Nat) (c : Call)
    (rest : Transfer (Result c)) : System Thread Result :=
  { s with
    job := Function.update s.job t (if rest.isDone then none else some ⟨id, c, .running rest⟩) }

/-- The mutex is taken only when it is free, and released only by its owner. -/
def System.step (s : System Thread Result) : Step Thread Call → Option (System Thread Result)
  | .call t c =>
    match s.job t with
    | none => some { s.resume t s.calls c (routine c) with calls := s.calls + 1 }
    | _ => none
  | .lock t =>
    match s.job t with
    | some ⟨id, c, .running (.lock next)⟩ =>
      if s.owner = none then some { s.resume t id c next with owner := some t } else none
    | _ => none
  | .write t err reached =>
    match s.job t with
    | some ⟨id, c, .running (.write bytes next)⟩ =>
      some { s.resume t id c (next err) with
        accepted := if err = 0 ∨ reached = true then some (id, bytes) else s.accepted }
    | _ => none
  | .sleep t =>
    match s.job t with
    | some ⟨id, c, .running (.sleep _ next)⟩ => some (s.resume t id c next)
    | _ => none
  | .read t err data =>
    match s.job t with
    | some ⟨id, c, .running (.read length next)⟩ =>
      some { s with
        job := Function.update s.job t (some ⟨id, c,
          .received s.accepted (err, Vector.ofFn fun i : Fin length => data i) next⟩) }
    | _ => none
  | .parse t =>
    match s.job t with
    | some ⟨id, c, .received _ answer next⟩ => some (s.resume t id c (next answer))
    | _ => none
  | .unlock t =>
    match s.job t with
    | some ⟨id, c, .running (.unlock next)⟩ =>
      some { s.resume t id c next with owner := if s.owner = some t then none else s.owner }
    | _ => none

/-- What a step adds to the log. The unlock that leaves nothing to do is the
    return of its call. -/
def System.entry (s : System Thread Result) : Step Thread Call → Option Entry
  | .call _ _ => none
  | .lock t => (s.job t).map fun job => .locked job.id
  | .write t err _ =>
    match s.job t with
    | some ⟨id, _, .running (.write bytes _)⟩ => some (.command id bytes err)
    | _ => none
  | .sleep t =>
    match s.job t with
    | some ⟨id, _, .running (.sleep ms _)⟩ => some (.delay id ms)
    | _ => none
  | .read t _ _ => (s.job t).map fun job => .response job.id s.accepted
  | .parse t =>
    match s.job t with
    | some ⟨id, _, .received source _ _⟩ => some (.parsed id source)
    | _ => none
  | .unlock t =>
    match s.job t with
    | some ⟨id, _, .running (.unlock (.done _))⟩ => some (.returned id)
    | _ => none

def machine : Machine (System Thread Result) (Step Thread Call) := ⟨System.step routine⟩

/-- The log of a run, newest first. -/
def record (log : List Entry) (s : System Thread Result) (e : Step Thread Call) : List Entry :=
  (s.entry e).toList ++ log

/-- The states a run can reach from no calls at all, with its log. -/
def Reaches (s : System Thread Result) (log : List Entry) : Prop :=
  ((machine routine).observe record).Reachable (fun x => x.1 = {} ∧ x.2 = []) (s, log)

/-- All that a step can do. -/
theorem System.step_cases {s s' : System Thread Result} {e : Step Thread Call}
    (hstep : s.step routine e = some s') :
    (∃ t c, e = .call t c ∧ s.job t = none ∧
      s' = { s.resume t s.calls c (routine c) with calls := s.calls + 1 }) ∨
    (∃ t id c next, e = .lock t ∧ s.job t = some ⟨id, c, .running (.lock next)⟩ ∧
      s.owner = none ∧ s' = { s.resume t id c next with owner := some t }) ∨
    (∃ t err reached id c bytes next, e = .write t err reached ∧
      s.job t = some ⟨id, c, .running (.write bytes next)⟩ ∧
      s' = { s.resume t id c (next err) with
        accepted := if err = 0 ∨ reached = true then some (id, bytes) else s.accepted }) ∨
    (∃ t id c ms next, e = .sleep t ∧ s.job t = some ⟨id, c, .running (.sleep ms next)⟩ ∧
      s' = s.resume t id c next) ∨
    (∃ t err data id c length next, e = .read t err data ∧
      s.job t = some ⟨id, c, .running (.read length next)⟩ ∧
      s' = { s with
        job := Function.update s.job t (some ⟨id, c,
          .received s.accepted (err, Vector.ofFn fun i : Fin length => data i) next⟩) }) ∨
    (∃ t id c source length, ∃ (answer : Int × Vector UInt8 length), ∃ next, e = .parse t ∧
      s.job t = some ⟨id, c, .received source answer next⟩ ∧
      s' = s.resume t id c (next answer)) ∨
    (∃ t id c next, e = .unlock t ∧ s.job t = some ⟨id, c, .running (.unlock next)⟩ ∧
      s' = { s.resume t id c next with
        owner := if s.owner = some t then none else s.owner }) := by
  cases e with
  | call t c =>
    dsimp only [System.step] at hstep
    split at hstep
    · rename_i hjob
      exact .inl ⟨t, c, rfl, hjob, (Option.some_inj.mp hstep).symm⟩
    · cases hstep
  | lock t =>
    dsimp only [System.step] at hstep
    split at hstep
    · rename_i id c next hjob
      obtain ⟨hfree, hnext⟩ := Option.ite_none_right_eq_some.mp hstep
      exact .inr (.inl ⟨t, id, c, next, rfl, hjob, hfree, (Option.some_inj.mp hnext).symm⟩)
    · cases hstep
  | write t err reached =>
    dsimp only [System.step] at hstep
    split at hstep
    · rename_i id c bytes next hjob
      exact .inr (.inr (.inl ⟨t, err, reached, id, c, bytes, next, rfl, hjob,
        (Option.some_inj.mp hstep).symm⟩))
    · cases hstep
  | sleep t =>
    dsimp only [System.step] at hstep
    split at hstep
    · rename_i id c ms next hjob
      exact .inr (.inr (.inr (.inl ⟨t, id, c, ms, next, rfl, hjob,
        (Option.some_inj.mp hstep).symm⟩)))
    · cases hstep
  | read t err data =>
    dsimp only [System.step] at hstep
    split at hstep
    · rename_i id c length next hjob
      exact .inr (.inr (.inr (.inr (.inl ⟨t, err, data, id, c, length, next, rfl, hjob,
        (Option.some_inj.mp hstep).symm⟩))))
    · cases hstep
  | parse t =>
    dsimp only [System.step] at hstep
    split at hstep
    · rename_i id c source length answer next hjob
      exact .inr (.inr (.inr (.inr (.inr (.inl ⟨t, id, c, source, length, answer, next, rfl, hjob,
        (Option.some_inj.mp hstep).symm⟩)))))
    · cases hstep
  | unlock t =>
    dsimp only [System.step] at hstep
    split at hstep
    · rename_i id c next hjob
      exact .inr (.inr (.inr (.inr (.inr (.inr ⟨t, id, c, next, rfl, hjob,
        (Option.some_inj.mp hstep).symm⟩)))))
    · cases hstep

end

/-- How far the call that owns the mutex is with its exchange. -/
inductive Phase where
  | ready
  | sent (bytes : List UInt8)
  | rested (bytes : List UInt8)
  | answered (bytes : List UInt8)
  | closing

/-- The moves of one exchange at a time: an accepted command is given the time its
    execution takes and may then be read once, and its own answer is looked at
    before the call returns. -/
inductive Moves (execution : List UInt8 → Nat) :
    Option (Nat × Phase) → Entry → Option (Nat × Phase) → Prop where
  | lock (id : Nat) : Moves execution none (.locked id) (some (id, .ready))
  | accept (id : Nat) (bytes : List UInt8) :
      Moves execution (some (id, .ready)) (.command id bytes 0) (some (id, .sent bytes))
  | refuse (id : Nat) (bytes : List UInt8) {err : Int} (herr : err ≠ 0) :
      Moves execution (some (id, .ready)) (.command id bytes err) (some (id, .closing))
  | delay (id : Nat) (bytes : List UInt8) :
      Moves execution (some (id, .sent bytes)) (.delay id (execution bytes))
        (some (id, .rested bytes))
  | respond (id : Nat) (bytes : List UInt8) :
      Moves execution (some (id, .rested bytes)) (.response id (some (id, bytes)))
        (some (id, .answered bytes))
  | parse (id : Nat) (bytes : List UInt8) :
      Moves execution (some (id, .answered bytes)) (.parsed id (some (id, bytes)))
        (some (id, .closing))
  | leave (id : Nat) (bytes : List UInt8) :
      Moves execution (some (id, .rested bytes)) (.returned id) none
  | close (id : Nat) : Moves execution (some (id, .closing)) (.returned id) none

/-- The logs, newest entry first, in which exchanges follow one another, with
    the call in progress. -/
inductive Serial (execution : List UInt8 → Nat) : Option (Nat × Phase) → List Entry → Prop where
  | nil : Serial execution none []
  | cons {previous current : Option (Nat × Phase)} {entry : Entry} {log : List Entry}
      (hserial : Serial execution previous log) (hmove : Moves execution previous entry current) :
      Serial execution current (entry :: log)

namespace Serial

variable {execution : List UInt8 → Nat} {current : Option (Nat × Phase)}
  {log newer middle older : List Entry} {id id' : Nat} {bytes bytes' : List UInt8} {err err' : Int}

/-- Every part of a serial log is serial. -/
theorem of_append (hserial : Serial execution current (newer ++ older)) :
    ∃ previous, Serial execution previous older := by
  induction newer generalizing current with
  | nil => exact ⟨current, hserial⟩
  | cons entry newer ih =>
    obtain _ | ⟨hserial, _⟩ := hserial
    exact ih hserial

/-- A call that has sent a command and not returned since is in progress. -/
theorem current_of_command (hserial : Serial execution current (newer ++ .command id bytes err :: older))
    (hopen : .returned id ∉ newer) : ∃ phase, current = some (id, phase) := by
  induction newer generalizing current with
  | nil =>
    obtain _ | ⟨_, hmove⟩ := hserial
    cases hmove <;> exact ⟨_, rfl⟩
  | cons entry newer ih =>
    obtain _ | ⟨hserial, hmove⟩ := hserial
    rw [List.mem_cons, not_or] at hopen
    obtain ⟨phase, rfl⟩ := ih hserial hopen.2
    cases hmove
    case leave => exact absurd rfl hopen.1
    case close => exact absurd rfl hopen.1
    all_goals exact ⟨_, rfl⟩

/-- No command of another call comes between a command and its call's return. -/
theorem returned_between
    (hserial : Serial execution current
      (newer ++ .command id' bytes' err' :: (middle ++ .command id bytes err :: older)))
    (hother : id' ≠ id) : .returned id ∈ middle := by
  by_contra hopen
  obtain ⟨_, hsuffix⟩ := hserial.of_append
  obtain _ | ⟨hearlier, hmove⟩ := hsuffix
  obtain ⟨phase, rfl⟩ := current_of_command hearlier hopen
  cases hmove <;> exact hother rfl

/-- A call whose accepted command has not been given its time is still waiting to
    give it. -/
theorem current_of_accepted (hserial : Serial execution current (newer ++ .command id bytes 0 :: older))
    (hrestless : .delay id (execution bytes) ∉ newer) : current = some (id, .sent bytes) := by
  induction newer generalizing current with
  | nil =>
    obtain _ | ⟨_, hmove⟩ := hserial
    cases hmove with
    | accept => rfl
    | refuse _ _ herr => exact absurd rfl herr
  | cons entry newer ih =>
    obtain _ | ⟨hserial, hmove⟩ := hserial
    have hearlier := ih hserial fun hmem => hrestless (List.mem_cons_of_mem _ hmem)
    rw [hearlier] at hmove
    cases hmove with
    | delay => exact absurd List.mem_cons_self hrestless

/-- No command comes before an accepted one was given its time. -/
theorem delay_between
    (hserial : Serial execution current
      (newer ++ .command id' bytes' err' :: (middle ++ .command id bytes 0 :: older))) :
    .delay id (execution bytes) ∈ middle := by
  by_contra hnone
  obtain ⟨_, hsuffix⟩ := hserial.of_append
  obtain _ | ⟨hearlier, hmove⟩ := hsuffix
  rw [current_of_accepted hearlier hnone] at hmove
  cases hmove

/-- The command a call has had accepted is in the log. -/
theorem command_mem (hserial : Serial execution current log)
    (hphase : current = some (id, .sent bytes) ∨ current = some (id, .rested bytes) ∨
      current = some (id, .answered bytes)) : .command id bytes 0 ∈ log := by
  induction hserial with
  | nil => simp at hphase
  | cons hserial hmove ih =>
    cases hmove with
    | accept =>
      obtain ⟨rfl, rfl⟩ : _ = id ∧ _ = bytes := by simpa using hphase
      exact List.mem_cons_self
    | delay | respond =>
      obtain ⟨rfl, rfl⟩ : _ = id ∧ _ = bytes := by simpa using hphase
      exact List.mem_cons_of_mem _ (ih (by simp))
    | _ => simp at hphase

/-- What a call looks at is the device's answer to a command of its own, and to
    one the device accepted. -/
theorem source_of_parsed {source : Option (Nat × List UInt8)}
    (hserial : Serial execution current (newer ++ .parsed id source :: older)) :
    ∃ bytes, source = some (id, bytes) ∧ .command id bytes 0 ∈ older := by
  obtain ⟨_, hsuffix⟩ := hserial.of_append
  obtain _ | ⟨hearlier, hmove⟩ := hsuffix
  cases hmove with
  | parse _ bytes => exact ⟨bytes, rfl, hearlier.command_mem (Or.inr (Or.inr rfl))⟩

end Serial

/-- Nothing is left of a call but to release the mutex and return. -/
def Closing {α : Type} : Transfer α → Prop
  | .unlock next => next.isDone = true
  | _ => False

/-- A call may read the answer to its command once, and then closes. -/
def Rested {α : Type} : Transfer α → Prop
  | .read _ next => ∀ answer, Closing (next answer)
  | rest => Closing rest

/-- A call gives its accepted command the time it takes. -/
def Sent {α : Type} (ms : Nat) : Transfer α → Prop
  | .sleep ms' next => ms' = ms ∧ Rested next
  | _ => False

/-- A call sends one command, and closes if it is refused. -/
def Ready {α : Type} (execution : List UInt8 → Nat) : Transfer α → Prop
  | .write bytes next => Sent (execution bytes) (next 0) ∧ ∀ err, err ≠ 0 → Closing (next err)
  | _ => False

/-- A routine that holds the mutex for one whole exchange. -/
def Exchange {α : Type} (execution : List UInt8 → Nat) : Transfer α → Prop
  | .lock next => Ready execution next
  | _ => False

/-- The rule for a routine that sends a command, waits while it is executed, and
    goes on in a way that reads at most once. -/
theorem exchange_locked {α : Type} {execution : List UInt8 → Nat} {bytes : List UInt8} {ms : Nat}
    {refused : Int → α} {rest : Transfer α} (hms : ms = execution bytes)
    (hrest : Rested (rest.bind fun result => .unlock (.done result))) :
    Exchange execution (Transfer.locked do
      let err ← Transfer.write bytes .done
      if err ≠ 0 then
        return refused err
      Transfer.sleep ms (.done ())
      rest) := by
  refine ⟨⟨hms, hrest⟩, fun err herr => ?_⟩
  change Closing ((ite (err ≠ 0) _ _ : Transfer α).bind _)
  rw [if_pos herr]
  exact rfl

/-- What is left of a call in each phase, and what the device has accepted. -/
inductive Phase.Fits {α : Type} (execution : List UInt8 → Nat) (id : Nat)
    (accepted : Option (Nat × List UInt8)) : Phase → Stage α → Prop where
  | ready {rest : Transfer α} (hrest : Ready execution rest) : Fits execution id accepted .ready (.running rest)
  | sent {rest : Transfer α} {bytes : List UInt8} (hrest : Sent (execution bytes) rest)
      (haccepted : accepted = some (id, bytes)) : Fits execution id accepted (.sent bytes) (.running rest)
  | rested {rest : Transfer α} {bytes : List UInt8} (hrest : Rested rest)
      (haccepted : accepted = some (id, bytes)) : Fits execution id accepted (.rested bytes) (.running rest)
  | answered {bytes : List UInt8} {length : Nat} {answer : Int × Vector UInt8 length}
      {next : Int × Vector UInt8 length → Transfer α} (hnext : ∀ answer, Closing (next answer)) :
      Fits execution id accepted (.answered bytes) (.received (some (id, bytes)) answer next)
  | closing {rest : Transfer α} (hrest : Closing rest) : Fits execution id accepted .closing (.running rest)

/-- A call in progress has taken the mutex and has not returned. -/
def Job.InProgress {Call : Type} {Result : Call → Type} (job : Job Result) : Prop :=
  match job.stage with
  | .running (.lock _) => False
  | _ => True

section

variable {Thread Call : Type} {Result : Call → Type} {execution : List UInt8 → Nat}
  {s s' : System Thread Result} {log : List Entry} {t : Thread}

/-- The invariant of all interleavings: calls that do not own the mutex have yet
    to take it, and the one that does is where the log says. -/
structure Disciplined (execution : List UInt8 → Nat) (s : System Thread Result)
    (log : List Entry) : Prop where
  waiting : ∀ t job, s.owner ≠ some t → s.job t = some job →
    ∃ rest, job.stage = .running rest ∧ Exchange execution rest
  holding : ∀ t, s.owner = some t → ∃ job phase, s.job t = some job ∧
    Phase.Fits execution job.id s.accepted phase job.stage ∧ Serial execution (some (job.id, phase)) log
  free : s.owner = none → Serial execution none log

namespace Disciplined

/-- A thread whose call is past its lock owns the mutex. -/
theorem owner_eq (h : Disciplined execution s log) {job : Job Result} (hjob : s.job t = some job)
    (hpast : job.InProgress) : s.owner = some t := by
  by_contra hother
  obtain ⟨rest, hstage, hexchange⟩ := h.waiting t job hother hjob
  rw [Job.InProgress, hstage] at hpast
  cases rest <;> simp_all [Exchange]

/-- A call in progress owns the mutex, and is in the phase the log gives it. -/
theorem progress (h : Disciplined execution s log) {id : Nat} {c : Call} {stage : Stage (Result c)}
    (hjob : s.job t = some ⟨id, c, stage⟩) (hpast : Job.InProgress ⟨id, c, stage⟩) :
    s.owner = some t ∧ ∃ phase, Phase.Fits execution id s.accepted phase stage ∧
      Serial execution (some (id, phase)) log := by
  have howner := h.owner_eq hjob hpast
  obtain ⟨holder, phase, hheld, hfits, hserial⟩ := h.holding t howner
  cases hjob.symm.trans hheld
  exact ⟨howner, phase, hfits, hserial⟩

theorem start : Disciplined execution ({} : System Thread Result) [] where
  waiting _ _ _ h := nomatch h
  holding _ h := nomatch h
  free _ := .nil

variable [DecidableEq Thread]

/-- A thread that owns the mutex, or takes it, enters another phase. -/
theorem proceed (h : Disciplined execution s log) (howner : s.owner = some t ∨ s.owner = none)
    (hnext : s'.owner = some t) {id : Nat} {c : Call} {stage : Stage (Result c)}
    (hjob : s'.job = Function.update s.job t (some ⟨id, c, stage⟩)) {phase : Phase}
    (hfits : phase.Fits execution id s'.accepted stage) {log' : List Entry}
    (hserial : Serial execution (some (id, phase)) log') : Disciplined execution s' log' where
  waiting u other hu hother := by
    have hne : u ≠ t := fun h => hu (by rw [h, hnext])
    rw [hjob, Function.update_of_ne hne] at hother
    refine h.waiting u other (fun h => ?_) hother
    rcases howner with howner | howner
    · exact hne (Option.some_inj.mp (h.symm.trans howner))
    · cases h.symm.trans howner
  holding u hu := by
    obtain rfl : t = u := Option.some_inj.mp (hnext.symm.trans hu)
    exact ⟨_, phase, by rw [hjob, Function.update_self], hfits, hserial⟩
  free hnone := by
    cases hnext.symm.trans hnone

/-- The owner of the mutex returns. -/
theorem leave (h : Disciplined execution s log) (howner : s.owner = some t) {log' : List Entry}
    (hserial : Serial execution none log') :
    Disciplined execution { s with job := Function.update s.job t none, owner := none } log' where
  waiting u other _ hother := by
    dsimp only at hother
    by_cases hu : u = t
    · rw [hu, Function.update_self] at hother
      cases hother
    · rw [Function.update_of_ne hu] at hother
      exact h.waiting u other (fun h => hu (Option.some_inj.mp (h.symm.trans howner))) hother
  holding _ h := nomatch h
  free _ := hserial

end Disciplined

section

variable [DecidableEq Thread] {id : Nat} {c : Call} {rest : Transfer (Result c)}

theorem resume_of_not_done (hrest : rest.isDone = false) :
    s.resume t id c rest =
      { s with job := Function.update s.job t (some ⟨id, c, .running rest⟩) } := by
  rw [System.resume, hrest, if_neg Bool.false_ne_true]

theorem resume_of_done (hrest : rest.isDone = true) :
    s.resume t id c rest = { s with job := Function.update s.job t none } := by
  rw [System.resume, hrest, if_pos rfl]

end

theorem Closing.not_done {α : Type} {rest : Transfer α} (h : Closing rest) :
    rest.isDone = false :=
  Transfer.isDone_eq_false (fun _ => id) h

theorem Rested.not_done {α : Type} {rest : Transfer α} (h : Rested rest) :
    rest.isDone = false :=
  Transfer.isDone_eq_false (fun _ => id) h

theorem Sent.not_done {α : Type} {ms : Nat} {rest : Transfer α} (h : Sent ms rest) :
    rest.isDone = false :=
  Transfer.isDone_eq_false (fun _ => id) h

theorem Ready.not_done {α : Type} {rest : Transfer α} (h : Ready execution rest) :
    rest.isDone = false :=
  Transfer.isDone_eq_false (fun _ => id) h

theorem Exchange.not_done {α : Type} {rest : Transfer α} (h : Exchange execution rest) :
    rest.isDone = false :=
  Transfer.isDone_eq_false (fun _ => id) h

/-- Every step of every thread keeps the invariant, when every routine is one
    exchange. -/
theorem Disciplined.step [DecidableEq Thread] {routine : (c : Call) → Transfer (Result c)}
    (hroutine : ∀ c, Exchange execution (routine c)) (h : Disciplined execution s log) {e : Step Thread Call}
    (hstep : s.step routine e = some s') : Disciplined execution s' (record log s e) := by
  obtain ⟨t, c, rfl, hjob, rfl⟩ | ⟨t, id, c, next, rfl, hjob, hfree, rfl⟩ |
    ⟨t, err, reached, id, c, bytes, next, rfl, hjob, rfl⟩ | ⟨t, id, c, ms, next, rfl, hjob, rfl⟩ |
    ⟨t, err, data, id, c, length, next, rfl, hjob, rfl⟩ |
    ⟨t, id, c, source, length, answer, next, rfl, hjob, rfl⟩ | ⟨t, id, c, next, rfl, hjob, rfl⟩ :=
    System.step_cases routine hstep
  · -- A new call waits for the mutex.
    rw [resume_of_not_done (hroutine c).not_done]
    refine ⟨fun u job hu hother => ?_, fun u hu => ?_, h.free⟩
    · dsimp only at hother
      by_cases hut : u = t
      · rw [hut, Function.update_self] at hother
        cases hother
        exact ⟨_, rfl, hroutine c⟩
      · rw [Function.update_of_ne hut] at hother
        exact h.waiting u job hu hother
    · obtain ⟨job, phase, hheld, hfits, hserial⟩ := h.holding u hu
      have hut : u ≠ t := fun heq => by
        rw [heq, hjob] at hheld
        cases hheld
      refine ⟨job, phase, ?_, hfits, hserial⟩
      dsimp only
      rw [Function.update_of_ne hut, hheld]
  · obtain ⟨rest, hstage, hexchange⟩ := h.waiting t _ (by rw [hfree]; nofun) hjob
    cases hstage
    have hready : Ready execution next := hexchange
    have hlog : record log s (.lock t) = .locked id :: log := by simp [record, System.entry, hjob]
    rw [hlog, resume_of_not_done hready.not_done]
    exact h.proceed (.inr hfree) rfl rfl (.ready hready) (.cons (h.free hfree) (.lock id))
  · obtain ⟨howner, phase, hfits, hserial⟩ := h.progress hjob trivial
    have hlog : record log s (.write t err reached) = .command id bytes err :: log := by
      simp [record, System.entry, hjob]
    rw [hlog]
    cases hfits with
    | ready hready =>
      obtain ⟨hsent, hrefused⟩ := hready
      by_cases herr : err = 0
      · subst herr
        rw [resume_of_not_done hsent.not_done]
        exact h.proceed (.inl howner) (by exact howner) rfl (.sent hsent (by simp))
          (.cons hserial (.accept id bytes))
      · have hclosing := hrefused err herr
        rw [resume_of_not_done hclosing.not_done]
        exact h.proceed (.inl howner) (by exact howner) rfl (.closing hclosing)
          (.cons hserial (.refuse id bytes herr))
    | sent hsent => cases hsent
    | rested hrested => cases hrested
    | closing hclosing => cases hclosing
  · obtain ⟨howner, phase, hfits, hserial⟩ := h.progress hjob trivial
    have hlog : record log s (.sleep t) = .delay id ms :: log := by
      simp [record, System.entry, hjob]
    rw [hlog]
    cases hfits with
    | sent hsent haccepted =>
      obtain ⟨rfl, hrested⟩ : ms = execution _ ∧ Rested next := hsent
      rw [resume_of_not_done hrested.not_done]
      exact h.proceed (.inl howner) (by exact howner) rfl (.rested hrested (by exact haccepted))
        (.cons hserial (.delay id _))
    | ready hready => cases hready
    | rested hrested => cases hrested
    | closing hclosing => cases hclosing
  · obtain ⟨howner, phase, hfits, hserial⟩ := h.progress hjob trivial
    have hlog : record log s (.read t err data) = .response id s.accepted :: log := by
      simp [record, System.entry, hjob]
    rw [hlog]
    cases hfits with
    | rested hrested haccepted =>
      rw [haccepted]
      exact h.proceed (.inl howner) (by exact howner) rfl (.answered hrested)
        (.cons hserial (.respond id _))
    | ready hready => cases hready
    | sent hsent => cases hsent
    | closing hclosing => cases hclosing
  · obtain ⟨howner, phase, hfits, hserial⟩ := h.progress hjob trivial
    have hlog : record log s (.parse t) = .parsed id source :: log := by
      simp [record, System.entry, hjob]
    rw [hlog]
    cases hfits with
    | answered hclosing =>
      rw [resume_of_not_done (hclosing answer).not_done]
      exact h.proceed (.inl howner) (by exact howner) rfl (.closing (hclosing answer))
        (.cons hserial (.parse id _))
  · obtain ⟨howner, phase, hfits, hserial⟩ := h.progress hjob trivial
    have hlast : next.isDone = true ∧ Moves execution (some (id, phase)) (.returned id) none := by
      cases hfits with
      | rested hrested => exact ⟨hrested, .leave id _⟩
      | closing hclosing => exact ⟨hclosing, .close id⟩
      | ready hready => cases hready
      | sent hsent => cases hsent
    obtain ⟨hdone, hmove⟩ := hlast
    obtain ⟨result, rfl⟩ : ∃ result, next = .done result := by
      cases next <;> first | exact ⟨_, rfl⟩ | cases hdone
    have hlog : record log s (.unlock t) = .returned id :: log := by
      simp [record, System.entry, hjob]
    rw [hlog, resume_of_done hdone, if_pos howner]
    exact h.leave howner (.cons hserial hmove)

/-- The whole log is serial. -/
theorem Disciplined.serial (h : Disciplined execution s log) : ∃ current, Serial execution current log := by
  cases howner : s.owner with
  | none => exact ⟨none, h.free howner⟩
  | some t =>
    obtain ⟨job, phase, _, _, hserial⟩ := h.holding t howner
    exact ⟨_, hserial⟩

/-- A call that fits a phase is past its lock. -/
theorem Phase.Fits.inProgress {id : Nat} {c : Call} {stage : Stage (Result c)} {phase : Phase}
    {accepted : Option (Nat × List UInt8)} (hfits : phase.Fits execution id accepted stage) :
    Job.InProgress ⟨id, c, stage⟩ := by
  cases hfits with
  | answered => trivial
  | @ready rest hrest | @sent rest _ hrest | @rested rest _ hrest | @closing rest hrest =>
    cases rest <;> trivial

/-- The mutex is held exactly by the call in progress. -/
theorem Disciplined.owner_iff (h : Disciplined execution s log) :
    s.owner = some t ↔ ∃ job, s.job t = some job ∧ job.InProgress := by
  constructor
  · intro howner
    obtain ⟨⟨id, c, stage⟩, phase, hjob, hfits, _⟩ := h.holding t howner
    exact ⟨_, hjob, hfits.inProgress⟩
  · rintro ⟨job, hjob, hpast⟩
    exact h.owner_eq hjob hpast

/-- The thread that takes a step. -/
def Step.thread : Step Thread Call → Thread
  | .call t _ | .lock t | .write t _ _ | .sleep t | .read t _ _ | .parse t | .unlock t => t

/-- A step of one thread leaves the calls of the others alone. -/
theorem System.job_of_ne [DecidableEq Thread] {routine : (c : Call) → Transfer (Result c)}
    {e : Step Thread Call} (hstep : s.step routine e = some s') (ht : t ≠ e.thread) :
    s'.job t = s.job t := by
  obtain ⟨_, _, rfl, _, rfl⟩ | ⟨_, _, _, _, rfl, _, _, rfl⟩ | ⟨_, _, _, _, _, _, _, rfl, _, rfl⟩ |
    ⟨_, _, _, _, _, rfl, _, rfl⟩ | ⟨_, _, _, _, _, _, _, rfl, _, rfl⟩ |
    ⟨_, _, _, _, _, _, _, rfl, _, rfl⟩ | ⟨_, _, _, _, rfl, _, rfl⟩ :=
    System.step_cases routine hstep <;>
  exact Function.update_of_ne ht _ _

/-- A call returns only while it owns the mutex, and releases it in the same
    step. -/
theorem Disciplined.owner_of_return [DecidableEq Thread]
    {routine : (c : Call) → Transfer (Result c)} (hroutine : ∀ c, Exchange execution (routine c))
    (h : Disciplined execution s log) {e : Step Thread Call} (hstep : s.step routine e = some s')
    (hcall : (s.job t).isSome = true) (hreturn : s'.job t = none) :
    s.owner = some t ∧ s'.owner = none := by
  have hreleased : s'.owner ≠ some t := by
    intro howner
    obtain ⟨_, _, hjob, _⟩ := (h.step hroutine hstep).holding t howner
    cases hreturn.symm.trans hjob
  obtain rfl : t = e.thread := by
    by_contra hother
    rw [← System.job_of_ne hstep hother, hreturn] at hcall
    cases hcall
  obtain ⟨t, c, rfl, hjob, rfl⟩ | ⟨t, id, c, next, rfl, hjob, _, rfl⟩ |
    ⟨t, err, reached, id, c, bytes, next, rfl, hjob, rfl⟩ | ⟨t, id, c, ms, next, rfl, hjob, rfl⟩ |
    ⟨t, err, data, id, c, length, next, rfl, hjob, rfl⟩ |
    ⟨t, id, c, source, length, answer, next, rfl, hjob, rfl⟩ | ⟨t, id, c, next, rfl, hjob, rfl⟩ :=
    System.step_cases routine hstep
  · rw [Step.thread, hjob] at hcall
    cases hcall
  · exact absurd rfl hreleased
  · exact absurd (h.owner_eq hjob trivial) hreleased
  · exact absurd (h.owner_eq hjob trivial) hreleased
  · exact absurd (h.owner_eq hjob trivial) hreleased
  · exact absurd (h.owner_eq hjob trivial) hreleased
  · have howner := h.owner_eq hjob trivial
    exact ⟨howner, if_pos howner⟩

/-- The invariant holds in every state of every run. -/
theorem Reaches.disciplined [DecidableEq Thread] {routine : (c : Call) → Transfer (Result c)}
    (hroutine : ∀ c, Exchange execution (routine c)) (hreach : Reaches routine s log) :
    Disciplined execution s log := by
  apply hreach.invariant (I := fun x => Disciplined execution x.1 x.2)
  · rintro ⟨s, log⟩ ⟨rfl, rfl⟩
    exact Disciplined.start
  · rintro ⟨s, log⟩ e ⟨s', log'⟩ _ hdisciplined hstep
    obtain ⟨hnext, hrecord⟩ := Machine.observe_step.mp hstep
    cases hrecord
    exact hdisciplined.step hroutine hnext

end

end BusThreads
