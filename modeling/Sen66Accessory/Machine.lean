import Mathlib.Data.Option.Basic

/-- A machine driven by events. An event is either refused in a state or leads
    to exactly one next state. -/
structure Machine (S E : Type) where
  step : S → E → Option S

namespace Machine

variable {S T E F H : Type}

/-- The states a machine can be in, from any state accepted at the start. -/
inductive Reachable (M : Machine S E) (start : S → Prop) : S → Prop where
  | start {s : S} (hstart : start s) : Reachable M start s
  | step {s s' : S} (e : E) (hreach : Reachable M start s) (hstep : M.step s e = some s') :
      Reachable M start s'

/-- Feed a sequence of events, stopping at the first one refused. -/
def run (M : Machine S E) : S → List E → Option S
  | s, [] => some s
  | s, e :: events => (M.step s e).bind fun s' => M.run s' events

theorem Reachable.run {M : Machine S E} {start : S → Prop} {s s' : S} {events : List E}
    (hreach : M.Reachable start s) (hrun : M.run s events = some s') : M.Reachable start s' := by
  induction events generalizing s with
  | nil =>
    cases hrun
    exact hreach
  | cons e events ih =>
    obtain ⟨next, hstep, hrest⟩ := Option.bind_eq_some_iff.mp hrun
    exact ih (.step e hreach hstep) hrest

/-- Where a sequence of events ends, or starts if one of them is refused, is
    reachable. -/
theorem Reachable.run_getD {M : Machine S E} {start : S → Prop} {s : S}
    (hreach : M.Reachable start s) (events : List E) :
    M.Reachable start ((M.run s events).getD s) := by
  cases hrun : M.run s events with
  | none => exact hreach
  | some s' => exact hreach.run hrun

/-- A sequence of events of which none is refused ends somewhere. -/
theorem run_eq_getD {M : Machine S E} {s : S} {events : List E}
    (haccepted : (M.run s events).isSome = true) (s' : S) :
    M.run s events = some ((M.run s events).getD s') := by
  obtain ⟨final, hrun⟩ := Option.isSome_iff_exists.mp haccepted
  rw [hrun, Option.getD_some]

/-- A property of the start states that every step keeps holds in every
    reachable state. The step may use that its source is reachable. -/
theorem Reachable.invariant {M : Machine S E} {start : S → Prop} {I : S → Prop}
    (hstart : ∀ s, start s → I s)
    (hstep : ∀ s e s', M.Reachable start s → I s → M.step s e = some s' → I s')
    {s : S} (hreach : M.Reachable start s) : I s := by
  induction hreach with
  | start h => exact hstart _ h
  | step e hprev h ih => exact hstep _ e _ hprev ih h

/-- A preorder that every step from a reachable state keeps relates the two
    ends of every run. -/
theorem Reachable.run_rel {M : Machine S E} {start : S → Prop} {R : S → S → Prop}
    (hrefl : ∀ s, R s s) (htrans : ∀ a b c, R a b → R b c → R a c)
    (hstep : ∀ s e s', M.Reachable start s → M.step s e = some s' → R s s')
    {s s' : S} {events : List E} (hreach : M.Reachable start s)
    (hrun : M.run s events = some s') : R s s' := by
  induction events generalizing s with
  | nil =>
    cases hrun
    exact hrefl _
  | cons e events ih =>
    obtain ⟨next, hnext, hrest⟩ := Option.bind_eq_some_iff.mp hrun
    exact htrans _ _ _ (hstep s e next hreach hnext) (ih (.step e hreach hnext) hrest)

/-- A relation to a second machine that every step keeps, whether the second
    machine matches the step or waits, relates every reachable state to one the
    second machine reaches. -/
theorem Reachable.simulate {M : Machine S E} {N : Machine T F} {start : S → Prop}
    {start' : T → Prop} {R : S → T → Prop}
    (hstart : ∀ s, start s → ∃ t, start' t ∧ R s t)
    (hstep : ∀ s e s' t, R s t → M.step s e = some s' →
      R s' t ∨ ∃ f t', N.step t f = some t' ∧ R s' t')
    {s : S} (hreach : M.Reachable start s) : ∃ t, N.Reachable start' t ∧ R s t := by
  induction hreach with
  | start h =>
    obtain ⟨t, ht, hrelated⟩ := hstart _ h
    exact ⟨t, .start ht, hrelated⟩
  | step e _ h ih =>
    obtain ⟨t, hreach, hrelated⟩ := ih
    obtain hwait | ⟨f, t', hmatch, hnext⟩ := hstep _ e _ t hrelated h
    · exact ⟨t, hreach, hwait⟩
    · exact ⟨t', .step f hreach hmatch, hnext⟩

/-- Two machines that side by side accept and refuse the same events and keep a
    relation run side by side. -/
theorem run_lockstep {M : Machine S E} {N : Machine T E} {R : S → T → Prop}
    (hstep : ∀ s t e, R s t → Option.Rel R (M.step s e) (N.step t e)) {s : S} {t : T}
    (hrelated : R s t) (events : List E) : Option.Rel R (M.run s events) (N.run t events) := by
  induction events generalizing s t with
  | nil => exact .some hrelated
  | cons e events ih =>
    rw [run, run]
    have hfirst := hstep s t e hrelated
    generalize M.step s e = first at hfirst ⊢
    generalize N.step t e = second at hfirst ⊢
    cases hfirst with
    | some hnext => exact ih hnext
    | none => exact .none

/-- The machine together with a history that records its steps and never
    influences them. -/
def observe (M : Machine S E) (record : H → S → E → H) : Machine (S × H) E where
  step s e := (M.step s.1 e).map fun s' => (s', record s.2 s.1 e)

theorem observe_step {M : Machine S E} {record : H → S → E → H} {s s' : S × H} {e : E} :
    (M.observe record).step s e = some s' ↔
      M.step s.1 e = some s'.1 ∧ s'.2 = record s.2 s.1 e := by
  obtain ⟨s', h'⟩ := s'
  simp only [observe, Option.map_eq_some_iff, Prod.mk.injEq]
  constructor
  · rintro ⟨next, hstep, rfl, rfl⟩
    exact ⟨hstep, rfl⟩
  · rintro ⟨hstep, rfl⟩
    exact ⟨s', hstep, rfl, rfl⟩

/-- Recording a history restricts no run: every reachable state is reached
    with some history. -/
theorem Reachable.observe {M : Machine S E} {start : S → Prop} (record : H → S → E → H) (h₀ : H)
    {s : S} (hreach : M.Reachable start s) :
    ∃ h, (M.observe record).Reachable (fun x => start x.1 ∧ x.2 = h₀) (s, h) := by
  induction hreach with
  | start hstart => exact ⟨h₀, .start ⟨hstart, rfl⟩⟩
  | @step s s' e _ hstep ih =>
    obtain ⟨h, ih⟩ := ih
    exact ⟨record h s e, .step e ih (observe_step.mpr ⟨hstep, rfl⟩)⟩

end Machine
