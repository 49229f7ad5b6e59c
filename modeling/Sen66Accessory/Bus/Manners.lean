import Sen66Accessory.Bus
import Mathlib.Tactic.Common

namespace Transfer

variable {α β σ : Type}

/-- The milliseconds a routine waits in a run alone on a bus. -/
def waited (bus : Bus σ) : Transfer α → σ → Nat
  | .done _, _ => 0
  | .lock next, s => next.waited bus s
  | .unlock next, s => next.waited bus s
  | .write bytes next, s => let (err, s) := bus.write s bytes; (next err).waited bus s
  | .sleep ms next, s => ms + next.waited bus s
  | .read length next, s => let (answer, s) := bus.read s length; (next answer).waited bus s

@[simp] theorem waited_pure (bus : Bus σ) (a : α) (s : σ) :
    (pure a : Transfer α).waited bus s = 0 := rfl

private theorem bind_waited (bus : Bus σ) (p : Transfer α) (f : α → Transfer β) (s : σ) :
    (p.bind f).waited bus s = p.waited bus s + (f (p.run bus s).1).waited bus (p.run bus s).2 := by
  induction p generalizing s with
  | done a => exact (Nat.zero_add _).symm
  | lock next ih => exact ih s
  | unlock next ih => exact ih s
  | write bytes next ih => exact ih _ _
  | sleep ms next ih =>
    change ms + (next.bind f).waited bus s = ms + next.waited bus s + _
    rw [ih, Nat.add_assoc]
    rfl
  | read length next ih => exact ih _ _

/-- A routine waits for as long as its parts do, one after the other. -/
@[simp] theorem waited_bind (bus : Bus σ) (p : Transfer α) (f : α → Transfer β) (s : σ) :
    (p >>= f).waited bus s =
      p.waited bus s + (f (p.run bus s).1).waited bus (p.run bus s).2 :=
  bind_waited bus p f s

@[simp] theorem waited_locked (bus : Bus σ) (p : Transfer α) (s : σ) :
    (locked p).waited bus s = p.waited bus s :=
  bind_waited bus p (fun result => .unlock (.done result)) s

@[simp] theorem waited_ite (bus : Bus σ) (c : Prop) [Decidable c] (p q : Transfer α) (s : σ) :
    (if c then p else q).waited bus s = if c then p.waited bus s else q.waited bus s := by
  split <;> rfl

/-- What every transaction keeps is kept by every routine. -/
theorem run_invariant {bus : Bus σ} {I : σ → Prop} (hwrite : ∀ s bytes, I s → I (bus.write s bytes).2)
    (hread : ∀ s length, I s → I (bus.read s length).2) (p : Transfer α) {s : σ} (hs : I s) :
    I (p.run bus s).2 := by
  induction p generalizing s with
  | done a => exact hs
  | lock next ih => exact ih hs
  | unlock next ih => exact ih hs
  | write bytes next ih => exact ih _ (hwrite s bytes hs)
  | sleep ms next ih => exact ih hs
  | read length next ih => exact ih _ (hread s length hs)

/-- A routine that takes the lock only while it is free, uses the bus and gives
    the lock back only while it holds it, and never waits for more than a limit
    between taking the lock and giving it back, whatever the bus answers. A held
    lock comes with what is left of the limit. -/
def Courteous (limit : Nat) (final : Bool) : Option Nat → Transfer α → Prop
  | held, .done _ => held.isSome = final
  | held, .lock next => held = none ∧ next.Courteous limit final (some limit)
  | held, .unlock next => held.isSome = true ∧ next.Courteous limit final none
  | held, .write _ next => held.isSome = true ∧ ∀ err, (next err).Courteous limit final held
  | none, .sleep _ next => next.Courteous limit final none
  | some left, .sleep ms next => ms ≤ left ∧ next.Courteous limit final (some (left - ms))
  | held, .read _ next => held.isSome = true ∧ ∀ answer, (next answer).Courteous limit final held

/-- Courteous routines make up a courteous one. -/
theorem Courteous.bind {limit : Nat} {p : Transfer α} {f : α → Transfer β} {held : Option Nat}
    {mid final : Bool} (hp : p.Courteous limit mid held)
    (hf : ∀ a held, held.isSome = mid → (f a).Courteous limit final held) :
    (p >>= f).Courteous limit final held := by
  change (p.bind f).Courteous limit final held
  induction p generalizing held with
  | done a => exact hf a held hp
  | lock next ih => exact ⟨hp.1, ih hp.2⟩
  | unlock next ih => exact ⟨hp.1, ih hp.2⟩
  | write bytes next ih => exact ⟨hp.1, fun err => ih err (hp.2 err)⟩
  | sleep ms next ih =>
    cases held with
    | none => exact @ih none hp
    | some left => exact ⟨hp.1, ih hp.2⟩
  | read length next ih => exact ⟨hp.1, fun answer => ih answer (hp.2 answer)⟩

/-- Courteous routines that end with the lock free may follow one another. -/
theorem Courteous.andThen {limit : Nat} {p : Transfer α} {f : α → Transfer β}
    (hp : p.Courteous limit false none) (hf : ∀ a, (f a).Courteous limit false none) :
    (p >>= f).Courteous limit false none := by
  refine hp.bind fun a held hfree => ?_
  cases held with
  | none => exact hf a
  | some left => cases hfree

/-- A routine that is courteous with the lock in hand is courteous under it. -/
theorem Courteous.locked {limit : Nat} {p : Transfer α} (hp : p.Courteous limit true (some limit)) :
    (Transfer.locked p).Courteous limit false none :=
  ⟨rfl, hp.bind (f := fun result => .unlock (.done result)) fun _ _ hheld => ⟨hheld, rfl⟩⟩

end Transfer
