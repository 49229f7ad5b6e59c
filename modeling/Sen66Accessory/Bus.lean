import Mathlib.Data.Vector.Basic

/-- A serial bus with one device: how a state answers a write of some bytes and
    a read of a number of bytes. Codes other than zero report a failed
    transaction. -/
structure Bus (σ : Type) where
  write : σ → List UInt8 → Int × σ
  read : σ → (length : Nat) → (Int × Vector UInt8 length) × σ

/-- A driver routine: the bus lock, the transactions and the waits it performs,
    in order, each continuing with the answer it got. -/
inductive Transfer (α : Type) where
  | done (result : α)
  | lock (next : Transfer α)
  | unlock (next : Transfer α)
  | write (bytes : List UInt8) (next : Int → Transfer α)
  | sleep (ms : Nat) (next : Transfer α)
  | read (length : Nat) (next : Int × Vector UInt8 length → Transfer α)

namespace Transfer

variable {α β σ : Type}

def bind : Transfer α → (α → Transfer β) → Transfer β
  | .done a, f => f a
  | .lock next, f => .lock (next.bind f)
  | .unlock next, f => .unlock (next.bind f)
  | .write bytes next, f => .write bytes fun err => (next err).bind f
  | .sleep ms next, f => .sleep ms (next.bind f)
  | .read length next, f => .read length fun answer => (next answer).bind f

instance : Monad Transfer where
  pure := .done
  bind := bind

/-- Hold the bus lock for the whole of a routine, whichever way it returns. -/
def locked (body : Transfer α) : Transfer α :=
  .lock (body.bind fun result => .unlock (.done result))

/-- Run a routine alone on a bus. Waits and an uncontended lock change nothing. -/
def run (bus : Bus σ) : Transfer α → σ → α × σ
  | .done a, s => (a, s)
  | .lock next, s => next.run bus s
  | .unlock next, s => next.run bus s
  | .write bytes next, s => let (err, s) := bus.write s bytes; (next err).run bus s
  | .sleep _ next, s => next.run bus s
  | .read length next, s => let (answer, s) := bus.read s length; (next answer).run bus s

@[simp] theorem run_pure (bus : Bus σ) (a : α) (s : σ) : (pure a : Transfer α).run bus s = (a, s) :=
  rfl

private theorem bind_run (bus : Bus σ) (p : Transfer α) (f : α → Transfer β) (s : σ) :
    (p.bind f).run bus s = (f (p.run bus s).1).run bus (p.run bus s).2 := by
  induction p generalizing s with
  | done a => rfl
  | lock next ih => exact ih s
  | unlock next ih => exact ih s
  | write bytes next ih => exact ih _ _
  | sleep ms next ih => exact ih s
  | read length next ih => exact ih _ _

@[simp] theorem run_bind (bus : Bus σ) (p : Transfer α) (f : α → Transfer β) (s : σ) :
    (p >>= f).run bus s = (f (p.run bus s).1).run bus (p.run bus s).2 :=
  bind_run bus p f s

@[simp] theorem run_locked (bus : Bus σ) (p : Transfer α) (s : σ) :
    (locked p).run bus s = p.run bus s :=
  bind_run bus p (fun result => .unlock (.done result)) s

@[simp] theorem run_ite (bus : Bus σ) (c : Prop) [Decidable c] (p q : Transfer α) (s : σ) :
    (if c then p else q).run bus s = if c then p.run bus s else q.run bus s := by
  split <;> rfl

end Transfer
