import Sen66Accessory.MeasurementService.Policy.Step

open Sen66

namespace MeasurementService

/-- A call that changes the policy. -/
inductive Call where
  | onReadResult (err : Int) (measurement : Measurement) (nowMs : Int)
  | markNotified (nowMs : Int)

def Policy.apply (p : Policy) : Call → Policy
  | .onReadResult err measurement nowMs => p.onReadResult err measurement nowMs
  | .markNotified nowMs => p.markNotified nowMs

/-- The policy constructed from a configuration after a history of calls. Like
    every history here it lists the newest call first. -/
def Policy.after (config : PolicyConfig) : List Call → Policy
  | [] => { config }
  | call :: earlier => (Policy.after config earlier).apply call

/-- The frame of the newest successful read, or the zero measurement. -/
def lastRead : List Call → Measurement
  | [] => {}
  | .onReadResult err measurement _ :: earlier => if err = 0 then measurement else lastRead earlier
  | .markNotified _ :: earlier => lastRead earlier

/-- The frame that was newest when notifications were last marked delivered. -/
def markedFrame : List Call → Measurement
  | [] => {}
  | .onReadResult _ _ _ :: earlier => markedFrame earlier
  | .markNotified _ :: earlier => lastRead earlier

/-- The time notifications were last marked delivered, zero if never. -/
def markedAt : List Call → Int
  | [] => 0
  | .onReadResult _ _ _ :: earlier => markedAt earlier
  | .markNotified nowMs :: _ => nowMs

/-- The number of failed reads since the newest successful one. -/
def failures : List Call → Nat
  | [] => 0
  | .onReadResult err _ _ :: earlier => if err = 0 then 0 else failures earlier + 1
  | .markNotified _ :: earlier => failures earlier

namespace Policy

/-- What the policy remembers of a history: its configuration, the newest
    successful frame, and the frame and time of the last marking. -/
private theorem after_data (config : PolicyConfig) (calls : List Call) :
    (after config calls).config = config ∧
    (after config calls).latest = lastRead calls ∧
    (after config calls).lastNotified = markedFrame calls ∧
    (after config calls).lastNotifyMs = markedAt calls := by
  induction calls with
  | nil => exact ⟨rfl, rfl, rfl, rfl⟩
  | cons call earlier ih =>
    obtain ⟨hconfig, hlatest, hnotified, hnotifyMs⟩ := ih
    cases call with
    | onReadResult err m nowMs =>
      by_cases herr : err = 0
      · subst herr
        simp [after, apply, onReadResult_success, lastRead, markedFrame, markedAt, hconfig,
          hnotified, hnotifyMs]
      · simp [after, apply, onReadResult_failure _ herr, lastRead, markedFrame, markedAt, herr,
          hconfig, hlatest, hnotified, hnotifyMs]
    | markNotified nowMs => exact ⟨hconfig, hlatest, hlatest, rfl⟩

section

variable (config : PolicyConfig) (calls : List Call)

@[simp] theorem after_config : (after config calls).config = config :=
  (after_data config calls).1

@[simp] theorem after_lastNotified : (after config calls).lastNotified = markedFrame calls :=
  (after_data config calls).2.2.1

@[simp] theorem after_lastNotifyMs : (after config calls).lastNotifyMs = markedAt calls :=
  (after_data config calls).2.2.2

end

end Policy

end MeasurementService
