import Mathlib.Algebra.Group.Basic
import Mathlib.Algebra.Order.Ring.Defs
import Mathlib.Tactic.GCongr

/-! Reporting samples against the one reported last. Series of samples list the
newest one first. -/

namespace Deadband

variable {α : Type}

section

variable (report : α → α → Bool) (start : α)

/-- The sample reported last. A sample is reported when it calls for it against
    that one. -/
def reference : List α → α
  | [] => start
  | x :: earlier => if report (reference earlier) x then x else reference earlier

/-- The reported samples. -/
def reports : List α → List α
  | [] => []
  | x :: earlier => if report (reference report start earlier) x then x :: reports earlier
    else reports earlier

end

/-- The newest sample, or the start of the series. -/
def newest (start : α) (samples : List α) : α := samples.head?.getD start

/-- What it costs to follow a series from sample to sample. -/
def pathLength {M : Type} [AddMonoid M] (cost : α → α → M) (start : α) : List α → M
  | [] => 0
  | x :: earlier => cost (newest start earlier) x + pathLength cost start earlier

/-- Costs that say how far one coordinate went telescope. -/
theorem pathLength_sub {M : Type} [AddCommGroup M] (place : α → M) (start : α) (samples : List α) :
    pathLength (fun a b => place b - place a) start samples = place (newest start samples) - place start := by
  induction samples with
  | nil => exact (sub_self _).symm
  | cons x earlier ih => rw [pathLength, ih, sub_add_sub_cancel]; rfl

/-- Capping a distance at one keeps it without short cuts. -/
theorem min_one_triangle {R : Type} [Semiring R] [LinearOrder R] [IsOrderedRing R] {a b c : R}
    (habc : c ≤ a + b) (ha : 0 ≤ a) (hb : 0 ≤ b) : min 1 c ≤ min 1 a + min 1 b := by
  rcases le_total 1 a with hone | hone
  · rw [min_eq_left hone]
    exact (min_le_left 1 c).trans (le_add_of_nonneg_right (le_min zero_le_one hb))
  rcases le_total 1 b with hone' | hone'
  · rw [min_eq_left hone']
    exact (min_le_left 1 c).trans (le_add_of_nonneg_left (le_min zero_le_one ha))
  · rw [min_eq_right hone, min_eq_right hone']
    exact (min_le_right 1 c).trans habc

section

variable {M : Type} [AddCommMonoid M] [PartialOrder M] [IsOrderedAddMonoid M] {price : M}
  {report : α → α → Bool} {start : α}

/-- The reports and the way from the last one to the newest sample are paid for
    by the path of the series, if every report is worth the way it looks back
    on and no detour is a short cut. -/
theorem nsmul_length_reports_le (cost : α → α → M) {P : α → Prop} (hself : ∀ a, cost a a = 0)
    (htriangle : ∀ a b c, cost a c ≤ cost a b + cost b c)
    (hpaid : ∀ a b, P a → P b → report a b = true → price ≤ cost a b) (hstart : P start)
    {samples : List α} (hsamples : ∀ x ∈ samples, P x) :
    P (reference report start samples) ∧
    (reports report start samples).length • price +
        cost (reference report start samples) (newest start samples) ≤
      pathLength cost start samples := by
  induction samples with
  | nil => exact ⟨hstart, by simp [reports, reference, newest, pathLength, hself]⟩
  | cons x earlier ih =>
    obtain ⟨hreference, hbound⟩ := ih fun y hy => hsamples y (List.mem_cons_of_mem _ hy)
    have hx := hsamples x List.mem_cons_self
    have hway := htriangle (reference report start earlier) (newest start earlier) x
    have htotal : (reports report start earlier).length • price +
        cost (reference report start earlier) x ≤ pathLength cost start (x :: earlier) := by
      calc _ ≤ (reports report start earlier).length • price +
            (cost (reference report start earlier) (newest start earlier) +
              cost (newest start earlier) x) := by gcongr
        _ = _ := by rw [← add_assoc]
        _ ≤ pathLength cost start earlier + cost (newest start earlier) x := by gcongr
        _ = _ := by rw [add_comm, pathLength]
    rw [reference, reports]
    cases hreport : report (reference report start earlier) x with
    | false => exact ⟨hreference, htotal⟩
    | true =>
      refine ⟨hx, le_trans ?_ htotal⟩
      have hworth := hpaid _ _ hreference hx hreport
      rw [if_pos rfl, if_pos rfl, List.length_cons, succ_nsmul]
      change _ + cost x x ≤ _
      rw [hself, add_zero]
      gcongr

end

end Deadband
