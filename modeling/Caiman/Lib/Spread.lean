import Mathlib.Algebra.BigOperators.Ring.List
import Mathlib.Algebra.Order.BigOperators.Group.List
import Mathlib.Algebra.Order.Field.Basic
import Mathlib.Tactic.Ring
import Mathlib.Tactic.FieldSimp
import Mathlib.Tactic.Linarith
import Mathlib.Tactic.Positivity

/-!
# Spread of a list of numbers

The variance of finitely many numbers, and how it changes when two of them change.
-/

namespace Caiman.Lib.Spread

variable {K : Type} [Field K]

def mean (xs : List K) : K := xs.sum / xs.length

def variance (xs : List K) : K := (xs.map fun x => (x - mean xs) * (x - mean xs)).sum / xs.length

theorem sum_map_sq_sub (xs : List K) (c : K) :
    (xs.map fun x => (x - c) * (x - c)).sum =
      (xs.map fun x => x * x).sum - 2 * c * xs.sum + xs.length * (c * c) := by
  induction xs with
  | nil => simp
  | cons x xs ih =>
      simp only [List.map_cons, List.sum_cons, List.length_cons, Nat.cast_succ, ih]
      ring

variable [LinearOrder K] [IsStrictOrderedRing K]

theorem variance_nonneg (xs : List K) : 0 ≤ variance xs := by
  apply div_nonneg
  · apply List.sum_nonneg
    intro y hy
    obtain ⟨x, -, rfl⟩ := List.mem_map.mp hy
    exact mul_self_nonneg _
  · exact Nat.cast_nonneg _

/-- The mean of the squares without the square of the mean. -/
theorem variance_eq (xs : List K) (h : xs ≠ []) :
    variance xs = (xs.map fun x => x * x).sum / xs.length - mean xs * mean xs := by
  have hlen : (xs.length : K) ≠ 0 := by
    rw [Nat.cast_ne_zero, ne_eq, List.length_eq_zero_iff]
    exact h
  unfold variance
  rw [sum_map_sq_sub, mean]
  field_simp
  ring

/-- Of two numbers it is the square of half their distance. -/
theorem variance_pair (a b : K) : variance [a, b] = ((a - b) / 2) * ((a - b) / 2) := by
  rw [variance_eq _ (List.cons_ne_nil _ _)]
  simp only [mean, List.map_cons, List.map_nil, List.sum_cons, List.sum_nil, List.length_cons,
    List.length_nil]
  push_cast
  ring

end Caiman.Lib.Spread
