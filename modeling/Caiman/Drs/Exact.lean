import Mathlib.Algebra.Order.Field.Basic
import Mathlib.Algebra.Order.Field.Rat
import Mathlib.Order.Monotone.Defs
import Caiman.Lib.Spread
import Caiman.Lib.Stable
import Caiman.Drs.Types

/-!
# Exact arithmetic

The operations of an ordered field, with any function for the square root that keeps the
order of what is not negative: the square root of the reals, or the identity of the
rationals, with which variances are compared.
-/

namespace Caiman.Drs

open Lib.Spread

variable {K : Type} [Field K] [LinearOrder K] [IsStrictOrderedRing K]

structure Root (K : Type) [Field K] [LinearOrder K] [IsStrictOrderedRing K] where
  fn : K → K
  strictMono : StrictMonoOn fn (Set.Ici 0)

/-- Variances in place of their roots. -/
def Root.identity : Root K := ⟨id, strictMono_id.strictMonoOn _⟩

/-- The operations with no rounding. -/
def Root.arith (root : Root K) : Arith K where
  add := (· + ·)
  sub := (· - ·)
  mul := (· * ·)
  div := (· / ·)
  min := Min.min
  sqrt := root.fn
  ofNat := Nat.cast
  cmp a b := some (compare a b)

namespace Root

variable (root : Root K)

theorem lt_iff {a b : K} : root.arith.Lt a b ↔ a < b := by
  simp only [Arith.Lt, arith, Option.some.injEq, compare_lt_iff_lt]

theorem le_iff {a b : K} : root.arith.Le a b ↔ a ≤ b := by
  simp only [Arith.Le, arith, Option.some.injEq, compare_lt_iff_lt, compare_eq_iff_eq]
  exact le_iff_lt_or_eq.symm

theorem lawful : Lib.Select.Lawful root.arith.cmp where
  swap a b := by
    simp only [arith, Option.map_some, Option.some.injEq]
    rcases lt_trichotomy a b with hlt | rfl | hgt
    · rw [compare_lt_iff_lt.mpr hlt, compare_gt_iff_gt.mpr hlt, Ordering.swap]
    · rw [compare_eq_iff_eq.mpr rfl, Ordering.swap]
    · rw [compare_lt_iff_lt.mpr hgt, compare_gt_iff_gt.mpr hgt, Ordering.swap]
  trans a b c := by
    simp only [arith, Option.some.injEq, compare_lt_iff_lt, compare_eq_iff_eq, ← le_iff_lt_or_eq]
    exact le_trans

theorem sum_eq (xs : List K) : root.arith.sum xs = xs.sum := by
  have hfold : ∀ x, xs.foldl root.arith.add x = x + xs.sum := by
    induction xs with
    | nil => simp
    | cons y ys ih =>
        intro x
        rw [List.foldl_cons, ih, List.sum_cons, ← add_assoc]
        rfl
  rw [Arith.sum, hfold]
  simp [arith]

theorem stddev_eq (loads : List K) : root.arith.stddev loads = root.fn (variance loads) := by
  simp only [Arith.stddev, sum_eq]
  rfl

end Root

end Caiman.Drs
