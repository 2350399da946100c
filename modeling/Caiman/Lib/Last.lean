import Mathlib.Data.List.Basic

/-!
# The last value put

Actions that put a value somewhere, or leave what is there. After a sequence of them the last
value put is there, and without one what was there before.
-/

namespace Caiman.Lib

variable {State Action Value : Type}

/-- The value of the last action that puts one. -/
def lastPut (put : Action → Option Value) : List Action → Option Value
  | [] => none
  | a :: as => (lastPut put as).or (put a)

theorem lastPut_append (put : Action → Option Value) (as bs : List Action) :
    lastPut put (as ++ bs) = (lastPut put bs).or (lastPut put as) := by
  induction as with
  | nil => exact (Option.or_none).symm
  | cons a as ih => rw [List.cons_append, lastPut, lastPut, ih, Option.or_assoc]

theorem lastPut_of_none {put : Action → Option Value} {as : List Action}
    (h : ∀ a ∈ as, put a = none) : lastPut put as = none := by
  induction as with
  | nil => rfl
  | cons a as ih =>
      rw [lastPut, h a List.mem_cons_self, Option.or_none]
      exact ih fun b hb => h b (List.mem_cons_of_mem a hb)

/-- When each action that keeps an invariant puts its value where `read` looks, a sequence of
them leaves the last value put. -/
theorem read_foldl (read : State → Option Value) {f : State → Action → State}
    {put : Action → Option Value} {I : State → Prop} {P : Action → Prop}
    (hstep : ∀ s a, I s → P a → I (f s a) ∧ read (f s a) = (put a).or (read s))
    {s : State} (hs : I s) {as : List Action} (has : ∀ a ∈ as, P a) :
    I (as.foldl f s) ∧ read (as.foldl f s) = (lastPut put as).or (read s) := by
  induction as generalizing s with
  | nil => exact ⟨hs, rfl⟩
  | cons a as ih =>
      obtain ⟨hinv, hread⟩ := hstep s a hs (has a List.mem_cons_self)
      obtain ⟨hfinal, hlast⟩ := ih hinv fun b hb => has b (List.mem_cons_of_mem a hb)
      refine ⟨hfinal, ?_⟩
      rw [List.foldl_cons, hlast, hread, lastPut, Option.or_assoc]

end Caiman.Lib
