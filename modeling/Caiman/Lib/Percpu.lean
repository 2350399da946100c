import Caiman.Lib.Run
import Mathlib.Algebra.BigOperators.Group.Finset.Basic
import Mathlib.Algebra.BigOperators.Group.Finset.Piecewise
import Mathlib.Data.Fintype.Basic

/-!
# Counters of each CPU

A table of counters with a cell for each CPU. A program on one CPU finds the cells of its own and
writes to no other; what is counted for a key is the sum over the CPUs.
-/

namespace Caiman.Lib

/-- A key is in the table on every CPU or on none. -/
structure Percpu (Cpu Key V : Type) where
  cells : Key → Option (Cpu → V)

namespace Percpu

variable {Cpu Key V : Type} [DecidableEq Cpu]

/-- The table as a program on this CPU finds it. -/
def view (t : Percpu Cpu Key V) (cpu : Cpu) (key : Key) : Option V :=
  (t.cells key).map fun cell => cell cpu

/-- The table after a program on this CPU has left its cells like this. -/
def put (t : Percpu Cpu Key V) (cpu : Cpu) (left : Key → Option V) : Percpu Cpu Key V where
  cells key := (t.cells key).map fun cell => Function.update cell cpu ((left key).getD (cell cpu))

variable [Fintype Cpu] [AddCommMonoid V]

def total (t : Percpu Cpu Key V) (key : Key) : Option V :=
  (t.cells key).map fun cell => ∑ cpu, cell cpu

theorem sum_update_add (cell : Cpu → V) (cpu : Cpu) (v : V) :
    ∑ c, Function.update cell cpu (cell cpu + v) c = ∑ c, cell c + v := by
  rw [Finset.sum_update_of_mem (Finset.mem_univ cpu),
    ← Finset.add_sum_erase _ cell (Finset.mem_univ cpu), Finset.sdiff_singleton_eq_erase,
    add_right_comm]

theorem total_put (t : Percpu Cpu Key V) (cpu : Cpu) {left : Key → Option V} {key : Key} {v : V}
    (h : left key = (t.view cpu key).map fun w => w + v) :
    (t.put cpu left).total key = (t.total key).map fun w => w + v := by
  rw [view, Option.map_map] at h
  rw [total, total, put, Option.map_map, Option.map_map]
  cases hcell : t.cells key with
  | none => rfl
  | some cell =>
      rw [hcell] at h
      rw [Option.map_some, Option.map_some, h]
      exact congrArg some (sum_update_add cell cpu v)

end Percpu

namespace Machine

variable {State Action Event Cpu Key V : Type} [Fintype Cpu] [AddCommMonoid V]
  (m : Machine State Action Event)

theorem run_total (table : State → Percpu Cpu Key V) {tally : Key → List Event → V}
    (hnil : ∀ key, tally key [] = 0)
    (happend : ∀ key es fs, tally key (es ++ fs) = tally key es + tally key fs)
    (hstep : ∀ s a key, (table (m.step s a).1).total key =
      ((table s).total key).map fun w => w + tally key (m.step s a).2)
    (s : State) (as : List Action) (key : Key) :
    (table (m.run s as).1).total key =
      ((table s).total key).map fun w => w + tally key (m.run s as).2 := by
  induction as generalizing s with
  | nil => simp [hnil]
  | cons a as ih =>
      rw [run_cons, ih, hstep, Option.map_map, happend]
      congr 1
      funext w
      exact add_assoc w _ _

end Machine

end Caiman.Lib
