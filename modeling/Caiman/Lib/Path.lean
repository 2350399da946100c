import Mathlib.Data.List.Basic

/-!
# Lexical paths

A path is a list of segments, and an absolute one is resolved from the root: empty
segments and `.` stay, `..` goes up and stays at the root, a name goes down. Where a
path leads, seen from a fixed directory, needs only counters: how far above the
directory it is, how far below, or how far aside of the way from the root to it.
-/

namespace Caiman.Lib.Path

def segments (path : String) : List String := (path.toList.splitOn '/').map String.ofList

def enter (dir : List String) (segment : String) : List String :=
  if segment = "" ∨ segment = "." then dir
  else if segment = ".." then dir.dropLast
  else dir ++ [segment]

/-- The directories from the root to where the segments lead. -/
def resolve (segs : List String) : List String := segs.foldl enter []

@[simp] theorem resolve_append (xs ys : List String) :
    resolve (xs ++ ys) = ys.foldl enter (resolve xs) := List.foldl_append

theorem segments_append (xs ys : String) :
    segments (xs ++ "/" ++ ys) = segments xs ++ segments ys := by
  unfold segments
  rw [String.toList_append, String.toList_append, List.append_assoc, ← List.map_append]
  exact congrArg _ (List.splitOn_append_cons_self _ _)

/-- A place, seen from a directory. The counts of `below` and `aside` start at one level. -/
inductive Level
  | above (k : Nat)
  | below (n : Nat)
  /-- Down by another name from `k + 1` levels above. -/
  | aside (k m : Nat)
  deriving DecidableEq

namespace Level

def Below : Level → Prop
  | .below _ => True
  | _ => False

def Aside : Level → Prop
  | .aside .. => True
  | _ => False

def up (depth : Nat) : Level → Level
  | .above k => .above (min (k + 1) depth)
  | .below 0 => .above 0
  | .below (n + 1) => .below n
  | .aside k 0 => .above (k + 1)
  | .aside k (m + 1) => .aside k m

def down (base : List String) (name : String) : Level → Level
  | .above 0 => .below 0
  | .above (k + 1) => if base[base.length - (k + 1)]? = some name then .above k else .aside k 0
  | .below n => .below (n + 1)
  | .aside k m => .aside k (m + 1)

def enter (base : List String) (level : Level) (segment : String) : Level :=
  if segment = "" ∨ segment = "." then level
  else if segment = ".." then level.up base.length
  else level.down base segment

def scan (base : List String) (level : Level) (segs : List String) : Level :=
  segs.foldl (enter base) level

def Is (base : List String) (dir : List String) : Level → Prop
  | .above k => k ≤ base.length ∧ dir = base.take (base.length - k)
  | .below n => ∃ rest, rest.length = n + 1 ∧ dir = base ++ rest
  | .aside k m => k < base.length ∧ ∃ name rest, rest.length = m ∧
      base[base.length - (k + 1)]? ≠ some name ∧
      dir = base.take (base.length - (k + 1)) ++ name :: rest

variable {base dir : List String} {level : Level}

theorem Is.up (h : level.Is base dir) : (level.up base.length).Is base dir.dropLast := by
  cases level with
  | above k =>
      obtain ⟨hk, rfl⟩ := h
      refine ⟨Nat.min_le_right _ _, ?_⟩
      rw [List.dropLast_eq_take, List.take_take, List.length_take]
      congr 1
      omega
  | below n =>
      obtain ⟨rest, hrest, rfl⟩ := h
      have hne : rest ≠ [] := by
        intro hnil
        rw [hnil] at hrest
        cases hrest
      rw [List.dropLast_append_of_ne_nil hne]
      cases n with
      | zero =>
          have hlast : rest.dropLast = [] := List.eq_nil_of_length_eq_zero (by simp [hrest])
          rw [hlast]
          exact ⟨Nat.zero_le _, by simp⟩
      | succ n => exact ⟨rest.dropLast, by simp [hrest], rfl⟩
  | aside k m =>
      obtain ⟨hk, name, rest, hrest, hname, rfl⟩ := h
      rw [List.dropLast_append_of_ne_nil (List.cons_ne_nil name rest)]
      cases m with
      | zero =>
          rw [List.eq_nil_of_length_eq_zero hrest]
          exact ⟨hk, by simp⟩
      | succ m =>
          have hne : rest ≠ [] := by
            intro hnil
            rw [hnil] at hrest
            cases hrest
          rw [List.dropLast_cons_of_ne_nil hne]
          exact ⟨hk, name, rest.dropLast, by simp [hrest], hname, rfl⟩

theorem Is.down (h : level.Is base dir) (name : String) :
    (level.down base name).Is base (dir ++ [name]) := by
  cases level with
  | above k =>
      obtain ⟨hk, rfl⟩ := h
      cases k with
      | zero => exact ⟨[name], rfl, by simp⟩
      | succ k =>
          simp only [Level.down]
          by_cases hnext : base[base.length - (k + 1)]? = some name
          · -- the next directory on the way
            rw [if_pos hnext]
            refine ⟨Nat.le_of_succ_le hk, ?_⟩
            have hlevel : base.length - k = base.length - (k + 1) + 1 := by omega
            rw [hlevel, List.take_add_one, hnext]
            rfl
          · rw [if_neg hnext]
            exact ⟨hk, name, [], rfl, hnext, rfl⟩
  | below n =>
      obtain ⟨rest, hrest, rfl⟩ := h
      exact ⟨rest ++ [name], by simp [hrest], by simp⟩
  | aside k m =>
      obtain ⟨hk, first, rest, hrest, hname, rfl⟩ := h
      exact ⟨hk, first, rest ++ [name], by simp [hrest], hname, by simp⟩

theorem Is.enter (h : level.Is base dir) (segment : String) :
    (level.enter base segment).Is base (Path.enter dir segment) := by
  unfold Level.enter Path.enter
  split
  · exact h
  · split
    · exact h.up
    · exact h.down segment

/-- The counters follow the resolved path. -/
theorem Is.scan (h : level.Is base dir) (segs : List String) :
    (level.scan base segs).Is base (segs.foldl Path.enter dir) := by
  induction segs generalizing level dir with
  | nil => exact h
  | cons segment segs ih => exact ih (h.enter segment)

theorem getElem?_aside (k : Nat) (name : String) (rest : List String) :
    (base.take (base.length - (k + 1)) ++ name :: rest)[base.length - (k + 1)]? = some name := by
  rw [List.getElem?_append_right (by simp), List.length_take, Nat.min_eq_left (Nat.sub_le _ _),
    Nat.sub_self]
  rfl

/-- Strictly below the directory, as the counters have it. -/
theorem Is.below_iff (h : level.Is base dir) :
    level.Below ↔ ∃ name rest, dir = base ++ name :: rest := by
  cases level with
  | above k =>
      obtain ⟨hk, rfl⟩ := h
      refine iff_of_false id ?_
      intro hdir
      obtain ⟨name, rest, hdir⟩ := hdir
      have hlen := congrArg List.length hdir
      simp only [List.length_take, List.length_append, List.length_cons] at hlen
      omega
  | below n =>
      obtain ⟨rest, hrest, rfl⟩ := h
      refine iff_of_true trivial ?_
      cases rest with
      | nil => cases hrest
      | cons name rest => exact ⟨name, rest, rfl⟩
  | aside k m =>
      obtain ⟨hk, name, rest, hrest, hname, rfl⟩ := h
      refine iff_of_false id ?_
      intro hdir
      obtain ⟨other, below, hdir⟩ := hdir
      -- the segment after the common way is another one
      have hat := congrArg (fun l => l[base.length - (k + 1)]?) hdir
      have hright : (base ++ other :: below)[base.length - (k + 1)]? =
          base[base.length - (k + 1)]? :=
        List.getElem?_append_left (by omega)
      simp only [getElem?_aside, hright] at hat
      exact hname hat.symm

/-- Neither on the way from the root to the directory nor below it. -/
theorem Is.aside_iff (h : level.Is base dir) :
    level.Aside ↔ ¬ dir <+: base ∧ ¬ ∃ name rest, dir = base ++ name :: rest := by
  rw [← h.below_iff]
  cases level with
  | above k =>
      obtain ⟨hk, rfl⟩ := h
      exact iff_of_false id fun hnot => hnot.1 (List.take_prefix _ _)
  | below n => exact iff_of_false id fun hnot => hnot.2 trivial
  | aside k m =>
      obtain ⟨hk, name, rest, hrest, hname, rfl⟩ := h
      refine iff_of_true trivial ⟨?_, id⟩
      intro hinit
      obtain ⟨below, hbase⟩ := hinit
      apply hname
      rw [← getElem?_aside k name rest]
      have hlen : base.length - (k + 1) <
          (base.take (base.length - (k + 1)) ++ name :: rest).length := by
        simp only [List.length_append, List.length_take, List.length_cons]
        omega
      rw [← List.getElem?_append_left hlen, hbase]

end Level

end Caiman.Lib.Path
