import Mathlib.Algebra.BigOperators.Group.List.Basic
import Mathlib.Data.List.Nodup
import Mathlib.Data.List.Sort
import Mathlib.Tactic.Abel

/-!
# Choosing from a list

Sorting by a comparison that may have no answer, keeping the first element of every
key, and updating the first element that fits.
-/

namespace Caiman.Lib.Select

variable {α κ : Type}

theorem one_lt_length_of_ne {l : List α} {a b : α} (ha : a ∈ l) (hb : b ∈ l) (h : a ≠ b) :
    1 < l.length := by
  match l with
  | [] => cases ha
  | [c] => exact absurd ((List.mem_singleton.mp ha).trans (List.mem_singleton.mp hb).symm) h
  | _ :: _ :: _ => exact Nat.lt_of_sub_eq_succ rfl

/-! ## Sorting -/

/-- A stable sort, which fails when two of the elements cannot be compared. -/
def sortBy (cmp : α → α → Option Ordering) (l : List α) : Option (List α) :=
  if l.Pairwise fun a b => (cmp a b).isSome = true then
    some (l.insertionSort fun a b => cmp a b ≠ some .gt)
  else none

theorem sortBy_perm {cmp : α → α → Option Ordering} {l sorted : List α}
    (h : sortBy cmp l = some sorted) : sorted.Perm l := by
  unfold sortBy at h
  split at h
  · cases h
    exact List.perm_insertionSort _ _
  · cases h

theorem exists_sortBy {cmp : α → α → Option Ordering} (h : ∀ a b, (cmp a b).isSome = true)
    (l : List α) : ∃ sorted, sortBy cmp l = some sorted := by
  unfold sortBy
  rw [if_pos (List.pairwise_of_forall h)]
  exact ⟨_, rfl⟩

/-- By a comparison that decides an order, the list is sorted in that order. -/
theorem sortBy_pairwise {cmp : α → α → Option Ordering} {le : α → α → Prop}
    (hle : ∀ a b, cmp a b ≠ some .gt ↔ le a b) (htotal : ∀ a b, le a b ∨ le b a)
    (htrans : ∀ a b c, le a b → le b c → le a c) {l sorted : List α}
    (h : sortBy cmp l = some sorted) : sorted.Pairwise le := by
  have hrel : (fun a b => cmp a b ≠ some .gt) = le := by
    funext a b
    exact propext (hle a b)
  have : Std.Total (fun a b => cmp a b ≠ some .gt) := by
    rw [hrel]
    exact ⟨htotal⟩
  have : IsTrans α (fun a b => cmp a b ≠ some .gt) := by
    rw [hrel]
    exact ⟨htrans⟩
  unfold sortBy at h
  split at h
  · cases h
    exact (List.pairwise_insertionSort _ l).imp fun hab => (hle _ _).mp hab
  · cases h

/-- What is taken of a sorted list comes before what is not. -/
theorem take_before {le : α → α → Prop} {l : List α} (hl : l.Pairwise le) {k : Nat} {a b : α}
    (ha : a ∈ l.take k) (hb : b ∈ l) (hnot : b ∉ l.take k) : le a b := by
  rw [← List.take_append_drop k l] at hl hb
  rcases List.mem_append.mp hb with hb | hb
  · exact absurd hb hnot
  · exact (List.pairwise_append.mp hl).2.2 a ha b hb

/-! ## The first of every key -/

variable [DecidableEq κ]

/-- `retain` with a set of the keys that have been seen. -/
def firstOfEach (key : α → κ) : List κ → List α → List α
  | _, [] => []
  | seen, a :: as =>
      if key a ∈ seen then firstOfEach key seen as
      else a :: firstOfEach key (key a :: seen) as

variable {key : α → κ} {seen : List κ} {l : List α} {a : α}

theorem mem_of_mem_firstOfEach (h : a ∈ firstOfEach key seen l) : a ∈ l ∧ key a ∉ seen := by
  induction l generalizing seen with
  | nil => cases h
  | cons b l ih =>
      unfold firstOfEach at h
      split at h
      · obtain ⟨hmem, hnew⟩ := ih h
        exact ⟨List.mem_cons_of_mem b hmem, hnew⟩
      · rename_i hb
        rcases List.mem_cons.mp h with rfl | hrest
        · exact ⟨List.mem_cons_self, hb⟩
        · obtain ⟨hmem, hnew⟩ := ih hrest
          exact ⟨List.mem_cons_of_mem b hmem, fun hseen => hnew (List.mem_cons_of_mem _ hseen)⟩

theorem nodup_firstOfEach (key : α → κ) (seen : List κ) (l : List α) :
    ((firstOfEach key seen l).map key).Nodup := by
  induction l generalizing seen with
  | nil => exact List.nodup_nil
  | cons b l ih =>
      unfold firstOfEach
      split
      · exact ih seen
      · rw [List.map_cons, List.nodup_cons]
        refine ⟨?_, ih _⟩
        intro hmem
        obtain ⟨a, ha, hkey⟩ := List.mem_map.mp hmem
        exact (mem_of_mem_firstOfEach ha).2 (hkey ▸ List.mem_cons_self)

/-- A key that has not been seen is kept once. -/
theorem exists_firstOfEach (h : a ∈ l) (hnew : key a ∉ seen) :
    ∃ b ∈ firstOfEach key seen l, key b = key a := by
  induction l generalizing seen with
  | nil => cases h
  | cons b l ih =>
      unfold firstOfEach
      rcases List.mem_cons.mp h with rfl | hrest
      · rw [if_neg hnew]
        exact ⟨a, List.mem_cons_self, rfl⟩
      · split
        · exact ih hrest hnew
        · by_cases hkey : key a = key b
          · exact ⟨b, List.mem_cons_self, hkey.symm⟩
          · have hstill : key a ∉ key b :: seen := by simp [hkey, hnew]
            obtain ⟨c, hc, hkeyc⟩ := ih hrest hstill
            exact ⟨c, List.mem_cons_of_mem b hc, hkeyc⟩

theorem firstOfEach_sublist (key : α → κ) (seen : List κ) (l : List α) :
    (firstOfEach key seen l).Sublist l := by
  induction l generalizing seen with
  | nil => exact List.Sublist.refl []
  | cons b l ih =>
      unfold firstOfEach
      split
      · exact (ih seen).cons b
      · exact (ih _).cons_cons b

/-- The first of a key comes before all others of it. -/
theorem firstOfEach_before {le : α → α → Prop} (hrefl : ∀ a, le a a) (hl : l.Pairwise le)
    {b : α} (hb : b ∈ firstOfEach key seen l) (ha : a ∈ l) (hkey : key a = key b) : le b a := by
  induction l generalizing seen with
  | nil => cases ha
  | cons c l ih =>
      obtain ⟨hc, hrest⟩ := List.pairwise_cons.mp hl
      unfold firstOfEach at hb
      split at hb
      · rename_i hseen
        rcases List.mem_cons.mp ha with rfl | ha
        · exact absurd (hkey ▸ hseen) (mem_of_mem_firstOfEach hb).2
        · exact ih hrest hb ha
      · rcases List.mem_cons.mp hb with rfl | hb
        · rcases List.mem_cons.mp ha with rfl | ha
          · exact hrefl a
          · exact hc a ha
        · rcases List.mem_cons.mp ha with rfl | ha
          · exact absurd (hkey ▸ List.mem_cons_self) (mem_of_mem_firstOfEach hb).2
          · exact ih hrest hb ha

/-! ## Updating the first -/

/-- `iter_mut().find`, and an update of what is found. -/
def updateFirst (p : α → Bool) (f : α → α) : List α → List α
  | [] => []
  | a :: as => if p a then f a :: as else a :: updateFirst p f as

section

variable {p q : α → Bool} {f : α → α}

@[simp] theorem length_updateFirst (p : α → Bool) (f : α → α) (l : List α) :
    (updateFirst p f l).length = l.length := by
  induction l with
  | nil => rfl
  | cons b l ih =>
      unfold updateFirst
      split
      · rfl
      · rw [List.length_cons, ih, List.length_cons]

theorem sum_map_updateFirst {K : Type} [AddCommGroup K] {g : α → K} {x : α}
    (h : l.find? p = some x) :
    ((updateFirst p f l).map g).sum = (l.map g).sum + (g (f x) - g x) := by
  induction l with
  | nil => cases h
  | cons b l ih =>
      unfold updateFirst
      cases hb : p b with
      | true =>
          rw [List.find?_cons_of_pos hb, Option.some.injEq] at h
          subst h
          rw [if_pos rfl, List.map_cons, List.map_cons, List.sum_cons, List.sum_cons]
          abel
      | false =>
          rw [List.find?_cons_of_neg (by simp [hb])] at h
          rw [if_neg (by decide), List.map_cons, List.map_cons, List.sum_cons, List.sum_cons, ih h,
            add_assoc]

theorem find?_updateFirst (h : ∀ x, p x = true → q x = false ∧ q (f x) = false) :
    (updateFirst p f l).find? q = l.find? q := by
  induction l with
  | nil => rfl
  | cons b l ih =>
      unfold updateFirst
      split
      · rename_i hb
        obtain ⟨hold, hnew⟩ := h b hb
        rw [List.find?_cons_of_neg (by simp [hnew]), List.find?_cons_of_neg (by simp [hold])]
      · rw [List.find?_cons, List.find?_cons, ih]

end

end Caiman.Lib.Select
