import Mathlib.Data.List.Nodup

/-!
# Bounded buffers of recent items

A buffer that drops its oldest item when it is full holds the last items of
everything that was put in.
-/

namespace Caiman.Lib

variable {α : Type}

/-- The last `n` items. -/
def recent (n : Nat) (l : List α) : List α := l.drop (l.length - n)

/-- Put an item in, and drop the oldest one first if there are `n`. -/
def pushRecent (n : Nat) (l : List α) (x : α) : List α :=
  (if n ≤ l.length then l.tail else l) ++ [x]

@[simp] theorem recent_nil (n : Nat) : recent n ([] : List α) = [] := List.drop_nil

theorem recent_length (n : Nat) (l : List α) : (recent n l).length = min n l.length := by
  rw [recent, List.length_drop]
  omega

theorem pushRecent_recent {n : Nat} (hn : 0 < n) (l : List α) (x : α) :
    pushRecent n (recent n l) x = recent n (l ++ [x]) := by
  have hlen := recent_length n l
  rw [pushRecent, hlen]
  by_cases h : n ≤ l.length
  · rw [if_pos (by omega), recent, recent, List.tail_drop, List.length_append,
      List.length_singleton, List.drop_append_of_le_length (by omega)]
    congr 2
    omega
  · have hall : l.length - n = 0 := by omega
    have hone : (l ++ [x]).length - n = 0 := by
      rw [List.length_append, List.length_singleton]
      omega
    rw [if_neg (by omega), recent, recent, hall, hone, List.drop_zero, List.drop_zero]

theorem foldl_pushRecent {n : Nat} (hn : 0 < n) (l xs : List α) :
    xs.foldl (pushRecent n) (recent n l) = recent n (l ++ xs) := by
  induction xs generalizing l with
  | nil => rw [List.append_nil, List.foldl_nil]
  | cons x xs ih =>
      rw [List.foldl_cons, pushRecent_recent hn, ih, List.append_assoc, List.singleton_append]

/-- The last items before a point and everything behind it make one stretch. -/
theorem recent_take_append_drop (n : Nat) {p : Nat} {l : List α} (hp : p ≤ l.length) :
    recent n (l.take p) ++ l.drop p = l.drop (p - n) := by
  have hlen : (l.take p).length = p := by rw [List.length_take, Nat.min_eq_left hp]
  have hsplit : l.drop (p - n) = (l.take p ++ l.drop p).drop (p - n) := by
    rw [List.take_append_drop]
  rw [recent, hlen, hsplit, List.drop_append_of_le_length (by omega)]

theorem recent_suffix (n : Nat) (l : List α) : recent n l <:+ l := List.drop_suffix _ _

theorem recent_ne_nil {n : Nat} (hn : 0 < n) {l : List α} (hl : l ≠ []) : recent n l ≠ [] := by
  have hpos := List.length_pos_iff.mpr hl
  apply List.length_pos_iff.mp
  rw [recent_length]
  omega

/-- Put an item in front of the newest `n`, and drop the oldest if there is one too many. -/
theorem cons_take_dropLast (n : Nat) (x : α) (l : List α) :
    (if n < (x :: l.take n).length then (x :: l.take n).dropLast else x :: l.take n) =
      (x :: l).take n := by
  by_cases h : n ≤ l.length
  · have hlen : (x :: l.take n).length = n + 1 := by
      rw [List.length_cons, List.length_take, Nat.min_eq_left h]
    rw [if_pos (by omega), List.dropLast_eq_take, hlen, Nat.add_sub_cancel]
    cases n with
    | zero => rfl
    | succ k =>
        rw [List.take_succ_cons, List.take_succ_cons, List.take_take, Nat.min_eq_left (by omega)]
  · have hall : l.take n = l := List.take_of_length_le (by omega)
    rw [hall, if_neg (by rw [List.length_cons]; omega)]
    exact (List.take_of_length_le (by rw [List.length_cons]; omega)).symm

theorem not_nodup_append_of_suffix {l l₁ l₂ : List α} (h₁ : l₁ <:+ l) (h₂ : l₂ <:+ l)
    (hne₁ : l₁ ≠ []) (hne₂ : l₂ ≠ []) : ¬ (l₁ ++ l₂).Nodup := by
  intro hnodup
  have hdisjoint := (List.nodup_append.mp hnodup).2.2
  obtain ⟨x, hx⟩ := List.exists_mem_of_ne_nil l₁ hne₁
  obtain ⟨y, hy⟩ := List.exists_mem_of_ne_nil l₂ hne₂
  rcases List.suffix_or_suffix_of_suffix h₁ h₂ with h | h
  · exact hdisjoint x hx x (h.subset hx) rfl
  · exact hdisjoint y (h.subset hy) y hy rfl

end Caiman.Lib
