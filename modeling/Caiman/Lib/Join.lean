import Mathlib.Data.List.Sort

/-!
# Canonical texts

Sorting removes the order a collection is visited in, and a text of parts that are joined
by a separator none of them contains determines the parts.
-/

namespace Caiman.Lib.Join

variable {α : Type}

theorem insertionSort_eq_of_perm [LinearOrder α] {l l' : List α} (h : l.Perm l') :
    l.insertionSort (· ≤ ·) = l'.insertionSort (· ≤ ·) := by
  have hperm : (l.insertionSort (· ≤ ·)).Perm (l'.insertionSort (· ≤ ·)) :=
    ((List.perm_insertionSort _ l).trans h).trans (List.perm_insertionSort _ l').symm
  exact hperm.eq_of_pairwise' (List.pairwise_insertionSort _ l) (List.pairwise_insertionSort _ l')

/-- What is before the first separator, and what is after it. -/
theorem key_value_injective {sep : α} {k k' v v' : List α} (hk : sep ∉ k) (hk' : sep ∉ k')
    (h : k ++ sep :: v = k' ++ sep :: v') : k = k' ∧ v = v' := by
  induction k generalizing k' with
  | nil =>
      cases k' with
      | nil =>
          rw [List.nil_append, List.nil_append, List.cons.injEq] at h
          exact ⟨rfl, h.2⟩
      | cons c k' =>
          rw [List.nil_append, List.cons_append, List.cons.injEq] at h
          exact absurd (h.1 ▸ List.mem_cons_self) hk'
  | cons c k ih =>
      cases k' with
      | nil =>
          rw [List.nil_append, List.cons_append, List.cons.injEq] at h
          exact absurd (h.1 ▸ List.mem_cons_self) hk
      | cons c' k' =>
          rw [List.cons_append, List.cons_append, List.cons.injEq] at h
          obtain ⟨hkeys, hvalues⟩ := ih (fun hmem => hk (List.mem_cons_of_mem c hmem))
            (fun hmem => hk' (List.mem_cons_of_mem c' hmem)) h.2
          exact ⟨by rw [h.1, hkeys], hvalues⟩

theorem eq_nil_of_intercalate {sep : α} {l : List (List α)} (hne : [] ∉ l)
    (h : [sep].intercalate l = []) : l = [] := by
  match l with
  | [] => rfl
  | [x] =>
      rw [List.intercalate_singleton] at h
      exact absurd (h ▸ List.mem_cons_self) hne
  | x :: y :: rest =>
      rw [List.intercalate_cons_cons] at h
      simp at h

/-- Parts that are not empty and do not contain the separator are found again. -/
theorem intercalate_injective [DecidableEq α] {sep : α} {l l' : List (List α)}
    (hsep : ∀ x ∈ l, sep ∉ x) (hsep' : ∀ x ∈ l', sep ∉ x) (hne : [] ∉ l) (hne' : [] ∉ l')
    (h : [sep].intercalate l = [sep].intercalate l') : l = l' := by
  by_cases hl : l = []
  · rw [hl, List.intercalate_nil] at h
    rw [hl, eq_nil_of_intercalate hne' h.symm]
  · by_cases hl' : l' = []
    · rw [hl', List.intercalate_nil] at h
      exact absurd (eq_nil_of_intercalate hne h) hl
    · rw [← List.splitOn_intercalate sep hsep hl, h, List.splitOn_intercalate sep hsep' hl']

end Caiman.Lib.Join
