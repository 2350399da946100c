import Mathlib.Data.List.Basic

/-!
# Slices of strings

A string is cut at byte offsets. An offset inside a character, or past the end, is a
fault of the program that asks for it.
-/

namespace Caiman.Lib.Str

/-- The number of bytes in UTF-8. -/
def byteLen : List Char → Nat
  | [] => 0
  | c :: cs => c.utf8Size + byteLen cs

@[simp] theorem byteLen_nil : byteLen [] = 0 := rfl

@[simp] theorem byteLen_cons (c : Char) (cs : List Char) :
    byteLen (c :: cs) = c.utf8Size + byteLen cs := rfl

@[simp] theorem byteLen_append (cs ds : List Char) :
    byteLen (cs ++ ds) = byteLen cs + byteLen ds := by
  induction cs with
  | nil => simp
  | cons c cs ih => rw [List.cons_append, byteLen_cons, ih, byteLen_cons, Nat.add_assoc]

/-- What is before the offset and what is from it on. -/
def cut : List Char → Nat → Option (List Char × List Char)
  | cs, 0 => some ([], cs)
  | [], _ + 1 => none
  | c :: cs, n + 1 =>
      if c.utf8Size ≤ n + 1 then (cut cs (n + 1 - c.utf8Size)).map fun p => (c :: p.1, p.2)
      else none

/-- `&s[..n]` -/
def sliceTo (s : String) (n : Nat) : Option String :=
  (cut s.toList n).map fun p => String.ofList p.1

/-- `&s[n..]` -/
def sliceFrom (s : String) (n : Nat) : Option String :=
  (cut s.toList n).map fun p => String.ofList p.2

theorem byteLen_eq_zero {cs : List Char} : byteLen cs = 0 ↔ cs = [] := by
  cases cs with
  | nil => simp
  | cons c cs =>
      have hpos := c.utf8Size_pos
      simp only [byteLen_cons, reduceCtorEq, iff_false]
      omega

theorem cut_zero (cs : List Char) : cut cs 0 = some ([], cs) := by
  cases cs <;> rfl

theorem cut_zero_eq_some {cs front back : List Char} :
    cut cs 0 = some (front, back) ↔ cs = front ++ back ∧ byteLen front = 0 := by
  rw [cut_zero, Option.some.injEq, Prod.mk.injEq, byteLen_eq_zero]
  constructor
  · intro h
    obtain ⟨rfl, rfl⟩ := h
    exact ⟨rfl, rfl⟩
  · intro h
    obtain ⟨rfl, rfl⟩ := h
    exact ⟨rfl, rfl⟩

theorem cut_eq_some {cs front back : List Char} {n : Nat} :
    cut cs n = some (front, back) ↔ cs = front ++ back ∧ byteLen front = n := by
  induction cs generalizing n front with
  | nil =>
      cases n with
      | zero => exact cut_zero_eq_some
      | succ n =>
          simp only [cut, reduceCtorEq, false_iff, not_and]
          intro h hlen
          have hfront : front = [] := (List.append_eq_nil_iff.mp h.symm).1
          rw [hfront] at hlen
          cases hlen
  | cons c cs ih =>
      have hpos := c.utf8Size_pos
      cases n with
      | zero => exact cut_zero_eq_some
      | succ n =>
          simp only [cut]
          cases front with
          | nil =>
              simp only [byteLen_nil, Nat.zero_ne_add_one, and_false, iff_false]
              split <;> simp
          | cons d front =>
              split
              · rename_i hfits
                simp only [Option.map_eq_some_iff, Prod.exists, Prod.mk.injEq, List.cons.injEq,
                  List.cons_append, byteLen_cons]
                constructor
                · intro h
                  obtain ⟨f, b, hcut, ⟨rfl, rfl⟩, rfl⟩ := h
                  obtain ⟨hcs, hlen⟩ := ih.mp hcut
                  exact ⟨⟨rfl, hcs⟩, by omega⟩
                · intro h
                  obtain ⟨⟨rfl, hcs⟩, hlen⟩ := h
                  exact ⟨front, back, ih.mpr ⟨hcs, by omega⟩, ⟨rfl, rfl⟩, rfl⟩
              · rename_i hfits
                simp only [reduceCtorEq, List.cons_append, List.cons.injEq, byteLen_cons, false_iff,
                  not_and, and_imp]
                intro hcd _
                subst hcd
                omega

theorem sliceTo_eq_some {s r : String} {n : Nat} :
    sliceTo s n = some r ↔ r.toList <+: s.toList ∧ byteLen r.toList = n := by
  unfold sliceTo
  simp only [Option.map_eq_some_iff, Prod.exists]
  constructor
  · intro h
    obtain ⟨front, back, hcut, rfl⟩ := h
    obtain ⟨hs, hlen⟩ := cut_eq_some.mp hcut
    rw [String.toList_ofList]
    exact ⟨⟨back, hs.symm⟩, hlen⟩
  · intro h
    obtain ⟨⟨back, hs⟩, hlen⟩ := h
    exact ⟨r.toList, back, cut_eq_some.mpr ⟨hs.symm, hlen⟩, String.ofList_toList⟩

theorem sliceFrom_eq_some {s r : String} {n : Nat} :
    sliceFrom s n = some r ↔ r.toList <:+ s.toList ∧ n + byteLen r.toList = byteLen s.toList := by
  unfold sliceFrom
  simp only [Option.map_eq_some_iff, Prod.exists]
  constructor
  · intro h
    obtain ⟨front, back, hcut, rfl⟩ := h
    obtain ⟨hs, hlen⟩ := cut_eq_some.mp hcut
    rw [String.toList_ofList]
    refine ⟨⟨front, hs.symm⟩, ?_⟩
    rw [hs, byteLen_append, hlen]
  · intro h
    obtain ⟨⟨front, hs⟩, hlen⟩ := h
    rw [← hs, byteLen_append] at hlen
    exact ⟨front, r.toList, cut_eq_some.mpr ⟨hs.symm, by omega⟩, String.ofList_toList⟩

/-! ## Trimming -/

/-- At most that many copies of the pattern are taken off. -/
def trimCopies (pat : List Char) : Nat → List Char → List Char
  | 0, cs => cs
  | n + 1, cs => if pat <+: cs then trimCopies pat n (cs.drop pat.length) else cs

/-- `trim_start_matches` of a pattern that is not empty. -/
def trimStartMatches (pat s : String) : String :=
  String.ofList (trimCopies pat.toList s.toList.length s.toList)

theorem trimCopies_of_not_prefix {pat cs : List Char} (h : ¬ pat <+: cs) (n : Nat) :
    trimCopies pat n cs = cs := by
  cases n with
  | zero => rfl
  | succ n => rw [trimCopies, if_neg h]

theorem trimStartMatches_append {pat s : String} (hpat : pat.toList ≠ [])
    (h : ¬ pat.toList <+: s.toList) : trimStartMatches pat (pat ++ s) = s := by
  unfold trimStartMatches
  rw [String.toList_append]
  obtain ⟨c, cs, hcs⟩ := List.exists_cons_of_ne_nil hpat
  have hlen : (pat.toList ++ s.toList).length = (cs ++ s.toList).length + 1 := by
    rw [hcs]
    rfl
  rw [hlen, trimCopies, if_pos (List.prefix_append _ _), List.drop_left,
    trimCopies_of_not_prefix h, String.ofList_toList]

end Caiman.Lib.Str
