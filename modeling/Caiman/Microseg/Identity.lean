import Caiman.Lib.Join
import Caiman.Microseg.Compiler

/-!
# Canonical identities

The text that is hashed does not depend on the order of the labels, and for keys and values
without the two separators it determines them.
-/

namespace Caiman.Microseg

open Lib.Join

def pairText (p : String × String) : String := p.1 ++ "=" ++ p.2

def Labels.bytes (labels : Labels) : List UInt8 := labels.combined.toUTF8.data.toList

/-- Neither keys nor values contain a separator. -/
def Labels.Clean (labels : Labels) : Prop :=
  ∀ p ∈ labels.pairs, ∀ c ∈ [',', '='], c ∉ p.1.toList ∧ c ∉ p.2.toList

variable {a b : Labels}

theorem pairText_toList (p : String × String) :
    (pairText p).toList = p.1.toList ++ '=' :: p.2.toList := by
  simp [pairText]

theorem combined_eq_of_perm (h : a.pairs.Perm b.pairs) : a.combined = b.combined := by
  rw [Labels.combined, Labels.combined, insertionSort_eq_of_perm (h.map fun p => p.1 ++ "=" ++ p.2)]

/-- The sorted pairs of a set, as lists of characters. -/
def Labels.parts (labels : Labels) : List (List Char) :=
  ((labels.pairs.map pairText).insertionSort (· ≤ ·)).map String.toList

theorem combined_toList (labels : Labels) :
    labels.combined.toList = [','].intercalate labels.parts := by
  rw [Labels.combined, String.toList_intercalate]
  rfl

theorem mem_parts {labels : Labels} {x : List Char} :
    x ∈ labels.parts ↔ ∃ p ∈ labels.pairs, x = p.1.toList ++ '=' :: p.2.toList := by
  simp only [Labels.parts, List.mem_map, List.mem_insertionSort]
  constructor
  · intro h
    obtain ⟨text, ⟨p, hp, rfl⟩, rfl⟩ := h
    exact ⟨p, hp, pairText_toList p⟩
  · intro h
    obtain ⟨p, hp, rfl⟩ := h
    exact ⟨pairText p, ⟨p, hp, rfl⟩, pairText_toList p⟩

theorem nil_not_mem_parts (labels : Labels) : [] ∉ labels.parts := by
  intro h
  obtain ⟨p, -, hp⟩ := mem_parts.mp h
  simp at hp

theorem Labels.Clean.comma_not_mem (h : a.Clean) : ∀ x ∈ a.parts, ',' ∉ x := by
  intro x hx
  obtain ⟨p, hp, rfl⟩ := mem_parts.mp hx
  obtain ⟨hkey, hvalue⟩ := h p hp ',' (by decide)
  simp [hkey, hvalue]

theorem Labels.Clean.mem_of_parts (ha : a.Clean) (hb : b.Clean) (h : a.parts = b.parts)
    {p : String × String} (hp : p ∈ a.pairs) : p ∈ b.pairs := by
  have hpart : p.1.toList ++ '=' :: p.2.toList ∈ b.parts := h ▸ mem_parts.mpr ⟨p, hp, rfl⟩
  obtain ⟨q, hq, htext⟩ := mem_parts.mp hpart
  obtain ⟨hkey, hvalue⟩ := key_value_injective (ha p hp '=' (by decide)).1
    (hb q hq '=' (by decide)).1 htext
  have hsame : p = q := Prod.ext (String.toList_inj.mp hkey) (String.toList_inj.mp hvalue)
  exact hsame ▸ hq

/-- For such sets, one text means one set. -/
theorem perm_of_combined_eq (ha : a.Clean) (hb : b.Clean) (h : a.combined = b.combined) :
    a.pairs.Perm b.pairs := by
  have hparts : a.parts = b.parts := by
    refine intercalate_injective ha.comma_not_mem hb.comma_not_mem (nil_not_mem_parts a)
      (nil_not_mem_parts b) ?_
    rw [← combined_toList, ← combined_toList, h]
  refine (List.perm_ext_iff_of_nodup (a.nodup.of_map _) (b.nodup.of_map _)).mpr ?_
  intro p
  exact ⟨fun hp => ha.mem_of_parts hb hparts hp, fun hp => hb.mem_of_parts ha hparts.symm hp⟩

theorem bytes_eq_iff : a.bytes = b.bytes ↔ a.combined = b.combined := by
  rw [Labels.bytes, Labels.bytes, Array.toList_inj, ← ByteArray.ext_iff,
    String.toUTF8_eq_toByteArray, String.toUTF8_eq_toByteArray, String.toByteArray_inj]

theorem reserve_bounds (hash : UInt32) : reserve hash ≠ 0 ∧ reserve hash ≠ 1 := by
  rw [reserve]
  split
  · rename_i h
    have hsmall : hash.toNat < 2 := UInt32.lt_iff_toNat_lt.mp h
    have hcases : hash = 0 ∨ hash = 1 := by
      rw [← UInt32.toNat_inj, ← UInt32.toNat_inj]
      exact Nat.le_one_iff_eq_zero_or_eq_one.mp (Nat.le_of_lt_succ hsmall)
    rcases hcases with rfl | rfl <;> decide
  · rename_i h
    constructor
    · rintro rfl
      exact h (by decide)
    · rintro rfl
      exact h (by decide)

/-- The remapping of the two reserved values is all that makes it not injective. -/
theorem reserve_eq {x y : UInt32} (h : reserve x = reserve y) : x = y ∨ x < 2 ∨ y < 2 := by
  by_cases hx : x < 2
  · exact Or.inr (Or.inl hx)
  · by_cases hy : y < 2
    · exact Or.inr (Or.inr hy)
    · rw [reserve, reserve, if_neg hx, if_neg hy] at h
      exact Or.inl h

/-- An identity is never one of the reserved values and does not depend on the order of the
labels. For keys and values without separators the text that is hashed is the same exactly for
the same set, so that two sets share an identity by a collision of the hash or by the remapping. -/
theorem identities_canonical (a b : Labels) :
    (a.pairs.Perm b.pairs →
      a.combined = b.combined ∧ labelsToIdentity a = labelsToIdentity b) ∧
    (labelsToIdentity a ≠ 0 ∧ labelsToIdentity a ≠ 1) ∧
    (a.Clean → b.Clean → ¬ a.pairs.Perm b.pairs →
      a.combined ≠ b.combined ∧
        (labelsToIdentity a = labelsToIdentity b → a.bytes ≠ b.bytes ∧
          (fnv32 a.bytes = fnv32 b.bytes ∨ fnv32 a.bytes < 2 ∨ fnv32 b.bytes < 2))) := by
  refine ⟨?_, reserve_bounds _, ?_⟩
  · intro h
    have htext := combined_eq_of_perm h
    exact ⟨htext, by rw [labelsToIdentity, labelsToIdentity, htext]⟩
  · intro ha hb hdiff
    have htext : a.combined ≠ b.combined := fun h => hdiff (perm_of_combined_eq ha hb h)
    exact ⟨htext, fun hid => ⟨fun hbytes => htext (bytes_eq_iff.mp hbytes), reserve_eq hid⟩⟩

end Caiman.Microseg
