import Caiman.Lib.Triple
import Mathlib.Algebra.Group.Nat.Defs
import Mathlib.Data.List.GetD

/-!
# Files

A file by its bytes, with the offset of the descriptor it was opened by. A write
past the end fills the gap with zeros, a change of length cuts or fills with
zeros, and no offset or length from 2^63 on is accepted. Byte for byte a file
reads as zero past its end, which is how holes and gaps come out the same.
-/

namespace Caiman.Lib

inductive IoError
  | invalidInput
  | unexpectedEof
  | fileTooLarge
  deriving DecidableEq, Repr

/-- The content of a file. Its length is an `off_t`. -/
structure FileData where
  bytes : List UInt8
  size_lt : bytes.length < 2 ^ 63

structure File where
  data : List UInt8
  pos : Nat
  deriving DecidableEq, Repr

/-- Overwrite from `pos` on; a hole before `pos` is filled with zeros. -/
def overwrite (data : List UInt8) (pos : Nat) (bytes : List UInt8) : List UInt8 :=
  if bytes = [] then data
  else
    data.take pos ++ List.replicate (pos - data.length) 0 ++ bytes ++
      data.drop (pos + bytes.length)

def resize (data : List UInt8) (len : Nat) : List UInt8 :=
  data.take len ++ List.replicate (len - data.length) 0

namespace File

/-- Opened for writing with its old content dropped. -/
def truncate (_ : File) : File := ⟨[], 0⟩

def seek (offset : UInt64) : EStateM IoError File Unit := fun f =>
  if 2 ^ 63 ≤ offset.toNat then .error .invalidInput f
  else .ok () { f with pos := offset.toNat }

/-- Fill a buffer of `n` bytes, or run into the end of the file. -/
def readExact (n : Nat) : EStateM IoError File (List UInt8) := fun f =>
  if n = 0 ∨ f.pos + n ≤ f.data.length then
    .ok ((f.data.drop f.pos).take n) { f with pos := f.pos + n }
  else .error .unexpectedEof { f with pos := max f.pos f.data.length }

def writeAll (bytes : List UInt8) : EStateM IoError File Unit := fun f =>
  if bytes ≠ [] ∧ 2 ^ 63 ≤ f.pos + bytes.length then .error .fileTooLarge f
  else .ok () ⟨overwrite f.data f.pos bytes, f.pos + bytes.length⟩

def setLen (len : UInt64) : EStateM IoError File Unit := fun f =>
  if 2 ^ 63 ≤ len.toNat then .error .invalidInput f
  else .ok () { f with data := resize f.data len.toNat }

theorem run_seek {offset : UInt64} (h : offset.toNat < 2 ^ 63) (f : File) :
    (seek offset).run f = .ok () { f with pos := offset.toNat } := if_neg (by omega)

theorem run_readExact {f : File} {n : Nat} (h : f.pos + n ≤ f.data.length) :
    (readExact n).run f = .ok ((f.data.drop f.pos).take n) { f with pos := f.pos + n } :=
  if_pos (Or.inr h)

end File

/-! ## Byte for byte -/

theorem overwrite_getD (data : List UInt8) (pos : Nat) (bytes : List UInt8) (x : Nat) :
    (overwrite data pos bytes).getD x 0 =
      if pos ≤ x ∧ x < pos + bytes.length then bytes.getD (x - pos) 0 else data.getD x 0 := by
  unfold overwrite
  split
  · rename_i hnil
    have hout : ¬ (pos ≤ x ∧ x < pos + bytes.length) := by
      rw [hnil, List.length_nil]
      omega
    rw [if_neg hout]
  · have hfront : (data.take pos ++ List.replicate (pos - data.length) 0).length = pos := by
      simp only [List.length_append, List.length_take, List.length_replicate]
      omega
    rw [List.append_assoc]
    by_cases hbefore : x < pos
    · rw [if_neg (by omega), List.getD_append _ _ _ _ (by omega)]
      by_cases hin : x < data.length
      · rw [List.getD_append _ _ _ _ (by rw [List.length_take]; omega), List.getD_eq_getElem?_getD,
          List.getElem?_take_of_lt hbefore, ← List.getD_eq_getElem?_getD]
      · -- the hole between the old end and `pos`
        rw [List.getD_append_right _ _ _ _ (by rw [List.length_take]; omega),
          List.getD_eq_default _ _ (by omega : data.length ≤ x)]
        exact List.getElem?_getD_replicate_default_eq _ _ _
    · rw [List.getD_append_right _ _ _ _ (by omega), hfront]
      by_cases hin : x < pos + bytes.length
      · rw [if_pos (by omega), List.getD_append _ _ _ _ (by omega)]
      · rw [if_neg (by omega), List.getD_append_right _ _ _ _ (by omega)]
        simp only [List.getD_eq_getElem?_getD, List.getElem?_drop]
        congr 2
        omega

theorem overwrite_length {data : List UInt8} {pos : Nat} {bytes : List UInt8}
    (h : pos + bytes.length ≤ data.length) : (overwrite data pos bytes).length = data.length := by
  unfold overwrite
  split
  · rfl
  · simp only [List.length_append, List.length_take, List.length_replicate, List.length_drop]
    omega

/-- What is written is there, also where the file grows for it. -/
theorem overwrite_getElem?_of_mem {data : List UInt8} {pos : Nat} {bytes : List UInt8} {i : Nat}
    (hi : i < bytes.length) : (overwrite data pos bytes)[pos + i]? = bytes[i]? := by
  have hne : bytes ≠ [] := List.length_pos_iff.mp (Nat.zero_lt_of_lt hi)
  have hfront : (data.take pos ++ List.replicate (pos - data.length) 0).length = pos := by
    simp only [List.length_append, List.length_take, List.length_replicate]
    omega
  rw [overwrite, if_neg hne, List.append_assoc, List.getElem?_append_right (by omega), hfront,
    Nat.add_sub_cancel_left, List.getElem?_append_left hi]

theorem overwrite_length_le (data : List UInt8) (pos : Nat) (bytes : List UInt8) :
    (overwrite data pos bytes).length ≤ max data.length (pos + bytes.length) := by
  unfold overwrite
  split
  · exact Nat.le_max_left _ _
  · simp only [List.length_append, List.length_take, List.length_replicate, List.length_drop]
    omega

theorem le_overwrite_length (data : List UInt8) (pos : Nat) (bytes : List UInt8) :
    data.length ≤ (overwrite data pos bytes).length := by
  unfold overwrite
  split
  · exact Nat.le_refl _
  · simp only [List.length_append, List.length_take, List.length_replicate, List.length_drop]
    omega

theorem overwrite_getElem? {data : List UInt8} {pos : Nat} {bytes : List UInt8}
    (h : pos + bytes.length ≤ data.length) (x : Nat) :
    (overwrite data pos bytes)[x]? =
      if pos ≤ x ∧ x < pos + bytes.length then bytes[x - pos]? else data[x]? := by
  have hlength := overwrite_length h
  have hvalue := overwrite_getD data pos bytes x
  by_cases hin : x < data.length
  · have hx : (overwrite data pos bytes)[x]? = some ((overwrite data pos bytes).getD x 0) := by
      rw [List.getD_eq_getElem _ _ (by omega)]
      exact List.getElem?_eq_getElem (by omega)
    rw [hx, hvalue]
    split
    · rw [List.getD_eq_getElem _ _ (by omega)]
      exact (List.getElem?_eq_getElem (by omega)).symm
    · rw [List.getD_eq_getElem _ _ hin]
      exact (List.getElem?_eq_getElem hin).symm
  · rw [if_neg (by omega), List.getElem?_eq_none (by omega), List.getElem?_eq_none (by omega)]

@[simp] theorem resize_length (data : List UInt8) (len : Nat) :
    (resize data len).length = len := by
  simp only [resize, List.length_append, List.length_take, List.length_replicate]
  omega

theorem resize_getD {data : List UInt8} {len x : Nat} (h : x < len) :
    (resize data len).getD x 0 = data.getD x 0 := by
  unfold resize
  by_cases hin : x < data.length
  · rw [List.getD_append _ _ _ _ (by rw [List.length_take]; omega), List.getD_eq_getElem?_getD,
      List.getElem?_take_of_lt h, ← List.getD_eq_getElem?_getD]
  · rw [List.getD_append_right _ _ _ _ (by rw [List.length_take]; omega),
      List.getD_eq_default _ _ (by omega : data.length ≤ x)]
    exact List.getElem?_getD_replicate_default_eq _ _ _

end Caiman.Lib
