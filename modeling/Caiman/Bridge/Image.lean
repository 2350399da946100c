import Caiman.Bridge.Qcow2
import Mathlib.Tactic.NormNum

/-!
# What a qcow2 image says

The guest disk as the two tables of the image define it, in exact arithmetic and
straight from the bytes of the file, and the reader as a cached view of it: the
fields `open` fills in agree with the header, and the L2 table in the cache is
the one at its offset.
-/

namespace Caiman.Bridge

open Lib

def u32At (bytes : List UInt8) (off : Nat) : UInt32 :=
  UInt32.ofNat (beNat ((bytes.drop off).take 4))

def u64At (bytes : List UInt8) (off : Nat) : UInt64 :=
  UInt64.ofNat (beNat ((bytes.drop off).take 8))

/-- `n` big-endian entries from `off` on. -/
def tableAt (bytes : List UInt8) (off n : Nat) : List UInt64 :=
  (List.range n).map fun i => u64At bytes (off + i * 8)

structure Image where
  bytes : List UInt8
  clusterBits : Nat
  virtualSize : Nat
  l1Size : Nat
  l1Offset : Nat

namespace Image

def ofBytes (bytes : List UInt8) : Image where
  bytes := bytes
  clusterBits := (u32At bytes 20).toNat
  virtualSize := (u64At bytes 24).toNat
  l1Size := (u32At bytes 36).toNat
  l1Offset := (u64At bytes 40).toNat

variable (img : Image)

def clusterSize : Nat := 2 ^ img.clusterBits

def l2Entries : Nat := img.clusterSize / 8

def l1Table : List UInt64 := tableAt img.bytes img.l1Offset img.l1Size

def l2Entry (c : Nat) : Option UInt64 :=
  match img.l1Table[c / img.l2Entries]? with
  | none => none
  | some entry =>
      if entry &&& offsetMask = 0 then none
      else some (u64At img.bytes ((entry &&& offsetMask).toNat + c % img.l2Entries * 8))

/-- The byte at a guest offset; none if the image refers to a place past its
end. -/
def byte (o : Nat) : Option UInt8 :=
  match img.l2Entry (o / img.clusterSize) with
  | none => some 0
  | some entry =>
      if entry &&& offsetMask = 0 ∨ entry &&& l2Zero ≠ 0 then some 0
      else img.bytes[(entry &&& offsetMask).toNat + o % img.clusterSize]?

/-! ## Clusters -/

/-- Where a guest cluster is, or why the reader refuses to say. -/
def locate (c : Nat) : Except Qcow2Error ClusterLoc :=
  match img.l1Table[c / img.l2Entries]? with
  | none => .ok .zero
  | some entry =>
      let l2Offset := entry &&& offsetMask
      if l2Offset = 0 then .ok .zero
      else if img.bytes.length < l2Offset.toNat + img.clusterSize then
        .error (.offsetOutOfRange l2Offset)
      else
        let entry := u64At img.bytes (l2Offset.toNat + c % img.l2Entries * 8)
        if entry &&& l2Compressed ≠ 0 then .error .compressedCluster
        else if entry &&& l2Zero ≠ 0 ∨ entry &&& offsetMask = 0 then .ok .zero
        else .ok (.data (entry &&& offsetMask))

def Readable (c : Nat) : Prop :=
  match img.locate c with
  | .ok .zero => True
  | .ok (.data hostOffset) => hostOffset.toNat + img.clusterSize ≤ img.bytes.length
  | .error _ => False

def cluster (c : Nat) : List UInt8 :=
  match img.locate c with
  | .ok (.data hostOffset) => (img.bytes.drop hostOffset.toNat).take img.clusterSize
  | _ => List.replicate img.clusterSize 0

theorem clusterSize_pos : 0 < img.clusterSize := Nat.two_pow_pos _

theorem cluster_length {c : Nat} (h : img.Readable c) :
    (img.cluster c).length = img.clusterSize := by
  unfold Readable at h
  unfold cluster
  cases hloc : img.locate c with
  | error e => simp [hloc] at h
  | ok loc =>
      cases loc with
      | zero => simp
      | data hostOffset =>
          rw [hloc] at h
          simp only [List.length_take, List.length_drop]
          omega

theorem locate_ok {c : Nat} {loc : ClusterLoc} (h : img.locate c = .ok loc) :
    (img.l2Entry c = none ∧ loc = .zero) ∨
      ∃ entry, img.l2Entry c = some entry ∧
        ((entry &&& offsetMask = 0 ∨ entry &&& l2Zero ≠ 0) ∧ loc = .zero ∨
          ¬ (entry &&& offsetMask = 0 ∨ entry &&& l2Zero ≠ 0) ∧
            loc = .data (entry &&& offsetMask)) := by
  unfold locate at h
  unfold l2Entry
  cases hl1 : img.l1Table[c / img.l2Entries]? with
  | none =>
      rw [hl1] at h
      cases h
      exact Or.inl ⟨rfl, rfl⟩
  | some entry =>
      rw [hl1] at h
      dsimp only at h ⊢
      split at h
      · rename_i hzero
        cases h
        exact Or.inl ⟨if_pos hzero, rfl⟩
      · rename_i hzero
        right
        rw [if_neg hzero]
        refine ⟨_, rfl, ?_⟩
        split at h
        · cases h
        · split at h
          · cases h
          · split at h
            · rename_i hhole
              cases h
              exact Or.inl ⟨or_comm.mp hhole, rfl⟩
            · rename_i hhole
              cases h
              exact Or.inr ⟨fun hor => hhole (or_comm.mp hor), rfl⟩

theorem cluster_getElem? {c i : Nat} (h : img.Readable c) (hi : i < img.clusterSize) :
    (img.cluster c)[i]? = img.byte (c * img.clusterSize + i) := by
  have hdiv : (c * img.clusterSize + i) / img.clusterSize = c := by
    rw [Nat.mul_comm, Nat.mul_add_div img.clusterSize_pos, Nat.div_eq_of_lt hi, Nat.add_zero]
  have hmod : (c * img.clusterSize + i) % img.clusterSize = i := by
    rw [Nat.mul_comm, Nat.mul_add_mod, Nat.mod_eq_of_lt hi]
  unfold byte cluster
  rw [hdiv, hmod]
  cases hloc : img.locate c with
  | error e => simp [Readable, hloc] at h
  | ok loc =>
      rcases img.locate_ok hloc with
        ⟨hnone, rfl⟩ | ⟨entry, hentry, ⟨hhole, rfl⟩ | ⟨hdata, rfl⟩⟩
      · rw [hnone]
        simp [hi]
      · rw [hentry]
        dsimp only
        rw [if_pos hhole]
        simp [hi]
      · rw [hentry]
        dsimp only
        rw [if_neg hdata, List.getElem?_take_of_lt hi, List.getElem?_drop]

end Image

end Caiman.Bridge
