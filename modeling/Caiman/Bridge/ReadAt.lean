import Caiman.Bridge.Reader

/-!
# Random reads

What `read_at` puts in the buffer. Each turn of its loop copies what is left of
one cluster; the offset is carried along in `u64`, so the buffer is the range of
the guest disk as long as the range ends below 2^64.
-/

namespace Caiman.Bridge

open Lib Qcow2Reader

variable {img : Image} {r : Qcow2Reader}

/-- From `written` on the buffer holds the guest disk from `offset` on. -/
structure Image.Filled (img : Image) (offset written : Nat) (dst got : List UInt8) : Prop where
  length : got.length = dst.length
  bytes : ∀ x < dst.length, got[x]? =
    if x < written then dst[x]? else img.byte (offset + (x - written))

theorem guestCluster_toNat (hr : Reads img r) (offset : UInt64) :
    (offset >>> r.clusterBits.toUInt64).toNat = offset.toNat / img.clusterSize := by
  have hbits : r.clusterBits.toNat % 64 = img.clusterBits := by
    rw [hr.clusterBits]
    exact Nat.mod_eq_of_lt (lt_of_le_of_lt hr.bits.2 (by norm_num))
  rw [UInt64.toNat_shiftRight, UInt32.toNat_toUInt64, hbits, Nat.shiftRight_eq_div_pow]
  rfl

theorem inCluster_toNat (hr : Reads img r) (offset : UInt64) :
    (offset &&& (r.clusterSize - 1)).toNat = offset.toNat % img.clusterSize := by
  have hmask : (r.clusterSize - 1).toNat = 2 ^ img.clusterBits - 1 := by
    rw [UInt64.toNat_sub_of_le, hr.clusterSize, UInt64.toNat_one]
    · rfl
    · rw [UInt64.le_iff_toNat_le, hr.clusterSize, UInt64.toNat_one]
      exact img.clusterSize_pos
  rw [UInt64.toNat_and, hmask, Nat.and_two_pow_sub_one_eq_mod]
  rfl

theorem turnCluster_spec (hr : Reads img r) (offset : UInt64) :
    Triple (Reads img)
      (readClusterInto (offset >>> r.clusterBits.toUInt64)
        (List.replicate r.clusterSize.toNat 0))
      (fun got s => Reads img s ∧ img.Readable (offset.toNat / img.clusterSize) ∧
        got = img.cluster (offset.toNat / img.clusterSize))
      (fun e s => Reads img s ∧ IsErr e ∧ ¬ img.Readable (offset.toNat / img.clusterSize)) := by
  have hbuf : (List.replicate r.clusterSize.toNat (0 : UInt8)).length = img.clusterSize := by
    rw [List.length_replicate, hr.clusterSize]
  have hcluster := readClusterInto_spec (offset >>> r.clusterBits.toUInt64) hbuf
  rwa [guestCluster_toNat hr] at hcluster

theorem turn_getElem? {offset written take : Nat} {dst : List UInt8}
    (hread : img.Readable (offset / img.clusterSize))
    (hcluster : offset % img.clusterSize + take ≤ img.clusterSize)
    (hdst : written + take ≤ dst.length) (x : Nat) :
    (overwrite dst written
        (((img.cluster (offset / img.clusterSize)).drop (offset % img.clusterSize)).take take))[x]? =
      if written ≤ x ∧ x < written + take then img.byte (offset + (x - written)) else dst[x]? := by
  have hlength : (((img.cluster (offset / img.clusterSize)).drop
      (offset % img.clusterSize)).take take).length = take := by
    rw [List.length_take, List.length_drop, img.cluster_length hread]
    omega
  rw [overwrite_getElem? (by omega), hlength]
  split
  · rename_i hin
    rw [List.getElem?_take_of_lt (by omega), List.getElem?_drop,
      img.cluster_getElem? hread (by omega), ← Nat.add_assoc, Nat.div_add_mod']
  · rfl

/-- A read that stops has met a cluster of its range that is not readable. -/
def ReadStopped (img : Image) (offset len : Nat) (e : Fault) (r : Qcow2Reader) : Prop :=
  Reads img r ∧ IsErr e ∧
    (offset + len < 2 ^ 64 → ∃ c, c * img.clusterSize < offset + len ∧ ¬ img.Readable c)

theorem filled_of_le {offset written : Nat} {dst : List UInt8} (h : dst.length ≤ written) :
    img.Filled offset written dst dst := by
  refine ⟨rfl, fun x hx => ?_⟩
  rw [if_pos (by omega)]

theorem Image.Filled.turn {offset written take : Nat} {dst got : List UInt8}
    (hread : img.Readable (offset / img.clusterSize))
    (hcluster : offset % img.clusterSize + take ≤ img.clusterSize)
    (hdst : written + take ≤ dst.length)
    (h : img.Filled (offset + take) (written + take)
      (overwrite dst written (((img.cluster (offset / img.clusterSize)).drop
        (offset % img.clusterSize)).take take)) got) :
    img.Filled offset written dst got := by
  have hlength : (overwrite dst written (((img.cluster (offset / img.clusterSize)).drop
      (offset % img.clusterSize)).take take)).length = dst.length :=
    overwrite_length (by rw [List.length_take]; omega)
  refine ⟨h.length.trans hlength, fun x hx => ?_⟩
  rw [h.bytes x (by omega), turn_getElem? hread hcluster hdst]
  by_cases hbefore : x < written
  · rw [if_pos (by omega), if_neg (by omega), if_pos hbefore]
  · rw [if_neg hbefore]
    by_cases hturn : x < written + take
    · rw [if_pos hturn, if_pos (by omega)]
    · rw [if_neg hturn]
      congr 1
      omega

theorem readLoop_spec {fuel : Nat} {offset : UInt64} {written : Nat} {dst : List UInt8}
    (hfuel : dst.length - written ≤ fuel) (hwritten : written ≤ dst.length) :
    Triple (Reads img) (readLoop fuel offset written dst)
      (fun got r => Reads img r ∧
        (offset.toNat + (dst.length - written) < 2 ^ 64 →
          img.Filled offset.toNat written dst got))
      (ReadStopped img offset.toNat (dst.length - written)) := by
  induction fuel generalizing offset written dst with
  | zero =>
      unfold readLoop
      apply Triple.ite
      · intro hmore
        omega
      · exact fun _ => Triple.pure fun _ hs => ⟨hs, fun _ => filled_of_le (by omega)⟩
  | succ fuel ih =>
      unfold readLoop
      apply Triple.ite
      · intro hmore
        apply Triple.step get_spec
        intro r hr
        have hpos := img.clusterSize_pos
        have hmod := Nat.mod_lt offset.toNat hpos
        dsimp only
        apply Triple.step ((turnCluster_spec hr offset).conseq (fun _ h => h) (fun _ _ h => h) _)
        · rintro clusterBuf ⟨hread, rfl⟩
          rw [inCluster_toNat hr, hr.clusterSize]
          generalize htake : min (img.clusterSize - offset.toNat % img.clusterSize)
            (dst.length - written) = take
          have hlength := img.cluster_length hread
          apply Triple.ite
          · rintro ⟨hin, hdst⟩
            have hdst' : (overwrite dst written (((img.cluster (offset.toNat / img.clusterSize)).drop
                (offset.toNat % img.clusterSize)).take take)).length = dst.length :=
              overwrite_length (by rw [List.length_take]; omega)
            have hnext : offset.toNat + (dst.length - written) < 2 ^ 64 →
                (offset + UInt64.ofNat take).toNat = offset.toNat + take := by
              intro hlt
              rw [UInt64.toNat_add, UInt64.toNat_ofNat', Nat.mod_eq_of_lt (by omega : take < 2 ^ 64)]
              exact Nat.mod_eq_of_lt (by omega)
            apply (ih (by omega) (by omega)).conseq (fun _ h => h)
            · rintro got s ⟨hs, hgot⟩
              refine ⟨hs, fun hlt => ?_⟩
              rw [hnext hlt] at hgot
              exact (hgot (by omega)).turn hread (by omega) hdst
            · rintro e s ⟨hs, herr, hnot⟩
              refine ⟨hs, herr, fun hlt => ?_⟩
              rw [hnext hlt, hdst'] at hnot
              obtain ⟨c, hc, hc'⟩ := hnot (by omega)
              exact ⟨c, by omega, hc'⟩
          · intro hbad
            omega
        · rintro e s ⟨hs, herr, hnot⟩
          refine ⟨hs, herr, fun _ => ⟨_, ?_, hnot⟩⟩
          have := Nat.div_mul_le_self offset.toNat img.clusterSize
          omega
      · exact fun _ => Triple.pure fun _ hs => ⟨hs, fun _ => filled_of_le (by omega)⟩

theorem readAt_spec (offset : UInt64) (dst : List UInt8) :
    Triple (Reads img) (readAt offset dst)
      (fun got r => Reads img r ∧
        (offset.toNat + dst.length < 2 ^ 64 → img.Filled offset.toNat 0 dst got))
      (ReadStopped img offset.toNat dst.length) :=
  readLoop_spec le_rfl (Nat.zero_le _)

end Caiman.Bridge
