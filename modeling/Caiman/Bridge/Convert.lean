import Caiman.Bridge.Reader

/-!
# Conversion to raw

What `convert_to_raw` leaves in the output file. Holes are skipped, and come out
as zeros because the file starts out empty and its length is set at the end; the
last cluster is cut at the virtual size.
-/

namespace Caiman.Bridge

open Lib Qcow2Reader

variable {img : Image}

/-- The reader is a view of the image, and `out` is what has been written. -/
def Converting (img : Image) (out : List UInt8) (s : Conversion) : Prop :=
  Reads img s.reader ∧ s.out.data = out

/-- A conversion that stops leaves the reader a view of the image. -/
def ConvertStopped (img : Image) (e : Fault) (s : Conversion) : Prop :=
  Reads img s.reader ∧ IsErr e

theorem onReader_spec {α : Type} {op : EStateM Fault Qcow2Reader α} {p : α → Prop}
    {out : List UInt8}
    (h : Triple (Reads img) op (fun a r => Reads img r ∧ p a) (fun e r => Reads img r ∧ IsErr e)) :
    Triple (Converting img out) (onReader op) (fun a s => Converting img out s ∧ p a)
      (ConvertStopped img) := by
  apply Triple.zoom
  rintro s ⟨hr, hout⟩
  apply h.conseq
  · rintro r rfl
    exact hr
  · rintro a r ⟨hr', ha⟩
    exact ⟨⟨hr', hout⟩, ha⟩
  · exact fun _ _ he => he

theorem outSeek_spec {offset : UInt64} {out : List UInt8} :
    Triple (Converting img out) (onOut (File.seek offset))
      (fun _ s => Converting img out s ∧ s.out.pos = offset.toNat) (ConvertStopped img) := by
  apply Triple.zoom
  rintro s ⟨hr, hout⟩ f rfl
  by_cases h : 2 ^ 63 ≤ offset.toNat
  · have hrun : (File.seek offset).run s.out = .error .invalidInput s.out := if_pos h
    rw [hrun]
    exact ⟨hr, _, rfl⟩
  · rw [File.run_seek (by omega)]
    exact ⟨⟨hr, hout⟩, rfl⟩

theorem outWrite_spec {bytes out : List UInt8} {pos : Nat} :
    Triple (fun s => Converting img out s ∧ s.out.pos = pos) (onOut (File.writeAll bytes))
      (fun _ => Converting img (overwrite out pos bytes)) (ConvertStopped img) := by
  apply Triple.zoom
  rintro s ⟨⟨hr, hout⟩, hpos⟩ f rfl
  unfold File.writeAll EStateM.run
  dsimp only
  split
  · rename_i heq
    split at heq
    · cases heq
    · cases heq
      exact ⟨hr, by rw [hout, hpos]⟩
  · exact ⟨hr, _, rfl⟩

/-- The output after the turn for cluster `c`. -/
def Image.written (img : Image) (c : Nat) (out : List UInt8) : List UInt8 :=
  match img.locate c with
  | .ok (.data hostOffset) =>
      overwrite out (c * img.clusterSize)
        ((img.bytes.drop hostOffset.toNat).take
          (min img.clusterSize (img.virtualSize - c * img.clusterSize)))
  | _ => out

theorem convertCluster_spec (c : UInt64) (out : List UInt8) :
    Triple (Converting img out) (convertCluster c)
      (fun _ s => Reads img s.reader ∧ img.Readable c.toNat ∧
        (c.toNat * img.clusterSize ≤ img.virtualSize →
          s.out.data = img.written c.toNat out)) (ConvertStopped img) := by
  unfold convertCluster
  apply Triple.step get_spec
  rintro s ⟨hr, -⟩
  dsimp only
  have hpos : c.toNat * img.clusterSize ≤ img.virtualSize →
      (c * s.reader.clusterSize).toNat = c.toNat * img.clusterSize := by
    intro hle
    have hlt := s.reader.virtualSize.toNat_lt
    rw [hr.virtualSize] at hlt
    rw [UInt64.toNat_mul, hr.clusterSize]
    exact Nat.mod_eq_of_lt (by omega)
  apply Triple.step (onReader_spec ((resolveCluster_spec c).conseq (fun _ h => h) (fun _ _ h => h)
    fun _ _ ⟨h, q, he, _⟩ => ⟨h, q, he⟩))
  intro loc hloc
  cases loc with
  | zero =>
      apply Triple.pure
      rintro s ⟨hs, hout⟩
      exact ⟨hs, by simp [Image.Readable, hloc], fun _ => by simp [Image.written, hloc, hout]⟩
  | data hostOffset =>
      have hlt := locate_data_lt hloc
      apply Triple.step (onReader_spec (readHost_spec (by rw [hr.clusterSize]) hlt
        fun _ _ h => ⟨h, _, rfl⟩))
      rintro buf ⟨hin, hbuf⟩
      have hlength : buf.length = img.clusterSize := by
        rw [hbuf, List.length_take, List.length_drop, hr.clusterSize]
        omega
      apply Triple.bind outSeek_spec
      intro _
      apply Triple.ite
      · intro _
        apply outWrite_spec.conseq (fun _ h => h)
        · rintro _ s' ⟨hs', hout⟩
          refine ⟨hs', by simpa only [Image.Readable, hloc] using hin, fun hle => ?_⟩
          have hrest : (s.reader.virtualSize - c * s.reader.clusterSize).toNat =
              img.virtualSize - c.toNat * img.clusterSize := by
            rw [UInt64.toNat_sub_of_le, hpos hle, hr.virtualSize]
            rw [UInt64.le_iff_toNat_le, hpos hle, hr.virtualSize]
            exact hle
          rw [hout, hpos hle, hrest, hbuf, hr.clusterSize, List.take_take,
            Nat.min_eq_left (Nat.min_le_left _ _)]
          simp only [Image.written, hloc]
        · exact fun _ _ he => he
      · intro hbad
        rw [hlength, hr.clusterSize] at hbad
        exact absurd (Nat.min_le_left _ _) hbad

theorem convertClusters_spec (img : Image) {I : Nat → List UInt8 → Prop} (n : Nat) (c : UInt64)
    (hbound : c.toNat + n < 2 ^ 64)
    (hstep : ∀ k out out', k < c.toNat + n → I k out → img.Readable k →
      (k * img.clusterSize ≤ img.virtualSize → out' = img.written k out) → I (k + 1) out') :
    Triple (fun s => Reads img s.reader ∧ I c.toNat s.out.data) (convertClusters n c)
      (fun _ s => Reads img s.reader ∧ I (c.toNat + n) s.out.data) (ConvertStopped img) := by
  induction n generalizing c with
  | zero => exact Triple.pure fun _ hs => hs
  | succ n ih =>
      unfold convertClusters
      have hnext : (c + 1).toNat = c.toNat + 1 := by
        rw [UInt64.toNat_add, UInt64.toNat_one]
        exact Nat.mod_eq_of_lt (by omega)
      apply Triple.bind (Q := fun _ s => Reads img s.reader ∧ I (c + 1).toNat s.out.data)
      · rintro s ⟨hr, hI⟩
        have hturn := convertCluster_spec c s.out.data s ⟨hr, rfl⟩
        cases hrun : (convertCluster c).run s with
        | ok _ s' =>
            rw [hrun] at hturn
            obtain ⟨hr', hread, hout⟩ := hturn
            rw [hnext]
            exact ⟨hr', hstep c.toNat _ _ (by omega) hI hread hout⟩
        | error e s' =>
            rw [hrun] at hturn
            exact hturn
      · intro _
        have hrest := ih (c + 1) (by omega) fun k out out' hk => hstep k out out' (by omega)
        rw [hnext, Nat.add_assoc, Nat.add_comm 1 n] at hrest
        rw [hnext]
        exact hrest

/-! ## The whole disk -/

/-- The clusters below `k` are in the output, and zeros elsewhere. -/
structure Image.Exact (img : Image) (k : Nat) (out : List UInt8) : Prop where
  bytes : ∀ x, out.getD x 0 =
    if x < k * img.clusterSize ∧ x < img.virtualSize then (img.byte x).getD 0 else 0
  readable : ∀ c < k, img.Readable c

theorem written_getD {k : Nat} {out : List UInt8} (hread : img.Readable k)
    (hzero : ∀ x, k * img.clusterSize ≤ x → out.getD x 0 = 0) (x : Nat) :
    (img.written k out).getD x 0 =
      if k * img.clusterSize ≤ x ∧ x < (k + 1) * img.clusterSize ∧ x < img.virtualSize then
        (img.byte x).getD 0
      else out.getD x 0 := by
  have hnext : (k + 1) * img.clusterSize = k * img.clusterSize + img.clusterSize :=
    Nat.succ_mul _ _
  have hbyte : k * img.clusterSize ≤ x → x < (k + 1) * img.clusterSize →
      img.byte x = (img.cluster k)[x - k * img.clusterSize]? := by
    intro hlow hhigh
    rw [img.cluster_getElem? hread (by omega), Nat.add_sub_cancel' hlow]
  have hlength := img.cluster_length hread
  unfold Image.written
  cases hloc : img.locate k with
  | error e => simp [Image.Readable, hloc] at hread
  | ok loc =>
      cases loc with
      | zero =>
          dsimp only
          split
          · rename_i hin
            rw [hzero x hin.1, hbyte hin.1 hin.2.1]
            simp [Image.cluster, hloc, show x - k * img.clusterSize < img.clusterSize by omega]
          · rfl
      | data hostOffset =>
          dsimp only
          have hcluster : img.cluster k =
              (img.bytes.drop hostOffset.toNat).take img.clusterSize := by
            simp only [Image.cluster, hloc]
          have hput : (img.bytes.drop hostOffset.toNat).take
              (min img.clusterSize (img.virtualSize - k * img.clusterSize)) =
                (img.cluster k).take (img.virtualSize - k * img.clusterSize) := by
            rw [hcluster, List.take_take, Nat.min_comm]
          rw [hput, overwrite_getD, List.length_take, hlength]
          split
          · rename_i hin
            rw [if_pos (by omega), hbyte hin.1 (by omega), List.getD_eq_getElem?_getD,
              List.getElem?_take_of_lt (by omega)]
          · rename_i hout
            rw [if_neg (by omega)]

theorem Image.Exact.next {k : Nat} {out : List UInt8} (h : img.Exact k out)
    (hread : img.Readable k) : img.Exact (k + 1) (img.written k out) := by
  have hnext : (k + 1) * img.clusterSize = k * img.clusterSize + img.clusterSize :=
    Nat.succ_mul _ _
  constructor
  · intro x
    have hzero : ∀ x, k * img.clusterSize ≤ x → out.getD x 0 = 0 := by
      intro x hx
      rw [h.bytes, if_neg (by omega)]
    rw [written_getD hread hzero]
    split
    · rename_i hin
      rw [if_pos hin.2]
    · rename_i hout
      rw [h.bytes]
      by_cases hold : x < k * img.clusterSize ∧ x < img.virtualSize
      · rw [if_pos hold, if_pos (by omega)]
      · rw [if_neg hold, if_neg (by omega)]
  · intro c hc
    by_cases hlast : c = k
    · rw [hlast]
      exact hread
    · exact h.readable c (by omega)

/-- The output is the guest disk, all of which is readable. -/
structure Image.Converted (img : Image) (out : List UInt8) : Prop where
  size_lt : img.virtualSize < 2 ^ 63
  length : out.length = img.virtualSize
  bytes : ∀ x < img.virtualSize, out[x]? = img.byte x
  readable : ∀ c, c * img.clusterSize < img.virtualSize → img.Readable c

theorem lt_numClusters_iff {size v c : Nat} (h : 0 < size) :
    c < (v + size - 1) / size ↔ c * size < v := by
  rw [Nat.lt_div_iff_mul_lt h]
  omega

theorem Image.Exact.converted {k : Nat} {out : List UInt8} (h : img.Exact k out)
    (hk : ∀ c, c < k ↔ c * img.clusterSize < img.virtualSize)
    (hlt : img.virtualSize < 2 ^ 63) : img.Converted (resize out img.virtualSize) := by
  have hpos := img.clusterSize_pos
  have hreadable : ∀ c, c * img.clusterSize < img.virtualSize → img.Readable c :=
    fun c hc => h.readable c ((hk c).mpr hc)
  refine ⟨hlt, resize_length _ _, ?_, hreadable⟩
  intro x hx
  have hcover : x < k * img.clusterSize := by
    by_contra hpast
    have := (hk k).mpr (by omega)
    omega
  have hin : x / img.clusterSize * img.clusterSize < img.virtualSize :=
    lt_of_le_of_lt (Nat.div_mul_le_self x img.clusterSize) hx
  have hread := hreadable _ hin
  obtain ⟨b, hb⟩ : ∃ b, img.byte x = some b := by
    have hmod := Nat.mod_lt x hpos
    have hplace := img.cluster_getElem? hread hmod
    rw [Nat.div_add_mod'] at hplace
    rw [← hplace]
    exact ⟨_, List.getElem?_eq_getElem (by rw [img.cluster_length hread]; exact hmod)⟩
  have hvalue : (resize out img.virtualSize).getD x 0 = b := by
    rw [resize_getD hx, h.bytes, if_pos ⟨hcover, hx⟩, hb, Option.getD_some]
  rw [hb, ← hvalue, List.getD_eq_getElem?_getD,
    List.getElem?_eq_getElem (by rw [resize_length]; exact hx), Option.getD_some]

theorem setLen_spec {J K : List UInt8 → Prop} {len : UInt64}
    (h : len.toNat < 2 ^ 63 → ∀ out, J out → K (resize out len.toNat)) :
    Triple (fun s => Reads img s.reader ∧ J s.out.data) (onOut (File.setLen len))
      (fun _ s => Reads img s.reader ∧ K s.out.data) (ConvertStopped img) := by
  apply Triple.zoom
  rintro s ⟨hr, hout⟩ f rfl
  by_cases hlen : 2 ^ 63 ≤ len.toNat
  · have hrun : (File.setLen len).run s.out = .error .invalidInput s.out := if_pos hlen
    rw [hrun]
    exact ⟨hr, _, rfl⟩
  · have hrun : (File.setLen len).run s.out =
        .ok () { s.out with data := resize s.out.data len.toNat } := if_neg hlen
    rw [hrun]
    exact ⟨hr, h (by omega) _ hout⟩

theorem numClusters_toNat {r : Qcow2Reader} (hr : Reads img r) (hlt : img.virtualSize < 2 ^ 63) :
    ((r.virtualSize + r.clusterSize - 1) / r.clusterSize).toNat =
      (img.virtualSize + img.clusterSize - 1) / img.clusterSize := by
  have hle := hr.clusterSize_le
  have hpos := img.clusterSize_pos
  have hsum : (r.virtualSize + r.clusterSize).toNat = img.virtualSize + img.clusterSize := by
    rw [UInt64.toNat_add, hr.virtualSize, hr.clusterSize]
    exact Nat.mod_eq_of_lt (by omega)
  rw [UInt64.toNat_div, UInt64.toNat_sub_of_le, hsum, hr.clusterSize, UInt64.toNat_one]
  rw [UInt64.le_iff_toNat_le, hsum, UInt64.toNat_one]
  omega

/-- Whatever was at the output path, a conversion that returns leaves the guest
disk there. -/
theorem convertToRaw_spec :
    Triple (fun s => Reads img s.reader) convertToRaw
      (fun _ s => Reads img s.reader ∧ img.Converted s.out.data) (ConvertStopped img) := by
  unfold convertToRaw
  apply Triple.bind (Q := fun _ s => Converting img [] s)
  · exact fun _ hr => ⟨hr, rfl⟩
  intro _
  apply Triple.step get_spec
  rintro s ⟨hr, -⟩
  dsimp only
  have hbound : (0 : UInt64).toNat +
      ((s.reader.virtualSize + s.reader.clusterSize - 1) / s.reader.clusterSize).toNat <
        2 ^ 64 := by
    rw [UInt64.toNat_zero, Nat.zero_add]
    exact UInt64.toNat_lt _
  by_cases hlt : img.virtualSize < 2 ^ 63
  · have hstart : img.Exact 0 [] := ⟨by simp, by simp⟩
    have hturns := convertClusters_spec img (I := img.Exact) _ 0 hbound
      fun k out out' hk hI hread hout => by
        rw [UInt64.toNat_zero, Nat.zero_add, numClusters_toNat hr hlt,
          lt_numClusters_iff img.clusterSize_pos] at hk
        rw [hout (Nat.le_of_lt hk)]
        exact hI.next hread
    apply Triple.bind (hturns.conseq _ (fun _ _ h => h) fun _ _ h => h)
    · intro _
      apply setLen_spec
      intro _ out hout
      rw [UInt64.toNat_zero, Nat.zero_add, numClusters_toNat hr hlt] at hout
      rw [hr.virtualSize]
      exact hout.converted (fun c => lt_numClusters_iff img.clusterSize_pos) hlt
    · rintro s' ⟨hs', hout⟩
      exact ⟨hs', hout ▸ hstart⟩
  · -- the length cannot be set
    have hturns := convertClusters_spec img (I := fun _ _ => True) _ 0 hbound
      fun _ _ _ _ _ _ _ => trivial
    apply Triple.bind (hturns.conseq (fun _ h => ⟨h.1, trivial⟩) (fun _ _ h => h) fun _ _ h => h)
    intro _
    apply setLen_spec (J := fun _ => True)
    intro hlen
    rw [hr.virtualSize] at hlen
    exact absurd hlen hlt

theorem convertToRaw_ok {s done : Conversion} (hr : Reads img s.reader)
    (h : convertToRaw.run s = .ok () done) : img.Converted done.out.data :=
  (Triple.ok convertToRaw_spec hr h).2

end Caiman.Bridge
