import Caiman.Bridge.Cache

/-!
# Arithmetic that wraps

`convert_to_raw` and `read_at` calculate with a virtual size and an offset of any `u64`. Here
they are once more with the arithmetic of a build left open. With overflow checks on, a result
that does not fit is a panic; with checks off it wraps, and these are the functions as the
release profile has them.
-/

namespace Caiman.Bridge

open Lib

/-- What an operation on two `u64` gives, or why it gives nothing. -/
structure Arith where
  add : UInt64 → UInt64 → Except Fault UInt64
  sub : UInt64 → UInt64 → Except Fault UInt64
  mul : UInt64 → UInt64 → Except Fault UInt64

namespace Arith

def release : Arith where
  add a b := .ok (a + b)
  sub a b := .ok (a - b)
  mul a b := .ok (a * b)

def checked : Arith where
  add a b := if a.toNat + b.toNat < 2 ^ 64 then .ok (a + b) else .error .panic
  sub a b := if b.toNat ≤ a.toNat then .ok (a - b) else .error .panic
  mul a b := if a.toNat * b.toNat < 2 ^ 64 then .ok (a * b) else .error .panic

end Arith

section

variable {σ α : Type}

def compute : Except Fault α → EStateM Fault σ α
  | .ok a => pure a
  | .error e => throw e

end

namespace Qcow2Reader

def convertClusterIn (ar : Arith) (c : UInt64) : EStateM Fault Conversion Unit := do
  let r := (← get).reader
  let guestPos ← compute (ar.mul c r.clusterSize)
  let rest ← compute (ar.sub r.virtualSize guestPos)
  let writeLen := min r.clusterSize.toNat rest.toNat
  match ← onReader (resolveCluster c) with
  | .zero => pure ()
  | .data hostOffset =>
      let buf ← onReader (readHost hostOffset r.clusterSize.toNat)
      onOut (File.seek guestPos)
      if writeLen ≤ buf.length then onOut (File.writeAll (buf.take writeLen))
      else throw .panic

def convertClustersIn (ar : Arith) : Nat → UInt64 → EStateM Fault Conversion Unit
  | 0, _ => pure ()
  | n + 1, c => do
      convertClusterIn ar c
      convertClustersIn ar n (c + 1)

def convertToRawIn (ar : Arith) : EStateM Fault Conversion Unit := do
  modify fun s => { s with out := s.out.truncate }
  let r := (← get).reader
  let sum ← compute (ar.add r.virtualSize r.clusterSize)
  let last ← compute (ar.sub sum 1)
  let numClusters := last / r.clusterSize
  convertClustersIn ar numClusters.toNat 0
  onOut (File.setLen r.virtualSize)

def readLoopIn (ar : Arith) :
    Nat → UInt64 → Nat → List UInt8 → EStateM Fault Qcow2Reader (List UInt8)
  | 0, _, written, dst => if written < dst.length then throw .spin else pure dst
  | fuel + 1, offset, written, dst =>
      if written < dst.length then do
        let r ← get
        let guestCluster := offset >>> r.clusterBits.toUInt64
        let inCluster := (offset &&& (r.clusterSize - 1)).toNat
        let clusterBuf ← readClusterInto guestCluster (List.replicate r.clusterSize.toNat 0)
        let take := min (r.clusterSize.toNat - inCluster) (dst.length - written)
        if inCluster + take ≤ clusterBuf.length ∧ written + take ≤ dst.length then do
          let next ← compute (ar.add offset (UInt64.ofNat take))
          readLoopIn ar fuel next (written + take)
            (overwrite dst written ((clusterBuf.drop inCluster).take take))
        else throw .panic
      else pure dst

def readAtIn (ar : Arith) (offset : UInt64) (dst : List UInt8) :
    EStateM Fault Qcow2Reader (List UInt8) :=
  readLoopIn ar dst.length offset 0 dst

theorem convertClusterIn_release : convertClusterIn .release = convertCluster := rfl

theorem convertClustersIn_release (n : Nat) (c : UInt64) :
    convertClustersIn .release n c = convertClusters n c := by
  induction n generalizing c with
  | zero => rfl
  | succ n ih => rw [convertClustersIn, convertClusters, ih, convertClusterIn_release]

theorem convertToRawIn_release : convertToRawIn .release = convertToRaw := by
  have hclusters : convertClustersIn .release = convertClusters := by
    funext n c
    exact convertClustersIn_release n c
  rw [convertToRawIn, hclusters]
  rfl

theorem readLoopIn_release (fuel : Nat) (offset : UInt64) (written : Nat) (dst : List UInt8) :
    readLoopIn .release fuel offset written dst = readLoop fuel offset written dst := by
  induction fuel generalizing offset written dst with
  | zero => rfl
  | succ fuel ih =>
      have hcompute : ∀ a b : UInt64, (compute (Arith.release.add a b) : EStateM Fault Qcow2Reader _) =
        pure (a + b) := fun _ _ => rfl
      simp only [readLoopIn, readLoop, hcompute, pure_bind, ih]

end Qcow2Reader

open Qcow2Reader

variable {img : Image}

theorem checked_add {a b : UInt64} (h : a.toNat + b.toNat < 2 ^ 64) :
    Arith.checked.add a b = .ok (a + b) := if_pos h

theorem checked_sub {a b : UInt64} (h : b.toNat ≤ a.toNat) :
    Arith.checked.sub a b = .ok (a - b) := if_pos h

theorem checked_mul {a b : UInt64} (h : a.toNat * b.toNat < 2 ^ 64) :
    Arith.checked.mul a b = .ok (a * b) := if_pos h

/-! ## Conversion -/

theorem convertClusterIn_checked {s : Conversion} (hr : Reads img s.reader) {c : UInt64}
    (hc : c.toNat * img.clusterSize ≤ img.virtualSize) :
    (convertClusterIn .checked c).run s = (convertCluster c).run s := by
  have hlt := s.reader.virtualSize.toNat_lt
  rw [hr.virtualSize] at hlt
  have hmul : Arith.checked.mul c s.reader.clusterSize = .ok (c * s.reader.clusterSize) :=
    checked_mul (by rw [hr.clusterSize]; omega)
  have hpos : (c * s.reader.clusterSize).toNat = c.toNat * img.clusterSize := by
    rw [UInt64.toNat_mul, hr.clusterSize]
    exact Nat.mod_eq_of_lt (by omega)
  have hsub : Arith.checked.sub s.reader.virtualSize (c * s.reader.clusterSize) =
      .ok (s.reader.virtualSize - c * s.reader.clusterSize) :=
    checked_sub (by rw [hpos, hr.virtualSize]; exact hc)
  unfold convertClusterIn
  rw [EStateM.run_bind]
  simp only [EStateM.run_get, hmul, hsub, compute, pure_bind]
  rfl

/-- So do all turns up to the last cluster, the induction being on those left. -/
theorem convertClustersIn_checked {n : Nat} {c : UInt64} {s : Conversion}
    (hr : Reads img s.reader) (hfit : img.virtualSize + img.clusterSize < 2 ^ 64)
    (hn : c.toNat + n ≤ (img.virtualSize + img.clusterSize - 1) / img.clusterSize) :
    (convertClustersIn .checked n c).run s = (convertClusters n c).run s := by
  induction n generalizing c s with
  | zero => rfl
  | succ n ih =>
      have hpos := img.clusterSize_pos
      have hmul := Nat.mul_le_of_le_div _ _ _ (Nat.le_trans (by omega : c.toNat + 1 ≤ _) hn)
      rw [Nat.succ_mul] at hmul
      have hdiv := Nat.div_le_self (img.virtualSize + img.clusterSize - 1) img.clusterSize
      have hnext : (c + 1).toNat = c.toNat + 1 := by
        rw [UInt64.toNat_add, UInt64.toNat_one]
        exact Nat.mod_eq_of_lt (by omega)
      rw [convertClustersIn, convertClusters, EStateM.run_bind, EStateM.run_bind,
        convertClusterIn_checked hr (by omega)]
      have hturn := @convertCluster_spec img c s.out.data s ⟨hr, rfl⟩
      cases hrun : (convertCluster c).run s with
      | error e s' => rfl
      | ok u s' =>
          rw [hrun] at hturn
          exact ih hturn.1 (by omega)

/-- The run came upon a result that does not fit. -/
def Panics {σ α : Type} (result : EStateM.Result Fault σ α) : Prop := ∃ s, result = .error .panic s

/-- A disk that can be rounded up to whole clusters is converted as it would be without checks. -/
theorem convertToRawIn_checked {s : Conversion} (hr : Reads img s.reader)
    (hfit : img.virtualSize + img.clusterSize < 2 ^ 64) :
    (convertToRawIn .checked).run s = convertToRaw.run s := by
  have hpos := img.clusterSize_pos
  have hadd : Arith.checked.add s.reader.virtualSize s.reader.clusterSize =
      .ok (s.reader.virtualSize + s.reader.clusterSize) :=
    checked_add (by rw [hr.virtualSize, hr.clusterSize]; exact hfit)
  have hsum : (s.reader.virtualSize + s.reader.clusterSize).toNat =
      img.virtualSize + img.clusterSize := by
    rw [UInt64.toNat_add, hr.virtualSize, hr.clusterSize]
    exact Nat.mod_eq_of_lt hfit
  have hone : (1 : UInt64).toNat ≤ (s.reader.virtualSize + s.reader.clusterSize).toNat := by
    rw [hsum, UInt64.toNat_one]
    omega
  have hnum : ((s.reader.virtualSize + s.reader.clusterSize - 1) / s.reader.clusterSize).toNat =
      (img.virtualSize + img.clusterSize - 1) / img.clusterSize := by
    rw [UInt64.toNat_div, UInt64.toNat_sub_of_le _ _ (UInt64.le_iff_toNat_le.mpr hone), hsum,
      hr.clusterSize, UInt64.toNat_one]
  have hclusters := convertClustersIn_checked (c := 0) (s := ⟨s.reader, s.out.truncate⟩) hr hfit
    (Nat.le_of_eq ((Nat.zero_add _).trans hnum))
  unfold convertToRawIn convertToRaw
  rw [EStateM.run_bind, EStateM.run_bind]
  simp only [EStateM.run_modify]
  rw [EStateM.run_bind, EStateM.run_bind]
  simp only [EStateM.run_get, hadd, checked_sub hone, compute, pure_bind]
  rw [EStateM.run_bind, EStateM.run_bind, hclusters]

theorem convertToRaw_panics_iff {s : Conversion} (hr : Reads img s.reader) :
    ¬ Panics ((convertToRawIn .checked).run s) ↔
      img.virtualSize + img.clusterSize < 2 ^ 64 := by
  by_cases hfit : img.virtualSize + img.clusterSize < 2 ^ 64
  · refine iff_of_true ?_ hfit
    rintro ⟨s', hpanic⟩
    rw [convertToRawIn_checked hr hfit] at hpanic
    obtain ⟨-, q, hq⟩ := convertToRaw_spec.error hr hpanic
    cases hq
  · refine iff_of_false (not_not.mpr ?_) hfit
    have hadd : Arith.checked.add s.reader.virtualSize s.reader.clusterSize = .error .panic :=
      if_neg (by rw [hr.virtualSize, hr.clusterSize]; exact hfit)
    refine ⟨{ s with out := s.out.truncate }, ?_⟩
    unfold convertToRawIn
    rw [EStateM.run_bind]
    simp only [EStateM.run_modify]
    rw [EStateM.run_bind]
    simp only [EStateM.run_get, hadd, compute]
    rfl

/-! ## Random reads -/

/-- The read goes past the last address, and every cluster up to there can be read. -/
def Image.ReadsPastTop (img : Image) (offset len : Nat) : Prop :=
  2 ^ 64 ≤ offset + len ∧
    ∀ c, offset / img.clusterSize ≤ c → c * img.clusterSize < 2 ^ 64 → img.Readable c

section

variable {offset len take : Nat}

theorem not_readsPastTop (hoffset : offset < 2 ^ 64)
    (hread : ¬ img.Readable (offset / img.clusterSize)) : ¬ img.ReadsPastTop offset len := by
  intro h
  have hstart := Nat.div_mul_le_self offset img.clusterSize
  exact hread (h.2 _ le_rfl (by omega))

theorem not_readsPastTop_zero (offset : UInt64) (hlen : len = 0) :
    ¬ img.ReadsPastTop offset.toNat len := by
  intro htop
  have hlt := offset.toNat_lt
  have hsum := htop.1
  omega

theorem turn_le (htake : take ≤ img.clusterSize - offset % img.clusterSize) :
    offset + take ≤ (offset / img.clusterSize + 1) * img.clusterSize := by
  have hsplit := Nat.div_add_mod' offset img.clusterSize
  have hmod := Nat.mod_lt offset img.clusterSize_pos
  rw [Nat.succ_mul]
  omega

theorem readsPastTop_of_le (hread : img.Readable (offset / img.clusterSize))
    (htake : take ≤ img.clusterSize - offset % img.clusterSize) (hlen : take ≤ len)
    (hover : 2 ^ 64 ≤ offset + take) : img.ReadsPastTop offset len := by
  refine ⟨by omega, ?_⟩
  intro c hc htop
  rcases Nat.eq_or_lt_of_le hc with heq | hlt
  · rw [← heq]
    exact hread
  · have hend := turn_le htake
    have hmul : (offset / img.clusterSize + 1) * img.clusterSize ≤ c * img.clusterSize :=
      Nat.mul_le_mul_right _ hlt
    omega

theorem readsPastTop_turn (hread : img.Readable (offset / img.clusterSize))
    (htake : take ≤ img.clusterSize - offset % img.clusterSize) (hlen : take ≤ len) :
    img.ReadsPastTop (offset + take) (len - take) ↔ img.ReadsPastTop offset len := by
  have hsum : offset + take + (len - take) = offset + len := by omega
  rw [Image.ReadsPastTop, Image.ReadsPastTop, hsum]
  apply and_congr_right
  intro _
  constructor
  · intro h c hc htop
    rcases Nat.eq_or_lt_of_le hc with heq | hlt
    · rw [← heq]
      exact hread
    · refine h c (Nat.le_trans ?_ hlt) htop
      exact Nat.div_le_of_le_mul (by rw [Nat.mul_comm]; exact turn_le htake)
  · intro h c hc htop
    exact h c (Nat.le_trans (Nat.div_le_div_right (Nat.le_add_right _ _)) hc) htop

end

/-- The loop runs into the top exactly when nothing stops it before. -/
theorem readLoopIn_checked {fuel : Nat} (offset : UInt64) {written : Nat} (dst : List UInt8)
    (hfuel : dst.length - written ≤ fuel) (hwritten : written ≤ dst.length) :
    Triple (Reads img) (readLoopIn .checked fuel offset written dst)
      (fun _ _ => ¬ img.ReadsPastTop offset.toNat (dst.length - written))
      (fun e _ => e = .panic ↔ img.ReadsPastTop offset.toNat (dst.length - written)) := by
  induction fuel generalizing offset written dst with
  | zero =>
      unfold readLoopIn
      apply Triple.ite
      · intro hmore
        omega
      · intro hdone
        exact Triple.pure fun _ _ => not_readsPastTop_zero offset (by omega)
  | succ fuel ih =>
      unfold readLoopIn
      apply Triple.ite
      · intro hmore
        apply Triple.step get_spec
        intro r hr
        have hoffset := offset.toNat_lt
        have hpos := img.clusterSize_pos
        have hmod := Nat.mod_lt offset.toNat hpos
        dsimp only
        apply Triple.step ((turnCluster_spec hr offset).conseq (fun _ h => h) (fun _ _ h => h) _)
        · rintro clusterBuf ⟨hread, rfl⟩
          rw [inCluster_toNat hr, hr.clusterSize]
          generalize htake : min (img.clusterSize - offset.toNat % img.clusterSize)
            (dst.length - written) = take
          have hlength := img.cluster_length hread
          apply Triple.ite
          · rintro ⟨hin, hdst⟩
            have hcut : take ≤ img.clusterSize - offset.toNat % img.clusterSize := by
              rw [← htake]
              exact Nat.min_le_left _ _
            have hleft : take ≤ dst.length - written := by omega
            have hsize : (UInt64.ofNat take).toNat = take := by
              have hmax := hr.clusterSize_le
              have hword : UInt64.size = 2 ^ 64 := rfl
              exact UInt64.toNat_ofNat_of_lt' (by omega)
            by_cases hsum : offset.toNat + take < 2 ^ 64
            · have hnext : (offset + UInt64.ofNat take).toNat = offset.toNat + take := by
                rw [UInt64.toNat_add, hsize]
                exact Nat.mod_eq_of_lt hsum
              have hdst' : (overwrite dst written (((img.cluster (offset.toNat / img.clusterSize)).drop
                  (offset.toNat % img.clusterSize)).take take)).length = dst.length :=
                overwrite_length (by rw [List.length_take]; omega)
              rw [checked_add (by rw [hsize]; exact hsum)]
              simp only [compute, pure_bind]
              have hfuel' : dst.length - (written + take) ≤ fuel := by omega
              rw [← hdst'] at hfuel'
              have hrest := ih (offset + UInt64.ofNat take) _ hfuel' (by omega)
              rw [hdst', hnext, ← Nat.sub_sub, readsPastTop_turn hread hcut hleft] at hrest
              exact hrest
            · have hadd : Arith.checked.add offset (UInt64.ofNat take) = .error .panic :=
                if_neg (by rw [hsize]; exact hsum)
              rw [hadd]
              exact fun _ _ => iff_of_true rfl
                (readsPastTop_of_le hread hcut hleft (Nat.le_of_not_lt hsum))
          · intro hbad
            omega
        · rintro e s ⟨-, ⟨q, rfl⟩, hnot⟩
          refine iff_of_false (fun h => by cases h) (not_readsPastTop hoffset hnot)
      · intro hdone
        exact Triple.pure fun _ _ => not_readsPastTop_zero offset (by omega)

theorem readAt_panics_iff {r : Qcow2Reader} (hr : Reads img r) (offset : UInt64)
    (dst : List UInt8) :
    ¬ Panics ((readAtIn .checked offset dst).run r) ↔
      ¬ img.ReadsPastTop offset.toNat dst.length := by
  have hspec := @readLoopIn_checked img dst.length offset 0 dst le_rfl (Nat.zero_le _) r hr
  rw [Nat.sub_zero] at hspec
  apply not_congr
  have hrun : (readAtIn .checked offset dst).run r =
      (readLoopIn .checked dst.length offset 0 dst).run r := rfl
  rw [hrun]
  cases hloop : (readLoopIn .checked dst.length offset 0 dst).run r with
  | ok got s =>
      rw [hloop] at hspec
      refine iff_of_false ?_ hspec
      intro h
      obtain ⟨s', hpanic⟩ := h
      cases hpanic
  | error e s =>
      rw [hloop] at hspec
      have hpanic : Panics (.error e s : EStateM.Result Fault Qcow2Reader (List UInt8)) ↔
          e = .panic := by
        constructor
        · rintro ⟨s', h⟩
          cases h
          rfl
        · rintro rfl
          exact ⟨s, rfl⟩
      exact hpanic.trans hspec

/-! ## Main results -/

/-- After any calls on the reader of any image: a conversion meets no result that does not fit
exactly when the disk can be rounded up to whole clusters, and a random read exactly when it
ends below the top of the addresses or a cluster on the way there cannot be read. -/
theorem no_wrap_iff (image : FileData) (r : Qcow2Reader) (s : Input)
    (hopen : openImage.run (.ofData image) = .ok r s) (calls : List Call) :
    (∀ old, ¬ Panics ((convertToRawIn .checked).run ⟨(session.run r calls).1, old⟩) ↔
      r.virtualSize.toNat + r.clusterSize.toNat < 2 ^ 64) ∧
    ∀ offset dst, ¬ Panics ((readAtIn .checked offset dst).run (session.run r calls).1) ↔
      offset.toNat + dst.length < 2 ^ 64 ∨
        ∃ c, offset.toNat / r.clusterSize.toNat ≤ c ∧ c * r.clusterSize.toNat < 2 ^ 64 ∧
          ¬ (Image.ofBytes image.bytes).Readable c := by
  have hr := open_reads hopen
  have hused := session_reads hr calls
  rw [hr.virtualSize, hr.clusterSize]
  refine ⟨fun old => convertToRaw_panics_iff hused, ?_⟩
  intro offset dst
  rw [readAt_panics_iff hused, Image.ReadsPastTop, not_and_or, Nat.not_le]
  simp only [not_forall, exists_prop]

theorem no_wrap_sample :
    ∃ r s, openImage.run (.ofData sample) = .ok r s ∧
      ¬ Panics ((convertToRawIn .checked).run ⟨(session.run r []).1, ⟨[], 0⟩⟩) := by
  obtain ⟨r, s, -, hopen, -⟩ := converts_iff.mp sample_converts
  refine ⟨r, s, hopen, ((no_wrap_iff sample r s hopen []).1 _).mpr ?_⟩
  have hr := open_reads hopen
  rw [hr.virtualSize, hr.clusterSize]
  decide +kernel

/-- Eight bytes asked for from four below the top. -/
def topRead (ar : Arith) (image : FileData) : Except Fault (List UInt8) :=
  match openImage.run (.ofData image) with
  | .error e _ => .error e
  | .ok r _ =>
      match (readAtIn ar 0xfffffffffffffffc (List.replicate 8 1)).run r with
      | .ok got _ => .ok got
      | .error e _ => .error e

theorem topRead_checked : topRead .checked sample = .error .panic := by
  decide +kernel

theorem topRead_release : topRead .release sample = .ok [0, 0, 0, 0, 7, 7, 7, 7] := by
  decide +kernel

/-- The image is accepted and the sum does not fit; without checks the read goes on at the
beginning of the disk. -/
theorem read_wraps_around :
    ∃ r s, openImage.run (.ofData sample) = .ok r s ∧
      Panics ((readAtIn .checked 0xfffffffffffffffc (List.replicate 8 1)).run r) ∧
        ∃ r', (readAt 0xfffffffffffffffc (List.replicate 8 1)).run r =
          .ok [0, 0, 0, 0, 7, 7, 7, 7] r' := by
  have hpanic := topRead_checked
  have hwrap := topRead_release
  obtain ⟨r, s, -, hopen, -⟩ := converts_iff.mp sample_converts
  rw [topRead, hopen] at hpanic hwrap
  refine ⟨r, s, hopen, ?_, ?_⟩
  · cases hrun : (readAtIn .checked 0xfffffffffffffffc (List.replicate 8 1)).run r with
    | ok got r' =>
        simp only [hrun] at hpanic
        cases hpanic
    | error e r' =>
        simp only [hrun] at hpanic
        cases hpanic
        exact ⟨r', rfl⟩
  · rw [readAt, ← readLoopIn_release]
    cases hrun : (readAtIn .release 0xfffffffffffffffc (List.replicate 8 1)).run r with
    | ok got r' =>
        simp only [hrun] at hwrap
        cases hwrap
        exact ⟨r', hrun⟩
    | error e r' =>
        simp only [hrun] at hwrap
        cases hwrap

end Caiman.Bridge
