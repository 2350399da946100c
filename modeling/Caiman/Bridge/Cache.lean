import Caiman.Bridge.Session
import Caiman.Lib.Agree

/-!
# The cache does not show

Two readers that are views of one image answer every call alike, whatever either of them has
in its cache and wherever its file stands. A reader that has been in use is a view of the
image, and so is a fresh one.
-/

namespace Caiman.Bridge

open Lib Qcow2Reader

variable {img : Image}

def SameImage (img : Image) (r t : Qcow2Reader) : Prop := Reads img r ∧ Reads img t

theorem SameImage.fields {r t : Qcow2Reader} (h : SameImage img r t) :
    r.clusterSize = t.clusterSize ∧ r.clusterBits = t.clusterBits ∧
      r.virtualSize = t.virtualSize := by
  obtain ⟨hr, ht⟩ := h
  refine ⟨?_, ?_, ?_⟩
  · exact UInt64.toNat_inj.mp (hr.clusterSize.trans ht.clusterSize.symm)
  · exact UInt32.toNat_inj.mp (hr.clusterBits.trans ht.clusterBits.symm)
  · exact UInt64.toNat_inj.mp (hr.virtualSize.trans ht.virtualSize.symm)

theorem resolveCluster_agree (c : UInt64) :
    Agree (SameImage img) (resolveCluster c) (resolveCluster c)
      (fun loc r t => SameImage img r t ∧ img.locate c.toNat = .ok loc) := by
  have houtcome : Triple (Reads img) (resolveCluster c)
      (fun loc r => (Reads img r ∧ img.locate c.toNat = .ok loc) ∧
        (img.locate c.toNat).mapError Fault.err = .ok loc)
      (fun e _ => (img.locate c.toNat).mapError Fault.err = .error e) := by
    apply (resolveCluster_spec c).conseq (fun _ hr => hr)
    · intro loc r h
      exact ⟨h, by rw [h.2]; rfl⟩
    · rintro e r ⟨-, q, rfl, hloc⟩
      rw [hloc]
      rfl
  exact (Agree.of_outcome houtcome houtcome).imp_ok fun _ _ _ h => ⟨⟨h.1.1, h.2.1⟩, h.1.2⟩

theorem readHost_agree {hostOffset : UInt64} {n : Nat} (hn : n ≤ img.clusterSize)
    (hlt : hostOffset.toNat < 2 ^ 56) :
    Agree (SameImage img) (readHost hostOffset n) (readHost hostOffset n)
      (fun _ => SameImage img) := by
  have houtcome : Triple (Reads img) (readHost hostOffset n)
      (fun got r => Reads img r ∧
        (if img.bytes.length < hostOffset.toNat + img.clusterSize then
          .error (.err (.offsetOutOfRange hostOffset))
        else .ok ((img.bytes.drop hostOffset.toNat).take n) : Except Fault _) = .ok got)
      (fun e _ =>
        (if img.bytes.length < hostOffset.toNat + img.clusterSize then
          .error (.err (.offsetOutOfRange hostOffset))
        else .ok ((img.bytes.drop hostOffset.toNat).take n) : Except Fault _) = .error e) := by
    apply (readHost_spec hn hlt fun hbad r hr => if_pos hbad).imp_ok
    rintro got r ⟨hr, hin, rfl⟩
    exact ⟨hr, if_neg (Nat.not_lt.mpr hin)⟩
  exact Agree.of_outcome houtcome houtcome

theorem readClusterInto_agree (c : UInt64) {buf : List UInt8}
    (hbuf : buf.length = img.clusterSize) :
    Agree (SameImage img) (readClusterInto c buf) (readClusterInto c buf)
      (fun _ => SameImage img) := by
  unfold readClusterInto
  apply Agree.bind (resolveCluster_agree c)
  intro loc
  apply Agree.assume
  intro hloc
  cases loc with
  | zero => exact Agree.pure fun _ _ h => h
  | data hostOffset => exact readHost_agree (Nat.le_of_eq hbuf) (locate_data_lt hloc)

/-- The induction is on the turns left; the offset and the buffer are the same in both runs
throughout. -/
theorem readLoop_agree (fuel : Nat) (offset : UInt64) (written : Nat) (dst : List UInt8) :
    Agree (SameImage img) (readLoop fuel offset written dst) (readLoop fuel offset written dst)
      (fun _ => SameImage img) := by
  induction fuel generalizing offset written dst with
  | zero =>
      apply Agree.ite
      · exact fun _ => Agree.throw
      · exact fun _ => Agree.pure fun _ _ h => h
  | succ fuel ih =>
      apply Agree.ite
      · intro _
        apply Agree.get
        intro r t h
        obtain ⟨hsize, hbits, -⟩ := h.fields
        dsimp only
        rw [hsize, hbits]
        apply Agree.bind (readClusterInto_agree _ (by rw [List.length_replicate, h.2.clusterSize]))
        intro clusterBuf
        apply Agree.ite
        · exact fun _ => ih _ _ _
        · exact fun _ => Agree.throw
      · exact fun _ => Agree.pure fun _ _ h => h

/-! ## Conversions -/

/-- The readers are of one image and the output files are the same. -/
def SameOutput (img : Image) (s t : Conversion) : Prop :=
  SameImage img s.reader t.reader ∧ s.out = t.out

theorem onReader_agree {α : Type} {op : EStateM Fault Qcow2Reader α} {p : α → Prop}
    (h : Agree (SameImage img) op op fun a r t => SameImage img r t ∧ p a) :
    Agree (SameOutput img) (onReader op) (onReader op)
      (fun a s t => SameOutput img s t ∧ p a) :=
  Agree.zoom h (fun _ _ hs => hs.1) fun _ _ _ _ _ hs hS => ⟨⟨hS.1, hs.2⟩, hS.2⟩

theorem onOut_agree {α : Type} (op : EStateM IoError File α) :
    Agree (SameOutput img) (onOut op) (onOut op) (fun _ => SameOutput img) :=
  Agree.zoom_eq (fun _ _ hs => hs.2) fun _ _ _ _ hs => ⟨hs.1, rfl⟩

theorem convertCluster_agree (c : UInt64) :
    Agree (SameOutput img) (convertCluster c) (convertCluster c) (fun _ => SameOutput img) := by
  apply Agree.get
  intro s t h
  obtain ⟨hsize, -, hvirtual⟩ := h.1.fields
  dsimp only
  rw [hsize, hvirtual]
  apply Agree.bind (onReader_agree (resolveCluster_agree c))
  intro loc
  apply Agree.assume
  intro hloc
  cases loc with
  | zero => exact Agree.pure fun _ _ hs => hs
  | data hostOffset =>
      have hread : Agree (SameImage img) (readHost hostOffset t.reader.clusterSize.toNat)
          (readHost hostOffset t.reader.clusterSize.toNat)
          (fun _ r r' => SameImage img r r' ∧ True) :=
        (readHost_agree (Nat.le_of_eq h.1.2.clusterSize) (locate_data_lt hloc)).imp_ok
          fun _ _ _ hs => ⟨hs, trivial⟩
      apply Agree.bind (onReader_agree hread)
      intro buf
      apply Agree.assume
      intro _
      apply Agree.bind (onOut_agree _)
      intro _
      apply Agree.ite
      · exact fun _ => onOut_agree _
      · exact fun _ => Agree.throw

theorem convertClusters_agree (n : Nat) (c : UInt64) :
    Agree (SameOutput img) (convertClusters n c) (convertClusters n c)
      (fun _ => SameOutput img) := by
  induction n generalizing c with
  | zero => exact Agree.pure fun _ _ hs => hs
  | succ n ih =>
      apply Agree.bind (convertCluster_agree c)
      exact fun _ => ih _

theorem convertToRaw_agree :
    Agree (SameOutput img) convertToRaw convertToRaw (fun _ => SameOutput img) := by
  have htruncate : Agree (SameOutput img)
      (modify fun s => { s with out := s.out.truncate } : EStateM Fault Conversion Unit)
      (modify fun s => { s with out := s.out.truncate }) (fun _ => SameOutput img) :=
    Agree.modify fun _ _ h => ⟨h.1, rfl⟩
  unfold convertToRaw
  apply Agree.bind htruncate
  intro _
  apply Agree.get
  intro s t h
  obtain ⟨hsize, -, hvirtual⟩ := h.1.fields
  dsimp only
  rw [hsize, hvirtual]
  apply Agree.bind (convertClusters_agree _ _)
  exact fun _ => onOut_agree _

/-! ## Calls -/

theorem answer_agree {α : Type} {reply : α → Reply} {op : EStateM Fault Qcow2Reader α}
    (h : Agree (SameImage img) op op fun _ _ _ => True) {r t : Qcow2Reader}
    (hs : SameImage img r t) :
    (answer reply (op.run r)).2 = (answer reply (op.run t)).2 := by
  have hboth := h r t hs
  cases hr : op.run r <;> cases ht : op.run t <;> rw [hr, ht] at hboth
  · exact congrArg (fun a => [reply a]) hboth.1
  · exact hboth.elim
  · exact hboth.elim
  · exact congrArg (fun e => [Reply.failed e]) hboth

theorem serve_agree {r t : Qcow2Reader} (h : SameImage img r t) (call : Call) :
    (serve r call).2 = (serve t call).2 := by
  cases call with
  | resolveCluster c => exact answer_agree ((resolveCluster_agree c).imp_ok fun _ _ _ _ => trivial) h
  | readClusterInto c =>
      simp only [serve, h.fields.1]
      exact answer_agree ((readClusterInto_agree c (by
        rw [List.length_replicate, h.2.clusterSize])).imp_ok fun _ _ _ _ => trivial) h
  | readAt offset dst =>
      exact answer_agree ((readLoop_agree _ offset 0 dst).imp_ok fun _ _ _ _ => trivial) h
  | convertToRaw old =>
      have hboth := convertToRaw_agree ⟨r, old⟩ ⟨t, old⟩ ⟨h, rfl⟩
      simp only [serve]
      cases hr : Qcow2Reader.convertToRaw.run ⟨r, old⟩ <;>
        cases ht : Qcow2Reader.convertToRaw.run ⟨t, old⟩ <;> rw [hr, ht] at hboth
      · exact congrArg (fun out => [Reply.converted out]) hboth.2.2
      · exact hboth.elim
      · exact hboth.elim
      · exact congrArg (fun e => [Reply.failed e]) hboth

/-- Every call in a sequence, after whatever came of the ones before it, is answered as the same
call on the reader as it was opened. -/
theorem cache_transparent (image : FileData) (r : Qcow2Reader) (s : Input)
    (hopen : openImage.run (.ofData image) = .ok r s) (calls : List Call) :
    (session.run r calls).2 = calls.flatMap fun call => (serve r call).2 := by
  have hused : ∀ t, Reads (.ofBytes image.bytes) t →
      (session.run t calls).2 = calls.flatMap fun call => (serve r call).2 := by
    induction calls with
    | nil => exact fun _ _ => rfl
    | cons call calls ih =>
        intro t ht
        have hfirst : (serve t call).2 = (serve r call).2 := serve_agree ⟨ht, open_reads hopen⟩ call
        rw [List.flatMap_cons, ← hfirst, ← ih _ (serve_reads ht call).1]
        rfl
  exact hused r (open_reads hopen)

theorem cache_transparent_sample :
    ∃ r s, openImage.run (.ofData sample) = .ok r s ∧
      (session.run r [.resolveCluster 2, .readAt 100 [0, 0], .readClusterInto 70]).2 =
        [.resolveCluster 2, .readAt 100 [0, 0], .readClusterInto 70].flatMap
          fun call => (serve r call).2 := by
  obtain ⟨r, s, -, hopen, -⟩ := converts_iff.mp sample_converts
  exact ⟨r, s, hopen, cache_transparent sample r s hopen _⟩

end Caiman.Bridge
