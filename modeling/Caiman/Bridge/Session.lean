import Caiman.Bridge.Convert
import Caiman.Bridge.ReadAt
import Caiman.Lib.Run

/-!
# One reader, many calls

A reader stays in use over any sequence of calls, of which any may fail. It is a
view of the image after all of them, and so the results about single calls hold
at every point of such a sequence.
-/

namespace Caiman.Bridge

open Lib Qcow2Reader

inductive Call
  | resolveCluster (guestCluster : UInt64)
  | readClusterInto (guestCluster : UInt64)
  | readAt (offset : UInt64) (dst : List UInt8)
  | convertToRaw (old : File)

inductive Reply
  | located (loc : ClusterLoc)
  | filled (buf : List UInt8)
  | converted (out : File)
  | failed (fault : Fault)
  deriving DecidableEq, Repr

/-- The reader after a call, with the reply. -/
def answer {α : Type} (reply : α → Reply) :
    EStateM.Result Fault Qcow2Reader α → Qcow2Reader × List Reply
  | .ok a r => (r, [reply a])
  | .error e r => (r, [.failed e])

/-- A buffer handed to `read_cluster_into` is one cluster long. -/
def serve (r : Qcow2Reader) : Call → Qcow2Reader × List Reply
  | .resolveCluster c => answer .located ((resolveCluster c).run r)
  | .readClusterInto c =>
      answer .filled ((readClusterInto c (List.replicate r.clusterSize.toNat 0)).run r)
  | .readAt offset dst => answer .filled ((readAt offset dst).run r)
  | .convertToRaw old =>
      match convertToRaw.run ⟨r, old⟩ with
      | .ok _ s => (s.reader, [.converted s.out])
      | .error e s => (s.reader, [.failed e])

def session : Machine Qcow2Reader Call Reply where
  step := serve

variable {img : Image}

theorem answer_reads {α : Type} {reply : α → Reply} {op : EStateM Fault Qcow2Reader α}
    {Q : α → Qcow2Reader → Prop} {E : Fault → Qcow2Reader → Prop} {r : Qcow2Reader}
    (h : Triple (Reads img) op Q E) (hok : ∀ a r, Q a r → Reads img r)
    (herr : ∀ e r, E e r → Reads img r ∧ IsErr e) (hreply : ∀ a fault, reply a ≠ .failed fault)
    (hr : Reads img r) :
    Reads img (answer reply (op.run r)).1 ∧
      ∀ fault, .failed fault ∈ (answer reply (op.run r)).2 → IsErr fault := by
  have hpost := h r hr
  cases hrun : op.run r with
  | ok a r' =>
      rw [hrun] at hpost
      refine ⟨hok a r' hpost, fun fault hin => ?_⟩
      exact absurd (List.mem_singleton.mp hin).symm (hreply a fault)
  | error e r' =>
      rw [hrun] at hpost
      obtain ⟨hr', he⟩ := herr e r' hpost
      refine ⟨hr', fun fault hin => ?_⟩
      cases List.mem_singleton.mp hin
      exact he

theorem serve_reads {r : Qcow2Reader} (hr : Reads img r) (call : Call) :
    Reads img (serve r call).1 ∧ ∀ fault, .failed fault ∈ (serve r call).2 → IsErr fault := by
  cases call with
  | resolveCluster c =>
      exact answer_reads (resolveCluster_spec c) (fun _ _ h => h.1)
        (fun e _ ⟨h, q, he, _⟩ => ⟨h, q, he⟩) (fun _ _ h => by cases h) hr
  | readClusterInto c =>
      exact answer_reads (readClusterInto_spec c (by rw [List.length_replicate, hr.clusterSize]))
        (fun _ _ h => h.1) (fun _ _ h => ⟨h.1, h.2.1⟩) (fun _ _ h => by cases h) hr
  | readAt offset dst =>
      exact answer_reads (readAt_spec offset dst) (fun _ _ h => h.1)
        (fun _ _ h => ⟨h.1, h.2.1⟩) (fun _ _ h => by cases h) hr
  | convertToRaw old =>
      have hspec : Triple (fun s => Reads img s.reader) Qcow2Reader.convertToRaw _ _ :=
        convertToRaw_spec
      have hpost := hspec ⟨r, old⟩ hr
      simp only [serve]
      cases hrun : Qcow2Reader.convertToRaw.run ⟨r, old⟩ with
      | ok _ s =>
          rw [hrun] at hpost
          exact ⟨hpost.1, fun fault hin => by cases List.mem_singleton.mp hin⟩
      | error e s =>
          rw [hrun] at hpost
          refine ⟨hpost.1, fun fault hin => ?_⟩
          cases List.mem_singleton.mp hin
          exact hpost.2

theorem session_reads {r : Qcow2Reader} (hr : Reads img r) (calls : List Call) :
    Reads img (session.run r calls).1 :=
  session.run_inductive (I := Reads img) (fun _ call h => (serve_reads h call).1) hr calls

theorem session_faults {r : Qcow2Reader} (hr : Reads img r) {calls : List Call} {fault : Fault}
    (h : .failed fault ∈ (session.run r calls).2) : IsErr fault := by
  obtain ⟨pre, call, post, -, hin⟩ := session.mem_run_iff.mp h
  exact (serve_reads (session_reads hr pre) call).2 fault hin

theorem ofData_safe (image : FileData) : (Input.ofData image).Safe image.bytes :=
  ⟨rfl, by simp [Input.ofData], by simp [Input.ofData]⟩

theorem open_reads {image : FileData} {r : Qcow2Reader} {s : Input}
    (h : openImage.run (.ofData image) = .ok r s) : Reads (.ofBytes image.bytes) r :=
  ((openImage_spec image).ok (ofData_safe image) h).2

/-! ## Main results -/

/-- Whatever bytes the file holds: `open`, and after it every sequence of calls,
reads only inside the file, allocates no more for a table than the file is long,
and fails only with an error. -/
theorem hostile_image_contained (image : FileData) :
    match openImage.run (.ofData image) with
    | .error e s => s.Safe image.bytes ∧ IsErr e
    | .ok r s => s.Safe image.bytes ∧ ∀ calls,
        (session.run r calls).1.input.Safe image.bytes ∧
          ∀ fault, .failed fault ∈ (session.run r calls).2 → IsErr fault := by
  have hopen := openImage_spec image (.ofData image) (ofData_safe image)
  cases hrun : openImage.run (.ofData image) with
  | error e s =>
      rw [hrun] at hopen
      exact hopen
  | ok r s =>
      rw [hrun] at hopen
      refine ⟨hopen.1, fun calls => ⟨(session_reads hopen.2 calls).safe, fun fault hin => ?_⟩⟩
      exact session_faults hopen.2 hin

/-- A conversion that returns leaves the guest disk at the output path, in the size that
the header has, whatever was called before and whatever the path held. -/
theorem conversion_exact (image : FileData) (r : Qcow2Reader) (s : Input) (calls : List Call)
    (old : File) (done : Conversion) (hopen : openImage.run (.ofData image) = .ok r s)
    (hconvert : convertToRaw.run ⟨(session.run r calls).1, old⟩ = .ok () done) :
    r.virtualSize = u64At image.bytes 24 ∧ done.out.data.length = r.virtualSize.toNat ∧
      ∀ o < r.virtualSize.toNat, done.out.data[o]? = (Image.ofBytes image.bytes).byte o := by
  have hr := open_reads hopen
  have hdone := convertToRaw_ok (session_reads hr calls) hconvert
  refine ⟨UInt64.toNat_inj.mp hr.virtualSize, ?_⟩
  rw [hr.virtualSize]
  exact ⟨hdone.length, hdone.bytes⟩

/-- An image of 2048 bytes: the header, the L1 table, an L2 table and one data
cluster, which backs the guest clusters 0 and 2; the virtual size is 1034. -/
def sample : FileData where
  bytes :=
    ([0x51, 0x46, 0x49, 0xfb] ++ beBytes 4 2 ++ beBytes 8 0 ++ beBytes 4 0 ++ beBytes 4 9 ++
      beBytes 8 1034 ++ beBytes 4 0 ++ beBytes 4 1 ++ beBytes 8 512 ++ List.replicate 464 0) ++
    (beBytes 8 1024 ++ List.replicate 504 0) ++
    (beBytes 8 1536 ++ beBytes 8 0 ++ beBytes 8 1536 ++ List.replicate 488 0) ++
    List.replicate 512 7
  size_lt := by
    simp only [List.length_append, List.length_cons, List.length_nil, List.length_replicate,
      beBytes_length]
    norm_num

def converts (image : FileData) (old : File) : Bool :=
  match openImage.run (.ofData image) with
  | .error _ _ => false
  | .ok r _ =>
      match convertToRaw.run ⟨r, old⟩ with
      | .error _ _ => false
      | .ok _ _ => true

theorem converts_iff {image : FileData} {old : File} :
    converts image old = true ↔ ∃ r s done, openImage.run (.ofData image) = .ok r s ∧
      convertToRaw.run ⟨r, old⟩ = .ok () done := by
  unfold converts
  cases hopen : openImage.run (.ofData image) with
  | error e s => simp
  | ok r s =>
      cases hconvert : convertToRaw.run ⟨r, old⟩ with
      | error e done => simp [hconvert]
      | ok u done => simp [hconvert]

theorem sample_converts : converts sample ⟨List.replicate 3000 9, 0⟩ = true := by
  decide +kernel

/-- The output path held a longer file. -/
theorem conversion_exact_sample :
    ∃ r s done, openImage.run (.ofData sample) = .ok r s ∧
      convertToRaw.run ⟨(session.run r []).1, ⟨List.replicate 3000 9, 0⟩⟩ = .ok () done ∧
      done.out.data.length = 1034 ∧
        ∀ o < 1034, done.out.data[o]? = (Image.ofBytes sample.bytes).byte o := by
  obtain ⟨r, s, done, hopen, hconvert⟩ := converts_iff.mp sample_converts
  have hexact := conversion_exact sample r s [] _ done hopen hconvert
  have hsize : (u64At sample.bytes 24).toNat = 1034 := by decide +kernel
  rw [hexact.1, hsize] at hexact
  exact ⟨r, s, done, hopen, hconvert, hexact.2⟩

/-- A range of the guest disk reads as the same range of the converted file, after
any sequence of calls on the reader. -/
theorem read_at_agrees (image : FileData) (r : Qcow2Reader) (s : Input) (old : File)
    (done : Conversion) (calls : List Call) (offset : UInt64) (dst : List UInt8)
    (hopen : openImage.run (.ofData image) = .ok r s)
    (hconvert : convertToRaw.run ⟨r, old⟩ = .ok () done)
    (hrange : offset.toNat + dst.length ≤ r.virtualSize.toNat) :
    ∃ r', (readAt offset dst).run (session.run r calls).1 =
      .ok ((done.out.data.drop offset.toNat).take dst.length) r' := by
  have hr := open_reads hopen
  have hdone := convertToRaw_ok (s := ⟨r, old⟩) hr hconvert
  have hlt := hdone.size_lt
  rw [hr.virtualSize] at hrange
  have hread := readAt_spec offset dst _ (session_reads hr calls)
  cases hrun : (readAt offset dst).run (session.run r calls).1 with
  | error e r' =>
      rw [hrun] at hread
      obtain ⟨c, hc, hnot⟩ := hread.2.2 (by omega)
      exact absurd (hdone.readable c (by omega)) hnot
  | ok got r' =>
      rw [hrun] at hread
      have hfilled := hread.2 (by omega)
      have hgot : got = (done.out.data.drop offset.toNat).take dst.length := by
        apply List.ext_getElem?
        intro x
        by_cases hx : x < dst.length
        · rw [hfilled.bytes x hx, if_neg (Nat.not_lt_zero x), List.getElem?_take_of_lt hx,
            List.getElem?_drop, hdone.bytes _ (by omega), Nat.sub_zero]
        · have hlength := hfilled.length
          rw [List.getElem?_eq_none (by omega), List.getElem?_eq_none]
          rw [List.length_take]
          omega
      exact ⟨r', by rw [hgot]⟩

/-- From the middle of cluster 0 to the end of the disk, after a read past the end
and a lookup of the last cluster there can be. -/
theorem read_at_agrees_sample :
    ∃ r s done, openImage.run (.ofData sample) = .ok r s ∧
      convertToRaw.run ⟨r, ⟨List.replicate 3000 9, 0⟩⟩ = .ok () done ∧
      ∃ r', (readAt 500 (List.replicate 534 0)).run (session.run r
          [.readAt 5000 [0, 0, 0], .resolveCluster 0xffffffffffffffff]).1 =
        .ok ((done.out.data.drop 500).take 534) r' := by
  obtain ⟨r, s, done, hopen, hconvert⟩ := converts_iff.mp sample_converts
  have hsize : (Image.ofBytes sample.bytes).virtualSize = 1034 := by decide +kernel
  have hrange : (500 : UInt64).toNat + (List.replicate 534 (0 : UInt8)).length ≤
      r.virtualSize.toNat := by
    rw [(open_reads hopen).virtualSize, hsize, List.length_replicate]
    decide
  have hread := read_at_agrees sample r s _ done
    [.readAt 5000 [0, 0, 0], .resolveCluster 0xffffffffffffffff] 500 _ hopen hconvert hrange
  rw [List.length_replicate] at hread
  exact ⟨r, s, done, hopen, hconvert, hread⟩

end Caiman.Bridge
