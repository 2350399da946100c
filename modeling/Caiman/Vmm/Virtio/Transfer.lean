import Caiman.Vmm.Virtio.Disk

/-!
# Reads and writes that report success

What a T_IN or T_OUT request completed with S_OK has really moved, for a chain
of a header, any number of data descriptors and a status descriptor. A request
is held fixed in everything but the bytes of the image; over all images of one
length it is faithful exactly when its range is inside the capacity, its data is
all in the first data descriptor and moved in full, and what a read copied to
the guest was in the image, was copied at all and is still there when the used
index moves. The capacity is that of the file as it was opened; the image may
have grown since.
-/

namespace Caiman.Vmm.Blk

open Lib

/-- The guest address of every data byte of the chain, in order. -/
def dataAddrs (chain : List Descriptor) : List Nat :=
  (dataDescs chain).flatMap fun d => (List.range d.len.toNat).map (d.addr.toNat + ·)

theorem dataAddrs_length (chain : List Descriptor) : (dataAddrs chain).length = dataLen chain := by
  simp [dataAddrs, dataLen, List.length_flatMap]

theorem dataAddrs_getElem? {hdrDesc dataDesc : Descriptor} {rest : List Descriptor} {p : Nat}
    (hp : p < dataLen (hdrDesc :: dataDesc :: rest)) (hlen : p < dataDesc.len.toNat) :
    (dataAddrs (hdrDesc :: dataDesc :: rest))[p]? = some (dataDesc.addr.toNat + p) := by
  have hdata : dataDescs (hdrDesc :: dataDesc :: rest) = dataDesc :: rest.dropLast := by
    simp [dataDescs, List.dropLast_cons_of_ne_nil (rest_ne_nil hp)]
  rw [dataAddrs, hdata, List.flatMap_cons, List.getElem?_append_left (by simpa using hlen)]
  simp [hlen]

/-! ## One request -/

/-- A request about to be served, with all it depends on except the image. -/
structure Attempt where
  /-- the length of the file in `VirtioBlk::new` -/
  fileLen : UInt64
  readOnly : Bool
  io : Transfer
  mem : GuestMemory
  queue : Virtqueue
  head : UInt16
  hdrDesc : Descriptor
  dataDesc : Descriptor
  rest : List Descriptor

namespace Attempt

variable (r : Attempt)

def sectorCount : UInt64 := r.fileLen / sectorSize

def chain : List Descriptor := r.hdrDesc :: r.dataDesc :: r.rest

def statusDesc : Descriptor := BlkSystem.statusDesc r.dataDesc r.rest

def reqType : UInt32 := reqTypeAt r.mem r.hdrDesc

def sector : UInt64 := sectorAt r.mem r.hdrDesc

def moved : Nat := r.io.getD 0

/-- The request is served with S_OK and its head goes into the used ring. -/
structure CompletesOk (image : Image) (c : Completion) (final : GuestMemory) : Prop where
  serve : serve r.readOnly r.io r.mem image r.hdrDesc r.dataDesc r.statusDesc = .ok (some c)
  ok : c.status = sOk
  added : ∃ q, r.queue.addUsed c.mem r.head c.usedLen = .ok (true, q, final)

/-- What success has to mean: the range is inside the capacity, a read has put
the image bytes in every data descriptor and a write has put every data
descriptor in the image, each in full. -/
def Faithful (image : Image) : Prop :=
  ∀ c final, r.CompletesOk image c final →
    (c.reqType = tIn →
      InCapacity r.sectorCount c.sector r.chain ∧
        ∀ p x, (dataAddrs r.chain)[p]? = some x →
          ∃ v, final.byteAt x = some v ∧ image[c.sector.toNat * 512 + p]? = some v) ∧
    (c.reqType = tOut →
      InCapacity r.sectorCount c.sector r.chain ∧
        ∀ p x, (dataAddrs r.chain)[p]? = some x →
          ∃ v, c.image[c.sector.toNat * 512 + p]? = some v ∧ r.mem.byteAt x = some v)

/-- The dataplane is about to serve the request. -/
structure InHand (s : BlkSystem) : Prop where
  readOnly : s.readOnly = r.readOnly
  mem : s.mem = r.mem
  queue : s.state.queue = r.queue
  pc : s.pc = .serve r.head r.chain

/-- The device was made on a file of this length. -/
structure At (s : BlkSystem) : Prop extends r.InHand s where
  sectorCount : s.state.sectorCount = r.sectorCount

theorem CompletesOk.run {r : Attempt} {s : BlkSystem} {c : Completion} {final : GuestMemory}
    (h : r.CompletesOk s.image c final) (hat : r.InHand s) (io' : Transfer) :
    (machine.run s [.dataplane r.io, .dataplane io']).1.mem = final ∧
      (machine.run s [.dataplane r.io, .dataplane io']).1.image = c.image ∧
      (machine.run s [.dataplane r.io, .dataplane io']).1.pc = .inject := by
  obtain ⟨q, hadd⟩ := h.added
  have hserve : machine.step s (.dataplane r.io) =
      ({ s with mem := c.mem, image := c.image, pc := .complete r.head c.usedLen },
        [.request c.reqType c.sector r.chain]) := by
    have hs := h.serve
    rw [← hat.readOnly, ← hat.mem] at hs
    simp only [machine, BlkSystem.dataplaneStep, hat.pc, chain, BlkSystem.serveStep]
    simp only [statusDesc] at hs
    rw [hs]
  have hcomplete : machine.step
      { s with mem := c.mem, image := c.image, pc := .complete r.head c.usedLen }
      (.dataplane io') = BlkSystem.completeStep
        { s with mem := c.mem, image := c.image, pc := .complete r.head c.usedLen }
        r.head c.usedLen := rfl
  simp only [Machine.run_cons, Machine.run_nil, hserve, hcomplete, BlkSystem.completeStep,
    hat.queue, hadd, and_self]

/-! ## When a request succeeds

Success does not depend on the bytes of the image, so the conditions below are
about the request alone.
-/

def offset : UInt64 := r.sector * sectorSize

/-- Header, file call, status byte and used ring all go through. -/
structure Accepted : Prop where
  header : r.mem.Mapped r.hdrDesc.addr.toNat 16
  io_eq : r.io = some r.moved
  seek : r.offset.toNat ≤ isizeMax
  status : ¬ r.mem.Wraps r.statusDesc.addr.toNat 1
  ring_ne : r.queue.usedRing ≠ 0
  size_ne : r.queue.size ≠ 0
  used : ¬ r.queue.UsedWraps r.mem

structure ReadAccepted : Prop extends r.Accepted where
  type : r.reqType = tIn
  write : r.dataDesc.isWrite = true
  buffer : ¬ r.mem.Wraps r.dataDesc.addr.toNat r.dataDesc.len.toNat

structure WriteAccepted : Prop extends r.Accepted where
  type : r.reqType = tOut
  writable : r.readOnly = false
  buffer : r.mem.Mapped r.dataDesc.addr.toNat r.dataDesc.len.toNat

def readResult (image : Image) : GuestMemory :=
  r.queue.publishUsed
    ((r.mem.store r.dataDesc.addr.toNat
      (readBuf image r.dataDesc.len.toNat r.offset.toNat r.moved)).store
        r.statusDesc.addr.toNat [sOk]) r.head r.dataDesc.len

def writeResult (image : Image) : Image :=
  splice image r.offset.toNat
    ((r.mem.load r.dataDesc.addr.toNat r.dataDesc.len.toNat).take r.moved)

theorem CompletesOk.accepted {r : Attempt} {image : Image} {c : Completion} {final : GuestMemory}
    (h : r.CompletesOk image c final) {mid : GuestMemory}
    (hs : Served r.readOnly r.io r.mem image r.hdrDesc r.dataDesc r.statusDesc c mid)
    {k : Nat} (hio : r.io = some k) (hoff : r.offset.toNat ≤ isizeMax) :
    r.Accepted ∧ final = r.queue.publishUsed c.mem r.head c.usedLen := by
  obtain ⟨q, hadd⟩ := h.added
  rcases Virtqueue.addUsed_cases hadd with ⟨-, hfalse, -⟩ | ⟨hring, hsize, hw, -, -, hfinal⟩
  · cases hfalse
  · refine ⟨⟨hs.header, ?_, hoff, hs.statusOk, hring, hsize, ?_⟩, hfinal⟩
    · rw [moved, hio]
      rfl
    · rwa [Virtqueue.usedWraps_congr hs.ramEnd] at hw

theorem CompletesOk.read {r : Attempt} {image : Image} {c : Completion} {final : GuestMemory}
    (h : r.CompletesOk image c final) (htype : c.reqType = tIn) :
    r.ReadAccepted ∧ final = r.readResult image ∧ c.sector = r.sector := by
  obtain ⟨mid, hs⟩ := serve_served h.serve
  have hin : reqTypeAt r.mem r.hdrDesc = tIn := hs.reqType.symm.trans htype
  have hlen : c.usedLen = r.dataDesc.len := by rw [hs.usedLen, if_pos hin]
  have hafter := hs.after
  have hexec := execute_cases hs.executed
  rw [h.ok] at hexec hafter
  generalize c.image = image' at hexec
  cases hexec with
  | read k type write hio hoff hw =>
      obtain ⟨hacc, hfinal⟩ := h.accepted hs hio hoff
      refine ⟨⟨hacc, hin, write, hw⟩, ?_, hs.sector⟩
      rw [hfinal, hafter, hlen, readResult, moved, hio]
      rfl
  | write k type => exact absurd (hin.symm.trans type) (by decide)
  | getId type => exact absurd (hin.symm.trans type) (by decide)
  | nothing _ failed => exact absurd (failed (Or.inl hin)) (by decide)

theorem CompletesOk.write {r : Attempt} {image : Image} {c : Completion} {final : GuestMemory}
    (h : r.CompletesOk image c final) (htype : c.reqType = tOut) :
    r.WriteAccepted ∧ c.image = r.writeResult image ∧ c.sector = r.sector := by
  obtain ⟨mid, hs⟩ := serve_served h.serve
  have hout : reqTypeAt r.mem r.hdrDesc = tOut := hs.reqType.symm.trans htype
  have hexec := execute_cases hs.executed
  rw [h.ok] at hexec
  generalize himg : c.image = image' at hexec
  cases hexec with
  | read k type => exact absurd (hout.symm.trans type) (by decide)
  | write k type writable hio hoff hm =>
      obtain ⟨hacc, -⟩ := h.accepted hs hio hoff
      refine ⟨⟨hacc, hout, writable, hm⟩, ?_, hs.sector⟩
      rw [writeResult, moved, hio]
      rfl
  | getId type => exact absurd (hout.symm.trans type) (by decide)
  | nothing _ failed => exact absurd (failed (Or.inr hout)) (by decide)

theorem Accepted.completes {r : Attempt} (h : r.Accepted) {image image' : Image}
    {mid : GuestMemory} (hexec : execute r.readOnly r.io r.mem image r.reqType r.offset
      r.dataDesc = .ok (sOk, mid, image')) :
    r.CompletesOk image
      { reqType := r.reqType
        sector := r.sector
        status := sOk
        usedLen := if r.reqType = tIn then r.dataDesc.len else 0
        mem := mid.store r.statusDesc.addr.toNat [sOk]
        image := image' }
      (r.queue.publishUsed (mid.store r.statusDesc.addr.toNat [sOk]) r.head
        (if r.reqType = tIn then r.dataDesc.len else 0)) := by
  have hend := (execute_cases hexec).ramEnd
  have hstatus : ¬ mid.Wraps r.statusDesc.addr.toNat 1 := by
    simpa only [GuestMemory.Wraps, hend] using h.status
  have hused : ¬ r.queue.UsedWraps (mid.store r.statusDesc.addr.toNat [sOk]) := by
    rw [Virtqueue.usedWraps_congr (show _ = r.mem.ramEnd by rw [GuestMemory.ramEnd_store, hend])]
    exact h.used
  constructor
  · simp only [reqType, offset, sector] at hexec
    rw [serve_eq, if_pos h.header, hexec]
    simp only [if_neg hstatus]
    rfl
  · rfl
  · exact ⟨_, by rw [Virtqueue.addUsed_eq, if_neg h.ring_ne, if_neg h.size_ne, if_neg hused]⟩

theorem ReadAccepted.completes {r : Attempt} (h : r.ReadAccepted) (image : Image) :
    ∃ c, r.CompletesOk image c (r.readResult image) ∧ c.reqType = tIn ∧ c.sector = r.sector := by
  obtain ⟨n, hread⟩ := readAt_eq image r.dataDesc.len.toNat r.moved h.seek
  have hexec : execute r.readOnly r.io r.mem image r.reqType r.offset r.dataDesc =
      .ok (sOk, r.mem.store r.dataDesc.addr.toNat
        (readBuf image r.dataDesc.len.toNat r.offset.toNat r.moved), image) := by
    rw [execute_eq, if_pos h.type, if_pos h.write, h.io_eq, hread]
    simp only [if_neg h.buffer]
  have hdone := h.toAccepted.completes hexec
  simp only [if_pos h.type] at hdone
  exact ⟨_, hdone, h.type, rfl⟩

theorem WriteAccepted.completes {r : Attempt} (h : r.WriteAccepted) (image : Image) :
    ∃ c final, r.CompletesOk image c final ∧ c.reqType = tOut ∧ c.sector = r.sector ∧
      c.image = r.writeResult image := by
  have hin : r.reqType ≠ tIn := by
    rw [h.type]
    decide
  obtain ⟨n, hwrite⟩ := writeAt_eq image (r.mem.load r.dataDesc.addr.toNat r.dataDesc.len.toNat)
    r.moved h.seek
  have hexec : execute r.readOnly r.io r.mem image r.reqType r.offset r.dataDesc =
      .ok (sOk, r.mem, r.writeResult image) := by
    rw [execute_eq, if_neg hin, if_pos h.type, h.writable, if_neg Bool.false_ne_true,
      if_pos h.buffer, h.io_eq, hwrite]
    rfl
  exact ⟨_, _, h.toAccepted.completes hexec, h.type, rfl, rfl⟩

/-! ## Bytes -/

theorem readBuf_getD (image : Image) (len offset k i : Nat) :
    (readBuf image len offset k).getD i 0 =
      if i < min len k then image.getD (offset + i) 0 else 0 := by
  have hgot : ∀ j, ((image.drop offset).take (min len k))[j]? =
      if j < min len k then image[offset + j]? else none := by
    intro j
    rw [List.getElem?_take, List.getElem?_drop]
  simp only [readBuf, List.getD_eq_getElem?_getD, List.getElem?_append]
  split
  · rename_i hi
    rw [hgot]
    split <;> simp
  · rename_i hi
    have hzero : ((List.replicate (len - ((image.drop offset).take (min len k)).length)
        (0 : UInt8))[i - ((image.drop offset).take (min len k)).length]?).getD 0 = 0 := by
      rw [List.getElem?_replicate]
      split <;> rfl
    rw [hzero]
    split
    · rename_i hlt
      have hnone : image[offset + i]? = none := by
        rw [List.getElem?_eq_none_iff]
        simp only [List.length_take, List.length_drop] at hi
        omega
      rw [hnone]
      rfl
    · rfl

/-- A later copy of the request itself, the status byte or the completion,
reaches byte `x`. -/
def Overwritten (x : Nat) : Prop :=
  r.mem.Covers r.statusDesc.addr.toNat 1 x ∨ r.queue.UsedCovers r.mem x

instance (x : Nat) : Decidable (r.Overwritten x) := inferInstanceAs (Decidable (_ ∨ _))

theorem byteAt_readResult {r : Attempt} (image : Image) {p : Nat}
    (hmapped : r.mem.Mapped r.dataDesc.addr.toNat r.dataDesc.len.toNat)
    (hp : p < r.dataDesc.len.toNat) (hfree : ¬ r.Overwritten (r.dataDesc.addr.toNat + p)) :
    (r.readResult image).byteAt (r.dataDesc.addr.toNat + p) =
      some ((readBuf image r.dataDesc.len.toNat r.offset.toNat r.moved).getD p 0) := by
  simp only [Overwritten, not_or] at hfree
  have hused : ¬ r.queue.UsedCovers ((r.mem.store r.dataDesc.addr.toNat
      (readBuf image r.dataDesc.len.toNat r.offset.toNat r.moved)).store
        r.statusDesc.addr.toNat [sOk]) (r.dataDesc.addr.toNat + p) := by
    rw [Virtqueue.usedCovers_congr (show _ = r.mem.ramEnd by simp)]
    exact hfree.2
  have hcovers : r.mem.Covers r.dataDesc.addr.toNat r.dataDesc.len.toNat
      (r.dataDesc.addr.toNat + p) := ⟨hmapped, by omega, by omega⟩
  rw [readResult, Virtqueue.byteAt_publishUsed_of_not_covers hused, GuestMemory.byteAt_store_eq,
    if_neg, GuestMemory.byteAt_store_eq, readBuf_length, if_pos hcovers, Nat.add_sub_cancel_left]
  rw [GuestMemory.covers_congr (GuestMemory.ramEnd_store _ _ _)]
  exact hfree.1

theorem byteAt_readResult_congr {r : Attempt} {image image' : Image} {x : Nat}
    (h : r.Overwritten x ∨
      (r.mem.store r.dataDesc.addr.toNat
          (readBuf image' r.dataDesc.len.toNat r.offset.toNat r.moved)).byteAt x =
        (r.mem.store r.dataDesc.addr.toNat
          (readBuf image r.dataDesc.len.toNat r.offset.toNat r.moved)).byteAt x) :
    (r.readResult image').byteAt x = (r.readResult image).byteAt x := by
  unfold readResult
  apply Virtqueue.byteAt_publishUsed_congr (by simp)
  by_cases hused : r.queue.UsedCovers r.mem x
  · left
    rw [Virtqueue.usedCovers_congr (show _ = r.mem.ramEnd by simp)]
    exact hused
  right
  apply GuestMemory.byteAt_store_congr (by simp)
  rcases h with (hstatus | hused') | hsame
  · left
    rw [GuestMemory.covers_congr (GuestMemory.ramEnd_store _ _ _)]
    exact hstatus
  · exact absurd hused' hused
  · exact Or.inr hsame

/-! ## Images that tell a byte apart -/

def probe (length pos : Nat) (v : UInt8) : Image := (List.replicate length 0).set pos v

@[simp] theorem probe_length (length pos : Nat) (v : UInt8) :
    (probe length pos v).length = length := by
  simp [probe]

theorem probe_getElem? {length pos : Nat} (v : UInt8) (h : pos < length) :
    (probe length pos v)[pos]? = some v := by
  simp [probe, h]

theorem probe_getD_of_ne {length pos j : Nat} (v : UInt8) (h : j ≠ pos) :
    (probe length pos v).getD j 0 = 0 := by
  rw [probe, List.getD_eq_getElem?_getD, List.getElem?_set_ne (Ne.symm h),
    List.getElem?_replicate]
  split <;> rfl

/-! ## When success is faithful -/

/-- The exact condition, for an image of the given length. -/
structure Exact (length : Nat) : Prop where
  range : InCapacity r.sectorCount r.sector r.chain
  whole : dataLen r.chain ≤ min r.dataDesc.len.toNat r.moved
  copied : r.reqType = tIn → ∀ i, i < dataLen r.chain →
    r.sector.toNat * 512 + i < length ∧
      r.mem.Mapped r.dataDesc.addr.toNat r.dataDesc.len.toNat ∧
      ¬ r.Overwritten (r.dataDesc.addr.toNat + i)

theorem exact_offset {r : Attempt} (h : InCapacity r.sectorCount r.sector r.chain) :
    r.offset.toNat = r.sector.toNat * 512 :=
  offset_eq h (capacity_lt r.fileLen)

theorem lt_dataLen {r : Attempt} {p x : Nat} (h : (dataAddrs r.chain)[p]? = some x) :
    p < dataLen r.chain := by
  rw [← dataAddrs_length]
  exact (List.getElem?_eq_some_iff.mp h).1

theorem exists_dataAddr {r : Attempt} {p : Nat} (h : p < dataLen r.chain) :
    ∃ x, (dataAddrs r.chain)[p]? = some x := by
  rw [← dataAddrs_length] at h
  exact ⟨_, List.getElem?_eq_getElem h⟩

theorem ReadAccepted.delivered {r : Attempt} (h : r.ReadAccepted) {length : Nat}
    (hall : ∀ image : Image, image.length = length → r.Faithful image) :
    InCapacity r.sectorCount r.sector r.chain ∧
      ∀ p x, (dataAddrs r.chain)[p]? = some x →
        p < min r.dataDesc.len.toNat r.moved ∧ x = r.dataDesc.addr.toNat + p ∧
          r.sector.toNat * 512 + p < length ∧
          r.mem.Mapped r.dataDesc.addr.toNat r.dataDesc.len.toNat ∧ ¬ r.Overwritten x := by
  have hread : ∀ image : Image, image.length = length →
      InCapacity r.sectorCount r.sector r.chain ∧
        ∀ p x, (dataAddrs r.chain)[p]? = some x →
          ∃ v, (r.readResult image).byteAt x = some v ∧
            image[r.sector.toNat * 512 + p]? = some v := by
    intro image hlen
    obtain ⟨c, hc, htype, hsector⟩ := h.completes image
    have hfaith := (hall image hlen c _ hc).1 htype
    rwa [hsector] at hfaith
  have hcap := (hread (probe length 0 0) (by simp)).1
  refine ⟨hcap, fun p x hx => ?_⟩
  have hpos : r.sector.toNat * 512 + p < length := by
    obtain ⟨v, -, hv⟩ := (hread (probe length 0 0) (by simp)).2 p x hx
    have hlt := (List.getElem?_eq_some_iff.mp hv).1
    rwa [probe_length] at hlt
  have hoff := exact_offset hcap
  have hbyte : ∀ v, (r.readResult (probe length (r.sector.toNat * 512 + p) v)).byteAt x =
      some v := by
    intro v
    obtain ⟨v', hread', himg⟩ := (hread _ (probe_length length _ v)).2 p x hx
    rw [probe_getElem? v hpos] at himg
    rw [hread', himg]
  by_contra hnot
  have hsame : (r.readResult (probe length (r.sector.toNat * 512 + p) 1)).byteAt x =
      (r.readResult (probe length (r.sector.toNat * 512 + p) 0)).byteAt x := by
    apply byteAt_readResult_congr
    by_cases hover : r.Overwritten x
    · exact Or.inl hover
    right
    rw [GuestMemory.byteAt_store_eq, GuestMemory.byteAt_store_eq, readBuf_length, readBuf_length]
    by_cases hc : r.mem.Covers r.dataDesc.addr.toNat r.dataDesc.len.toNat x
    · -- the buffers differ at most in byte `p`, which is not this one
      have hother : ∀ v, (readBuf (probe length (r.sector.toNat * 512 + p) v)
          r.dataDesc.len.toNat r.offset.toNat r.moved).getD (x - r.dataDesc.addr.toNat) 0 = 0 := by
        intro v
        rw [readBuf_getD]
        split
        · rename_i hi
          refine probe_getD_of_ne v fun heq => hnot ?_
          obtain ⟨hm, hge, hlt⟩ := hc
          exact ⟨by omega, by omega, hpos, hm, hover⟩
        · rfl
      rw [if_pos hc, if_pos hc, hother, hother]
    · rw [if_neg hc, if_neg hc]
  rw [hbyte, hbyte] at hsame
  exact absurd hsame (by decide)

theorem ReadAccepted.exact {r : Attempt} (h : r.ReadAccepted) {length : Nat}
    (hall : ∀ image : Image, image.length = length → r.Faithful image) : r.Exact length := by
  obtain ⟨hcap, hbytes⟩ := h.delivered hall
  refine ⟨hcap, ?_, fun _ i hi => ?_⟩
  · by_contra hlt
    obtain ⟨x, hx⟩ := exists_dataAddr (r := r) (p := min r.dataDesc.len.toNat r.moved) (by omega)
    have := (hbytes _ x hx).1
    omega
  · obtain ⟨x, hx⟩ := exists_dataAddr hi
    obtain ⟨-, hxi, hpos, hm, hover⟩ := hbytes i x hx
    exact ⟨hpos, hm, hxi ▸ hover⟩

theorem WriteAccepted.exact {r : Attempt} (h : r.WriteAccepted) {length : Nat}
    (hall : ∀ image : Image, image.length = length → r.Faithful image) : r.Exact length := by
  have hwrite : ∀ image : Image, image.length = length →
      InCapacity r.sectorCount r.sector r.chain ∧
        ∀ p x, (dataAddrs r.chain)[p]? = some x →
          ∃ v, (r.writeResult image)[r.sector.toNat * 512 + p]? = some v ∧
            r.mem.byteAt x = some v := by
    intro image hlen
    obtain ⟨c, final, hc, htype, hsector, himg⟩ := h.completes image
    have hfaith := (hall image hlen c _ hc).2 htype
    rwa [hsector, himg] at hfaith
  have hcap := (hwrite (probe length 0 0) (by simp)).1
  have hin : r.reqType ≠ tIn := by
    rw [h.type]
    decide
  refine ⟨hcap, ?_, fun htype => absurd htype hin⟩
  by_contra hlt
  have hp : min r.dataDesc.len.toNat r.moved < dataLen r.chain := by omega
  obtain ⟨x, hx⟩ := exists_dataAddr hp
  have hput : ((r.mem.load r.dataDesc.addr.toNat r.dataDesc.len.toNat).take r.moved).length =
      min r.dataDesc.len.toNat r.moved := by
    rw [List.length_take, GuestMemory.load_length, Nat.min_comm]
  by_cases hpos : r.sector.toNat * 512 + min r.dataDesc.len.toNat r.moved < length
  · have hkeep : ∀ v, (r.writeResult (probe length
        (r.sector.toNat * 512 + min r.dataDesc.len.toNat r.moved) v))[r.sector.toNat * 512 +
          min r.dataDesc.len.toNat r.moved]? = some v := by
      intro v
      rw [writeResult, exact_offset hcap, splice_getElem?_of_not_mem, probe_getElem? v hpos]
      · rw [hput, probe_length]
        exact Nat.le_of_lt hpos
      · exact Or.inr (Nat.le_of_eq (by rw [hput]))
    have hbyte : ∀ v, r.mem.byteAt x = some v := by
      intro v
      obtain ⟨v', himg, hmem⟩ := (hwrite _ (probe_length length _ v)).2 _ x hx
      rw [hkeep v] at himg
      rw [hmem, himg]
    exact absurd ((hbyte 0).symm.trans (hbyte 1)) (by decide)
  · -- the file ends before that byte, and the write does not reach it
    obtain ⟨v, himg, -⟩ := (hwrite (probe length 0 0) (probe_length length 0 0)).2 _ x hx
    rw [writeResult, exact_offset hcap, splice_getElem?_of_le] at himg
    · cases himg
    · rw [hput]
    · rw [probe_length]
      exact Nat.not_lt.mp hpos

theorem Exact.faithful {r : Attempt} {image : Image} (h : r.Exact image.length) :
    r.Faithful image := by
  intro c final hc
  have hoff := exact_offset h.range
  have hwhole := h.whole
  constructor
  · intro htype
    obtain ⟨hacc, rfl, hsector⟩ := hc.read htype
    rw [hsector]
    refine ⟨h.range, fun p x hx => ?_⟩
    have hp := lt_dataLen hx
    obtain rfl : r.dataDesc.addr.toNat + p = x :=
      Option.some.inj ((dataAddrs_getElem? hp (by omega)).symm.trans hx)
    obtain ⟨hpos, hm, hfree⟩ := h.copied hacc.type p hp
    refine ⟨image[r.sector.toNat * 512 + p], ?_, List.getElem?_eq_getElem hpos⟩
    rw [byteAt_readResult image hm (by omega) hfree, readBuf_getD, if_pos (by omega), hoff,
      List.getD_eq_getElem _ _ hpos]
  · intro htype
    obtain ⟨hacc, himg, hsector⟩ := hc.write htype
    rw [hsector]
    refine ⟨h.range, fun p x hx => ?_⟩
    have hp := lt_dataLen hx
    obtain rfl : r.dataDesc.addr.toNat + p = x :=
      Option.some.inj ((dataAddrs_getElem? hp (by omega)).symm.trans hx)
    have hput : p < ((r.mem.load r.dataDesc.addr.toNat r.dataDesc.len.toNat).take
        r.moved).length := by
      rw [List.length_take, GuestMemory.load_length]
      omega
    refine ⟨((r.mem.load r.dataDesc.addr.toNat r.dataDesc.len.toNat).take r.moved)[p], ?_, ?_⟩
    · rw [himg, writeResult, hoff, splice_getElem?_of_mem hput, List.getElem?_eq_getElem hput]
    · rw [← List.getElem?_eq_getElem hput, List.getElem?_take_of_lt (by omega),
        GuestMemory.load_getElem? hacc.buffer (by omega)]

/-- No step cuts the file. -/
theorem machine_image_length (s : BlkSystem) (a : BlkAction) :
    s.image.length ≤ (machine.step s a).1.image.length := by
  rcases machine_image s a with
    himg | ⟨io, head, hdrDesc, dataDesc, rest, c, -, -, hserve, himg, -⟩
  · rw [himg]
  · obtain ⟨mid, hserved⟩ := serve_served hserve
    rw [himg]
    rcases hserved.image_eq with hsame | ⟨-, hsplice⟩
    · rw [hsame]
    · rw [hsplice, splice_eq_overwrite]
      exact le_overwrite_length _ _ _

/-- The file always holds what the device advertises. -/
theorem run_capacity_le (image : Image) (readOnly : Bool) (mem : GuestMemory)
    (as : List BlkAction) :
    capacity (machine.run (.new image readOnly mem) as).1.state.sectorCount ≤
      (machine.run (.new image readOnly mem) as).1.image.length := by
  have hnew : capacity (BlkSystem.new image readOnly mem).state.sectorCount ≤
      (BlkSystem.new image readOnly mem).image.length := by
    simp only [BlkSystem.new, BlkState.new]
    exact capacity_le image.length
  have hstep (s : BlkSystem) (a : BlkAction)
      (hs : capacity s.state.sectorCount ≤ s.image.length) :
      capacity (machine.step s a).1.state.sectorCount ≤ (machine.step s a).1.image.length := by
    rw [(machine_opened s a).1]
    exact hs.trans (machine_image_length s a)
  exact machine.run_inductive hstep hnew as

/-- In a state that a run reaches, a range inside the capacity is in the image. -/
theorem At.exact_iff {r : Attempt} {image : Image} {readOnly : Bool} {mem : GuestMemory}
    {as : List BlkAction} (hat : r.At (machine.run (.new image readOnly mem) as).1) :
    r.Exact (machine.run (.new image readOnly mem) as).1.image.length ↔
      InCapacity r.sectorCount r.sector r.chain ∧
        dataLen r.chain ≤ min r.dataDesc.len.toNat r.moved ∧
        (r.reqType = tIn → ∀ i, i < dataLen r.chain →
          r.mem.Mapped r.dataDesc.addr.toNat r.dataDesc.len.toNat ∧
            ¬ r.Overwritten (r.dataDesc.addr.toNat + i)) := by
  have hle := run_capacity_le image readOnly mem as
  rw [hat.sectorCount] at hle
  constructor
  · intro h
    exact ⟨h.range, h.whole, fun htype i hi => (h.copied htype i hi).2⟩
  · rintro ⟨hrange, hwhole, hcopied⟩
    refine ⟨hrange, hwhole, fun htype i hi => ⟨?_, hcopied htype i hi⟩⟩
    simp only [InCapacity] at hrange
    omega

/-- A read of four bytes of sector 0 into a buffer at `addr`. The header is the
zeros fresh memory holds. -/
def readAttempt (addr : UInt64) : Attempt where
  fileLen := 512
  readOnly := false
  io := some 4
  mem := .twoMib
  queue := { Virtqueue.new 128 with usedRing := 0x4000 }
  head := 0
  hdrDesc := ⟨0x3000, 16, 1, 1⟩
  dataDesc := ⟨addr, 4, 3, 2⟩
  rest := [⟨0x6000, 1, 2, 0⟩]

end Attempt

end Caiman.Vmm.Blk
