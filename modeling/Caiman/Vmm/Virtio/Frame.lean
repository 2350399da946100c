import Caiman.Vmm.Virtio.Net
import Caiman.Vmm.Virtio.Request

/-!
# Frame of guest memory

Which guest bytes the processing of one chain can change. The device may write
the first `len` bytes of the chain's device-writable descriptors and, in the
used ring, one element and the index. The block device also writes its status
byte wherever the last descriptor points, whatever its flags and length; each
access whose end wraps past `2 ^ 64` leaves the mapping altogether.
-/

namespace Caiman.Vmm

open Lib

/-- Inside the first `len` bytes of a device-writable descriptor of the chain. -/
def InWritable (chain : List Descriptor) (x : Nat) : Prop :=
  ∃ d ∈ chain, d.isWrite = true ∧ d.addr.toNat ≤ x ∧ x < d.addr.toNat + d.len.toNat

instance (chain : List Descriptor) (x : Nat) : Decidable (InWritable chain x) :=
  inferInstanceAs (Decidable (∃ d ∈ chain, _ ∧ _ ∧ _))

/-- Inside the next used element or the index field of the used ring. -/
def Virtqueue.InUsed (q : Virtqueue) (x : Nat) : Prop :=
  ((q.usedElemAddr q.usedSlot).toNat ≤ x ∧ x < (q.usedElemAddr q.usedSlot).toNat + 8) ∨
    ((q.usedRing + 2).toNat ≤ x ∧ x < (q.usedRing + 2).toNat + 2)

instance (q : Virtqueue) (x : Nat) : Decidable (q.InUsed x) :=
  inferInstanceAs (Decidable (_ ∧ _ ∨ _ ∧ _))

/-- What processing a chain of the queue may touch. -/
def MayTouch (q : Virtqueue) (chain : List Descriptor) (x : Nat) : Prop :=
  InWritable chain x ∨ q.InUsed x

instance (q : Virtqueue) (chain : List Descriptor) (x : Nat) : Decidable (MayTouch q chain x) :=
  inferInstanceAs (Decidable (_ ∨ _))

namespace Virtqueue

def UsedWild (q : Virtqueue) (mem : GuestMemory) : Prop :=
  q.usedRing ≠ 0 ∧ q.size ≠ 0 ∧ q.UsedWraps mem

instance (q : Virtqueue) (mem : GuestMemory) : Decidable (q.UsedWild mem) :=
  inferInstanceAs (Decidable (_ ∧ _ ∧ _))

theorem usedWild_congr {q : Virtqueue} {mem mem' : GuestMemory}
    (hend : mem'.ramEnd = mem.ramEnd) : q.UsedWild mem' ↔ q.UsedWild mem := by
  simp only [UsedWild, usedWraps_congr hend]

theorem addUsed_wild_iff (q : Virtqueue) (mem : GuestMemory) (head : UInt16) (len : UInt32) :
    q.addUsed mem head len = .error .wild ↔ q.UsedWild mem := by
  rw [addUsed_eq, UsedWild]
  by_cases hring : q.usedRing = 0
  · simp [hring]
  by_cases hsize : q.size = 0
  · simp [hring, hsize]
  by_cases hw : q.UsedWraps mem <;> simp [hring, hsize, hw]

/-- The two halves of an element are adjacent unless the element itself wraps. -/
theorem usedCovers_inUsed {q : Virtqueue} {mem : GuestMemory} {x : Nat} (hw : ¬ q.UsedWraps mem)
    (h : q.UsedCovers mem x) : q.InUsed x := by
  have hb := mem.ramEnd_bounds
  have h4 : (4 : UInt64).toNat = 4 := rfl
  have helem : (q.usedElemAddr q.usedSlot + 4).toNat =
      (q.usedElemAddr q.usedSlot).toNat + 4 := by
    have hlt := (q.usedElemAddr q.usedSlot).toNat_lt
    simp only [UsedWraps, not_or, GuestMemory.Wraps] at hw
    rw [UInt64.toNat_add, h4]
    omega
  rcases h with ⟨-, hl, hr⟩ | ⟨-, hl, hr⟩ | ⟨-, hl, hr⟩
  · exact Or.inl ⟨by omega, by omega⟩
  · exact Or.inl ⟨by omega, by omega⟩
  · exact Or.inr ⟨hl, hr⟩

theorem addUsed_changesOnly {q q' : Virtqueue} {mem mem' : GuestMemory} {head : UInt16}
    {len : UInt32} {added : Bool} (h : q.addUsed mem head len = .ok (added, q', mem')) :
    GuestMemory.ChangesOnly q.InUsed mem mem' := by
  rcases addUsed_cases h with ⟨-, -, -, rfl⟩ | ⟨-, -, hw, -, -, rfl⟩
  · exact GuestMemory.ChangesOnly.refl _ _
  · intro x hx
    by_contra hout
    exact hx (byteAt_publishUsed_of_not_covers fun hc => hout (usedCovers_inUsed hw hc))

end Virtqueue

namespace Blk

/-- One pass of the loop body after the chain has been fetched, with no other
actor between the two lock scopes. -/
def BlkSystem.process (s : BlkSystem) (io : Transfer) (head : UInt16)
    (chain : List Descriptor) : BlkSystem :=
  let served := (s.serveStep io head chain).1
  match served.pc with
  | .complete head usedLen => (served.completeStep head usedLen).1
  | _ => served

/-- The pass stays inside the mappings and changes only what it may touch. -/
def KeepsFrame (s : BlkSystem) (io : Transfer) (head : UInt16) (chain : List Descriptor) : Prop :=
  (s.process io head chain).pc ≠ .halted .wild ∧
    GuestMemory.ChangesOnly (MayTouch s.state.queue chain) s.mem (s.process io head chain).mem

theorem keepsFrame_short {s : BlkSystem} {io : Transfer} {head : UInt16}
    {chain : List Descriptor} (hc : chain.length < 2) :
    KeepsFrame s io head chain ↔ ¬ s.state.queue.UsedWild s.mem := by
  rw [← Virtqueue.addUsed_wild_iff s.state.queue s.mem head 0]
  cases hadd : s.state.queue.addUsed s.mem head 0 with
  | error why =>
      have hs : s.process io head chain = { s with pc := .halted why } := by
        simp only [BlkSystem.process, s.serveStep_short io head hc, hadd]
      simp only [KeepsFrame, hs, Except.error.injEq, ne_eq, BlkPc.halted.injEq]
      exact and_iff_left (GuestMemory.ChangesOnly.refl _ _)
  | ok triple =>
      obtain ⟨added, q, mem⟩ := triple
      have hs : s.process io head chain = { s.withQueue q with mem := mem, pc := .poll } := by
        simp only [BlkSystem.process, s.serveStep_short io head hc, hadd]
      refine iff_of_true ⟨by rw [hs]; simp, ?_⟩ (by simp)
      rw [hs]
      exact (Virtqueue.addUsed_changesOnly hadd).mono fun x hx => Or.inr hx

theorem completeStep_wild_iff (s : BlkSystem) (head : UInt16) (usedLen : UInt32) :
    (s.completeStep head usedLen).1.pc = .halted .wild ↔ s.state.queue.UsedWild s.mem := by
  rw [← Virtqueue.addUsed_wild_iff s.state.queue s.mem head usedLen]
  unfold BlkSystem.completeStep
  cases s.state.queue.addUsed s.mem head usedLen <;> simp

theorem completeStep_changesOnly (s : BlkSystem) (head : UInt16) (usedLen : UInt32) :
    GuestMemory.ChangesOnly s.state.queue.InUsed s.mem (s.completeStep head usedLen).1.mem := by
  rcases s.completeStep_cases head usedLen with ⟨why, h⟩ | ⟨added, q, mem, hadd, h⟩
  · rw [h]
    exact GuestMemory.ChangesOnly.refl _ _
  · rw [h]
    exact Virtqueue.addUsed_changesOnly hadd

/-! ## Requests of the block device -/

/-- Every access of a request whose header can be read, whatever that header
says: no range wraps, and the status byte, when it can be written, goes where
the device may write. -/
structure RequestSafe (readOnly : Bool) (q : Virtqueue) (mem : GuestMemory)
    (chain : List Descriptor) (dataDesc statusDesc : Descriptor) : Prop where
  buffer : dataDesc.isWrite = true ∨ readOnly = false →
    ¬ mem.Wraps dataDesc.addr.toNat dataDesc.len.toNat
  id : dataDesc.isWrite = true → 20 ≤ dataDesc.len → ¬ mem.Wraps dataDesc.addr.toNat 20
  status : ¬ mem.Wraps statusDesc.addr.toNat 1
  statusTouch : mem.Mapped statusDesc.addr.toNat 1 → MayTouch q chain statusDesc.addr.toNat
  used : ¬ q.UsedWild mem

def FrameSafe (readOnly : Bool) (q : Virtqueue) (mem : GuestMemory) : List Descriptor → Prop
  | hdrDesc :: dataDesc :: rest =>
      ¬ mem.Wraps hdrDesc.addr.toNat 16 ∧
        (mem.Mapped hdrDesc.addr.toNat 16 →
          RequestSafe readOnly q mem (hdrDesc :: dataDesc :: rest) dataDesc
            (BlkSystem.statusDesc dataDesc rest))
  | _ => ¬ q.UsedWild mem

theorem Served.changesOnly {readOnly : Bool} {io : Transfer} {mem mid : GuestMemory}
    {image : Image} {q : Virtqueue} {hdrDesc dataDesc : Descriptor} {rest : List Descriptor}
    {c : Completion}
    (h : Served readOnly io mem image hdrDesc dataDesc (BlkSystem.statusDesc dataDesc rest) c mid)
    (hstatus : mem.Mapped (BlkSystem.statusDesc dataDesc rest).addr.toNat 1 →
      MayTouch q (hdrDesc :: dataDesc :: rest) (BlkSystem.statusDesc dataDesc rest).addr.toNat) :
    GuestMemory.ChangesOnly (MayTouch q (hdrDesc :: dataDesc :: rest)) mem c.mem := by
  have hexec := execute_cases h.executed
  have hdata : ∀ x, dataDesc.isWrite = true → dataDesc.addr.toNat ≤ x →
      x < dataDesc.addr.toNat + dataDesc.len.toNat →
      MayTouch q (hdrDesc :: dataDesc :: rest) x :=
    fun x hw hl hr => Or.inl ⟨dataDesc, by simp, hw, hl, hr⟩
  have hmid : GuestMemory.ChangesOnly (MayTouch q (hdrDesc :: dataDesc :: rest)) mem mid := by
    generalize c.status = status at hexec
    generalize c.image = image' at hexec
    cases hexec with
    | read k type write =>
        refine GuestMemory.ChangesOnly.store _ _ _ fun x hx => ?_
        rw [readBuf_length] at hx
        exact hdata x write hx.2.1 hx.2.2
    | getId type write room =>
        refine GuestMemory.ChangesOnly.store _ _ _ fun x hx => hdata x write hx.2.1 ?_
        have h20 : 20 ≤ dataDesc.len.toNat := UInt32.le_iff_toNat_le.mp room
        have hlen : deviceId.length = 20 := rfl
        have := hx.2.2
        omega
    | write | nothing => exact GuestMemory.ChangesOnly.refl _ _
  rw [h.after]
  refine hmid.trans (GuestMemory.ChangesOnly.store _ _ _ fun x hx => ?_)
  rw [GuestMemory.covers_congr hexec.ramEnd] at hx
  obtain ⟨hm, hl, hr⟩ := hx
  rw [List.length_singleton] at hm hr
  obtain rfl : (BlkSystem.statusDesc dataDesc rest).addr.toNat = x := by omega
  exact hstatus hm

section Request

variable {s : BlkSystem} {io : Transfer} {head : UInt16} {hdrDesc dataDesc : Descriptor}
  {rest : List Descriptor}

theorem process_error {why : Halt}
    (h : serve s.readOnly io s.mem s.image hdrDesc dataDesc (BlkSystem.statusDesc dataDesc rest) =
      .error why) :
    s.process io head (hdrDesc :: dataDesc :: rest) = { s with pc := .halted why } := by
  simp only [BlkSystem.process, BlkSystem.serveStep, h]

theorem process_dropped
    (h : serve s.readOnly io s.mem s.image hdrDesc dataDesc (BlkSystem.statusDesc dataDesc rest) =
      .ok none) :
    s.process io head (hdrDesc :: dataDesc :: rest) = { s with pc := .poll } := by
  simp only [BlkSystem.process, BlkSystem.serveStep, h]

theorem process_served {c : Completion}
    (h : serve s.readOnly io s.mem s.image hdrDesc dataDesc (BlkSystem.statusDesc dataDesc rest) =
      .ok (some c)) :
    s.process io head (hdrDesc :: dataDesc :: rest) =
      (BlkSystem.completeStep
        { s with mem := c.mem, image := c.image, pc := .complete head c.usedLen }
        head c.usedLen).1 := by
  simp only [BlkSystem.process, BlkSystem.serveStep, h]

theorem serve_not_wild {why : Halt} (hhdr : ¬ s.mem.Wraps hdrDesc.addr.toNat 16)
    (hsafe : s.mem.Mapped hdrDesc.addr.toNat 16 → RequestSafe s.readOnly s.state.queue s.mem
      (hdrDesc :: dataDesc :: rest) dataDesc (BlkSystem.statusDesc dataDesc rest)) :
    serve s.readOnly io s.mem s.image hdrDesc dataDesc (BlkSystem.statusDesc dataDesc rest) ≠
      .error why := by
  intro h
  rw [serve_eq] at h
  split at h
  · rename_i hm
    have hreq := hsafe hm
    split at h
    · rename_i why' hexec
      rcases execute_error hexec with ⟨hrw, hw⟩ | ⟨hwrite, hroom, hw⟩
      · exact hreq.buffer hrw hw
      · exact hreq.id hwrite hroom hw
    · rename_i status mid image' hexec
      split at h
      · rename_i hw
        simp only [GuestMemory.Wraps, (execute_cases hexec).ramEnd] at hw
        exact hreq.status hw
      · cases h
  · cases h

theorem FrameSafe.keeps_long
    (h : FrameSafe s.readOnly s.state.queue s.mem (hdrDesc :: dataDesc :: rest)) :
    KeepsFrame s io head (hdrDesc :: dataDesc :: rest) := by
  obtain ⟨hhdr, hsafe⟩ := h
  cases hserve : serve s.readOnly io s.mem s.image hdrDesc dataDesc
      (BlkSystem.statusDesc dataDesc rest) with
  | error why => exact absurd hserve (serve_not_wild hhdr hsafe)
  | ok result =>
      cases result with
      | none =>
          rw [KeepsFrame, process_dropped hserve]
          exact ⟨by simp, GuestMemory.ChangesOnly.refl _ _⟩
      | some c =>
          obtain ⟨mid, hserved⟩ := serve_served hserve
          have hreq := hsafe hserved.header
          rw [KeepsFrame, process_served hserve]
          constructor
          · rw [ne_eq, completeStep_wild_iff]
            exact fun hw => hreq.used ((Virtqueue.usedWild_congr hserved.ramEnd).mp hw)
          · have hlast := completeStep_changesOnly
              { s with mem := c.mem, image := c.image, pc := .complete head c.usedLen }
              head c.usedLen
            exact (hserved.changesOnly hreq.statusTouch).trans (hlast.mono fun x hx => Or.inr hx)

end Request

theorem FrameSafe.keeps {s : BlkSystem} {chain : List Descriptor}
    (h : FrameSafe s.readOnly s.state.queue s.mem chain) (io : Transfer) (head : UInt16) :
    KeepsFrame s io head chain := by
  match chain, h with
  | hdrDesc :: dataDesc :: rest, h => exact h.keeps_long
  | [], h => exact (keepsFrame_short (by simp)).mpr h
  | [_], h => exact (keepsFrame_short (by simp)).mpr h

theorem frameSafe_congr {readOnly : Bool} {q : Virtqueue} {mem mem' : GuestMemory}
    (hend : mem'.ramEnd = mem.ramEnd) {chain : List Descriptor}
    (h : FrameSafe readOnly q mem chain) : FrameSafe readOnly q mem' chain := by
  have hwraps : ∀ a n, mem'.Wraps a n ↔ mem.Wraps a n := by
    intro a n
    simp only [GuestMemory.Wraps, hend]
  have hmapped : ∀ a n, mem'.Mapped a n ↔ mem.Mapped a n := by
    intro a n
    rw [GuestMemory.mapped_iff, GuestMemory.mapped_iff, hend]
  cases chain with
  | nil => exact fun hw => h ((Virtqueue.usedWild_congr hend).mp hw)
  | cons hdrDesc tail =>
      cases tail with
      | nil => exact fun hw => h ((Virtqueue.usedWild_congr hend).mp hw)
      | cons dataDesc rest =>
          refine ⟨fun hw => h.1 ((hwraps _ _).mp hw), fun hm => ?_⟩
          have hreq := h.2 ((hmapped _ _).mp hm)
          exact ⟨fun hrw hw => hreq.buffer hrw ((hwraps _ _).mp hw),
            fun hwrite hroom hw => hreq.id hwrite hroom ((hwraps _ _).mp hw),
            fun hw => hreq.status ((hwraps _ _).mp hw),
            fun hm => hreq.statusTouch ((hmapped _ _).mp hm),
            fun hw => hreq.used ((Virtqueue.usedWild_congr hend).mp hw)⟩

/-! ### Memory contents that reach each access -/

/-- Zeros, and at the header a request of the given type for sector 0. -/
def withHeader (mem : GuestMemory) (hdrDesc : Descriptor) (reqType : UInt32) : GuestMemory :=
  (mem.fill 0).store hdrDesc.addr.toNat (leBytes 4 reqType.toNat ++ List.replicate 12 0)

@[simp] theorem ramEnd_withHeader (mem : GuestMemory) (hdrDesc : Descriptor) (reqType : UInt32) :
    (withHeader mem hdrDesc reqType).ramEnd = mem.ramEnd := by
  simp [withHeader]

theorem withHeader_decodes {mem : GuestMemory} {hdrDesc : Descriptor} (reqType : UInt32)
    (h : mem.Mapped hdrDesc.addr.toNat 16) :
    reqTypeAt (withHeader mem hdrDesc reqType) hdrDesc = reqType ∧
      sectorAt (withHeader mem hdrDesc reqType) hdrDesc = 0 := by
  have hlen : (leBytes 4 reqType.toNat ++ List.replicate 12 (0 : UInt8)).length = 16 := by simp
  have hload : (withHeader mem hdrDesc reqType).load hdrDesc.addr.toNat 16 =
      leBytes 4 reqType.toNat ++ List.replicate 12 0 :=
    GuestMemory.load_store hlen h
  constructor
  · rw [reqTypeAt, hload, List.take_append_of_le_length (by simp), List.take_of_length_le (by simp)]
    exact ofNat_leNat_leBytes_32 reqType
  · rw [sectorAt, hload, List.drop_append]
    simp only [leBytes_length, List.drop_replicate, List.drop_of_length_le (show
      (leBytes 4 reqType.toNat).length ≤ 8 by simp)]
    decide

/-- Over all contents of one layout and all transfers, the request keeps its
frame. -/
def AlwaysKeepsFrame (s : BlkSystem) (chain : List Descriptor) : Prop :=
  ∀ (mem : GuestMemory) (image : Image) (io : Transfer) (head : UInt16),
    mem.ramEnd = s.mem.ramEnd → KeepsFrame { s with mem := mem, image := image } io head chain

section Necessity

variable {s : BlkSystem} {hdrDesc dataDesc : Descriptor} {rest : List Descriptor}

theorem AlwaysKeepsFrame.serve_ne_wild
    (h : AlwaysKeepsFrame s (hdrDesc :: dataDesc :: rest)) {mem : GuestMemory}
    (hend : mem.ramEnd = s.mem.ramEnd) (io : Transfer) :
    serve s.readOnly io mem s.image hdrDesc dataDesc (BlkSystem.statusDesc dataDesc rest) ≠
      .error .wild := by
  intro hserve
  have hkeep := (h mem s.image io 0 hend).1
  rw [process_error (s := { s with mem := mem, image := s.image }) hserve] at hkeep
  exact hkeep rfl

theorem AlwaysKeepsFrame.execute_ne_wild
    (h : AlwaysKeepsFrame s (hdrDesc :: dataDesc :: rest))
    (hm : s.mem.Mapped hdrDesc.addr.toNat 16) (reqType : UInt32) :
    execute s.readOnly (some 0) (withHeader s.mem hdrDesc reqType) s.image reqType 0 dataDesc ≠
      .error .wild := by
  intro hexec
  obtain ⟨htype, hsector⟩ := withHeader_decodes reqType hm
  have hm' : (withHeader s.mem hdrDesc reqType).Mapped hdrDesc.addr.toNat 16 := by
    rw [GuestMemory.mapped_iff, ramEnd_withHeader, ← GuestMemory.mapped_iff]
    exact hm
  refine h.serve_ne_wild (ramEnd_withHeader s.mem hdrDesc reqType) (some 0) ?_
  rw [serve_eq, if_pos hm', htype, hsector, UInt64.zero_mul, hexec]

/-- On memory full of ones the type is unknown: nothing is moved and the status
byte is 2. -/
theorem execute_ones (readOnly : Bool) (io : Transfer) (mem : GuestMemory) (image : Image)
    (hdrDesc dataDesc : Descriptor) (offset : UInt64) :
    execute readOnly io (mem.fill 0xFF) image (reqTypeAt (mem.fill 0xFF) hdrDesc) offset dataDesc =
      .ok (sUnsupp, mem.fill 0xFF, image) := by
  have htype : reqTypeAt (mem.fill 0xFF) hdrDesc = 0xFFFFFFFF := by
    rw [reqTypeAt, GuestMemory.load_fill]
    decide
  rw [htype, execute_eq]
  rfl

theorem AlwaysKeepsFrame.serve_ones (h : AlwaysKeepsFrame s (hdrDesc :: dataDesc :: rest))
    (hm : s.mem.Mapped hdrDesc.addr.toNat 16) :
    ¬ s.mem.Wraps (BlkSystem.statusDesc dataDesc rest).addr.toNat 1 ∧
      ∃ c, serve s.readOnly none (s.mem.fill 0xFF) s.image hdrDesc dataDesc
          (BlkSystem.statusDesc dataDesc rest) = .ok (some c) ∧
        c.mem = (s.mem.fill 0xFF).store (BlkSystem.statusDesc dataDesc rest).addr.toNat
          [sUnsupp] := by
  have hne := h.serve_ne_wild (s.mem.ramEnd_fill 0xFF) none
  have hm' : (s.mem.fill 0xFF).Mapped hdrDesc.addr.toNat 16 := hm
  rw [serve_eq, if_pos hm', execute_ones] at hne ⊢
  by_cases hw : (s.mem.fill 0xFF).Wraps (BlkSystem.statusDesc dataDesc rest).addr.toNat 1
  · simp only [if_pos hw, ne_eq, not_true_eq_false] at hne
  · exact ⟨hw, _, if_neg hw, rfl⟩

theorem AlwaysKeepsFrame.requestSafe (h : AlwaysKeepsFrame s (hdrDesc :: dataDesc :: rest))
    (hm : s.mem.Mapped hdrDesc.addr.toNat 16) :
    RequestSafe s.readOnly s.state.queue s.mem (hdrDesc :: dataDesc :: rest) dataDesc
      (BlkSystem.statusDesc dataDesc rest) := by
  have hwraps : ∀ t a n, (withHeader s.mem hdrDesc t).Wraps a n ↔ s.mem.Wraps a n := by
    intro t a n
    simp only [GuestMemory.Wraps, ramEnd_withHeader]
  obtain ⟨hstatus, c, hserve, hafter⟩ := h.serve_ones hm
  have hkeep := h (s.mem.fill 0xFF) s.image none 0 (s.mem.ramEnd_fill 0xFF)
  rw [KeepsFrame, process_served (s := { s with mem := s.mem.fill 0xFF, image := s.image })
    hserve] at hkeep
  have hend : c.mem.ramEnd = s.mem.ramEnd := by
    rw [hafter]
    simp
  constructor
  · intro hrw hw
    rcases hrw with hwrite | hro
    · refine h.execute_ne_wild hm tIn ?_
      obtain ⟨n, hread⟩ := readAt_eq s.image dataDesc.len.toNat 0
        (show (0 : UInt64).toNat ≤ isizeMax by decide)
      rw [execute_eq, if_pos rfl, if_pos hwrite, hread]
      simp only [if_pos ((hwraps tIn _ _).mpr hw)]
    · refine h.execute_ne_wild hm tOut ?_
      have hout : tOut ≠ tIn := by decide
      have hnm : ¬ (withHeader s.mem hdrDesc tOut).Mapped dataDesc.addr.toNat
          dataDesc.len.toNat :=
        fun hmap => hmap.not_wraps ((hwraps tOut _ _).mpr hw)
      rw [execute_eq, if_neg hout, if_pos rfl, hro, if_neg Bool.false_ne_true, if_neg hnm,
        if_pos ((hwraps tOut _ _).mpr hw)]
  · intro hwrite hroom hw
    refine h.execute_ne_wild hm tGetId ?_
    have hroom' : (dataDesc.isWrite && decide (20 ≤ dataDesc.len)) = true := by
      simp [hwrite, hroom]
    rw [execute_eq, if_neg (by decide), if_neg (by decide), if_neg (by decide), if_pos rfl,
      if_pos hroom', if_pos ((hwraps tGetId _ _).mpr hw)]
  · exact hstatus
  · intro hst
    by_contra hnot
    -- the byte was 255 and is 2 when the request is done
    have hbefore : (s.mem.fill 0xFF).byteAt (BlkSystem.statusDesc dataDesc rest).addr.toNat =
        some 0xFF := GuestMemory.byteAt_fill hst
    have hmid : c.mem.byteAt (BlkSystem.statusDesc dataDesc rest).addr.toNat = some sUnsupp := by
      rw [hafter, GuestMemory.byteAt_store_eq, if_pos ⟨hst, Nat.le_refl _, Nat.lt_succ_self _⟩]
      simp
    have hlast := completeStep_changesOnly
      { s with mem := c.mem, image := c.image, pc := .complete 0 c.usedLen } 0 c.usedLen
    have hfinal := not_imp_comm.mp (hlast _) fun hu => hnot (Or.inr hu)
    refine hnot (hkeep.2 _ ?_)
    rw [hfinal]
    exact fun heq => absurd (hmid.symm.trans (heq.trans hbefore)) (by decide)
  · intro hw
    refine hkeep.1 ((completeStep_wild_iff _ _ _).mpr ?_)
    exact (Virtqueue.usedWild_congr hend).mpr hw

end Necessity

/-- Over all memory contents of one layout, all images and all transfers, the
block device keeps the frame of a chain exactly when the chain is safe. -/
theorem alwaysKeepsFrame_iff (s : BlkSystem) (chain : List Descriptor) :
    AlwaysKeepsFrame s chain ↔ FrameSafe s.readOnly s.state.queue s.mem chain := by
  constructor
  · intro h
    match chain, h with
    | hdrDesc :: dataDesc :: rest, h =>
        refine ⟨fun hw => h.serve_ne_wild rfl none ?_, h.requestSafe⟩
        rw [serve_eq, if_neg fun hm => hm.not_wraps hw, if_pos hw]
    | [], h => exact (keepsFrame_short (by simp)).mp (h s.mem s.image none 0 rfl)
    | [_], h => exact (keepsFrame_short (by simp)).mp (h s.mem s.image none 0 rfl)
  · intro h mem image io head hend
    exact FrameSafe.keeps (s := { s with mem := mem, image := image }) (frameSafe_congr hend h) io
      head

end Blk

/-! ## Chains of the network device -/

namespace Net

/-- The step that processes the chain stays inside the mappings and changes only
what it may touch. -/
def KeepsFrame (q : Virtqueue) (chain : List Descriptor) (s s' : NetSystem) : Prop :=
  s'.pc ≠ .halted .wild ∧ GuestMemory.ChangesOnly (MayTouch q chain) s.mem s'.mem

/-- No descriptor the TX drain reads wraps; `filled` is the buffer's length so
far. -/
def GatherSafe (mem : GuestMemory) : List Descriptor → Nat → Prop
  | [], _ => True
  | desc :: chain, filled =>
      if !desc.isWrite && filled + desc.len.toNat ≤ txBufLen then
        ¬ mem.Wraps desc.addr.toNat desc.len.toNat ∧
          GatherSafe mem chain
            (if mem.Mapped desc.addr.toNat desc.len.toNat then filled + desc.len.toNat else filled)
      else GatherSafe mem chain filled

theorem gather_cons (mem : GuestMemory) (desc : Descriptor) (chain : List Descriptor)
    (buf : List UInt8) :
    gather mem (desc :: chain) buf =
      if !desc.isWrite && buf.length + desc.len.toNat ≤ txBufLen then
        if mem.Mapped desc.addr.toNat desc.len.toNat then
          gather mem chain (buf ++ mem.load desc.addr.toNat desc.len.toNat)
        else if mem.Wraps desc.addr.toNat desc.len.toNat then .error .wild
        else gather mem chain buf
      else gather mem chain buf := by
  have hlen : desc.len.toUInt64.toNat = desc.len.toNat := by simp
  simp only [gather, bind, Except.bind]
  by_cases hread : (!desc.isWrite && decide (buf.length + desc.len.toNat ≤ txBufLen)) = true
  · rw [if_pos hread, if_pos hread, GuestMemory.readSlice_eq _ _ _
      (by rw [hlen]; exact Blk.len_le_isizeMax _), hlen]
    by_cases hm : mem.Mapped desc.addr.toNat desc.len.toNat
    · simp only [if_pos hm]
    · by_cases hw : mem.Wraps desc.addr.toNat desc.len.toNat
      · simp only [if_neg hm, if_pos hw]
      · simp only [if_neg hm, if_neg hw]
  · rw [if_neg hread, if_neg hread]

theorem gather_error_iff (mem : GuestMemory) (chain : List Descriptor) (buf : List UInt8)
    (why : Halt) :
    gather mem chain buf = .error why ↔ why = .wild ∧ ¬ GatherSafe mem chain buf.length := by
  induction chain generalizing buf with
  | nil => simp [gather, GatherSafe]
  | cons desc chain ih =>
      rw [gather_cons, GatherSafe]
      by_cases hread : (!desc.isWrite && decide (buf.length + desc.len.toNat ≤ txBufLen)) = true
      · rw [if_pos hread, if_pos hread]
        by_cases hm : mem.Mapped desc.addr.toNat desc.len.toNat
        · simp only [if_pos hm, hm.not_wraps, not_false_eq_true, true_and]
          rw [ih, List.length_append, GuestMemory.load_length]
        · by_cases hw : mem.Wraps desc.addr.toNat desc.len.toNat
          · simp [hm, hw, eq_comm]
          · simp only [if_neg hm, hw, not_false_eq_true, true_and, if_false]
            exact ih buf
      · rw [if_neg hread, if_neg hread]
        exact ih buf

def frameLen (frame : List UInt8) (desc : Descriptor) : Nat :=
  min frame.length (desc.len.toNat - headerLen)

/-- The two copies into the first device-writable descriptor do not wrap. -/
def ScatterSafe (mem : GuestMemory) (frame : List UInt8) (chain : List Descriptor) : Prop :=
  match chain.find? (·.isWrite) with
  | some desc =>
      12 ≤ desc.len →
        ¬ mem.Wraps desc.addr.toNat 12 ∧
          ¬ mem.Wraps (desc.addr + 12).toNat (frameLen frame desc)
  | none => True

theorem toNat_frameAddr {mem : GuestMemory} {addr : UInt64} (h : ¬ mem.Wraps addr.toNat 12) :
    (addr + 12).toNat = addr.toNat + headerLen := by
  have h12 : (12 : UInt64).toNat = 12 := rfl
  have hlt := addr.toNat_lt
  have hb := mem.ramEnd_bounds
  simp only [GuestMemory.Wraps] at h
  rw [UInt64.toNat_add, h12, headerLen]
  omega

theorem scatter_eq (mem : GuestMemory) (frame : List UInt8) (chain : List Descriptor) :
    scatter mem frame chain =
      match chain.find? (·.isWrite) with
      | some desc =>
          if 12 ≤ desc.len then
            if mem.Wraps desc.addr.toNat 12 then .error .wild
            else if mem.Wraps (desc.addr + 12).toNat (frameLen frame desc) then .error .wild
            else .ok (UInt32.ofNat (headerLen + frameLen frame desc),
              (mem.store desc.addr.toNat (List.replicate headerLen 0)).store
                (desc.addr + 12).toNat (frame.take (frameLen frame desc)))
          else .ok (0, mem)
      | none => .ok (0, mem) := by
  induction chain with
  | nil => rfl
  | cons desc chain ih =>
      by_cases hwrite : desc.isWrite = true
      · have hlen : (frame.take (frameLen frame desc)).length = frameLen frame desc := by
          rw [List.length_take, frameLen]
          omega
        have hfit : (frame.take (frameLen frame desc)).length ≤ isizeMax := by
          have := Blk.len_le_isizeMax desc.len
          rw [hlen, frameLen]
          omega
        simp only [scatter, List.find?_cons, hwrite, if_true, bind, Except.bind, pure, Except.pure]
        by_cases hroom : 12 ≤ desc.len
        · rw [if_pos hroom, if_pos hroom,
            GuestMemory.writeSliceIgnored_eq _ (List.replicate headerLen 0) _ (by decide)]
          by_cases hhdr : mem.Wraps desc.addr.toNat 12
          · rw [if_pos hhdr, if_pos (show mem.Wraps desc.addr.toNat
              (List.replicate headerLen (0 : UInt8)).length from hhdr)]
          · rw [if_neg hhdr, if_neg (show ¬ mem.Wraps desc.addr.toNat
              (List.replicate headerLen (0 : UInt8)).length from hhdr)]
            have hcut : min frame.length (desc.len.toNat - headerLen) = frameLen frame desc := rfl
            simp only [hcut]
            rw [GuestMemory.writeSliceIgnored_eq _ _ _ hfit, hlen]
            by_cases hframe : mem.Wraps (desc.addr + 12).toNat (frameLen frame desc)
            · simp only [GuestMemory.wraps_store, if_pos hframe]
            · simp only [GuestMemory.wraps_store, if_neg hframe]
        · rw [if_neg hroom, if_neg hroom]
      · have hfind : (desc :: chain).find? (·.isWrite) = chain.find? (·.isWrite) := by
          simp [hwrite]
        simp only [hfind]
        rw [← ih]
        simp [scatter, hwrite]

theorem scatter_error_iff (mem : GuestMemory) (frame : List UInt8) (chain : List Descriptor)
    (why : Halt) :
    scatter mem frame chain = .error why ↔ why = .wild ∧ ¬ ScatterSafe mem frame chain := by
  rw [scatter_eq, ScatterSafe]
  cases chain.find? (·.isWrite) with
  | none => simp
  | some desc =>
      dsimp only
      by_cases hroom : 12 ≤ desc.len
      · rw [if_pos hroom]
        by_cases hhdr : mem.Wraps desc.addr.toNat 12
        · rw [if_pos hhdr, Except.error.injEq, eq_comm]
          exact (and_iff_left fun h => (h hroom).1 hhdr).symm
        · rw [if_neg hhdr]
          by_cases hframe : mem.Wraps (desc.addr + 12).toNat (frameLen frame desc)
          · rw [if_pos hframe, Except.error.injEq, eq_comm]
            exact (and_iff_left fun h => (h hroom).2 hframe).symm
          · rw [if_neg hframe]
            exact iff_of_false (by simp) fun h => h.2 fun _ => ⟨hhdr, hframe⟩
      · rw [if_neg hroom]
        exact iff_of_false (by simp) fun h => h.2 fun h' => absurd h' hroom

theorem scatterSafe_of_ok {mem : GuestMemory} {frame : List UInt8} {chain : List Descriptor}
    {result : UInt32 × GuestMemory} (h : scatter mem frame chain = .ok result) :
    ScatterSafe mem frame chain := by
  by_contra hnot
  rw [(scatter_error_iff mem frame chain .wild).mpr ⟨rfl, hnot⟩] at h
  cases h

theorem scatter_frame {mem mem' : GuestMemory} {frame : List UInt8} {chain : List Descriptor}
    {written : UInt32} (h : scatter mem frame chain = .ok (written, mem')) :
    mem'.ramEnd = mem.ramEnd ∧ GuestMemory.ChangesOnly (InWritable chain) mem mem' := by
  rw [scatter_eq] at h
  cases hfind : chain.find? (·.isWrite) with
  | none =>
      simp only [hfind] at h
      cases h
      exact ⟨rfl, GuestMemory.ChangesOnly.refl _ _⟩
  | some desc =>
      have hmem := List.mem_of_find?_eq_some hfind
      have hwrite : desc.isWrite = true := List.find?_some hfind
      simp only [hfind] at h
      split at h
      · rename_i hroom
        split at h
        · cases h
        · rename_i hhdr
          split at h
          · cases h
          · cases h
            refine ⟨by simp, ?_⟩
            have hroom' : 12 ≤ desc.len.toNat := UInt32.le_iff_toNat_le.mp hroom
            have haddr := toNat_frameAddr hhdr
            refine (GuestMemory.ChangesOnly.store _ _ _ fun x hx => ?_).trans
              (GuestMemory.ChangesOnly.store _ _ _ fun x hx => ?_)
            · obtain ⟨-, hl, hr⟩ := hx
              simp only [List.length_replicate, headerLen] at hr
              exact ⟨desc, hmem, hwrite, hl, by omega⟩
            · obtain ⟨-, hl, hr⟩ := hx
              simp only [List.length_take, frameLen, headerLen, haddr] at hl hr
              exact ⟨desc, hmem, hwrite, by omega, by omega⟩
      · cases h
        exact ⟨rfl, GuestMemory.ChangesOnly.refl _ _⟩

/-- TX: the drain only reads the chain, so its frame is the used ring's. -/
theorem tx_keepsFrame_iff {s : NetSystem} {head : UInt16} {q : Virtqueue}
    {chain : List Descriptor} (hnext : (s.state.queues 1).nextAvail s.mem = .ok (some head, q))
    (hchain : q.readChain s.mem head = .ok chain) :
    KeepsFrame q chain s s.txStep.1 ↔ GatherSafe s.mem chain 0 ∧ ¬ q.UsedWild s.mem := by
  have hgather := gather_error_iff s.mem chain []
  cases hg : gather s.mem chain [] with
  | error why =>
      obtain ⟨rfl, hnot⟩ := (hgather why).mp hg
      have hs : s.txStep = ({ s.withQueue 1 q with pc := .halted .wild }, [.take 1 head]) := by
        simp only [NetSystem.txStep, hnext, hchain, hg]
      rw [KeepsFrame, hs]
      exact iff_of_false (fun h => h.1 rfl) (fun h => hnot h.1)
  | ok buf =>
      have hsafe : GatherSafe s.mem chain 0 := by
        by_contra hnot
        rw [(hgather .wild).mpr ⟨rfl, hnot⟩] at hg
        cases hg
      rw [and_iff_right hsafe, ← Virtqueue.addUsed_wild_iff q s.mem head (UInt32.ofNat buf.length)]
      cases hadd : q.addUsed s.mem head (UInt32.ofNat buf.length) with
      | error why =>
          have hs : s.txStep.1 = { s.withQueue 1 q with pc := .halted why } := by
            simp only [NetSystem.txStep, hnext, hchain, hg, hadd]
          simp only [KeepsFrame, hs, Except.error.injEq, ne_eq, NetPc.halted.injEq]
          exact and_iff_left (GuestMemory.ChangesOnly.refl _ _)
      | ok triple =>
          obtain ⟨added, q', mem⟩ := triple
          have hs : s.txStep.1 = { s.withQueue 1 q' with mem := mem, pc := .tx true } := by
            simp only [NetSystem.txStep, hnext, hchain, hg, hadd]
          rw [KeepsFrame, hs]
          refine iff_of_true ⟨by simp, ?_⟩ (by simp)
          exact (Virtqueue.addUsed_changesOnly hadd).mono fun x hx => Or.inr hx

/-- RX: one frame into the first device-writable descriptor, then the used ring
if anything was written. -/
theorem rx_keepsFrame_iff {s : NetSystem} {packet frame : List UInt8} {head : UInt16}
    {q : Virtqueue} {chain : List Descriptor} (hrecv : recv packet = some frame)
    (hnext : (s.state.queues 0).nextAvail s.mem = .ok (some head, q))
    (hchain : q.readChain s.mem head = .ok chain) :
    KeepsFrame q chain s (s.rxStep packet).1 ↔
      ScatterSafe s.mem frame chain ∧ (deliverable chain = true → ¬ q.UsedWild s.mem) := by
  have hscatter := scatter_error_iff s.mem frame chain
  cases hsc : scatter s.mem frame chain with
  | error why =>
      obtain ⟨rfl, hnot⟩ := (hscatter why).mp hsc
      have hs : (s.rxStep packet).1 = { s.withQueue 0 q with pc := .halted .wild } := by
        simp only [NetSystem.rxStep, hrecv, hnext, hchain, hsc]
      rw [KeepsFrame, hs]
      exact iff_of_false (fun h => h.1 rfl) (fun h => hnot h.1)
  | ok result =>
      obtain ⟨written, mem⟩ := result
      have hsafe : ScatterSafe s.mem frame chain := scatterSafe_of_ok hsc
      obtain ⟨hend, hframe⟩ := scatter_frame hsc
      have hfirst : GuestMemory.ChangesOnly (MayTouch q chain) s.mem mem :=
        hframe.mono fun x hx => Or.inl hx
      rw [and_iff_right hsafe, ← scatter_written hsc]
      by_cases hw : 0 < written
      · rw [← Virtqueue.usedWild_congr hend, ← Virtqueue.addUsed_wild_iff q mem head written]
        cases hadd : q.addUsed mem head written with
        | error why =>
            have hs : (s.rxStep packet).1 =
                { s.withQueue 0 q with mem := mem, pc := .halted why } := by
              simp only [NetSystem.rxStep, hrecv, hnext, hchain, hsc, if_pos hw, hadd]
            simp only [KeepsFrame, hs, Except.error.injEq, ne_eq, NetPc.halted.injEq, hw,
              forall_const]
            exact and_iff_left hfirst
        | ok triple =>
            obtain ⟨added, q', mem'⟩ := triple
            have hs : (s.rxStep packet).1.mem = mem' ∧ (s.rxStep packet).1.pc = .inject := by
              simp only [NetSystem.rxStep, hrecv, hnext, hchain, hsc, if_pos hw, hadd, and_self]
            rw [KeepsFrame, hs.1, hs.2]
            refine iff_of_true ⟨by simp, ?_⟩ (by simp)
            exact hfirst.trans ((Virtqueue.addUsed_changesOnly hadd).mono fun x hx => Or.inr hx)
      · have hs : (s.rxStep packet).1 = { s.withQueue 0 q with mem := mem, pc := .sleep } := by
          simp only [NetSystem.rxStep, hrecv, hnext, hchain, hsc, if_neg hw]
        rw [KeepsFrame, hs]
        exact iff_of_true ⟨by simp, hfirst⟩ fun h => absurd h hw

end Net

/-- The exact condition under which each of the three paths that process a chain
keeps the frame of guest memory. For the block device the chain is fixed and the
memory contents range over everything the layout allows; the network paths
depend on the contents only through the chain. -/
theorem guest_memory_frame (blk : Blk.BlkSystem) (net : Net.NetSystem)
    (chain : List Descriptor) :
    (Blk.AlwaysKeepsFrame blk chain ↔
      Blk.FrameSafe blk.readOnly blk.state.queue blk.mem chain) ∧
    (∀ (head : UInt16) (q : Virtqueue),
      (net.state.queues 1).nextAvail net.mem = .ok (some head, q) →
      q.readChain net.mem head = .ok chain →
        (Net.KeepsFrame q chain net net.txStep.1 ↔
          Net.GatherSafe net.mem chain 0 ∧ ¬ q.UsedWild net.mem)) ∧
    (∀ (packet frame : List UInt8) (head : UInt16) (q : Virtqueue),
      Net.recv packet = some frame →
      (net.state.queues 0).nextAvail net.mem = .ok (some head, q) →
      q.readChain net.mem head = .ok chain →
        (Net.KeepsFrame q chain net (net.rxStep packet).1 ↔
          Net.ScatterSafe net.mem frame chain ∧
            (Net.deliverable chain = true → ¬ q.UsedWild net.mem))) :=
  ⟨Blk.alwaysKeepsFrame_iff blk chain,
    fun _ _ hnext hchain => Net.tx_keepsFrame_iff hnext hchain,
    fun _ _ _ _ hrecv hnext hchain => Net.rx_keepsFrame_iff hrecv hnext hchain⟩

/-- A block device whose queue has its used ring at 16 KiB. -/
def Blk.idleSystem : Blk.BlkSystem :=
  Blk.BlkSystem.withQueue (.new [] false .twoMib) { Virtqueue.new 128 with usedRing := 0x4000 }

theorem guest_memory_frame_sample :
    Blk.AlwaysKeepsFrame Blk.idleSystem
        [⟨0x3000, 16, 1, 1⟩, ⟨0x5000, 512, 3, 2⟩, ⟨0x6000, 1, 2, 0⟩] ∧
      (∃ q, Net.KeepsFrame q [⟨0x3000, 20, 0, 0⟩]
        (Net.machine.run (.new (fun _ => 2) .twoMib) (Net.transmitRun.take 7)).1
        (Net.machine.run (.new (fun _ => 2) .twoMib) (Net.transmitRun.take 7)).1.txStep.1) ∧
      ∃ q, Net.KeepsFrame q [⟨0x3000, 64, 2, 0⟩]
        (Net.machine.run (.new (fun _ => 2) .twoMib) ((Net.receiveRun 64).take 7)).1
        ((Net.machine.run (.new (fun _ => 2) .twoMib) ((Net.receiveRun 64).take 7)).1.rxStep
          [1, 2, 3]).1 := by
  have hblk := (guest_memory_frame Blk.idleSystem (.new (fun _ => 2) .twoMib)
    [⟨0x3000, 16, 1, 1⟩, ⟨0x5000, 512, 3, 2⟩, ⟨0x6000, 1, 2, 0⟩]).1
  have htx := (guest_memory_frame Blk.idleSystem
    (Net.machine.run (.new (fun _ => 2) .twoMib) (Net.transmitRun.take 7)).1
    [⟨0x3000, 20, 0, 0⟩]).2.1 0 _ rfl (by decide)
  have hrx := (guest_memory_frame Blk.idleSystem
    (Net.machine.run (.new (fun _ => 2) .twoMib) ((Net.receiveRun 64).take 7)).1
    [⟨0x3000, 64, 2, 0⟩]).2.2 [1, 2, 3] _ 0 _ rfl rfl (by decide)
  refine ⟨hblk.mpr ⟨by decide, fun _ => ?_⟩, ⟨_, htx.mpr ⟨?_, by decide⟩⟩,
    ⟨_, hrx.mpr ⟨fun _ => ⟨by decide, by decide⟩, fun _ => by decide⟩⟩⟩
  · exact ⟨fun _ => by decide, fun _ _ => by decide, by decide, fun _ => by decide, by decide⟩
  · rw [Net.GatherSafe, if_pos (by decide)]
    exact ⟨by decide, trivial⟩

/-- A status descriptor without the write flag is written all the same: a read
into a buffer that is not device-writable leaves S_IOERR at 0x6000. -/
theorem read_only_status_written :
    ¬ Blk.KeepsFrame Blk.idleSystem none 0
      [⟨0x3000, 16, 1, 1⟩, ⟨0x5000, 512, 1, 2⟩, ⟨0x6000, 1, 0, 0⟩] := by
  intro h
  exact absurd (h.2 0x6000 (by decide)) (by decide)

end Caiman.Vmm
