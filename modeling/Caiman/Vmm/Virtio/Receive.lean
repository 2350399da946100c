import Caiman.Vmm.Virtio.Ready
import Caiman.Vmm.Virtio.Transmit

/-!
# Frames in

A driver offers the device-writable descriptors of a chain as one buffer, in any
split. The scatter loop fills the first of them and leaves, whatever its length.
-/

namespace Caiman.Vmm

open Lib

namespace GuestMemory

variable {g : GuestMemory} {a n : Nat} {data : List UInt8}

theorem mapped_of_byteAt (hn : 0 < n) (h : ∀ i < n, (g.byteAt (a + i)).isSome) :
    g.Mapped a n := by
  have hexist : ∀ i < n, g.Mapped (a + i) 1 := by
    intro i hi
    have hsome := h i hi
    rw [byteAt] at hsome
    split at hsome
    next hlow => exact .inl hlow
    next =>
        split at hsome
        next hhigh => exact .inr hhigh
        next => cases hsome
  have hfirst := (mapped_iff g _ _).mp (hexist 0 hn)
  have hlast := (mapped_iff g _ _).mp (hexist (n - 1) (by omega))
  rw [mapped_iff]
  by_cases hlow : a + n ≤ 655360
  · exact .inl hlow
  · by_cases hstart : 1048576 ≤ a
    · exact .inr ⟨hstart, by omega⟩
    · -- a range that starts in the low region and leaves it meets the hole
      have hhole := (mapped_iff g _ _).mp (hexist (655360 - a) (by omega))
      omega

theorem store_unchanged_iff (g : GuestMemory) (a : Nat) (data : List UInt8) :
    (∀ i < data.length, (g.store a data).byteAt (a + i) = g.byteAt (a + i)) ↔
      (g.Mapped a data.length → g.load a data.length = data) := by
  constructor
  · intro hsame hmapped
    apply List.ext_getElem?
    intro i
    by_cases hi : i < data.length
    · have hbyte := hsame i hi
      rw [byteAt_store hmapped, if_pos ⟨by omega, by omega⟩, Nat.add_sub_cancel_left] at hbyte
      rw [load_getElem? hmapped hi, ← hbyte]
      simp [hi]
    · rw [List.getElem?_eq_none (by simp; omega), List.getElem?_eq_none (by omega)]
  · intro hload i hi
    by_cases hmapped : g.Mapped a data.length
    · rw [byteAt_store hmapped, if_pos ⟨by omega, by omega⟩, Nat.add_sub_cancel_left,
        ← load_getElem? hmapped hi, hload hmapped]
      simp [hi]
    · rw [store_of_not_mapped hmapped]

end GuestMemory

namespace Net

def bufferAddrs (chain : List Descriptor) : List Nat :=
  (chain.filter (·.isWrite)).flatMap fun desc =>
    (List.range desc.len.toNat).map (desc.addr.toNat + ·)

/-- The concatenation of the device-writable descriptors starts with these bytes. -/
def Delivered (mem : GuestMemory) (chain : List Descriptor) (data : List UInt8) : Prop :=
  data.map some <+: (bufferAddrs chain).map mem.byteAt

def packetBytes (frame : List UInt8) : List UInt8 := List.replicate headerLen 0 ++ frame

/-- With a used element the frame is there whole, and without one the buffers are as
they were. -/
structure DeliversWhole (s : NetSystem) (packet : List UInt8) (head : UInt16)
    (chain : List Descriptor) : Prop where
  running : ∀ why, (s.rxStep packet).1.pc ≠ .halted why
  used : ∀ len, .used 0 head len true ∈ (s.rxStep packet).2 →
    Delivered (s.rxStep packet).1.mem chain (packetBytes packet) ∧
      len.toNat = headerLen + packet.length
  dropped : (∀ len, .used 0 head len true ∉ (s.rxStep packet).2) →
    ∀ x ∈ bufferAddrs chain, (s.rxStep packet).1.mem.byteAt x = s.mem.byteAt x

/-- What the frame needs of the first device-writable descriptor when the driver has set
up a used ring: room, memory, and a used ring that does not lie over it. -/
structure Fits (q : Virtqueue) (mem : GuestMemory) (frame : List UInt8) (head : UInt16)
    (desc : Descriptor) : Prop where
  room : headerLen + frame.length ≤ desc.len.toNat
  mapped : mem.Mapped desc.addr.toNat (headerLen + frame.length)
  ring : ¬ q.UsedWraps mem
  apart : ∀ i < headerLen + frame.length, q.UsedCovers mem (desc.addr.toNat + i) →
    (q.publishUsed mem head (UInt32.ofNat (headerLen + frame.length))).byteAt
      (desc.addr.toNat + i) = (packetBytes frame)[i]?

/-- The copies would write what is there already. -/
structure Unneeded (mem : GuestMemory) (frame : List UInt8) (desc : Descriptor) : Prop where
  header : mem.Mapped desc.addr.toNat headerLen →
    mem.load desc.addr.toNat headerLen = List.replicate headerLen 0
  frame : mem.Mapped (desc.addr.toNat + headerLen) (frameLen frame desc) →
    mem.load (desc.addr.toNat + headerLen) (frameLen frame desc) = frame.take (frameLen frame desc)

/-- What the frame needs of the chain. -/
def Receivable (q : Virtqueue) (mem : GuestMemory) (frame : List UInt8) (head : UInt16)
    (chain : List Descriptor) : Prop :=
  ScatterSafe mem frame chain ∧
    ∀ desc, chain.find? (·.isWrite) = some desc → 12 ≤ desc.len →
      if q.usedRing = 0 then Unneeded mem frame desc else Fits q mem frame head desc

/-! ## The first device-writable descriptor -/

section Buffer

variable {mem : GuestMemory} {chain : List Descriptor} {desc : Descriptor} {data : List UInt8}

theorem bufferAddrs_of_find (hfind : chain.find? (·.isWrite) = some desc) :
    ∃ more, bufferAddrs chain =
      (List.range desc.len.toNat).map (desc.addr.toNat + ·) ++ more := by
  induction chain with
  | nil => cases hfind
  | cons d chain ih =>
      rw [List.find?_cons] at hfind
      split at hfind
      next hwrite =>
          cases hfind
          exact ⟨bufferAddrs chain, by rw [bufferAddrs, List.filter_cons_of_pos hwrite]; rfl⟩
      next hwrite =>
          obtain ⟨more, hmore⟩ := ih hfind
          refine ⟨more, ?_⟩
          rw [← hmore, bufferAddrs, List.filter_cons_of_neg (by simp [hwrite])]
          rfl

theorem mem_bufferAddrs (hfind : chain.find? (·.isWrite) = some desc) {i : Nat}
    (hi : i < desc.len.toNat) : desc.addr.toNat + i ∈ bufferAddrs chain := by
  obtain ⟨more, hmore⟩ := bufferAddrs_of_find hfind
  rw [hmore]
  exact List.mem_append_left _ (List.mem_map_of_mem (List.mem_range.mpr hi))

theorem delivered_iff (hfind : chain.find? (·.isWrite) = some desc)
    (hlen : data.length ≤ desc.len.toNat) :
    Delivered mem chain data ↔
      ∀ i < data.length, mem.byteAt (desc.addr.toNat + i) = data[i]? := by
  obtain ⟨more, hmore⟩ := bufferAddrs_of_find hfind
  have hbyte : ∀ i < data.length, ((bufferAddrs chain).map mem.byteAt)[i]? =
      some (mem.byteAt (desc.addr.toNat + i)) := by
    intro i hi
    have hin : i < desc.len.toNat := Nat.lt_of_lt_of_le hi hlen
    rw [hmore, List.map_append, List.getElem?_append_left (by simpa using hin)]
    simp [hin]
  rw [Delivered, List.prefix_iff_getElem?]
  constructor
  · intro hprefix i hi
    have hone := hprefix i (by simpa using hi)
    rw [hbyte i hi, Option.some.injEq] at hone
    rw [hone]
    simp [hi]
  · intro hall i hi
    have hi' : i < data.length := by simpa using hi
    rw [hbyte i hi', hall i hi']
    simp [hi']

end Buffer

/-! ## What the scatter loop leaves -/

section Scatter

variable {mem : GuestMemory} {frame : List UInt8} {chain : List Descriptor} {desc : Descriptor}

def scattered (mem : GuestMemory) (frame : List UInt8) (desc : Descriptor) : GuestMemory :=
  (mem.store desc.addr.toNat (List.replicate headerLen 0)).store (desc.addr.toNat + headerLen)
    (frame.take (frameLen frame desc))

theorem frameLen_take (frame : List UInt8) (desc : Descriptor) :
    (frame.take (frameLen frame desc)).length = frameLen frame desc := by
  rw [List.length_take, frameLen]
  omega

theorem scatter_first (hsafe : ScatterSafe mem frame chain)
    (hfind : chain.find? (·.isWrite) = some desc) (hroom : 12 ≤ desc.len) :
    scatter mem frame chain =
      .ok (UInt32.ofNat (headerLen + frameLen frame desc), scattered mem frame desc) := by
  simp only [ScatterSafe, hfind] at hsafe
  obtain ⟨hheader, hframe⟩ := hsafe hroom
  rw [scatter_eq, hfind]
  simp only [if_pos hroom, if_neg hheader, if_neg hframe]
  rw [toNat_frameAddr hheader, scattered]

theorem scatter_none (hnone : ∀ desc, chain.find? (·.isWrite) = some desc → ¬ 12 ≤ desc.len) :
    scatter mem frame chain = .ok (0, mem) := by
  rw [scatter_eq]
  cases hfind : chain.find? (·.isWrite) with
  | none => rfl
  | some desc => exact if_neg (hnone desc hfind)

theorem packetBytes_length (frame : List UInt8) :
    (packetBytes frame).length = headerLen + frame.length := by
  rw [packetBytes, List.length_append, List.length_replicate]

theorem byteAt_scattered (hroom : headerLen + frame.length ≤ desc.len.toNat)
    (hmapped : mem.Mapped desc.addr.toNat (headerLen + frame.length)) {i : Nat}
    (hi : i < headerLen + frame.length) :
    (scattered mem frame desc).byteAt (desc.addr.toNat + i) = (packetBytes frame)[i]? := by
  have hwhole : frameLen frame desc = frame.length := by
    rw [frameLen]
    omega
  have hframe : mem.Mapped (desc.addr.toNat + headerLen) frame.length :=
    hmapped.mono (by omega) (by omega)
  have hheader : mem.Mapped desc.addr.toNat (List.replicate headerLen (0 : UInt8)).length :=
    hmapped.mono (by omega) (by rw [List.length_replicate]; omega)
  rw [scattered, hwhole, List.take_length, GuestMemory.byteAt_store (by simpa using hframe),
    packetBytes]
  by_cases hbehind : headerLen ≤ i
  · rw [if_pos ⟨by omega, by omega⟩, List.getElem?_append_right (by simpa using hbehind),
      List.length_replicate]
    have hoff : desc.addr.toNat + i - (desc.addr.toNat + headerLen) = i - headerLen := by omega
    have hin : i - headerLen < frame.length := by omega
    simp [hoff, hin]
  · rw [if_neg (by omega), GuestMemory.byteAt_store hheader,
      if_pos ⟨by omega, by rw [List.length_replicate]; omega⟩,
      List.getElem?_append_left (by rw [List.length_replicate]; omega), Nat.add_sub_cancel_left]
    have hin : i < headerLen := by omega
    simp [hin]

theorem scattered_unchanged_iff (hfind : chain.find? (·.isWrite) = some desc)
    (hroom : 12 ≤ desc.len) :
    (∀ x ∈ bufferAddrs chain, (scattered mem frame desc).byteAt x = mem.byteAt x) ↔
      Unneeded mem frame desc := by
  have hroom' : headerLen ≤ desc.len.toNat := UInt32.le_iff_toNat_le.mp hroom
  have hlen := frameLen_take frame desc
  have hfit : headerLen + frameLen frame desc ≤ desc.len.toNat := by
    rw [frameLen]
    omega
  have hheader := mem.store_unchanged_iff desc.addr.toNat (List.replicate headerLen 0)
  have hframe := (mem.store desc.addr.toNat (List.replicate headerLen 0)).store_unchanged_iff
    (desc.addr.toNat + headerLen) (frame.take (frameLen frame desc))
  have hload : mem.Mapped (desc.addr.toNat + headerLen) (frameLen frame desc) →
      (mem.store desc.addr.toNat (List.replicate headerLen 0)).load
        (desc.addr.toNat + headerLen) (frameLen frame desc) =
          mem.load (desc.addr.toNat + headerLen) (frameLen frame desc) := by
    intro hmapped
    exact GuestMemory.load_store_of_disjoint hmapped (.inr (by rw [List.length_replicate]))
  rw [List.length_replicate] at hheader
  rw [hlen, GuestMemory.mapped_store] at hframe
  -- neither copy reaches the bytes of the other
  have hbehind : ∀ x, ¬ (desc.addr.toNat ≤ x ∧ x < desc.addr.toNat + headerLen) →
      (mem.store desc.addr.toNat (List.replicate headerLen 0)).byteAt x = mem.byteAt x := by
    intro x hx
    apply GuestMemory.byteAt_store_of_not_mem
    rwa [List.length_replicate]
  have hbefore : ∀ x, ¬ (desc.addr.toNat + headerLen ≤ x ∧
        x < desc.addr.toNat + headerLen + frameLen frame desc) →
      (scattered mem frame desc).byteAt x =
        (mem.store desc.addr.toNat (List.replicate headerLen 0)).byteAt x := by
    intro x hx
    apply GuestMemory.byteAt_store_of_not_mem
    rwa [hlen]
  constructor
  · intro hsame
    constructor
    · apply hheader.mp
      intro i hi
      rw [← hsame _ (mem_bufferAddrs hfind (by omega)), hbefore _ (by omega)]
    · intro hmapped
      rw [← hload hmapped]
      apply hframe.mp _ hmapped
      intro i hi
      rw [hbehind _ (by omega), Nat.add_assoc, ← hsame _ (mem_bufferAddrs hfind (by omega)),
        scattered]
  · rintro ⟨hzeros, hbytes⟩ x -
    by_cases hfirst : desc.addr.toNat ≤ x ∧ x < desc.addr.toNat + headerLen
    · obtain ⟨i, rfl⟩ := Nat.exists_eq_add_of_le hfirst.1
      rw [hbefore _ (by omega)]
      exact hheader.mpr hzeros i (by omega)
    by_cases hsecond : desc.addr.toNat + headerLen ≤ x ∧
        x < desc.addr.toNat + headerLen + frameLen frame desc
    · obtain ⟨i, rfl⟩ := Nat.exists_eq_add_of_le hsecond.1
      rw [← hbehind _ hfirst]
      apply hframe.mpr _ i (by omega)
      intro hmapped
      rw [hload hmapped]
      exact hbytes hmapped
    · rw [hbefore _ hsecond, hbehind _ hfirst]

end Scatter

/-! ## Delivery -/

section Delivery

variable {s : NetSystem} {packet : List UInt8} {head : UInt16} {q : Virtqueue}
  {chain : List Descriptor} {desc : Descriptor}

theorem nextAvail_size {q q' : Virtqueue} {mem : GuestMemory} {head : UInt16}
    (h : q.nextAvail mem = .ok (some head, q')) : q'.size ≠ 0 := by
  intro hsize
  have hzero : q.size = 0 := by
    rw [(Virtqueue.nextAvail_some h).2] at hsize
    exact hsize
  simp only [Virtqueue.nextAvail, remU16, hzero, if_true, bind, Except.bind, pure,
    Except.pure] at h
  split at h
  next => cases h
  next =>
      split at h
      next => cases h
      next => split at h <;> cases h

theorem recv_eq (hne : packet ≠ []) (hlen : packet.length ≤ rxBufLen) :
    recv packet = some packet := by
  rw [recv, if_neg hne, List.take_of_length_le hlen]

theorem rxStep_dropped (hrecv : recv packet = some packet)
    (hnext : (s.state.queues 0).nextAvail s.mem = .ok (some head, q))
    (hchain : q.readChain s.mem head = .ok chain)
    (hnone : ∀ desc, chain.find? (·.isWrite) = some desc → ¬ 12 ≤ desc.len) :
    s.rxStep packet = ({ s.withQueue 0 q with pc := .sleep }, [.take 0 head, .idle]) := by
  simp only [NetSystem.rxStep, hrecv, hnext, hchain, scatter_none hnone]
  rfl

theorem rxStep_filled (hrecv : recv packet = some packet)
    (hnext : (s.state.queues 0).nextAvail s.mem = .ok (some head, q))
    (hchain : q.readChain s.mem head = .ok chain) (hsafe : ScatterSafe s.mem packet chain)
    (hfind : chain.find? (·.isWrite) = some desc) (hroom : 12 ≤ desc.len) :
    (∃ why, q.UsedWild s.mem ∧ (s.rxStep packet).1.pc = .halted why) ∨
      ¬ q.UsedWild s.mem ∧ (s.rxStep packet).1.pc = .inject ∧
        (s.rxStep packet).2 = [.take 0 head, .used 0 head
          (UInt32.ofNat (headerLen + frameLen packet desc)) (q.usedRing != 0), .irqStatus] ∧
        (s.rxStep packet).1.mem =
          if q.usedRing = 0 then scattered s.mem packet desc
          else q.publishUsed (scattered s.mem packet desc) head
            (UInt32.ofNat (headerLen + frameLen packet desc)) := by
  have hscatter := scatter_first hsafe hfind hroom
  have hwritten : 0 < UInt32.ofNat (headerLen + frameLen packet desc) := by
    apply (scatter_written hscatter).mpr
    simp [deliverable, hfind, hroom]
  have hend : (scattered s.mem packet desc).ramEnd = s.mem.ramEnd := by
    rw [scattered, GuestMemory.ramEnd_store, GuestMemory.ramEnd_store]
  have hsize := nextAvail_size hnext
  rw [← Virtqueue.usedWild_congr hend]
  simp only [NetSystem.rxStep, hrecv, hnext, hchain, hscatter, if_pos hwritten,
    Virtqueue.addUsed_eq, if_neg hsize]
  by_cases hring : q.usedRing = 0
  · right
    refine ⟨fun hwild => hwild.1 hring, ?_⟩
    simp [hring]
  by_cases hwraps : q.UsedWraps (scattered s.mem packet desc)
  · left
    refine ⟨.wild, ⟨hring, hsize, hwraps⟩, ?_⟩
    simp [hring, hwraps]
  · right
    refine ⟨fun hwild => hwraps hwild.2.2, ?_⟩
    simp [hring, hwraps]

theorem delivered_filled_iff (hlen : packet.length ≤ rxBufLen)
    (hfind : chain.find? (·.isWrite) = some desc) (hroom : 12 ≤ desc.len) {mem : GuestMemory}
    (hring : ¬ q.UsedWraps mem) :
    Delivered (q.publishUsed (scattered mem packet desc) head
        (UInt32.ofNat (headerLen + frameLen packet desc))) chain (packetBytes packet) ∧
      (UInt32.ofNat (headerLen + frameLen packet desc)).toNat = headerLen + packet.length ↔
      Fits q mem packet head desc := by
  have hroom' : headerLen ≤ desc.len.toNat := UInt32.le_iff_toNat_le.mp hroom
  have hcut : frameLen packet desc ≤ packet.length := Nat.min_le_left _ _
  have hwritten : (UInt32.ofNat (headerLen + frameLen packet desc)).toNat =
      headerLen + frameLen packet desc := by
    apply UInt32.toNat_ofNat_of_lt'
    simp only [headerLen, rxBufLen, UInt32.size] at hcut hlen ⊢
    omega
  have hwhole : frameLen packet desc = packet.length ↔
      headerLen + packet.length ≤ desc.len.toNat := by
    rw [frameLen]
    omega
  have hend : (scattered mem packet desc).ramEnd = mem.ramEnd := by
    rw [scattered, GuestMemory.ramEnd_store, GuestMemory.ramEnd_store]
  rw [hwritten, Nat.add_left_cancel_iff]
  constructor
  · rintro ⟨hdelivered, heq⟩
    have hfit := hwhole.mp heq
    rw [heq, delivered_iff hfind (by rw [packetBytes_length]; exact hfit),
      packetBytes_length] at hdelivered
    refine ⟨hfit, ?_, hring, ?_⟩
    · have hmapped := GuestMemory.mapped_of_byteAt (n := headerLen + packet.length)
        (by simp [headerLen]) fun i hi => by
          rw [hdelivered i hi, List.getElem?_eq_getElem (by rw [packetBytes_length]; exact hi)]
          rfl
      rwa [GuestMemory.mapped_iff, Virtqueue.ramEnd_publishUsed, hend,
        ← GuestMemory.mapped_iff] at hmapped
    · intro i hi hcovers
      rw [← hdelivered i hi]
      exact (Virtqueue.byteAt_publishUsed_congr hend (.inl hcovers)).symm
  · rintro ⟨hfit, hmapped, -, hapart⟩
    have heq := hwhole.mpr hfit
    refine ⟨?_, heq⟩
    rw [heq, delivered_iff hfind (by rw [packetBytes_length]; exact hfit), packetBytes_length]
    intro i hi
    by_cases hcovers : q.UsedCovers mem (desc.addr.toNat + i)
    · rw [Virtqueue.byteAt_publishUsed_congr hend (.inl hcovers), hapart i hi hcovers]
    · rw [Virtqueue.byteAt_publishUsed_of_not_covers
        fun h => hcovers ((Virtqueue.usedCovers_congr hend _).mp h)]
      exact byteAt_scattered hfit hmapped hi

/-- When a frame is delivered whole or dropped. -/
theorem deliversWhole_iff (hne : packet ≠ []) (hlen : packet.length ≤ rxBufLen)
    (hnext : (s.state.queues 0).nextAvail s.mem = .ok (some head, q))
    (hchain : q.readChain s.mem head = .ok chain) :
    DeliversWhole s packet head chain ↔ Receivable q s.mem packet head chain := by
  have hrecv := recv_eq hne hlen
  by_cases hsafe : ScatterSafe s.mem packet chain
  · rw [Receivable, and_iff_right hsafe]
    by_cases hnone : ∀ desc, chain.find? (·.isWrite) = some desc → ¬ 12 ≤ desc.len
    · have hstep := rxStep_dropped hrecv hnext hchain hnone
      refine iff_of_true ⟨?_, ?_, ?_⟩ fun desc hfind hroom => absurd hroom (hnone desc hfind)
      · simp [hstep]
      · simp [hstep]
      · intro _ x _
        rw [hstep]
        rfl
    · obtain ⟨desc, hfind, hroom⟩ :
          ∃ desc, chain.find? (·.isWrite) = some desc ∧ 12 ≤ desc.len := by
        simpa using hnone
      have hone : (∀ d, chain.find? (·.isWrite) = some d → 12 ≤ d.len →
            if q.usedRing = 0 then Unneeded s.mem packet d else Fits q s.mem packet head d) ↔
          if q.usedRing = 0 then Unneeded s.mem packet desc else Fits q s.mem packet head desc := by
        simp [hfind, hroom]
      rw [hone]
      rcases rxStep_filled hrecv hnext hchain hsafe hfind hroom with
        ⟨why, hwild, hpc⟩ | ⟨hwild, hpc, hevents, hmem⟩
      · rw [if_neg hwild.1]
        exact iff_of_false (fun h => h.running why hpc) fun h => h.ring hwild.2.2
      · by_cases hring : q.usedRing = 0
        · rw [if_pos hring] at hmem ⊢
          rw [← scattered_unchanged_iff hfind hroom]
          have hnever : ∀ len, .used 0 head len true ∉ (s.rxStep packet).2 := by
            simp [hevents, hring]
          constructor
          · intro h
            rw [← hmem]
            exact h.dropped hnever
          · intro h
            refine ⟨by simp [hpc], fun len hused => absurd hused (hnever len), fun _ => ?_⟩
            rwa [hmem]
        · rw [if_neg hring] at hmem ⊢
          have hwraps : ¬ q.UsedWraps s.mem := fun h =>
            hwild ⟨hring, nextAvail_size hnext, h⟩
          have hused : ∀ len, .used 0 head len true ∈ (s.rxStep packet).2 ↔
              len = UInt32.ofNat (headerLen + frameLen packet desc) := by
            simp [hevents, hring]
          rw [← delivered_filled_iff hlen hfind hroom hwraps, ← hmem]
          constructor
          · intro h
            exact h.used _ ((hused _).mpr rfl)
          · intro h
            refine ⟨by simp [hpc], ?_, fun hdropped => absurd ((hused _).mpr rfl) (hdropped _)⟩
            intro len hmem
            rw [(hused len).mp hmem]
            exact h
  · refine iff_of_false (fun h => ?_) fun h => hsafe h.1
    have hscatter := (scatter_error_iff s.mem packet chain .wild).mpr ⟨rfl, hsafe⟩
    apply h.running .wild
    simp only [NetSystem.rxStep, hrecv, hnext, hchain, hscatter]

end Delivery

/-! ## One buffer and two -/

def oneBuffer : List Descriptor := [⟨0x5000, 64, 2, 0⟩]

/-- A buffer for the header and one for the frame. -/
def twoBuffers : List Descriptor := [⟨0x5000, 12, 3, 1⟩, ⟨0x6000, 2048, 2, 0⟩]

theorem oneBuffer_delivers : DeliversWhole (published 0 oneBuffer) [1, 2, 3] 0 oneBuffer := by
  apply (deliversWhole_iff (q := (published 0 oneBuffer).taken 0) (by decide) (by decide) rfl
    (by decide +kernel)).mpr
  refine ⟨fun _ => by decide +kernel, ?_⟩
  intro desc hfind _
  cases hfind
  rw [if_neg (by decide)]
  exact ⟨by decide, by decide +kernel, by decide +kernel, by decide +kernel⟩

/-- The frame is lost and the used element says twelve bytes. -/
theorem twoBuffers_lose : ∃ s packet head q chain, packet ≠ [] ∧ packet.length ≤ rxBufLen ∧
    (s.state.queues 0).nextAvail s.mem = .ok (some head, q) ∧
    q.readChain s.mem head = .ok chain ∧ ¬ DeliversWhole s packet head chain := by
  refine ⟨published 0 twoBuffers, [1, 2, 3], 0, (published 0 twoBuffers).taken 0, twoBuffers,
    by decide, by decide, rfl, by decide +kernel, ?_⟩
  intro hwhole
  obtain ⟨-, hlen⟩ := hwhole.used 12 (by decide +kernel)
  exact absurd hlen (by decide)

end Net

end Caiman.Vmm
