import Caiman.Vmm.Virtio.Chain
import Caiman.Vmm.Virtio.Frame

/-!
# Frames out

The frame a driver publishes is the bytes of the device-readable descriptors of its
chain. The drain skips a descriptor that does not fit in the 2048-byte buffer or that
cannot be read, and sends what it has.
-/

namespace Caiman.Vmm.Net

open Lib

/-- The bytes of the device-readable descriptors, if they all lie in RAM. -/
def frameBytes (mem : GuestMemory) : List Descriptor → Option (List UInt8)
  | [] => some []
  | desc :: chain =>
      if desc.isWrite ∨ desc.len = 0 then frameBytes mem chain
      else if mem.Mapped desc.addr.toNat desc.len.toNat then
        (frameBytes mem chain).map (mem.load desc.addr.toNat desc.len.toNat ++ ·)
      else none

def readableLen : List Descriptor → Nat
  | [] => 0
  | desc :: chain => (if desc.isWrite then 0 else desc.len.toNat) + readableLen chain

def Readable (mem : GuestMemory) (chain : List Descriptor) : Prop :=
  ∀ desc ∈ chain, desc.isWrite = false → desc.len ≠ 0 →
    mem.Mapped desc.addr.toNat desc.len.toNat

instance (mem : GuestMemory) (chain : List Descriptor) : Decidable (Readable mem chain) :=
  inferInstanceAs (Decidable (∀ desc ∈ chain, _ → _ → _))

/-- Each descriptor that can be read is within the first twelve bytes or too long for
what is left of the buffer; `filled` is the buffer's length so far. -/
def HeaderOnly (mem : GuestMemory) : List Descriptor → Nat → Prop
  | [], _ => True
  | desc :: chain, filled =>
      if !desc.isWrite && mem.Mapped desc.addr.toNat desc.len.toNat then
        if filled + desc.len.toNat ≤ headerLen then HeaderOnly mem chain (filled + desc.len.toNat)
        else txBufLen < filled + desc.len.toNat ∧ HeaderOnly mem chain filled
      else HeaderOnly mem chain filled

variable {mem : GuestMemory} {chain rest : List Descriptor} {buf out bytes : List UInt8}

/-! ## What the drain gathers -/

theorem frameBytes_length (h : frameBytes mem chain = some bytes) :
    bytes.length = readableLen chain := by
  induction chain generalizing bytes with
  | nil =>
      cases h
      rfl
  | cons desc chain ih =>
      rw [frameBytes] at h
      rw [readableLen]
      split at h
      next hskip =>
          rw [ih h]
          rcases hskip with hwrite | hlen
          · rw [if_pos hwrite, Nat.zero_add]
          · rw [hlen, UInt32.toNat_zero, ite_self, Nat.zero_add]
      next hbytes =>
          split at h
          next hmapped =>
              obtain ⟨rest, hrest, rfl⟩ := Option.map_eq_some_iff.mp h
              obtain ⟨hread, -⟩ := not_or.mp hbytes
              rw [List.length_append, GuestMemory.load_length, ih hrest, if_neg hread]
          next => cases h

theorem gather_empty {desc : Descriptor} (hlen : desc.len = 0) :
    gather mem (desc :: chain) buf = gather mem chain buf := by
  have hzero : desc.len.toNat = 0 := by rw [hlen, UInt32.toNat_zero]
  have hload : mem.load desc.addr.toNat desc.len.toNat = [] := by
    apply List.eq_nil_of_length_eq_zero
    rw [GuestMemory.load_length, hzero]
  have hwraps : ¬ mem.Wraps desc.addr.toNat desc.len.toNat := by
    have := desc.addr.toNat_lt
    rw [GuestMemory.Wraps]
    omega
  rw [gather_cons, hload, List.append_nil, if_neg hwraps, ite_self, ite_self]

theorem gather_write {desc : Descriptor} (hwrite : desc.isWrite = true) :
    gather mem (desc :: chain) buf = gather mem chain buf := by
  rw [gather_cons, if_neg (by simp [hwrite])]

theorem gather_fits (buf : List UInt8) (hreadable : Readable mem chain)
    (hfit : buf.length + readableLen chain ≤ txBufLen) :
    ∃ bytes, frameBytes mem chain = some bytes ∧ gather mem chain buf = .ok (buf ++ bytes) := by
  induction chain generalizing buf with
  | nil => exact ⟨[], rfl, by rw [gather, List.append_nil]⟩
  | cons desc chain ih =>
      have htail : Readable mem chain := fun d hd => hreadable d (List.mem_cons_of_mem _ hd)
      rw [readableLen] at hfit
      rw [frameBytes]
      by_cases hwrite : desc.isWrite = true
      · rw [gather_write hwrite, if_pos (.inl hwrite)]
        exact ih buf htail (by omega)
      by_cases hlen : desc.len = 0
      · rw [gather_empty hlen, if_pos (.inr hlen)]
        exact ih buf htail (by omega)
      have hread : desc.isWrite = false := by simpa using hwrite
      have hmapped := hreadable desc List.mem_cons_self hread hlen
      rw [if_neg hwrite] at hfit
      rw [if_neg (by simp [hread, hlen]), if_pos hmapped, gather_cons,
        if_pos (by simp [hread]; omega), if_pos hmapped]
      obtain ⟨bytes, hbytes, hgather⟩ := ih (buf ++ mem.load desc.addr.toNat desc.len.toNat) htail
        (by rw [List.length_append, GuestMemory.load_length]; omega)
      exact ⟨_, by rw [hbytes, Option.map_some], by rw [hgather, List.append_assoc]⟩

/-- What the drain gathers grows, stays in the buffer, is no more than the frame, and
is as long as the frame only if every descriptor could be read. -/
theorem gather_bounds (hbuf : buf.length ≤ txBufLen) (h : gather mem chain buf = .ok out) :
    buf.length ≤ out.length ∧ out.length ≤ txBufLen ∧
      out.length ≤ buf.length + readableLen chain ∧
      (out.length = buf.length + readableLen chain → Readable mem chain) := by
  induction chain generalizing buf with
  | nil =>
      cases h
      refine ⟨Nat.le_refl _, hbuf, Nat.le_refl _, ?_⟩
      intro _ desc hmem
      cases hmem
  | cons desc chain ih =>
      rw [readableLen]
      by_cases hwrite : desc.isWrite = true
      · rw [gather_write hwrite] at h
        obtain ⟨hgrow, hfull, hle, heq⟩ := ih hbuf h
        rw [if_pos hwrite, Nat.zero_add]
        refine ⟨hgrow, hfull, hle, ?_⟩
        intro hlen d hd hread
        rcases List.mem_cons.mp hd with rfl | hd
        · rw [hwrite] at hread
          cases hread
        · exact heq hlen d hd hread
      rw [if_neg hwrite]
      by_cases hzero : desc.len = 0
      · rw [gather_empty hzero] at h
        obtain ⟨hgrow, hfull, hle, heq⟩ := ih hbuf h
        rw [hzero, UInt32.toNat_zero, Nat.zero_add]
        refine ⟨hgrow, hfull, hle, ?_⟩
        intro hlen d hd hread hne
        rcases List.mem_cons.mp hd with rfl | hd
        · exact absurd hzero hne
        · exact heq hlen d hd hread hne
      have hpos : 0 < desc.len.toNat :=
        Nat.pos_of_ne_zero fun hlen => hzero (UInt32.toNat_inj.mp hlen)
      rw [gather_cons] at h
      split at h
      next hroom =>
          simp only [Bool.and_eq_true, decide_eq_true_iff] at hroom
          split at h
          next hmapped =>
              have hnext : (buf ++ mem.load desc.addr.toNat desc.len.toNat).length =
                  buf.length + desc.len.toNat := by
                rw [List.length_append, GuestMemory.load_length]
              obtain ⟨hgrow, hfull, hle, heq⟩ := ih (by omega) h
              refine ⟨by omega, hfull, by omega, ?_⟩
              intro hlen d hd hread hne
              rcases List.mem_cons.mp hd with rfl | hd
              · exact hmapped
              · exact heq (by omega) d hd hread hne
          next =>
              split at h
              next => cases h
              next =>
                  obtain ⟨hgrow, hfull, hle, -⟩ := ih hbuf h
                  exact ⟨hgrow, hfull, by omega, fun hlen => by omega⟩
      next =>
          obtain ⟨hgrow, hfull, hle, -⟩ := ih hbuf h
          exact ⟨hgrow, hfull, by omega, fun hlen => by omega⟩

theorem gather_headerOnly (hbuf : buf.length ≤ headerLen) (h : gather mem chain buf = .ok out) :
    out.length ≤ headerLen ↔ HeaderOnly mem chain buf.length := by
  induction chain generalizing buf with
  | nil =>
      cases h
      exact iff_of_true hbuf trivial
  | cons desc chain ih =>
      have hbuf' : buf.length ≤ txBufLen := Nat.le_trans hbuf (by decide)
      rw [gather_cons] at h
      rw [HeaderOnly]
      by_cases hread : (!desc.isWrite && decide (mem.Mapped desc.addr.toNat desc.len.toNat)) = true
      · rw [if_pos hread]
        simp only [Bool.and_eq_true, decide_eq_true_iff] at hread
        obtain ⟨hread, hmapped⟩ := hread
        have hlen : (buf ++ mem.load desc.addr.toNat desc.len.toNat).length =
            buf.length + desc.len.toNat := by
          rw [List.length_append, GuestMemory.load_length]
        by_cases hroom : buf.length + desc.len.toNat ≤ txBufLen
        · rw [if_pos (by simp [hread, hroom]), if_pos hmapped] at h
          by_cases hhead : buf.length + desc.len.toNat ≤ headerLen
          · rw [if_pos hhead, ← hlen]
            exact ih (by omega) h
          · rw [if_neg hhead]
            obtain ⟨hgrow, -⟩ := gather_bounds (by omega) h
            exact iff_of_false (by omega) fun hfits => by omega
        · rw [if_neg (by simp [hroom])] at h
          have hhead : ¬ buf.length + desc.len.toNat ≤ headerLen := by
            simp only [txBufLen, headerLen] at hroom ⊢
            omega
          rw [if_neg hhead, ih hbuf h]
          exact (and_iff_right (Nat.not_le.mp hroom)).symm
      · rw [if_neg hread]
        simp only [Bool.and_eq_true, decide_eq_true_iff, not_and] at hread
        split at h
        next hroom =>
            simp only [Bool.and_eq_true] at hroom
            rw [if_neg (hread hroom.1)] at h
            split at h
            next => cases h
            next => exact ih hbuf h
        next => exact ih hbuf h

/-! ## What a step sends -/

def sends (events : List Event) : List (List UInt8) :=
  events.filterMap fun e =>
    match e with
    | .send frame => some frame
    | _ => none

def drain (q : Virtqueue) (mem : GuestMemory) (head : UInt16) : Exec (List UInt8) :=
  (q.readChain mem head).bind fun chain => gather mem chain []

theorem drain_eq {q : Virtqueue} {head : UInt16} (hchain : q.readChain mem head = .ok chain) :
    drain q mem head = gather mem chain [] := by
  rw [drain, hchain]
  rfl

/-- The step reads guest memory only, and sends nothing or the frame of the chain. -/
structure SendsExactly (s : NetSystem) (q : Virtqueue) (head : UInt16) : Prop where
  inside : ∃ buf, drain q s.mem head = .ok buf
  exact : sends s.txStep.2 = [] ∨
    ∃ chain bytes, q.Legal s.mem head chain ∧ frameBytes s.mem chain = some bytes ∧
      sends s.txStep.2 = [bytes.drop headerLen]

/-- The descriptors that `read_chain` returns can be read without leaving the mapping.
No more than the header can be copied of them; or they lie in RAM and fit in the buffer,
and those that it leaves out have no bytes for the frame. -/
structure Transmittable (q : Virtqueue) (mem : GuestMemory) (head : UInt16)
    (chain : List Descriptor) : Prop where
  safe : GatherSafe mem chain 0
  whole : HeaderOnly mem chain 0 ∨
    ∃ rest, q.Legal mem head (chain ++ rest) ∧ Readable mem chain ∧
      readableLen chain ≤ txBufLen ∧ readableLen rest = 0

theorem gather_ok_of_safe (buf : List UInt8) (h : GatherSafe mem chain buf.length) :
    ∃ out, gather mem chain buf = .ok out := by
  cases hgather : gather mem chain buf with
  | error why => exact absurd h ((gather_error_iff mem chain buf why).mp hgather).2
  | ok out => exact ⟨out, rfl⟩

theorem gatherSafe_of_ok (h : gather mem chain buf = .ok out) :
    GatherSafe mem chain buf.length := by
  by_contra hnot
  rw [(gather_error_iff mem chain buf .wild).mpr ⟨rfl, hnot⟩] at h
  cases h

theorem readableLen_append (chain rest : List Descriptor) :
    readableLen (chain ++ rest) = readableLen chain + readableLen rest := by
  induction chain with
  | nil => rw [List.nil_append, readableLen, Nat.zero_add]
  | cons desc chain ih =>
      rw [List.cons_append, readableLen, readableLen, ih]
      omega

theorem frameBytes_of_readableLen (hrest : readableLen rest = 0) :
    frameBytes mem rest = some [] := by
  induction rest with
  | nil => rfl
  | cons desc rest ih =>
      rw [readableLen] at hrest
      have hskip : desc.isWrite = true ∨ desc.len = 0 := by
        by_cases hwrite : desc.isWrite = true
        · exact .inl hwrite
        · rw [if_neg hwrite] at hrest
          exact .inr (UInt32.toNat_inj.mp (by rw [UInt32.toNat_zero]; omega))
      rw [frameBytes, if_pos hskip]
      exact ih (by omega)

theorem frameBytes_append (hrest : readableLen rest = 0) :
    frameBytes mem (chain ++ rest) = frameBytes mem chain := by
  induction chain with
  | nil => exact frameBytes_of_readableLen hrest
  | cons desc chain ih => rw [List.cons_append, frameBytes, frameBytes, ih]

section Step

variable {s : NetSystem} {head : UInt16} {q : Virtqueue}

theorem sends_txStep (hnext : (s.state.queues 1).nextAvail s.mem = .ok (some head, q))
    (hchain : q.readChain s.mem head = .ok chain) (hgather : gather s.mem chain [] = .ok buf) :
    sends s.txStep.2 = if headerLen < buf.length then [buf.drop headerLen] else [] := by
  have hsent : sends (NetSystem.sent buf) =
      if headerLen < buf.length then [buf.drop headerLen] else [] := by
    rw [NetSystem.sent]
    split <;> rfl
  cases hadd : q.addUsed s.mem head (UInt32.ofNat buf.length) with
  | error why =>
      simp only [NetSystem.txStep, hnext, hchain, hgather, hadd]
      rw [← hsent]
      rfl
  | ok triple =>
      obtain ⟨added, q', mem⟩ := triple
      simp only [NetSystem.txStep, hnext, hchain, hgather, hadd]
      rw [← hsent, sends, List.filterMap_append]
      exact List.append_nil _

theorem Transmittable.of_sent {full : List Descriptor} (hgather : gather mem chain [] = .ok buf)
    (hchain : q.readChain mem head = .ok chain) (hlegal : q.Legal mem head full)
    (hbytes : frameBytes mem full = some bytes) (hlong : headerLen < buf.length)
    (hsent : buf.drop headerLen = bytes.drop headerLen) : Transmittable q mem head chain := by
  have hread := Virtqueue.readChain_legal hlegal
  rw [hchain, Except.ok.injEq] at hread
  have htable : q.descTable ≠ 0 := by
    intro hzero
    rw [if_pos hzero] at hread
    rw [hread] at hgather
    cases hgather
    exact absurd hlong (by decide)
  rw [if_neg htable] at hread
  have hfull : chain ++ full.drop 65 = full := by rw [hread, List.take_append_drop]
  have hlen := congrArg List.length hsent
  have hframe := frameBytes_length hbytes
  have hsplit := readableLen_append chain (full.drop 65)
  have hempty : ([] : List UInt8).length ≤ txBufLen := Nat.zero_le _
  obtain ⟨-, hshort, hle, hall⟩ := gather_bounds hempty hgather
  rw [List.length_drop, List.length_drop] at hlen
  rw [hfull] at hsplit
  rw [List.length_nil, Nat.zero_add] at hle hall
  refine ⟨gatherSafe_of_ok hgather, .inr ⟨full.drop 65, hfull.symm ▸ hlegal, ?_, ?_, ?_⟩⟩
  · exact hall (by omega)
  · omega
  · omega

/-- When the drain sends nothing or the exact frame. -/
theorem sendsExactly_iff (hnext : (s.state.queues 1).nextAvail s.mem = .ok (some head, q)) :
    SendsExactly s q head ↔
      ∃ chain, q.readChain s.mem head = .ok chain ∧ Transmittable q s.mem head chain := by
  constructor
  · rintro ⟨⟨buf, hdrain⟩, hexact⟩
    cases hchain : q.readChain s.mem head with
    | error why =>
        rw [drain, hchain] at hdrain
        cases hdrain
    | ok chain =>
        have hgather := (drain_eq hchain).symm.trans hdrain
        rw [sends_txStep hnext hchain hgather] at hexact
        refine ⟨chain, rfl, ?_⟩
        by_cases hlong : headerLen < buf.length
        · rw [if_pos hlong] at hexact
          rcases hexact with hnone | ⟨full, bytes, hlegal, hbytes, hsent⟩
          · cases hnone
          · exact .of_sent hgather hchain hlegal hbytes hlong (List.singleton_inj.mp hsent)
        · have hhead := (gather_headerOnly (Nat.zero_le _) hgather).mp (Nat.not_lt.mp hlong)
          exact ⟨gatherSafe_of_ok hgather, .inl hhead⟩
  · rintro ⟨chain, hchain, hsafe, hwhole⟩
    obtain ⟨buf, hgather⟩ := gather_ok_of_safe [] hsafe
    refine ⟨⟨buf, by rw [drain_eq hchain, hgather]⟩, ?_⟩
    rw [sends_txStep hnext hchain hgather]
    rcases hwhole with hhead | ⟨rest, hlegal, hreadable, hfit, hnone⟩
    · have hshort := (gather_headerOnly (Nat.zero_le _) hgather).mpr hhead
      exact .inl (if_neg (Nat.not_lt.mpr hshort))
    · obtain ⟨bytes, hbytes, hall⟩ := gather_fits [] hreadable
        (by rw [List.length_nil]; omega)
      rw [hgather, Except.ok.injEq, List.nil_append] at hall
      subst hall
      by_cases hlong : headerLen < buf.length
      · refine .inr ⟨chain ++ rest, buf, hlegal, ?_, if_pos hlong⟩
        rw [frameBytes_append hnone, hbytes]
      · exact .inl (if_neg hlong)

end Step

/-! ## A frame of 2100 bytes -/

def publishRun (queue : UInt32) (chain : List Descriptor) : List NetAction :=
  .mmioWrite Reg.queueSel.offset queue ::
    (bringUp 0x2000 0x1000 0x4000).map (fun w => .mmioWrite w.1 w.2) ++
    [.store 0x2000 (chain.flatMap Descriptor.encode), .store 0x1002 [1, 0]]

def published (queue : UInt32) (chain : List Descriptor) : NetSystem :=
  (machine.run (.new (fun _ => 2) .twoMib) (publishRun queue chain)).1

def NetSystem.taken (s : NetSystem) (queue : Fin 2) : Virtqueue :=
  { s.state.queues queue with lastAvailIdx := (s.state.queues queue).lastAvailIdx + 1 }

def smallFrame : List Descriptor := [⟨0x5000, 12, 1, 1⟩, ⟨0x6000, 8, 0, 0⟩]

def jumboFrame : List Descriptor := [⟨0x5000, 12, 1, 1⟩, ⟨0x6000, 2000, 1, 2⟩, ⟨0x7000, 100, 0, 0⟩]

theorem smallFrame_sent :
    SendsExactly (published 1 smallFrame) ((published 1 smallFrame).taken 1) 0 := by
  have hreadable : Readable (published 1 smallFrame).mem smallFrame := by decide +kernel
  obtain ⟨bytes, -, hgather⟩ := gather_fits [] hreadable (by decide)
  refine (sendsExactly_iff rfl).mpr ⟨smallFrame, by decide +kernel, gatherSafe_of_ok hgather, ?_⟩
  refine .inr ⟨[], ⟨[(0, ⟨0x5000, 12, 1, 1⟩), (1, ⟨0x6000, 8, 0, 0⟩)], ?_, ?_, rfl⟩, hreadable, ?_⟩
  · decide +kernel
  · decide
  · decide

/-- The last hundred bytes are missing from what is sent. -/
theorem jumboFrame_cut : ∃ s q head, (s.state.queues 1).nextAvail s.mem = .ok (some head, q) ∧
    q.Legal s.mem head jumboFrame ∧ (frameBytes s.mem jumboFrame).isSome ∧
    ¬ SendsExactly s q head := by
  have hlegal : ((published 1 jumboFrame).taken 1).Legal (published 1 jumboFrame).mem 0
      jumboFrame :=
    ⟨[(0, ⟨0x5000, 12, 1, 1⟩), (1, ⟨0x6000, 2000, 1, 2⟩), (2, ⟨0x7000, 100, 0, 0⟩)],
      by decide +kernel, by decide, rfl⟩
  refine ⟨published 1 jumboFrame, (published 1 jumboFrame).taken 1, 0, rfl, hlegal,
    by decide +kernel, ?_⟩
  rintro ⟨⟨buf, hdrain⟩, hexact⟩
  have hchain : ((published 1 jumboFrame).taken 1).readChain (published 1 jumboFrame).mem 0 =
      .ok jumboFrame := by decide +kernel
  have hgather := (drain_eq hchain).symm.trans hdrain
  have hmore : ¬ HeaderOnly (published 1 jumboFrame).mem jumboFrame 0 := by
    rw [jumboFrame, HeaderOnly, if_pos (by decide +kernel), if_pos (by decide), HeaderOnly,
      if_pos (by decide +kernel), if_neg (by decide)]
    exact fun hlong => absurd hlong.1 (by decide)
  have hlong : headerLen < buf.length :=
    Nat.not_le.mp fun hshort =>
      hmore ((gather_headerOnly (Nat.zero_le _) hgather).mp hshort)
  rw [sends_txStep rfl hchain hgather, if_pos hlong] at hexact
  rcases hexact with hnone | ⟨full, bytes, hfull, hbytes, hsent⟩
  · cases hnone
  · have hwhole := (Transmittable.of_sent hgather hchain hfull hbytes hlong
      (List.singleton_inj.mp hsent)).whole
    rcases hwhole with hhead | ⟨rest, -, -, hfit, -⟩
    · exact hmore hhead
    · exact absurd hfit (by decide)

end Caiman.Vmm.Net
