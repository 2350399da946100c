import Caiman.Vmm.Virtio.Blk

/-!
# What a block request does

The request code in the exact view of guest memory: which of its accesses are
copied, refused or wild, and one named case for each effect it can have on
memory and on the image. Later modules reason from these cases and never unfold
the request code.
-/

namespace Caiman.Vmm.Blk

open Lib

/-! ## Transfers -/

/-- The buffer of a read that moved at most `k` bytes: file bytes, then the
zeros it was created with. -/
def readBuf (image : Image) (len offset k : Nat) : List UInt8 :=
  let got := (image.drop offset).take (min len k)
  got ++ List.replicate (len - got.length) 0

@[simp] theorem readBuf_length (image : Image) (len offset k : Nat) :
    (readBuf image len offset k).length = len := by
  simp only [readBuf, List.length_append, List.length_replicate, List.length_take,
    List.length_drop]
  omega

theorem readAt_eq (image : Image) (len k : Nat) {offset : UInt64} (h : offset.toNat ≤ isizeMax) :
    ∃ n, readAt image len offset (some k) = some (n, readBuf image len offset.toNat k) := by
  simp only [readAt, if_neg (Nat.not_lt.mpr h)]
  exact ⟨_, rfl⟩

theorem readAt_cases {image : Image} {len n : Nat} {offset : UInt64} {io : Transfer}
    {buf : List UInt8} (h : readAt image len offset io = some (n, buf)) :
    ∃ k, io = some k ∧ offset.toNat ≤ isizeMax ∧ buf = readBuf image len offset.toNat k := by
  cases io with
  | none => simp [readAt] at h
  | some k =>
      by_cases hoff : isizeMax < offset.toNat
      · simp [readAt, hoff] at h
      · simp only [readAt, if_neg hoff, Option.some.injEq, Prod.mk.injEq] at h
        exact ⟨k, rfl, Nat.not_lt.mp hoff, h.2.symm⟩

theorem writeAt_eq (image : Image) (buf : List UInt8) (k : Nat) {offset : UInt64}
    (h : offset.toNat ≤ isizeMax) :
    ∃ n, writeAt image buf offset (some k) = some (n, splice image offset.toNat (buf.take k)) := by
  simp only [writeAt, if_neg (Nat.not_lt.mpr h)]
  exact ⟨_, rfl⟩

theorem writeAt_cases {image image' : Image} {buf : List UInt8} {n : Nat} {offset : UInt64}
    {io : Transfer} (h : writeAt image buf offset io = some (n, image')) :
    ∃ k, io = some k ∧ offset.toNat ≤ isizeMax ∧
      image' = splice image offset.toNat (buf.take k) := by
  cases io with
  | none => simp [writeAt] at h
  | some k =>
      by_cases hoff : isizeMax < offset.toNat
      · simp [writeAt, hoff] at h
      · simp only [writeAt, if_neg hoff, Option.some.injEq, Prod.mk.injEq] at h
        exact ⟨k, rfl, Nat.not_lt.mp hoff, h.2.symm⟩

/-! ## Execution -/

theorem len_le_isizeMax (len : UInt32) : len.toNat ≤ isizeMax := by
  have := len.toNat_lt
  simp only [isizeMax]
  omega

theorem execute_eq (readOnly : Bool) (io : Transfer) (mem : GuestMemory) (image : Image)
    (reqType : UInt32) (offset : UInt64) (d : Descriptor) :
    execute readOnly io mem image reqType offset d =
      if reqType = tIn then
        if d.isWrite then
          match readAt image d.len.toNat offset io with
          | some (_, buf) =>
              if mem.Wraps d.addr.toNat d.len.toNat then .error .wild
              else .ok (sOk, mem.store d.addr.toNat buf, image)
          | none => .ok (sIoerr, mem, image)
        else .ok (sIoerr, mem, image)
      else if reqType = tOut then
        if readOnly then .ok (sIoerr, mem, image)
        else if mem.Mapped d.addr.toNat d.len.toNat then
          match writeAt image (mem.load d.addr.toNat d.len.toNat) offset io with
          | some (_, image') => .ok (sOk, mem, image')
          | none => .ok (sIoerr, mem, image)
        else if mem.Wraps d.addr.toNat d.len.toNat then .error .wild
        else .ok (sIoerr, mem, image)
      else if reqType = tFlush then .ok (sOk, mem, image)
      else if reqType = tGetId then
        if d.isWrite && 20 ≤ d.len then
          if mem.Wraps d.addr.toNat 20 then .error .wild
          else .ok (sOk, mem.store d.addr.toNat deviceId, image)
        else .ok (sOk, mem, image)
      else .ok (sUnsupp, mem, image) := by
  have hlen := len_le_isizeMax d.len
  have hlen64 : d.len.toUInt64.toNat = d.len.toNat := by simp
  simp only [execute, bind, Except.bind, pure, Except.pure]
  by_cases hin : reqType = tIn
  · simp only [if_pos hin]
    cases hr : readAt image d.len.toNat offset io with
    | none => rfl
    | some pair =>
        obtain ⟨n, buf⟩ := pair
        obtain ⟨k, -, -, rfl⟩ := readAt_cases hr
        simp only [GuestMemory.writeSliceIgnored_eq _ _ _ (show (readBuf image d.len.toNat
          offset.toNat k).length ≤ isizeMax by simpa using hlen), readBuf_length]
        by_cases hw : mem.Wraps d.addr.toNat d.len.toNat
        · simp only [if_pos hw]
        · simp only [if_neg hw]
  simp only [if_neg hin]
  by_cases hout : reqType = tOut
  · simp only [if_pos hout,
      GuestMemory.readSlice_eq _ _ _ (show d.len.toUInt64.toNat ≤ isizeMax by rwa [hlen64]),
      hlen64]
    cases readOnly with
    | true => rfl
    | false =>
        by_cases hm : mem.Mapped d.addr.toNat d.len.toNat
        · simp only [if_pos hm]
          rfl
        · by_cases hw : mem.Wraps d.addr.toNat d.len.toNat
          · simp only [if_neg hm, if_pos hw]
            rfl
          · simp only [if_neg hm, if_neg hw]
            rfl
  simp only [if_neg hout]
  by_cases hid : reqType = tGetId
  · have hfl : ¬ reqType = tFlush := by rw [hid]; decide
    simp only [if_neg hfl, if_pos hid,
      GuestMemory.writeSliceIgnored_eq _ deviceId _ (show deviceId.length ≤ isizeMax by decide)]
    have h20 : deviceId.length = 20 := rfl
    rw [h20]
    by_cases hw : mem.Wraps d.addr.toNat 20
    · simp only [if_pos hw]
    · simp only [if_neg hw]
  · simp only [if_neg hid]

/-- The effects a request can have: status, memory and image after it. -/
inductive Executed (readOnly : Bool) (io : Transfer) (mem : GuestMemory) (image : Image)
    (reqType : UInt32) (offset : UInt64) (d : Descriptor) : UInt8 → GuestMemory → Image → Prop
  | read (k : Nat) (type : reqType = tIn) (write : d.isWrite = true) (moved : io = some k)
      (seek : offset.toNat ≤ isizeMax) (ok : ¬ mem.Wraps d.addr.toNat d.len.toNat) :
      Executed readOnly io mem image reqType offset d sOk
        (mem.store d.addr.toNat (readBuf image d.len.toNat offset.toNat k)) image
  | write (k : Nat) (type : reqType = tOut) (writable : readOnly = false) (moved : io = some k)
      (seek : offset.toNat ≤ isizeMax) (ok : mem.Mapped d.addr.toNat d.len.toNat) :
      Executed readOnly io mem image reqType offset d sOk mem
        (splice image offset.toNat ((mem.load d.addr.toNat d.len.toNat).take k))
  | getId (type : reqType = tGetId) (write : d.isWrite = true) (room : 20 ≤ d.len)
      (ok : ¬ mem.Wraps d.addr.toNat 20) :
      Executed readOnly io mem image reqType offset d sOk (mem.store d.addr.toNat deviceId) image
  | nothing (status : UInt8) (failed : reqType = tIn ∨ reqType = tOut → status = sIoerr) :
      Executed readOnly io mem image reqType offset d status mem image

theorem execute_cases {readOnly : Bool} {io : Transfer} {mem mem' : GuestMemory}
    {image image' : Image} {reqType : UInt32} {offset : UInt64} {d : Descriptor} {status : UInt8}
    (h : execute readOnly io mem image reqType offset d = .ok (status, mem', image')) :
    Executed readOnly io mem image reqType offset d status mem' image' := by
  have hin_out : reqType = tIn → reqType = tOut → False := by
    rintro rfl h
    exact absurd h (by decide)
  rw [execute_eq] at h
  by_cases hin : reqType = tIn
  · rw [if_pos hin] at h
    split at h
    · rename_i hwrite
      split at h
      · rename_i n buf hread
        obtain ⟨k, hio, hoff, rfl⟩ := readAt_cases hread
        split at h
        · cases h
        · rename_i hw
          cases h
          exact .read k hin hwrite hio hoff hw
      · cases h
        exact .nothing _ fun _ => rfl
    · cases h
      exact .nothing _ fun _ => rfl
  rw [if_neg hin] at h
  by_cases hout : reqType = tOut
  · rw [if_pos hout] at h
    cases readOnly with
    | true =>
        cases h
        exact .nothing _ fun _ => rfl
    | false =>
        simp only [Bool.false_eq_true, if_false] at h
        split at h
        · rename_i hm
          split at h
          · rename_i n image'' hwrite
            obtain ⟨k, hio, hoff, rfl⟩ := writeAt_cases hwrite
            cases h
            exact .write k hout rfl hio hoff hm
          · cases h
            exact .nothing _ fun _ => rfl
        · split at h
          · cases h
          · cases h
            exact .nothing _ fun _ => rfl
  have hother : ∀ st, reqType = tIn ∨ reqType = tOut → st = sIoerr := fun _ h' =>
    absurd h' (not_or.mpr ⟨hin, hout⟩)
  rw [if_neg hout] at h
  split at h
  · cases h
    exact .nothing _ (hother _)
  · split at h
    · rename_i hid
      split at h
      · rename_i hroom
        simp only [Bool.and_eq_true, decide_eq_true_eq] at hroom
        split at h
        · cases h
        · rename_i hw
          cases h
          exact .getId hid hroom.1 hroom.2 hw
      · cases h
        exact .nothing _ (hother _)
    · cases h
      exact .nothing _ (hother _)

theorem execute_error {readOnly : Bool} {io : Transfer} {mem : GuestMemory} {image : Image}
    {reqType : UInt32} {offset : UInt64} {d : Descriptor} {why : Halt}
    (h : execute readOnly io mem image reqType offset d = .error why) :
    (d.isWrite = true ∨ readOnly = false) ∧ mem.Wraps d.addr.toNat d.len.toNat ∨
      d.isWrite = true ∧ 20 ≤ d.len ∧ mem.Wraps d.addr.toNat 20 := by
  rw [execute_eq] at h
  split at h
  · split at h
    · rename_i hwrite
      split at h
      · split at h
        · rename_i hw
          exact Or.inl ⟨Or.inl hwrite, hw⟩
        · cases h
      · cases h
    · cases h
  split at h
  · cases readOnly with
    | true => cases h
    | false =>
        simp only [Bool.false_eq_true, if_false] at h
        split at h
        · split at h <;> cases h
        · split at h
          · rename_i hw
            exact Or.inl ⟨Or.inr rfl, hw⟩
          · cases h
  split at h
  · cases h
  split at h
  · split at h
    · rename_i hroom
      simp only [Bool.and_eq_true, decide_eq_true_eq] at hroom
      split at h
      · rename_i hw
        exact Or.inr ⟨hroom.1, hroom.2, hw⟩
      · cases h
    · cases h
  · cases h

/-! ## Requests -/

def reqTypeAt (mem : GuestMemory) (hdrDesc : Descriptor) : UInt32 :=
  UInt32.ofNat (leNat ((mem.load hdrDesc.addr.toNat 16).take 4))

def sectorAt (mem : GuestMemory) (hdrDesc : Descriptor) : UInt64 :=
  UInt64.ofNat (leNat (((mem.load hdrDesc.addr.toNat 16).drop 8).take 8))

/-- What a served request did: it executed, and the status byte went to the last
descriptor. -/
structure Served (readOnly : Bool) (io : Transfer) (mem : GuestMemory) (image : Image)
    (hdrDesc dataDesc statusDesc : Descriptor) (c : Completion) (mid : GuestMemory) : Prop where
  header : mem.Mapped hdrDesc.addr.toNat 16
  reqType : c.reqType = reqTypeAt mem hdrDesc
  sector : c.sector = sectorAt mem hdrDesc
  executed : execute readOnly io mem image (reqTypeAt mem hdrDesc)
    (sectorAt mem hdrDesc * sectorSize) dataDesc = .ok (c.status, mid, c.image)
  statusOk : ¬ mem.Wraps statusDesc.addr.toNat 1
  after : c.mem = mid.store statusDesc.addr.toNat [c.status]
  usedLen : c.usedLen = if reqTypeAt mem hdrDesc = tIn then dataDesc.len else 0

theorem Executed.ramEnd {readOnly : Bool} {io : Transfer} {mem mem' : GuestMemory}
    {image image' : Image} {reqType : UInt32} {offset : UInt64} {d : Descriptor} {status : UInt8}
    (h : Executed readOnly io mem image reqType offset d status mem' image') :
    mem'.ramEnd = mem.ramEnd := by
  cases h <;> simp

theorem serve_eq (readOnly : Bool) (io : Transfer) (mem : GuestMemory) (image : Image)
    (hdrDesc dataDesc statusDesc : Descriptor) :
    serve readOnly io mem image hdrDesc dataDesc statusDesc =
      if mem.Mapped hdrDesc.addr.toNat 16 then
        match execute readOnly io mem image (reqTypeAt mem hdrDesc)
            (sectorAt mem hdrDesc * sectorSize) dataDesc with
        | .error why => .error why
        | .ok (status, mid, image') =>
            if mid.Wraps statusDesc.addr.toNat 1 then .error .wild
            else .ok (some
              { reqType := reqTypeAt mem hdrDesc
                sector := sectorAt mem hdrDesc
                status := status
                usedLen := if reqTypeAt mem hdrDesc = tIn then dataDesc.len else 0
                mem := mid.store statusDesc.addr.toNat [status]
                image := image' })
      else if mem.Wraps hdrDesc.addr.toNat 16 then .error .wild
      else .ok none := by
  have h16 : (16 : UInt64).toNat = 16 := rfl
  simp only [serve, bind, Except.bind, pure, Except.pure,
    GuestMemory.readSlice_eq _ _ _ (show (16 : UInt64).toNat ≤ isizeMax by decide), h16]
  by_cases hm : mem.Mapped hdrDesc.addr.toNat 16
  · simp only [if_pos hm, reqTypeAt, sectorAt]
    cases execute readOnly io mem image
        (UInt32.ofNat (leNat ((mem.load hdrDesc.addr.toNat 16).take 4)))
        (UInt64.ofNat (leNat (((mem.load hdrDesc.addr.toNat 16).drop 8).take 8)) * sectorSize)
        dataDesc with
    | error why => rfl
    | ok triple =>
        obtain ⟨status, mid, image'⟩ := triple
        dsimp only
        rw [GuestMemory.writeSliceIgnored_eq _ [status] _ (by simp [isizeMax])]
        by_cases hw : mid.Wraps statusDesc.addr.toNat 1
        · simp only [List.length_singleton, if_pos hw]
        · simp only [List.length_singleton, if_neg hw]
          rfl
  · by_cases hw : mem.Wraps hdrDesc.addr.toNat 16
    · simp only [if_neg hm, if_pos hw]
    · simp only [if_neg hm, if_neg hw]

theorem serve_served {readOnly : Bool} {io : Transfer} {mem : GuestMemory} {image : Image}
    {hdrDesc dataDesc statusDesc : Descriptor} {c : Completion}
    (h : serve readOnly io mem image hdrDesc dataDesc statusDesc = .ok (some c)) :
    ∃ mid, Served readOnly io mem image hdrDesc dataDesc statusDesc c mid := by
  rw [serve_eq] at h
  split at h
  · rename_i hm
    split at h
    · cases h
    · rename_i status mid image' hexec
      split at h
      · cases h
      · rename_i hw
        cases h
        have hend := (execute_cases hexec).ramEnd
        refine ⟨mid, hm, rfl, rfl, hexec, ?_, rfl, rfl⟩
        simpa only [GuestMemory.Wraps, hend] using hw
  · split at h
    · cases h
    · cases h

theorem Served.ramEnd {readOnly : Bool} {io : Transfer} {mem mid : GuestMemory} {image : Image}
    {hdrDesc dataDesc statusDesc : Descriptor} {c : Completion}
    (h : Served readOnly io mem image hdrDesc dataDesc statusDesc c mid) :
    c.mem.ramEnd = mem.ramEnd := by
  rw [h.after, GuestMemory.ramEnd_store, (execute_cases h.executed).ramEnd]

theorem machine_ramEnd (s : BlkSystem) (a : BlkAction) :
    (machine.step s a).1.mem.ramEnd = s.mem.ramEnd := by
  cases a with
  | mmioRead offset => rfl
  | mmioWrite offset val => rfl
  | store addr data => simp [machine]
  | dataplane io =>
      change (s.dataplaneStep io).1.mem.ramEnd = _
      rcases s.dataplaneStep_effect io with
        ⟨kick, pc, h⟩ | ⟨-, q, pc, -, h⟩ | ⟨head, usedLen, added, q, mem, irqStatus, pc, hadd, h⟩ |
          ⟨head, hdrDesc, dataDesc, rest, c, -, hs, h⟩
      · rw [h]
      · rw [h, BlkSystem.withQueue]
      · rw [h]
        exact Virtqueue.addUsed_ramEnd hadd
      · obtain ⟨mid, hserved⟩ := serve_served hs
        rw [h]
        exact hserved.ramEnd

end Caiman.Vmm.Blk
