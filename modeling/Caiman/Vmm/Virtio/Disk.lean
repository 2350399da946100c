import Caiman.Lib.File
import Caiman.Vmm.Virtio.Request

/-!
# Frame of the disk image

Which image bytes a run can change. The dataplane multiplies the sector by 512
in `u64` and hands the product to `pwrite` without looking at the capacity it
advertises; the runs below are those in which every request that writes has a
data descriptor and stays, in exact arithmetic, inside that capacity. On them
the file keeps its length and only the ranges of such requests change.
-/

namespace Caiman.Vmm.Blk

open Lib

/-- The data descriptors of a request: all but the header and the status. -/
def dataDescs (chain : List Descriptor) : List Descriptor := chain.tail.dropLast

def dataLen (chain : List Descriptor) : Nat := ((dataDescs chain).map (·.len.toNat)).sum

/-- Capacity in bytes, from the sector count at config offset 0x100. -/
def capacity (sectorCount : UInt64) : Nat := sectorCount.toNat * 512

/-- The whole range of the request lies inside the capacity. -/
def InCapacity (sectorCount sector : UInt64) (chain : List Descriptor) : Prop :=
  sector.toNat * 512 + dataLen chain ≤ capacity sectorCount

instance (sectorCount sector : UInt64) (chain : List Descriptor) :
    Decidable (InCapacity sectorCount sector chain) :=
  inferInstanceAs (Decidable (_ ≤ _))

/-! ## Splicing -/

/-- The writes of the dataplane are the writes of a file. -/
theorem splice_eq_overwrite (image : Image) (offset : Nat) (put : List UInt8) :
    splice image offset put = overwrite image offset put := rfl

theorem splice_length {image : Image} {offset : Nat} {put : List UInt8}
    (h : offset + put.length ≤ image.length) :
    (splice image offset put).length = image.length :=
  overwrite_length h

theorem splice_getElem?_of_not_mem {image : Image} {offset : Nat} {put : List UInt8}
    (h : offset + put.length ≤ image.length) {x : Nat}
    (hx : x < offset ∨ offset + put.length ≤ x) :
    (splice image offset put)[x]? = image[x]? := by
  rw [splice_eq_overwrite, overwrite_getElem? h, if_neg (by omega)]

theorem splice_getElem?_of_mem {image : Image} {offset : Nat} {put : List UInt8} {i : Nat}
    (hi : i < put.length) : (splice image offset put)[offset + i]? = put[i]? :=
  overwrite_getElem?_of_mem hi

/-- Behind the range a splice puts there is only what the image had. -/
theorem splice_getElem?_of_le {image : Image} {offset : Nat} {put : List UInt8} {x : Nat}
    (hx : offset + put.length ≤ x) (hend : image.length ≤ x) :
    (splice image offset put)[x]? = none := by
  rw [splice_eq_overwrite, List.getElem?_eq_none_iff]
  exact (overwrite_length_le image offset put).trans (Nat.max_le.mpr ⟨hend, hx⟩)

/-! ## Requests that write -/

/-- The bytes the request of `hdrDesc` and `dataDesc` puts in the image. -/
def putBytes (readOnly : Bool) (io : Transfer) (mem : GuestMemory)
    (hdrDesc dataDesc : Descriptor) : List UInt8 :=
  match io with
  | none => []
  | some k =>
      if mem.Mapped hdrDesc.addr.toNat 16 ∧ reqTypeAt mem hdrDesc = tOut ∧ readOnly = false ∧
          (sectorAt mem hdrDesc * sectorSize).toNat ≤ isizeMax ∧
          mem.Mapped dataDesc.addr.toNat dataDesc.len.toNat then
        (mem.load dataDesc.addr.toNat dataDesc.len.toNat).take k
      else []

theorem putBytes_length_le (readOnly : Bool) (io : Transfer) (mem : GuestMemory)
    (hdrDesc dataDesc : Descriptor) :
    (putBytes readOnly io mem hdrDesc dataDesc).length ≤ dataDesc.len.toNat := by
  unfold putBytes
  split
  · exact Nat.zero_le _
  · split
    · simp
    · exact Nat.zero_le _

theorem Executed.image_eq {readOnly : Bool} {io : Transfer} {mem mem' : GuestMemory}
    {image image' : Image} {reqType : UInt32} {offset : UInt64} {d : Descriptor} {status : UInt8}
    (h : Executed readOnly io mem image reqType offset d status mem' image') :
    image' = image ∨ ∃ k, reqType = tOut ∧ readOnly = false ∧ io = some k ∧
      offset.toNat ≤ isizeMax ∧ mem.Mapped d.addr.toNat d.len.toNat ∧
      image' = splice image offset.toNat ((mem.load d.addr.toNat d.len.toNat).take k) := by
  cases h with
  | read | getId | nothing => exact Or.inl rfl
  | write k type writable moved seek ok =>
      exact Or.inr ⟨k, type, writable, moved, seek, ok, rfl⟩

theorem Served.image_eq {readOnly : Bool} {io : Transfer} {mem mid : GuestMemory} {image : Image}
    {hdrDesc dataDesc statusDesc : Descriptor} {c : Completion}
    (h : Served readOnly io mem image hdrDesc dataDesc statusDesc c mid) :
    c.image = image ∨ c.reqType = tOut ∧
      c.image = splice image (c.sector * sectorSize).toNat
        (putBytes readOnly io mem hdrDesc dataDesc) := by
  rw [h.reqType, h.sector]
  rcases (execute_cases h.executed).image_eq with himg | ⟨k, htype, hro, hio, hoff, hm, himg⟩
  · exact Or.inl himg
  · refine Or.inr ⟨htype, himg.trans ?_⟩
    simp only [putBytes, hio, h.header, htype, hro, hoff, hm, and_self, if_true]

/-- The step does not write past what the device advertises: a request that puts
bytes in the image has a data descriptor and its range is inside the capacity. -/
def withinDisk (s : BlkSystem) : BlkAction → Bool
  | .dataplane io =>
      match s.pc with
      | .serve _ (hdrDesc :: dataDesc :: rest) =>
          putBytes s.readOnly io s.mem hdrDesc dataDesc = [] ||
            rest ≠ [] && InCapacity s.state.sectorCount (sectorAt s.mem hdrDesc)
              (hdrDesc :: dataDesc :: rest)
      | _ => true
  | _ => true

theorem rest_ne_nil {hdrDesc dataDesc : Descriptor} {rest : List Descriptor} {p : Nat}
    (hp : p < dataLen (hdrDesc :: dataDesc :: rest)) : rest ≠ [] := by
  rintro rfl
  simp [dataLen, dataDescs] at hp

theorem dataLen_cons (hdrDesc dataDesc : Descriptor) {rest : List Descriptor} (h : rest ≠ []) :
    dataDesc.len.toNat ≤ dataLen (hdrDesc :: dataDesc :: rest) := by
  have hdata : dataDescs (hdrDesc :: dataDesc :: rest) = dataDesc :: rest.dropLast := by
    simp [dataDescs, List.dropLast_cons_of_ne_nil h]
  rw [dataLen, hdata, List.map_cons, List.sum_cons]
  exact Nat.le_add_right _ _

/-- Byte `x` belongs to a write request of the trace whose range is inside the
capacity. -/
def Written (sectorCount : UInt64) (events : List Event) (x : Nat) : Prop :=
  ∃ sector chain, .request tOut sector chain ∈ events ∧
    sector.toNat * 512 ≤ x ∧ x < sector.toNat * 512 + dataLen chain ∧
    InCapacity sectorCount sector chain

/-- From one image to another the length is kept and only written bytes change. -/
structure Framed (sectorCount : UInt64) (events : List Event) (image image' : Image) : Prop where
  length : image'.length = image.length
  changed : ∀ x, image'[x]? ≠ image[x]? → Written sectorCount events x

theorem Framed.refl (sectorCount : UInt64) (events : List Event) (image : Image) :
    Framed sectorCount events image image := ⟨rfl, fun _ h => absurd rfl h⟩

theorem Written.append {sectorCount : UInt64} {es fs : List Event} {x : Nat}
    (h : Written sectorCount es x ∨ Written sectorCount fs x) :
    Written sectorCount (es ++ fs) x := by
  rcases h with ⟨sector, chain, hmem, hrest⟩ | ⟨sector, chain, hmem, hrest⟩
  · exact ⟨sector, chain, List.mem_append_left _ hmem, hrest⟩
  · exact ⟨sector, chain, List.mem_append_right _ hmem, hrest⟩

theorem Framed.trans {sectorCount : UInt64} {es fs : List Event} {first second third : Image}
    (h : Framed sectorCount es first second) (h' : Framed sectorCount fs second third) :
    Framed sectorCount (es ++ fs) first third where
  length := h'.length.trans h.length
  changed := by
    intro x hx
    by_cases hfirst : second[x]? = first[x]?
    · exact Written.append (Or.inr (h'.changed x (by rwa [hfirst])))
    · exact Written.append (Or.inl (h.changed x hfirst))

theorem capacity_le (length : Nat) : capacity (UInt64.ofNat length / sectorSize) ≤ length := by
  have h512 : sectorSize.toNat = 512 := rfl
  rw [capacity, UInt64.toNat_div, h512, UInt64.toNat_ofNat']
  have := Nat.mod_le length (2 ^ 64)
  omega

theorem capacity_lt (fileLen : UInt64) : capacity (fileLen / sectorSize) < 2 ^ 64 := by
  have h512 : sectorSize.toNat = 512 := rfl
  have hlt := fileLen.toNat_lt
  rw [capacity, UInt64.toNat_div, h512]
  omega

/-- The sector count is the one computed when the image was opened, and the file
has kept its length. -/
structure Sized (image : Image) (s : BlkSystem) : Prop where
  sectorCount : s.state.sectorCount = UInt64.ofNat image.length / sectorSize
  length : s.image.length = image.length

theorem offset_eq {sectorCount sector : UInt64} {chain : List Descriptor}
    (h : InCapacity sectorCount sector chain) (hcap : capacity sectorCount < 2 ^ 64) :
    (sector * sectorSize).toNat = sector.toNat * 512 := by
  have h512 : sectorSize.toNat = 512 := rfl
  rw [UInt64.toNat_mul, h512]
  refine Nat.mod_eq_of_lt ?_
  simp only [InCapacity] at h
  omega

/-! ## Runs -/

/-- What the device was opened with never changes. -/
theorem machine_opened (s : BlkSystem) (a : BlkAction) :
    (machine.step s a).1.state.sectorCount = s.state.sectorCount ∧
      (machine.step s a).1.state.readOnly = s.state.readOnly := by
  cases a with
  | mmioRead offset => exact ⟨rfl, rfl⟩
  | mmioWrite offset val =>
      simp only [machine, BlkState.mmioWrite]
      split <;> exact ⟨rfl, rfl⟩
  | store addr data => exact ⟨rfl, rfl⟩
  | dataplane io =>
      simp only [machine]
      rcases s.dataplaneStep_effect io with
        ⟨kick, pc, h⟩ | ⟨-, q, pc, -, h⟩ | ⟨head, usedLen, added, q, mem, irqStatus, pc, -, h⟩ |
          ⟨head, hdrDesc, dataDesc, rest, c, -, -, h⟩
      all_goals simp only [h, BlkSystem.withQueue, and_self]

theorem machine_image (s : BlkSystem) (a : BlkAction) :
    (machine.step s a).1.image = s.image ∨
      ∃ io head hdrDesc dataDesc rest c, a = .dataplane io ∧
        s.pc = .serve head (hdrDesc :: dataDesc :: rest) ∧
        serve s.readOnly io s.mem s.image hdrDesc dataDesc
          (BlkSystem.statusDesc dataDesc rest) = .ok (some c) ∧
        (machine.step s a).1.image = c.image ∧
        (machine.step s a).2 = [.request c.reqType c.sector (hdrDesc :: dataDesc :: rest)] := by
  cases a with
  | mmioRead offset => exact Or.inl rfl
  | mmioWrite offset val => exact Or.inl rfl
  | store addr data => exact Or.inl rfl
  | dataplane io =>
      simp only [machine]
      rcases s.dataplaneStep_effect io with
        ⟨kick, pc, h⟩ | ⟨-, q, pc, -, h⟩ | ⟨head, usedLen, added, q, mem, irqStatus, pc, -, h⟩ |
          ⟨head, hdrDesc, dataDesc, rest, c, hpc, hserve, h⟩
      · exact Or.inl (by rw [h])
      · exact Or.inl (by rw [h]; rfl)
      · exact Or.inl (by rw [h])
      · exact Or.inr ⟨io, head, hdrDesc, dataDesc, rest, c, rfl, hpc, hserve, by rw [h],
          by rw [h]⟩

theorem step_framed {image : Image} {s : BlkSystem} {a : BlkAction} (hs : Sized image s)
    (hok : withinDisk s a) :
    Framed s.state.sectorCount (machine.step s a).2 s.image (machine.step s a).1.image := by
  rcases machine_image s a with
    himg | ⟨io, head, hdrDesc, dataDesc, rest, c, rfl, hpc, hserve, himg, htrace⟩
  · rw [himg]
    exact Framed.refl _ _ _
  obtain ⟨mid, hserved⟩ := serve_served hserve
  rw [himg, htrace]
  rcases hserved.image_eq with hsame | ⟨htype, hsplice⟩
  · rw [hsame]
    exact Framed.refl _ _ _
  by_cases hput : putBytes s.readOnly io s.mem hdrDesc dataDesc = []
  · rw [hsplice, hput, splice, if_pos rfl]
    exact Framed.refl _ _ _
  -- the request puts bytes, so it is inside the capacity and its offset is exact
  obtain ⟨hrest, hcap⟩ : rest ≠ [] ∧ InCapacity s.state.sectorCount (sectorAt s.mem hdrDesc)
      (hdrDesc :: dataDesc :: rest) := by
    simpa [withinDisk, hpc, hput] using hok
  rw [← hserved.sector] at hcap
  have hlen := putBytes_length_le s.readOnly io s.mem hdrDesc dataDesc
  have hdata := dataLen_cons hdrDesc dataDesc hrest
  have hle := capacity_le image.length
  rw [← hs.sectorCount, ← hs.length] at hle
  have hcap' := hcap
  simp only [InCapacity] at hcap'
  rw [hsplice, offset_eq hcap (hs.sectorCount ▸ capacity_lt _), htype]
  constructor
  · exact splice_length (by omega)
  · intro x hx
    by_contra hnot
    refine hx (splice_getElem?_of_not_mem (by omega) ?_)
    by_contra hin
    rw [not_or, Nat.not_lt, Nat.not_le] at hin
    exact hnot ⟨c.sector, hdrDesc :: dataDesc :: rest, List.mem_singleton.mpr rfl, hin.1,
      Nat.lt_of_lt_of_le hin.2 (Nat.add_le_add_left (Nat.le_trans hlen hdata) _), hcap⟩

theorem step_sized {image : Image} {s : BlkSystem} {a : BlkAction} (hs : Sized image s)
    (hok : withinDisk s a) : Sized image (machine.step s a).1 where
  sectorCount := (machine_opened s a).1.trans hs.sectorCount
  length := (step_framed hs hok).length.trans hs.length

/-- The frame of the disk along a run: at every step, and from its start to its
end, the file keeps its length and only bytes of write requests inside the
capacity change. -/
structure DiskFrame (s : BlkSystem) (as : List BlkAction) : Prop where
  step : machine.AllSteps (fun s' a => Framed s.state.sectorCount (machine.step s' a).2 s'.image
    (machine.step s' a).1.image) s as
  run : Framed s.state.sectorCount (machine.run s as).2 s.image (machine.run s as).1.image

theorem run_framed {image : Image} {s : BlkSystem} {as : List BlkAction} (hs : Sized image s)
    (hall : machine.AllSteps (withinDisk · ·) s as) : DiskFrame s as := by
  induction as generalizing s with
  | nil => exact ⟨trivial, Framed.refl _ _ _⟩
  | cons a as ih =>
      have hfirst := step_framed hs hall.1
      have hrest := ih (step_sized hs hall.1) hall.2
      have hcount := (machine_opened s a).1
      refine ⟨⟨hfirst, ?_⟩, ?_⟩
      · simpa only [hcount] using hrest.step
      · rw [Machine.run_cons]
        refine hfirst.trans ?_
        simpa only [hcount] using hrest.run

/-- A write of four bytes at the sector whose little-endian bytes are given. -/
def writeRun (sector : List UInt8) : List BlkAction :=
  requestRun [⟨0x3000, 16, 1, 1⟩, ⟨0x3000, 4, 1, 2⟩, ⟨0x5000, 1, 2, 0⟩]
    ([1, 0, 0, 0, 0, 0, 0, 0] ++ sector) [none, none, some 4, none]

end Caiman.Vmm.Blk
