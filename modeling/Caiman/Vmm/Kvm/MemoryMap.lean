import Caiman.Vmm.Kvm.Confinement
import Caiman.Vmm.Kvm.Loader

/-!
# The memory map of the guest

The E820 table describes in three entries what `GuestMemory` holds in two
regions. The second entry, 640 KiB to 1 MiB, is given as RAM and lies between
the regions.
-/

namespace Caiman.Vmm

open Lib

theorem Load.bind_eq_ok {α β : Type} {x : Load α} {f : α → Load β} {b : β} :
    (x >>= f) = .ok b ↔ ∃ a, x = .ok a ∧ f a = .ok b := by
  cases x with
  | error e =>
      constructor
      · intro h
        cases h
      · intro h
        obtain ⟨a, ha, -⟩ := h
        cases ha
  | ok a =>
      constructor
      · exact fun h => ⟨a, rfl, h⟩
      · intro h
        obtain ⟨a', ha, hf⟩ := h
        cases ha
        exact hf

namespace GuestMemory

theorem put_ok {g g' : GuestMemory} {data : List UInt8} {addr : UInt64}
    (h : g.put data addr = .ok g') :
    g.Mapped addr.toNat data.length ∧ g' = g.store addr.toNat data := by
  have hwrite : g.writeSlice data addr = .ok (some g') := by
    unfold put at h
    split at h
    · rename_i hw
      cases h
      exact hw
    · cases h
    · cases h
  have hlen : data.length ≤ isizeMax := by
    unfold writeSlice at hwrite
    split at hwrite
    · cases hwrite
    · rename_i region hfind
      dsimp only at hwrite
      split at hwrite
      · rename_i hle
        have hmem : region ∈ g.regions := List.mem_of_find?_eq_some hfind
        rcases List.mem_pair.mp hmem with rfl | rfl
        · rw [g.low_size] at hle
          have hlow : lowSize.toNat = 655360 := rfl
          simp only [isizeMax]
          omega
        · have := g.high_size
          omega
      · cases hwrite
  rw [writeSlice_eq g data addr hlen] at hwrite
  split at hwrite
  · rename_i hmapped
    cases hwrite
    exact ⟨hmapped, rfl⟩
  · split at hwrite
    · cases hwrite
    · cases hwrite

theorem put_ramEnd {g g' : GuestMemory} {data : List UInt8} {addr : UInt64}
    (h : g.put data addr = .ok g') : g'.ramEnd = g.ramEnd := by
  rw [(put_ok h).2, ramEnd_store]

end GuestMemory

theorem loadBzimage_ok {g g' : GuestMemory} {kernel : Option (List UInt8)} {cmdline : List UInt8}
    {initrd : Option (Option (List UInt8))} {memMib : UInt64} {k : KernelLoader}
    (h : loadBzimage g kernel cmdline initrd memMib = .ok (g', k)) :
    ∃ kernelBytes hdr kernelOffset g₁ g₂ g₃ g₄,
      kernel = some kernelBytes ∧ parseBootHeader kernelBytes = .ok hdr ∧
      checkHeader hdr kernelBytes.length = .ok kernelOffset ∧
      g.put (kernelBytes.drop kernelOffset) (loadAddr hdr) = .ok g₁ ∧
      loadInitrd g₁ hdr initrd = .ok (g₂, k.initrdStart, k.initrdSize) ∧
      cmdline.length ≤ cmdlineMax ∧
      g₂.put (cmdline ++ [0]) cmdlineAddr = .ok g₃ ∧
      writeBootParams g₃ (buildBootParams hdr memMib k.initrdStart k.initrdSize) = .ok g₄ ∧
      setupGdt g₄ = .ok g' ∧ k.entryPoint = loadAddr hdr ∧
      k.kernelEnd = loadAddr hdr + UInt64.ofNat (kernelBytes.drop kernelOffset).length := by
  cases kernel with
  | none => cases h
  | some kernelBytes =>
      obtain ⟨hdr, hparse, h⟩ := Load.bind_eq_ok.mp h
      obtain ⟨kernelOffset, hcheck, h⟩ := Load.bind_eq_ok.mp h
      obtain ⟨g₁, hkernel, h⟩ := Load.bind_eq_ok.mp h
      obtain ⟨⟨g₂, initrdStart, initrdSize⟩, hinitrd, h⟩ := Load.bind_eq_ok.mp h
      dsimp only at h
      split at h
      · cases h
      · rename_i hcmdline
        obtain ⟨g₃, hput, h⟩ := Load.bind_eq_ok.mp h
        obtain ⟨g₄, hparams, h⟩ := Load.bind_eq_ok.mp h
        obtain ⟨g₅, hgdt, h⟩ := Load.bind_eq_ok.mp h
        cases h
        exact ⟨kernelBytes, hdr, kernelOffset, g₁, g₂, g₃, g₄, rfl, hparse, hcheck, hkernel,
          hinitrd, Nat.le_of_not_lt hcmdline, hput, hparams, hgdt, rfl, rfl⟩

/-! ## Fields -/

namespace BootHeader

theorem setField_getElem? (h : BootHeader) (off width n i : Nat) :
    (h.setField off width n).bytes[i]? =
      if off ≤ hdrOffset + i ∧ hdrOffset + i < off + width then
        h.bytes[i]?.map fun _ => (leBytes width n).getD (hdrOffset + i - off) 0
      else h.bytes[i]? := by
  rw [setField, List.getElem?_mapIdx]
  split
  · rfl
  · simp

theorem field_lt (h : BootHeader) (off width : Nat) : h.field off width < 256 ^ width :=
  Nat.lt_of_lt_of_le (leNat_lt _) (Nat.pow_le_pow_right (by decide) (List.length_take_le _ _))

theorem field_setField_same (h : BootHeader) {off width n : Nat} (hlo : hdrOffset ≤ off)
    (hhi : off + width ≤ hdrOffset + hdrSize) (hn : n < 256 ^ width) :
    (h.setField off width n).field off width = n := by
  have hbytes : ((h.setField off width n).bytes.drop (off - hdrOffset)).take width =
      leBytes width n := by
    apply List.ext_getElem?
    intro i
    by_cases hi : i < width
    · have hin : off - hdrOffset + i < h.bytes.length := by
        rw [h.size]
        omega
      have hidx : hdrOffset + (off - hdrOffset + i) - off = i := by omega
      rw [List.getElem?_take_of_lt hi, List.getElem?_drop, setField_getElem?, if_pos (by omega),
        List.getElem?_eq_getElem hin, hidx]
      simp [hi]
    · rw [List.getElem?_take_eq_none (Nat.le_of_not_lt hi),
        List.getElem?_eq_none (by rw [leBytes_length]; omega)]
  rw [field, hbytes, leNat_leBytes hn]

theorem field_setField_other (h : BootHeader) {off width off' width' : Nat} (n : Nat)
    (hlo : hdrOffset ≤ off') (hd : off' + width' ≤ off ∨ off + width ≤ off') :
    (h.setField off width n).field off' width' = h.field off' width' := by
  have hbytes : ((h.setField off width n).bytes.drop (off' - hdrOffset)).take width' =
      (h.bytes.drop (off' - hdrOffset)).take width' := by
    apply List.ext_getElem?
    intro i
    by_cases hi : i < width'
    · rw [List.getElem?_take_of_lt hi, List.getElem?_take_of_lt hi, List.getElem?_drop,
        List.getElem?_drop, setField_getElem?, if_neg (by omega)]
    · rw [List.getElem?_take_eq_none (Nat.le_of_not_lt hi),
        List.getElem?_take_eq_none (Nat.le_of_not_lt hi)]
  rw [field, hbytes, field]

end BootHeader

/-! ## Zero page -/

section

variable (hdr : BootHeader) (memMib : UInt64) (initrdAddr : Option UInt64) (initrdSize : UInt64)

theorem entries_eq :
    (buildBootParams hdr memMib initrdAddr initrdSize).entries =
      [⟨0x00000000, 0x0009FC00, e820Ram⟩, ⟨0x000A0000, 0x00060000, e820Ram⟩,
        ⟨0x00100000, memMib * 1024 * 1024 - 0x00100000, e820Ram⟩] := rfl

theorem cmdLinePtr_eq :
    (buildBootParams hdr memMib initrdAddr initrdSize).hdr.cmdLinePtr = cmdlineAddr.toNat := by
  have hset : ∀ h : BootHeader,
      ((h.setField 0x228 4 cmdlineAddr.toNat).setField 0x238 4 cmdlineMax).cmdLinePtr =
        cmdlineAddr.toNat := by
    intro h
    rw [BootHeader.cmdLinePtr, BootHeader.field_setField_other _ _ (by decide) (by decide),
      BootHeader.field_setField_same _ (by decide) (by decide) (by decide)]
  simp only [buildBootParams]
  cases initrdAddr with
  | none => exact hset _
  | some addr =>
      rw [BootHeader.cmdLinePtr, BootHeader.field_setField_other _ _ (by decide) (by decide),
        BootHeader.field_setField_other _ _ (by decide) (by decide)]
      exact hset _

end

theorem ramdisk_eq (hdr : BootHeader) (memMib : UInt64) {addr size : UInt64}
    (haddr : addr.toNat < 2 ^ 32) (hsize : size.toNat < 2 ^ 32) :
    (buildBootParams hdr memMib (some addr) size).hdr.ramdiskImage = addr.toNat ∧
      (buildBootParams hdr memMib (some addr) size).hdr.ramdiskSize = size.toNat := by
  constructor
  · simp only [buildBootParams]
    rw [BootHeader.ramdiskImage, BootHeader.field_setField_other _ _ (by decide) (by decide),
      BootHeader.field_setField_same _ (by decide) (by decide) haddr]
  · simp only [buildBootParams]
    rw [BootHeader.ramdiskSize, BootHeader.field_setField_same _ (by decide) (by decide) hsize]

/-! ## RAM as announced -/

def E820Entry.Holds (e : E820Entry) (x : Nat) : Prop :=
  e.addr.toNat ≤ x ∧ x < e.addr.toNat + e.size.toNat

namespace BootParams

/-- The guest takes the address for RAM. -/
def Ram (p : BootParams) (x : Nat) : Prop := ∃ e ∈ p.entries, e.entryType = e820Ram ∧ e.Holds x

/-- What the table and the header announce is there: every RAM address lies in a region,
no address is announced twice, and the command line and the initrd lie in RAM. -/
structure Backed (p : BootParams) (g : GuestMemory) (cmdlineLen : Nat) : Prop where
  ram : ∀ x, p.Ram x → g.Mapped x 1
  disjoint : p.entries.Pairwise fun e e' => ∀ x, e.Holds x → ¬ e'.Holds x
  cmdline : ∀ x, p.hdr.cmdLinePtr ≤ x → x < p.hdr.cmdLinePtr + cmdlineLen → p.Ram x
  initrd : ∀ x, p.hdr.ramdiskImage ≤ x → x < p.hdr.ramdiskImage + p.hdr.ramdiskSize → p.Ram x

end BootParams

theorem entries_disjoint (hdr : BootHeader) (memMib : UInt64) (initrdAddr : Option UInt64)
    (initrdSize : UInt64) :
    (buildBootParams hdr memMib initrdAddr initrdSize).entries.Pairwise
      fun e e' => ∀ x, e.Holds x → ¬ e'.Holds x := by
  have hfirst : ((0x00000000 : UInt64).toNat, (0x0009FC00 : UInt64).toNat) = (0, 654336) := rfl
  have hhole : ((0x000A0000 : UInt64).toNat, (0x00060000 : UInt64).toNat) = (655360, 393216) := rfl
  have hhigh : (0x00100000 : UInt64).toNat = 1048576 := rfl
  obtain ⟨h1, h2⟩ := Prod.mk.inj hfirst
  obtain ⟨h3, h4⟩ := Prod.mk.inj hhole
  rw [entries_eq]
  refine List.pairwise_cons.mpr ⟨?_, List.pairwise_pair.mpr ?_⟩
  · intro e he x hx hother
    rcases List.mem_pair.mp he with rfl | rfl
    · simp only [E820Entry.Holds, h1, h2, h3, h4] at hx hother
      omega
    · simp only [E820Entry.Holds, h1, h2, hhigh] at hx hother
      omega
  · intro x hx hother
    simp only [E820Entry.Holds, h3, h4, hhigh] at hx hother
    omega

section

variable {mmapAnon : MmapAnon} {memMib : UInt64} {g : GuestMemory}
  (halloc : GuestMemory.alloc mmapAnon memMib = some g) (hdr : BootHeader)
  (initrdAddr : Option UInt64) (initrdSize : UInt64)

include halloc

/-- Three stretches of RAM: 639 KiB, the hole below 1 MiB, and the high region. -/
theorem ram_iff (x : Nat) :
    (buildBootParams hdr memMib initrdAddr initrdSize).Ram x ↔
      x < 0x9FC00 ∨ (0xA0000 ≤ x ∧ x < 0x100000) ∨ (0x100000 ≤ x ∧ x < g.ramEnd) := by
  have hhigh : (memMib * 1024 * 1024 - 0x00100000).toNat + 1048576 = g.ramEnd := by
    rw [← GuestMemory.alloc_highSize halloc, GuestMemory.ramEnd, Nat.add_comm]
    rfl
  rw [BootParams.Ram, entries_eq]
  simp only [List.mem_cons, List.not_mem_nil, or_false, exists_eq_or_imp, exists_eq_left,
    E820Entry.Holds, true_and]
  simp
  omega

/-- Exactly the hole below 1 MiB is announced as RAM with no region behind it. -/
theorem ram_backed_iff {x : Nat}
    (hx : (buildBootParams hdr memMib initrdAddr initrdSize).Ram x) :
    g.Mapped x 1 ↔ ¬ (0xA0000 ≤ x ∧ x < 0x100000) := by
  rw [ram_iff halloc] at hx
  rw [GuestMemory.mapped_iff]
  omega

/-- The hole is announced as RAM whatever is loaded. -/
theorem not_backed (len : Nat) :
    ¬ (buildBootParams hdr memMib initrdAddr initrdSize).Backed g len := by
  intro hbacked
  have hhole : g.Mapped 0xA0000 1 := by
    refine hbacked.ram 0xA0000 ?_
    rw [ram_iff halloc]
    omega
  rw [GuestMemory.mapped_iff] at hhole
  omega

/-- A command line short enough to be loaded lies in the first stretch of RAM. -/
theorem cmdline_ram {len : Nat} (hlen : len ≤ cmdlineMax + 1) {x : Nat}
    (hlo : (buildBootParams hdr memMib initrdAddr initrdSize).hdr.cmdLinePtr ≤ x)
    (hhi : x < (buildBootParams hdr memMib initrdAddr initrdSize).hdr.cmdLinePtr + len) :
    (buildBootParams hdr memMib initrdAddr initrdSize).Ram x := by
  rw [cmdLinePtr_eq] at hlo hhi
  rw [ram_iff halloc]
  have haddr : cmdlineAddr.toNat = 131072 := rfl
  simp only [cmdlineMax] at hlen
  omega

end

/-! ## Initrd -/

theorem pageDown_toNat (x : UInt64) : (x &&& ~~~0xFFF).toNat + x.toNat % 4096 = x.toNat := by
  have hsum : (x &&& ~~~0xFFF) + (x &&& 0xFFF) = x := by
    apply UInt64.eq_of_toBitVec_eq
    have hdisj : (x.toBitVec &&& ~~~0xFFF#64) &&& (x.toBitVec &&& 0xFFF#64) = 0#64 := by
      rw [BitVec.and_assoc, BitVec.and_comm (~~~0xFFF#64), BitVec.and_assoc, BitVec.and_not_self]
      simp
    change (x.toBitVec &&& ~~~0xFFF#64) + (x.toBitVec &&& 0xFFF#64) = x.toBitVec
    rw [BitVec.add_eq_or_of_and_eq_zero _ _ hdisj, ← BitVec.and_or_distrib_left,
      show ~~~0xFFF#64 ||| 0xFFF#64 = BitVec.allOnes 64 by decide, BitVec.and_allOnes]
  have hlow : (x &&& 0xFFF).toNat = x.toNat % 4096 := by
    rw [UInt64.toNat_and]
    exact Nat.and_two_pow_sub_one_eq_mod x.toNat 12
  have hle : (x &&& ~~~0xFFF).toNat ≤ x.toNat := by
    rw [UInt64.toNat_and]
    exact Nat.and_le_left
  have hx := congrArg UInt64.toNat hsum
  rw [UInt64.toNat_add, hlow] at hx
  have hlt := x.toNat_lt
  omega

theorem initrdTop_lt (g : GuestMemory) (hdr : BootHeader) : (initrdTop g hdr).toNat < 2 ^ 32 := by
  have hmax : (if 0 < hdr.initrdAddrMax then UInt64.ofNat hdr.initrdAddrMax
      else 0x38000000).toNat < 2 ^ 32 := by
    have hfield := hdr.field_lt 0x22C 4
    split
    · rw [BootHeader.initrdAddrMax, UInt64.toNat_ofNat_of_lt' (Nat.lt_trans hfield (by decide))]
      exact hfield
    · decide
  have hmin : ∀ a b : UInt64, (min a b).toNat ≤ a.toNat ∧ (min a b).toNat ≤ b.toNat := by
    intro a b
    rw [show min a b = if a ≤ b then a else b from rfl]
    split
    · rename_i h
      exact ⟨Nat.le_refl _, UInt64.le_iff_toNat_le.mp h⟩
    · rename_i h
      exact ⟨Nat.le_of_lt (UInt64.lt_iff_toNat_lt.mp (UInt64.not_le.mp h)), Nat.le_refl _⟩
  exact Nat.lt_of_le_of_lt (Nat.le_trans (hmin _ _).1 (hmin _ _).2) hmax

/-- An initrd that was written ends below 4 GiB: the subtraction did not wrap. -/
theorem initrd_bounds {g g' : GuestMemory} {hdr : BootHeader} {data : List UInt8}
    (h : g.put data (initrdAddr g hdr (UInt64.ofNat data.length)) = .ok g') :
    (initrdAddr g hdr (UInt64.ofNat data.length)).toNat + data.length < 2 ^ 32 := by
  obtain ⟨hmapped, -⟩ := GuestMemory.put_ok h
  have htop := initrdTop_lt g hdr
  have hend := g.ramEnd_bounds
  have hpage := pageDown_toNat (initrdTop g hdr - UInt64.ofNat data.length)
  have haddr : initrdAddr g hdr (UInt64.ofNat data.length) =
      (initrdTop g hdr - UInt64.ofNat data.length) &&& ~~~0xFFF := rfl
  rw [haddr] at hmapped ⊢
  rw [GuestMemory.mapped_iff] at hmapped
  have hlen : (UInt64.ofNat data.length).toNat = data.length :=
    UInt64.toNat_ofNat_of_lt' (show data.length < 2 ^ 64 by omega)
  rw [UInt64.toNat_sub, hlen] at hpage
  omega

section

variable {mmapAnon : MmapAnon} {memMib : UInt64} {g g' : GuestMemory} {kernelBytes : List UInt8}
  {hdr : BootHeader} {cmdline : List UInt8} {k : KernelLoader}

/-- An initrd placed below 640 KiB may reach into the last kilobyte, which no entry of
the table covers; one placed above 1 MiB lies in RAM. -/
theorem initrd_ram_iff (halloc : GuestMemory.alloc mmapAnon memMib = some g) {data : List UInt8}
    (hload : loadBzimage g (some kernelBytes) cmdline (some (some data)) memMib = .ok (g', k))
    (hparse : parseBootHeader kernelBytes = .ok hdr) (hne : data ≠ []) :
    (∀ x, (buildBootParams hdr memMib k.initrdStart k.initrdSize).hdr.ramdiskImage ≤ x →
        x < (buildBootParams hdr memMib k.initrdStart k.initrdSize).hdr.ramdiskImage +
          (buildBootParams hdr memMib k.initrdStart k.initrdSize).hdr.ramdiskSize →
        (buildBootParams hdr memMib k.initrdStart k.initrdSize).Ram x) ↔
      ∃ addr, k.initrdStart = some addr ∧
        (addr.toNat + data.length ≤ 0x9FC00 ∨ 0x100000 ≤ addr.toNat) := by
  obtain ⟨_, hdr', _, g₁, g₂, _, _, hkernel, hparse', -, hput, hinitrd, -⟩ := loadBzimage_ok hload
  cases hkernel
  cases hparse'.symm.trans hparse
  obtain ⟨g₃, hwrite, hresult⟩ := Load.bind_eq_ok.mp hinitrd
  obtain ⟨hstart, hsize⟩ := Prod.mk.inj (Prod.mk.inj (Except.ok.inj hresult)).2
  have hbound := initrd_bounds hwrite
  obtain ⟨hmapped, -⟩ := GuestMemory.put_ok hwrite
  have hpos := List.length_pos_iff.mpr hne
  have hlen : (UInt64.ofNat data.length).toNat = data.length :=
    UInt64.toNat_ofNat_of_lt' (show data.length < 2 ^ 64 by omega)
  have haddr : (initrdAddr g₁ hdr (UInt64.ofNat data.length)).toNat < 2 ^ 32 := by omega
  have hword : (UInt64.ofNat data.length).toNat < 2 ^ 32 := by omega
  obtain ⟨himage, hramsize⟩ := ramdisk_eq hdr memMib haddr hword
  rw [GuestMemory.mapped_iff, GuestMemory.put_ramEnd hput] at hmapped
  rw [← hstart, ← hsize, himage, hramsize, hlen]
  simp only [ram_iff halloc, Option.some.injEq, exists_eq_left']
  constructor
  · intro h
    have hfirst := h _ (Nat.le_refl _) (by omega)
    have hlast := h ((initrdAddr g₁ hdr (UInt64.ofNat data.length)).toNat + data.length - 1)
      (by omega) (by omega)
    omega
  · intro h x hlo hhi
    omega

/-- No load leaves a map that is backed: the 384 KiB below 1 MiB are announced as RAM and
lie in no region. They are all that is missing, no address is announced twice, and the
command line is where the header says. -/
theorem loaded_not_backed (halloc : GuestMemory.alloc mmapAnon memMib = some g)
    {initrd : Option (Option (List UInt8))}
    (hload : loadBzimage g (some kernelBytes) cmdline initrd memMib = .ok (g', k))
    (hparse : parseBootHeader kernelBytes = .ok hdr) :
    let p := buildBootParams hdr memMib k.initrdStart k.initrdSize
    ¬ p.Backed g (cmdline.length + 1) ∧
      (∀ x, p.Ram x → (g.Mapped x 1 ↔ ¬ (0xA0000 ≤ x ∧ x < 0x100000))) ∧
      p.entries.Pairwise (fun e e' => ∀ x, e.Holds x → ¬ e'.Holds x) ∧
      ∀ x, p.hdr.cmdLinePtr ≤ x → x < p.hdr.cmdLinePtr + (cmdline.length + 1) → p.Ram x := by
  obtain ⟨_, _, _, _, _, _, _, hkernel, hparse', -, -, -, hcmdline, -⟩ := loadBzimage_ok hload
  cases hkernel
  cases hparse'.symm.trans hparse
  refine ⟨not_backed halloc hdr k.initrdStart k.initrdSize _, ?_,
    entries_disjoint hdr memMib k.initrdStart k.initrdSize, ?_⟩
  · intro x hx
    exact ram_backed_iff halloc hdr k.initrdStart k.initrdSize hx
  · intro x hlo hhi
    exact cmdline_ram halloc hdr k.initrdStart k.initrdSize (by omega) hlo hhi

end

/-- A bzImage with one setup sector and protocol 2.02, and a single `hlt` behind it. -/
def tinyKernel : List UInt8 :=
  List.replicate hdrOffset 0 ++ [0x01] ++ List.replicate 12 0 ++ [0x55, 0xAA, 0x00, 0x00] ++
    [0x48, 0x64, 0x72, 0x53, 0x02, 0x02] ++ List.replicate 9 0 ++ [0x01] ++
    List.replicate (1024 - 0x212) 0 ++ [0xF4]

theorem tinyKernel_loads :
    ∃ g g' k hdr, GuestMemory.alloc GuestMemory.userMmap 2 = some g ∧
      loadBzimage g (some tinyKernel) [0x71] (some (some [0x42])) 2 = .ok (g', k) ∧
      parseBootHeader tinyKernel = .ok hdr := by
  have hload : (loadBzimage GuestMemory.twoMib (some tinyKernel) [0x71]
      (some (some [0x42])) 2).toBool = true := by
    decide +kernel
  have hparse : (parseBootHeader tinyKernel).toBool = true := by decide +kernel
  refine ⟨GuestMemory.twoMib, ?_⟩
  cases hl : loadBzimage GuestMemory.twoMib (some tinyKernel) [0x71] (some (some [0x42])) 2 with
  | error e =>
      rw [hl] at hload
      cases hload
  | ok result =>
      cases hp : parseBootHeader tinyKernel with
      | error e =>
          rw [hp] at hparse
          cases hparse
      | ok hdr => exact ⟨result.1, result.2, hdr, (Option.some_get _).symm, rfl, rfl⟩

theorem tinyKernel_map :
    ∃ g g' k hdr, GuestMemory.alloc GuestMemory.userMmap 2 = some g ∧
      loadBzimage g (some tinyKernel) [0x71] (some (some [0x42])) 2 = .ok (g', k) ∧
      parseBootHeader tinyKernel = .ok hdr ∧
      ∀ x, (buildBootParams hdr 2 k.initrdStart k.initrdSize).Ram x →
        (g.Mapped x 1 ↔ ¬ (0xA0000 ≤ x ∧ x < 0x100000)) := by
  obtain ⟨g, g', k, hdr, halloc, hload, hparse⟩ := tinyKernel_loads
  exact ⟨g, g', k, hdr, halloc, hload, hparse, (loaded_not_backed halloc hload hparse).2.1⟩

theorem tinyKernel_not_backed :
    ∃ g g' k hdr, GuestMemory.alloc GuestMemory.userMmap 2 = some g ∧
      loadBzimage g (some tinyKernel) [0x71] (some (some [0x42])) 2 = .ok (g', k) ∧
      parseBootHeader tinyKernel = .ok hdr ∧
      ¬ (buildBootParams hdr 2 k.initrdStart k.initrdSize).Backed g 2 := by
  obtain ⟨g, g', k, hdr, halloc, hload, hparse⟩ := tinyKernel_loads
  exact ⟨g, g', k, hdr, halloc, hload, hparse,
    not_backed halloc hdr k.initrdStart k.initrdSize 2⟩

end Caiman.Vmm
