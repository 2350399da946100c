import Caiman.Vmm.Kvm.MemoryMap

/-!
# What a load leaves in memory

The kernel, the initrd, the command line, the zero page and the GDT are written one
after the other. Only the address of the initrd depends on sizes, and nothing compares
it with where the kernel ends.
-/

namespace Caiman.Vmm

open Lib

/-! ## Ranges -/

abbrev Range := Nat × Nat

def Apart (r r' : Range) : Prop :=
  ∀ x, r.1 ≤ x ∧ x < r.1 + r.2 → ¬ (r'.1 ≤ x ∧ x < r'.1 + r'.2)

theorem Apart.symm {r r' : Range} (h : Apart r r') : Apart r' r := by
  intro x hx hin
  exact h x hin hx

theorem apart_iff {r r' : Range} (hr : 0 < r.2) (hr' : 0 < r'.2) :
    Apart r r' ↔ r.1 + r.2 ≤ r'.1 ∨ r'.1 + r'.2 ≤ r.1 := by
  constructor
  · intro h
    have hfirst := h r.1
    have hsecond := h r'.1
    omega
  · intro h x hx
    omega

namespace GuestMemory

/-- The bytes lie in RAM from `a` on. -/
def Holds (g : GuestMemory) (a : Nat) (data : List UInt8) : Prop :=
  g.Mapped a data.length ∧ g.load a data.length = data

variable {g g' : GuestMemory} {a : Nat} {data data' : List UInt8} {addr : UInt64}

theorem put_of_mapped (h : g.Mapped addr.toNat data.length) :
    g.put data addr = .ok (g.store addr.toNat data) := by
  have hlen : data.length ≤ isizeMax := by
    rw [mapped_iff] at h
    have hsize := g.high_size
    have hhigh : highBase.toNat = 1048576 := rfl
    simp only [ramEnd, isizeMax, hhigh] at h hsize ⊢
    omega
  rw [put, writeSlice_eq g data addr hlen, if_pos h]

theorem put_of_not_mapped (h : ¬ g.Mapped addr.toNat data.length)
    (hend : addr.toNat + data.length < 2 ^ 64) : g.put data addr = .error .err := by
  have hlen : (UInt64.ofNat data.length).toNat = data.length :=
    UInt64.toNat_ofNat_of_lt' (show data.length < 2 ^ 64 by omega)
  have hnone : g.regionFor addr (UInt64.ofNat data.length) = none := by
    rw [mapped_iff] at h
    rw [regionFor, List.find?_eq_none]
    intro r hr
    rcases List.mem_pair.mp hr with rfl | rfl
    · rw [low_admits_iff, hlen, Nat.mod_eq_of_lt hend]
      omega
    · rw [high_admits_iff, hlen, Nat.mod_eq_of_lt hend]
      omega
  rw [put, writeSlice, hnone]

theorem Holds.of_put (h : g.put data addr = .ok g') : g'.Holds addr.toNat data := by
  obtain ⟨hmapped, rfl⟩ := put_ok h
  exact ⟨(mapped_store g _ _ _ _).mpr hmapped, load_store rfl hmapped⟩

theorem Holds.put (hold : g.Holds a data) (h : g.put data' addr = .ok g')
    (hapart : Apart (a, data.length) (addr.toNat, data'.length)) : g'.Holds a data := by
  obtain ⟨hmapped, rfl⟩ := put_ok h
  refine ⟨(mapped_store g _ _ _ _).mpr hold.1, ?_⟩
  refine Eq.trans ?_ hold.2
  apply load_congr hold.1 ((mapped_store g _ _ _ _).mpr hold.1)
  intro x hlo hhi
  exact byteAt_store_of_not_mem (hapart x ⟨hlo, hhi⟩)

theorem Mapped.le_ramEnd {n : Nat} (h : g.Mapped a n) : a + n ≤ g.ramEnd := by
  have hb := g.ramEnd_bounds
  rw [mapped_iff] at h
  omega

theorem size_toNat (g : GuestMemory) : g.size.toNat = g.ramEnd - 0x60000 := by
  have hsize : g.size = 0 + g.low.size + g.high.size := rfl
  have hhigh := g.high_size
  have hlow : lowSize.toNat = 655360 := rfl
  have hbase : highBase.toNat = 1048576 := rfl
  simp only [isizeMax] at hhigh
  rw [hsize, UInt64.zero_add, UInt64.toNat_add, g.low_size, hlow, ramEnd, hbase]
  omega

end GuestMemory

/-! ## Where the initrd goes -/

def addrMax (hdr : BootHeader) : Nat :=
  if 0 < hdr.initrdAddrMax then hdr.initrdAddrMax else 0x38000000

def initrdLimit (g : GuestMemory) (hdr : BootHeader) : Nat :=
  min (g.ramEnd - 0x60000) (addrMax hdr)

def initrdPlace (limit size : Nat) : Nat := (limit - size) / 4096 * 4096

theorem min_toNat (a b : UInt64) : (min a b).toNat = min a.toNat b.toNat := by
  rw [show min a b = if a ≤ b then a else b from rfl]
  split
  next h => exact (Nat.min_eq_left (UInt64.le_iff_toNat_le.mp h)).symm
  next h =>
      have hlt := UInt64.lt_iff_toNat_lt.mp (UInt64.not_le.mp h)
      exact (Nat.min_eq_right (Nat.le_of_lt hlt)).symm

theorem max_toNat (a b : UInt64) : (max a b).toNat = max a.toNat b.toNat := by
  rw [show max a b = if a ≤ b then b else a from rfl]
  split
  next h => exact (Nat.max_eq_right (UInt64.le_iff_toNat_le.mp h)).symm
  next h =>
      have hlt := UInt64.lt_iff_toNat_lt.mp (UInt64.not_le.mp h)
      exact (Nat.max_eq_left (Nat.le_of_lt hlt)).symm

theorem initrdTop_toNat (g : GuestMemory) (hdr : BootHeader) :
    (initrdTop g hdr).toNat = initrdLimit g hdr := by
  have hmax : (if 0 < hdr.initrdAddrMax then UInt64.ofNat hdr.initrdAddrMax
      else 0x38000000).toNat = addrMax hdr := by
    have hfield := hdr.field_lt 0x22C 4
    rw [addrMax]
    split
    · exact UInt64.toNat_ofNat_of_lt' (Nat.lt_trans hfield (by decide))
    · rfl
  rw [initrdTop, min_toNat, min_toNat, hmax, g.size_toNat, initrdLimit]
  omega

theorem initrdAddr_toNat {g : GuestMemory} {hdr : BootHeader} {size : UInt64}
    (hsize : size.toNat ≤ initrdLimit g hdr) :
    (initrdAddr g hdr size).toNat = initrdPlace (initrdLimit g hdr) size.toNat := by
  have hpage := pageDown_toNat (initrdTop g hdr - size)
  have hle : size ≤ initrdTop g hdr := by
    rw [UInt64.le_iff_toNat_le, initrdTop_toNat]
    exact hsize
  rw [UInt64.toNat_sub_of_le _ _ hle, initrdTop_toNat] at hpage
  rw [initrdAddr, initrdPlace]
  omega

theorem initrdPlace_le {limit size : Nat} (hsize : size ≤ limit) :
    initrdPlace limit size + size ≤ limit := by
  rw [initrdPlace]
  omega

theorem initrdLimit_lt (g : GuestMemory) (hdr : BootHeader) : initrdLimit g hdr < 2 ^ 32 := by
  rw [← initrdTop_toNat]
  exact initrdTop_lt g hdr

theorem initrdLimit_congr {g g' : GuestMemory} (hdr : BootHeader) (hend : g'.ramEnd = g.ramEnd) :
    initrdLimit g' hdr = initrdLimit g hdr := by
  rw [initrdLimit, hend, initrdLimit]

theorem initrdSize_toNat {g : GuestMemory} {hdr : BootHeader} {size : Nat}
    (hsize : size ≤ initrdLimit g hdr) : (UInt64.ofNat size).toNat = size := by
  have hlimit := initrdLimit_lt g hdr
  exact UInt64.toNat_ofNat_of_lt' (show size < 2 ^ 64 by omega)

/-- Nothing wraps in placing an initrd that fits. -/
theorem initrdStart_exact {g : GuestMemory} {hdr : BootHeader} {size : Nat}
    (hfits : size ≤ initrdLimit g hdr) :
    (initrdTop g hdr - UInt64.ofNat size).toNat + size = (initrdTop g hdr).toNat ∧
      (initrdAddr g hdr (UInt64.ofNat size)).toNat + size < 2 ^ 64 := by
  have hword := initrdSize_toNat hfits
  have hle : UInt64.ofNat size ≤ initrdTop g hdr := by
    rw [UInt64.le_iff_toNat_le, hword, initrdTop_toNat]
    exact hfits
  rw [initrdAddr_toNat (by rw [hword]; exact hfits), UInt64.toNat_sub_of_le _ _ hle, hword,
    initrdTop_toNat]
  have hlimit := initrdLimit_lt g hdr
  have hbelow := initrdPlace_le hfits
  omega

/-! ## What is loaded -/

/-- The kernel, the command line with its NUL, the zero page and the GDT. -/
def fixedRanges (entry kernelLen cmdlineLen : Nat) : List Range :=
  [(entry, kernelLen), (cmdlineAddr.toNat, cmdlineLen + 1), (zeroPageAddr.toNat, 0x1000),
    (gdtAddr.toNat, 32)]

def KernelLoader.ranges (k : KernelLoader) (kernelLen cmdlineLen : Nat) : List Range :=
  (k.initrdStart.map fun addr => (addr.toNat, k.initrdSize.toNat)).toList ++
    fixedRanges k.entryPoint.toNat kernelLen cmdlineLen

/-- Everything is in memory, in ranges of its own, and the initrd ends where it may. -/
structure Intact (g' : GuestMemory) (k : KernelLoader) (hdr : BootHeader)
    (kernelData cmdline : List UInt8) (initrd : Option (Option (List UInt8))) : Prop where
  kernel : g'.Holds k.entryPoint.toNat kernelData
  commandLine : g'.Holds cmdlineAddr.toNat (cmdline ++ [0])
  initrd : ∀ data, initrd = some (some data) → ∃ addr, k.initrdStart = some addr ∧
    g'.Holds addr.toNat data ∧
    ∀ i < data.length, addr.toNat + i ≤ addrMax hdr ∧ addr.toNat + i < g'.ramEnd
  apart : (k.ranges kernelData.length cmdline.length).Pairwise Apart

/-- The header of a kernel file passes the checks: its fields and the kernel behind it. -/
def Accepted (kernel : Option (List UInt8)) (hdr : BootHeader) (kernelData : List UInt8) : Prop :=
  ∃ kernelBytes kernelOffset, kernel = some kernelBytes ∧ parseBootHeader kernelBytes = .ok hdr ∧
    checkHeader hdr kernelBytes.length = .ok kernelOffset ∧
    kernelData = kernelBytes.drop kernelOffset

/-- A load is intact, the sums and the difference it computes in `u64` are exact, and an
initrd that does not fit is refused. -/
structure LoadsIntact (g : GuestMemory) (kernel : Option (List UInt8)) (cmdline : List UInt8)
    (initrd : Option (Option (List UInt8))) (memMib : UInt64) : Prop where
  intact : ∀ g' k hdr kernelData, loadBzimage g kernel cmdline initrd memMib = .ok (g', k) →
    Accepted kernel hdr kernelData → Intact g' k hdr kernelData cmdline initrd
  kernelEnd : ∀ hdr kernelData, Accepted kernel hdr kernelData →
    (loadAddr hdr).toNat + kernelData.length < 2 ^ 64
  initrdStart : ∀ hdr kernelData data, Accepted kernel hdr kernelData →
    g.Mapped (loadAddr hdr).toNat kernelData.length → initrd = some (some data) →
      (initrdTop g hdr - UInt64.ofNat data.length).toNat + data.length = (initrdTop g hdr).toNat ∧
      (initrdAddr g hdr (UInt64.ofNat data.length)).toNat + data.length < 2 ^ 64
  refused : ∀ hdr kernelData data, Accepted kernel hdr kernelData → initrd = some (some data) →
    initrdLimit g hdr < data.length → loadBzimage g kernel cmdline initrd memMib = .error .err
  ramSize : g.size.toNat = g.low.size.toNat + g.high.size.toNat ∧
    0x100000 ≤ (memMib * 1024 * 1024).toNat

/-- The kernel does not pass the end of the address space. An initrd is no longer than
its limit allows, and the page it starts at is behind everything else it could meet, or
it ends in front of it. -/
def Placeable (g : GuestMemory) (kernel : Option (List UInt8)) (cmdline : List UInt8)
    (initrd : Option (Option (List UInt8))) : Prop :=
  ∀ hdr kernelData, Accepted kernel hdr kernelData →
    (loadAddr hdr).toNat + kernelData.length < 2 ^ 64 ∧
    ∀ data, initrd = some (some data) → g.Mapped (loadAddr hdr).toNat kernelData.length →
      data.length ≤ initrdLimit g hdr ∧
      (g.Mapped (initrdPlace (initrdLimit g hdr) data.length) data.length →
        cmdline.length ≤ cmdlineMax → data ≠ [] →
          ∀ r ∈ fixedRanges (loadAddr hdr).toNat kernelData.length cmdline.length,
            r.1 + r.2 ≤ initrdPlace (initrdLimit g hdr) data.length ∨
              initrdPlace (initrdLimit g hdr) data.length + data.length ≤ r.1)

section

variable {g g' : GuestMemory} {kernel : Option (List UInt8)} {hdr hdr' : BootHeader}
  {kernelData kernelData' cmdline : List UInt8} {initrd : Option (Option (List UInt8))}
  {memMib : UInt64} {k : KernelLoader}

theorem Accepted.unique (h : Accepted kernel hdr kernelData)
    (h' : Accepted kernel hdr' kernelData') : hdr' = hdr ∧ kernelData' = kernelData := by
  obtain ⟨bytes, off, rfl, hparse, hcheck, rfl⟩ := h
  obtain ⟨bytes', off', hbytes, hparse', hcheck', rfl⟩ := h'
  cases hbytes
  cases hparse.symm.trans hparse'
  cases hcheck.symm.trans hcheck'
  exact ⟨rfl, rfl⟩

theorem Accepted.bounds (h : Accepted kernel hdr kernelData) :
    0 < kernelData.length ∧ 0x100000 ≤ (loadAddr hdr).toNat := by
  obtain ⟨bytes, off, -, -, hcheck, rfl⟩ := h
  have hbase : kernelLoadAddr.toNat = 0x100000 := rfl
  constructor
  · rw [checkHeader] at hcheck
    split at hcheck
    · cases hcheck
    split at hcheck
    · cases hcheck
    split at hcheck
    · cases hcheck
    split at hcheck
    · cases hcheck
    dsimp only at hcheck
    by_cases hlen : bytes.length ≤
        ((if hdr.setupSects = 0 then 4 else hdr.setupSects) + 1) * 512
    · rw [if_pos hlen] at hcheck
      cases hcheck
    · rw [if_neg hlen] at hcheck
      cases hcheck
      rw [List.length_drop]
      omega
  · rw [loadAddr]
    split
    · rw [max_toNat, hbase]
      exact Nat.le_max_right _ _
    · exact Nat.le_of_eq hbase.symm

/-- Nothing but the initrd can lie over something else. -/
theorem fixedRanges_apart {entry cmdlineLen : Nat} (kernelLen : Nat) (hentry : 0x100000 ≤ entry)
    (hcmdline : cmdlineLen ≤ cmdlineMax) :
    (fixedRanges entry kernelLen cmdlineLen).Pairwise Apart := by
  have hc : cmdlineAddr.toNat = 0x20000 := rfl
  have hz : zeroPageAddr.toNat = 0x7000 := rfl
  have hg : gdtAddr.toNat = 0x5000 := rfl
  rw [cmdlineMax] at hcmdline
  simp only [fixedRanges, hc, hz, hg, List.pairwise_cons, List.mem_cons, List.not_mem_nil, or_false,
    forall_eq_or_imp, forall_eq]
  refine ⟨⟨?_, ?_, ?_⟩, ⟨?_, ?_⟩, ?_, fun _ h => h.elim, List.Pairwise.nil⟩
  all_goals
    intro x hx
    dsimp only at hx ⊢
    omega

/-! ## The writes after the initrd -/

theorem table_length (table : List E820Entry) :
    (table.flatMap E820Entry.bytes).length = 20 * table.length := by
  induction table with
  | nil => rfl
  | cons e table ih =>
      rw [List.flatMap_cons, List.length_append, ih, List.length_cons, E820Entry.bytes]
      simp only [List.length_append, leBytes_length]
      omega

theorem bootParams_length (hdr : BootHeader) (memMib : UInt64) (initrdAddr : Option UInt64)
    (initrdSize : UInt64) :
    (buildBootParams hdr memMib initrdAddr initrdSize).bytes.length = 0xC68 ∧
      ((buildBootParams hdr memMib initrdAddr initrdSize).entries.flatMap
        E820Entry.bytes).length = 60 := by
  have htable : (buildBootParams hdr memMib initrdAddr initrdSize).e820Table.length = 128 := by
    simp [buildBootParams]
  constructor
  · simp only [BootParams.bytes, List.length_append, List.length_replicate, List.length_singleton,
      BootHeader.size, table_length, htable, hdrSize]
  · rw [table_length, entries_eq]
    rfl

theorem GuestMemory.Holds.writeBootParams {a : Nat} {data : List UInt8} {start : Option UInt64}
    {size : UInt64} (hold : g.Holds a data)
    (h : writeBootParams g (buildBootParams hdr memMib start size) = .ok g')
    (hapart : Apart (a, data.length) (zeroPageAddr.toNat, 0x1000)) : g'.Holds a data := by
  obtain ⟨hbytes, hentries⟩ := bootParams_length hdr memMib start size
  have hz : zeroPageAddr.toNat = 0x7000 := rfl
  have hcount : (zeroPageAddr + 0x1E8).toNat = 0x71E8 := rfl
  have htable : (zeroPageAddr + 0x2D0).toNat = 0x72D0 := rfl
  rw [hz] at hapart
  obtain ⟨g₁, hfirst, h⟩ := Load.bind_eq_ok.mp h
  obtain ⟨g₂, hsecond, hthird⟩ := Load.bind_eq_ok.mp h
  have hone : g₁.Holds a data := by
    apply hold.put hfirst
    intro x hx
    rw [hbytes, hz]
    have := hapart x hx
    omega
  have htwo : g₂.Holds a data := by
    apply hone.put hsecond
    intro x hx
    rw [hcount, List.length_singleton]
    have := hapart x hx
    omega
  apply htwo.put hthird
  intro x hx
  rw [hentries, htable]
  have := hapart x hx
  omega

theorem gdt_length : (gdt.flatMap fun d => leBytes 8 d.toNat).length = 32 := rfl

theorem GuestMemory.Holds.finish {a : Nat} {data : List UInt8} {start : Option UInt64}
    {size : UInt64} {g₄ : GuestMemory} (hold : g.Holds a data)
    (hparams : Vmm.writeBootParams g (buildBootParams hdr memMib start size) = .ok g₄)
    (hgdt : setupGdt g₄ = .ok g')
    (hzero : Apart (a, data.length) (zeroPageAddr.toNat, 0x1000))
    (htable : Apart (a, data.length) (gdtAddr.toNat, 32)) : g'.Holds a data := by
  have hlast := (hold.writeBootParams hparams hzero).put hgdt
  rw [gdt_length] at hlast
  exact hlast htable

/-! ## A load that succeeds -/

theorem initrd_fits {data : List UInt8}
    (h : g.put data (initrdAddr g hdr (UInt64.ofNat data.length)) = .ok g') :
    data.length ≤ initrdLimit g hdr := by
  have hbound := initrd_bounds h
  have hpage := pageDown_toNat (initrdTop g hdr - UInt64.ofNat data.length)
  have hlen : (UInt64.ofNat data.length).toNat = data.length :=
    UInt64.toNat_ofNat_of_lt' (show data.length < 2 ^ 64 by omega)
  rw [initrdAddr] at hbound
  rw [UInt64.toNat_sub, hlen, initrdTop_toNat] at hpage
  omega

/-- An initrd that was written, and where. -/
structure InitrdLoaded (g : GuestMemory) (hdr : BootHeader) (data : List UInt8) (g' : GuestMemory)
    (start : Option UInt64) (size : UInt64) : Prop where
  put : g.put data (initrdAddr g hdr (UInt64.ofNat data.length)) = .ok g'
  start : start = some (initrdAddr g hdr (UInt64.ofNat data.length))
  size : size.toNat = data.length
  fits : data.length ≤ initrdLimit g hdr
  place : (initrdAddr g hdr (UInt64.ofNat data.length)).toNat =
    initrdPlace (initrdLimit g hdr) data.length

theorem loadInitrd_cases {initrd : Option (Option (List UInt8))} {start : Option UInt64}
    {size : UInt64} (h : loadInitrd g hdr initrd = .ok (g', start, size)) :
    (initrd = none ∧ g' = g ∧ start = none) ∨
      ∃ data, initrd = some (some data) ∧ InitrdLoaded g hdr data g' start size := by
  cases initrd with
  | none =>
      simp only [loadInitrd, Except.ok.injEq, Prod.mk.injEq] at h
      exact .inl ⟨rfl, h.1.symm, h.2.1.symm⟩
  | some file =>
      cases file with
      | none => cases h
      | some data =>
          obtain ⟨g₁, hput, hresult⟩ := Load.bind_eq_ok.mp h
          cases hresult
          have hfits := initrd_fits hput
          have hword := initrdSize_toNat hfits
          have hplace := initrdAddr_toNat (Nat.le_trans (Nat.le_of_eq hword) hfits)
          rw [hword] at hplace
          exact .inr ⟨data, rfl, hput, rfl, hword, hfits, hplace⟩

theorem intact_of_apart (hload : loadBzimage g kernel cmdline initrd memMib = .ok (g', k))
    (hacc : Accepted kernel hdr kernelData)
    (hapart : (k.ranges kernelData.length cmdline.length).Pairwise Apart) :
    Intact g' k hdr kernelData cmdline initrd := by
  obtain ⟨bytes, hdr', off, g₁, g₂, g₃, g₄, rfl, hparse, hcheck, hkernel, hinitrd, hlen, hcmdline,
    hparams, hgdt, hentry, -⟩ := loadBzimage_ok hload
  obtain ⟨rfl, hdata⟩ := hacc.unique ⟨bytes, off, rfl, hparse, hcheck, rfl⟩
  rw [hdata] at hkernel
  have hcmdlineLen : (cmdline ++ [0]).length = cmdline.length + 1 := by simp
  have hfixed := fixedRanges_apart kernelData.length hacc.bounds.2 hlen
  simp only [fixedRanges, List.pairwise_cons, List.mem_cons, List.not_mem_nil, or_false,
    forall_eq_or_imp, forall_eq] at hfixed
  obtain ⟨⟨hkc, hkz, hkg⟩, ⟨hcz, hcg⟩, -⟩ := hfixed
  have hthird : ∀ a data, g₂.Holds a data →
      Apart (a, data.length) (cmdlineAddr.toNat, cmdline.length + 1) →
      Apart (a, data.length) (zeroPageAddr.toNat, 0x1000) →
      Apart (a, data.length) (gdtAddr.toNat, 32) → g'.Holds a data := by
    intro a data hold hc hz hg
    have hnext := hold.put hcmdline
    rw [hcmdlineLen] at hnext
    exact (hnext hc).finish hparams hgdt hz hg
  have hline : g'.Holds cmdlineAddr.toNat (cmdline ++ [0]) := by
    apply (GuestMemory.Holds.of_put hcmdline).finish hparams hgdt
    · rw [hcmdlineLen]
      exact hcz
    · rw [hcmdlineLen]
      exact hcg
  have hend : g₁.ramEnd = g.ramEnd := GuestMemory.put_ramEnd hkernel
  rw [← hentry] at hkernel hkc hkz hkg
  rcases loadInitrd_cases hinitrd with ⟨rfl, rfl, -⟩ | ⟨data, rfl, hloaded⟩
  · refine ⟨hthird _ _ (.of_put hkernel) hkc hkz hkg, hline, ?_, hapart⟩
    intro data hdata
    cases hdata
  · have hall := hapart
    simp only [KernelLoader.ranges, hloaded.start, hloaded.size, fixedRanges, Option.map_some,
      Option.toList_some, List.singleton_append, List.pairwise_cons, List.mem_cons,
      List.not_mem_nil, or_false, forall_eq_or_imp, forall_eq] at hapart
    obtain ⟨⟨hik, hic, hiz, hig⟩, -⟩ := hapart
    refine ⟨?_, hline, ?_, hall⟩
    · exact hthird _ _ ((GuestMemory.Holds.of_put hkernel).put hloaded.put hik.symm) hkc hkz hkg
    · intro data' hdata'
      cases hdata'
      have hold : g'.Holds _ data := hthird _ _ (.of_put hloaded.put) hic hiz hig
      have hram := hold.1.le_ramEnd
      have hmax : initrdLimit g₁ hdr' ≤ addrMax hdr' := Nat.min_le_right _ _
      have hbelow := initrdPlace_le hloaded.fits
      have hplace := hloaded.place
      refine ⟨_, hloaded.start, hold, ?_⟩
      intro i hi
      omega

/-! ## Loads that succeed and loads that are refused -/

theorem writeBootParams_succeeds (g : GuestMemory) (hdr : BootHeader) (memMib : UInt64)
    (start : Option UInt64) (size : UInt64) :
    ∃ g', writeBootParams g (buildBootParams hdr memMib start size) = .ok g' := by
  obtain ⟨hbytes, hentries⟩ := bootParams_length hdr memMib start size
  have hz : zeroPageAddr.toNat = 0x7000 := rfl
  have hcount : (zeroPageAddr + 0x1E8).toNat = 0x71E8 := rfl
  have htable : (zeroPageAddr + 0x2D0).toNat = 0x72D0 := rfl
  refine ⟨_, Load.bind_eq_ok.mpr ⟨_, GuestMemory.put_of_mapped ?_, Load.bind_eq_ok.mpr
    ⟨_, GuestMemory.put_of_mapped ?_, GuestMemory.put_of_mapped ?_⟩⟩⟩
  · rw [GuestMemory.mapped_iff, hbytes, hz]
    omega
  · rw [GuestMemory.mapped_iff, List.length_singleton, hcount]
    omega
  · rw [GuestMemory.mapped_iff, hentries, htable]
    omega

theorem setupGdt_succeeds (g : GuestMemory) : ∃ g', setupGdt g = .ok g' := by
  have hg : gdtAddr.toNat = 0x5000 := rfl
  refine ⟨_, GuestMemory.put_of_mapped ?_⟩
  rw [GuestMemory.mapped_iff, gdt_length, hg]
  omega

theorem loadBzimage_succeeds (hacc : Accepted kernel hdr kernelData) {data : List UInt8}
    (hkernel : g.Mapped (loadAddr hdr).toNat kernelData.length)
    (hfits : data.length ≤ initrdLimit g hdr)
    (hinitrd : g.Mapped (initrdPlace (initrdLimit g hdr) data.length) data.length)
    (hcmdline : cmdline.length ≤ cmdlineMax) (memMib : UInt64) :
    ∃ g' k addr, loadBzimage g kernel cmdline (some (some data)) memMib = .ok (g', k) ∧
      k.entryPoint = loadAddr hdr ∧ k.initrdStart = some addr ∧
      addr.toNat = initrdPlace (initrdLimit g hdr) data.length ∧
      k.initrdSize.toNat = data.length := by
  obtain ⟨bytes, off, rfl, hparse, hcheck, rfl⟩ := hacc
  have hword := initrdSize_toNat hfits
  have hfirst := GuestMemory.put_of_mapped hkernel
  generalize g.store (loadAddr hdr).toNat (bytes.drop off) = g₁ at hfirst
  have hend := GuestMemory.put_ramEnd hfirst
  have hlimit := initrdLimit_congr hdr hend
  have hplace : (initrdAddr g₁ hdr (UInt64.ofNat data.length)).toNat =
      initrdPlace (initrdLimit g hdr) data.length := by
    rw [initrdAddr_toNat (by rw [hword, hlimit]; exact hfits), hword, hlimit]
  rw [← hplace, GuestMemory.mapped_iff, ← hend, ← GuestMemory.mapped_iff] at hinitrd
  have hsecond := GuestMemory.put_of_mapped hinitrd
  generalize g₁.store (initrdAddr g₁ hdr (UInt64.ofNat data.length)).toNat data = g₂ at hsecond
  have hload : loadInitrd g₁ hdr (some (some data)) =
      .ok (g₂, some (initrdAddr g₁ hdr (UInt64.ofNat data.length)), UInt64.ofNat data.length) :=
    Load.bind_eq_ok.mpr ⟨g₂, hsecond, rfl⟩
  have hthird : g₂.put (cmdline ++ [0]) cmdlineAddr =
      .ok (g₂.store cmdlineAddr.toNat (cmdline ++ [0])) := by
    apply GuestMemory.put_of_mapped
    have hc : cmdlineAddr.toNat = 0x20000 := rfl
    rw [cmdlineMax] at hcmdline
    rw [GuestMemory.mapped_iff, hc, List.length_append, List.length_singleton]
    omega
  obtain ⟨g₄, hparams⟩ := writeBootParams_succeeds (g₂.store cmdlineAddr.toNat (cmdline ++ [0]))
    hdr memMib (some (initrdAddr g₁ hdr (UInt64.ofNat data.length))) (UInt64.ofNat data.length)
  obtain ⟨g', hgdt⟩ := setupGdt_succeeds g₄
  have hloaded : loadBzimage g (some bytes) cmdline (some (some data)) memMib =
      .ok (g', ⟨loadAddr hdr, loadAddr hdr + UInt64.ofNat (bytes.drop off).length,
        some (initrdAddr g₁ hdr (UInt64.ofNat data.length)), UInt64.ofNat data.length⟩) := by
    simp only [loadBzimage, hparse, hcheck, hfirst, hload, hthird, hparams, hgdt, bind,
      Except.bind, if_neg (Nat.not_lt.mpr hcmdline)]
  exact ⟨_, _, _, hloaded, rfl, rfl, hplace, hword⟩

theorem loadBzimage_refused (hacc : Accepted kernel hdr kernelData)
    (hkernel : ¬ g.Mapped (loadAddr hdr).toNat kernelData.length)
    (hend : (loadAddr hdr).toNat + kernelData.length < 2 ^ 64) :
    loadBzimage g kernel cmdline initrd memMib = .error .err := by
  obtain ⟨bytes, off, rfl, hparse, hcheck, rfl⟩ := hacc
  simp only [loadBzimage, hparse, hcheck, GuestMemory.put_of_not_mapped hkernel hend, bind,
    Except.bind]

theorem Placeable.ranges_apart (h : Placeable g kernel cmdline initrd)
    (hload : loadBzimage g kernel cmdline initrd memMib = .ok (g', k))
    (hacc : Accepted kernel hdr kernelData) :
    (k.ranges kernelData.length cmdline.length).Pairwise Apart := by
  obtain ⟨bytes, hdr', off, g₁, g₂, -, -, rfl, hparse, hcheck, hkernel, hinitrd, hlen, -, -, -,
    hentry, -⟩ := loadBzimage_ok hload
  obtain ⟨rfl, hdata⟩ := hacc.unique ⟨bytes, off, rfl, hparse, hcheck, rfl⟩
  rw [hdata] at hkernel
  have hend := GuestMemory.put_ramEnd hkernel
  have hfixed := fixedRanges_apart kernelData.length hacc.bounds.2 hlen
  rw [← hentry] at hfixed
  rcases loadInitrd_cases hinitrd with ⟨rfl, -, hstart⟩ | ⟨data, rfl, hloaded⟩
  · rw [KernelLoader.ranges, hstart]
    exact hfixed
  · have hplace := hloaded.place
    rw [initrdLimit_congr hdr' hend] at hplace
    have hmapped := (GuestMemory.put_ok hloaded.put).1
    rw [hplace, GuestMemory.mapped_iff, hend, ← GuestMemory.mapped_iff] at hmapped
    obtain ⟨-, hclear⟩ := (h hdr' kernelData hacc).2 data rfl (GuestMemory.put_ok hkernel).1
    rw [KernelLoader.ranges, hloaded.start, hloaded.size, hentry, Option.map_some,
      Option.toList_some, List.singleton_append, hplace]
    rw [hentry] at hfixed
    refine List.pairwise_cons.mpr ⟨?_, hfixed⟩
    intro r hr x hx
    have hne : data ≠ [] := by
      intro hnil
      rw [hnil, List.length_nil] at hx
      omega
    have hapart := hclear hmapped hlen hne r hr
    omega

theorem fixedRanges_pos {entry kernelLen cmdlineLen : Nat} (hkernel : 0 < kernelLen) :
    ∀ r ∈ fixedRanges entry kernelLen cmdlineLen, 0 < r.2 := by
  intro r hr
  simp only [fixedRanges, List.mem_cons, List.not_mem_nil, or_false] at hr
  rcases hr with rfl | rfl | rfl | rfl
  · exact hkernel
  · exact Nat.succ_pos _
  · decide
  · decide

theorem alloc_ramSize {mmapAnon : MmapAnon} (halloc : GuestMemory.alloc mmapAnon memMib = some g) :
    g.size.toNat = g.low.size.toNat + g.high.size.toNat ∧
      0x100000 ≤ (memMib * 1024 * 1024).toNat := by
  have hlow : lowSize.toNat = 655360 := rfl
  have hbase : highBase.toNat = 1048576 := rfl
  have hmib : (0x00100000 : UInt64).toNat = 1048576 := rfl
  have hsize := g.high_size
  have hhigh := congrArg UInt64.toNat (GuestMemory.alloc_highSize halloc)
  rw [UInt64.toNat_sub, hmib] at hhigh
  rw [g.size_toNat, g.low_size, GuestMemory.ramEnd, hlow, hbase]
  simp only [isizeMax] at hsize
  omega

/-- When a kernel, whatever is loaded with it, ends up intact. -/
theorem loadsIntact_iff {mmapAnon : MmapAnon}
    (halloc : GuestMemory.alloc mmapAnon memMib = some g) :
    LoadsIntact g kernel cmdline initrd memMib ↔ Placeable g kernel cmdline initrd := by
  constructor
  · intro h hdr kernelData hacc
    refine ⟨h.kernelEnd hdr kernelData hacc, ?_⟩
    intro data hdata hkernel
    obtain ⟨hexact, -⟩ := h.initrdStart hdr kernelData data hacc hkernel hdata
    have hfits : data.length ≤ initrdLimit g hdr := by
      rw [← initrdTop_toNat]
      omega
    refine ⟨hfits, ?_⟩
    intro hmapped hcmdline hne r hr
    subst hdata
    obtain ⟨g', k, addr, hload, hentry, hstart, hplace, hsize⟩ :=
      loadBzimage_succeeds hacc hkernel hfits hmapped hcmdline memMib
    have hapart := (h.intact g' k hdr kernelData hload hacc).apart
    simp only [KernelLoader.ranges, hentry, hstart, hplace, hsize, Option.map_some,
      Option.toList_some, List.singleton_append] at hapart
    have hone := (List.pairwise_cons.mp hapart).1 r hr
    have hpos := fixedRanges_pos hacc.bounds.1 r hr
    exact ((apart_iff (List.length_pos_iff.mpr hne) hpos).mp hone).symm
  · intro h
    refine ⟨?_, ?_, ?_, ?_, ?_⟩
    · intro g' k hdr kernelData hload hacc
      exact intact_of_apart hload hacc (h.ranges_apart hload hacc)
    · intro hdr kernelData hacc
      exact (h hdr kernelData hacc).1
    · intro hdr kernelData data hacc hkernel hdata
      obtain ⟨hfits, -⟩ := (h hdr kernelData hacc).2 data hdata hkernel
      exact initrdStart_exact hfits
    · intro hdr kernelData data hacc hdata hlong
      apply loadBzimage_refused hacc _ (h hdr kernelData hacc).1
      intro hkernel
      obtain ⟨hfits, -⟩ := (h hdr kernelData hacc).2 data hdata hkernel
      omega
    · exact alloc_ramSize halloc

/-- An initrd longer than its limit is not refused: it is written outside of guest
memory. -/
theorem oversized_wild (hacc : Accepted kernel hdr kernelData)
    (hkernel : g.Mapped (loadAddr hdr).toNat kernelData.length) (hpage : 4096 ≤ initrdLimit g hdr)
    {data : List UInt8} (hlong : initrdLimit g hdr < data.length)
    (hlen : data.length ≤ isizeMax) (cmdline : List UInt8) (memMib : UInt64) :
    loadBzimage g kernel cmdline (some (some data)) memMib = .error (.halt .wild) := by
  obtain ⟨bytes, off, rfl, hparse, hcheck, rfl⟩ := hacc
  have hfirst := GuestMemory.put_of_mapped hkernel
  generalize g.store (loadAddr hdr).toNat (bytes.drop off) = g₁ at hfirst
  have hend := GuestMemory.put_ramEnd hfirst
  have hlimit := initrdLimit_congr hdr hend
  have hram : initrdLimit g hdr ≤ g.ramEnd := by
    rw [initrdLimit]
    omega
  have hbound := g.ramEnd_bounds
  have hword : (UInt64.ofNat data.length).toNat = data.length := by
    simp only [isizeMax] at hlen
    exact UInt64.toNat_ofNat_of_lt' (show data.length < 2 ^ 64 by omega)
  have hwraps : g₁.Wraps (initrdAddr g₁ hdr (UInt64.ofNat data.length)).toNat data.length := by
    have hdown := pageDown_toNat (initrdTop g₁ hdr - UInt64.ofNat data.length)
    rw [UInt64.toNat_sub, hword, initrdTop_toNat, hlimit] at hdown
    simp only [isizeMax] at hlen
    rw [GuestMemory.Wraps, initrdAddr, hend]
    omega
  have hput : g₁.put data (initrdAddr g₁ hdr (UInt64.ofNat data.length)) =
      .error (.halt .wild) := by
    rw [GuestMemory.put, GuestMemory.writeSlice_eq g₁ data _ hlen,
      if_neg fun hm => hm.not_wraps hwraps, if_pos hwraps]
  simp only [loadBzimage, loadInitrd, hparse, hcheck, hfirst, hput, bind, Except.bind]

end

/-! ## A guest of 2 MiB -/

def tinyHeader : BootHeader := ⟨(tinyKernel.drop hdrOffset).take hdrSize, by decide +kernel⟩

theorem tinyKernel_accepted : Accepted (some tinyKernel) tinyHeader [0xF4] :=
  ⟨tinyKernel, 1024, rfl, by decide +kernel, by decide +kernel, by decide +kernel⟩

theorem tinyKernel_placed : (loadAddr tinyHeader).toNat = 0x100000 ∧
    GuestMemory.twoMib.Mapped 0x100000 1 ∧
    initrdLimit GuestMemory.twoMib tinyHeader = 0x1A0000 := by
  decide +kernel

theorem tinyKernel_intact :
    LoadsIntact GuestMemory.twoMib (some tinyKernel) [0x71] (some (some [0x42])) 2 := by
  have halloc : GuestMemory.alloc GuestMemory.userMmap 2 = some GuestMemory.twoMib :=
    (Option.some_get _).symm
  refine (loadsIntact_iff halloc).mpr ?_
  intro hdr kernelData hacc
  obtain ⟨rfl, rfl⟩ := tinyKernel_accepted.unique hacc
  obtain ⟨haddr, -, hlimit⟩ := tinyKernel_placed
  rw [haddr]
  refine ⟨by decide, ?_⟩
  intro data hdata _
  cases hdata
  rw [hlimit]
  refine ⟨by decide, ?_⟩
  intro _ _ _ r hr
  simp only [fixedRanges, List.mem_cons, List.not_mem_nil, or_false] at hr
  rcases hr with rfl | rfl | rfl | rfl <;> decide

/-- An initrd of 2 MiB, more than there is RAM. -/
def bigInitrd : List UInt8 := List.replicate 0x200000 0

theorem bigInitrd_length : bigInitrd.length = 0x200000 := by
  rw [bigInitrd, List.length_replicate]

theorem bigInitrd_not_intact :
    loadBzimage GuestMemory.twoMib (some tinyKernel) [0x71] (some (some bigInitrd)) 2 =
        .error (.halt .wild) ∧
      ¬ LoadsIntact GuestMemory.twoMib (some tinyKernel) [0x71] (some (some bigInitrd)) 2 := by
  obtain ⟨haddr, hmapped, hlimit⟩ := tinyKernel_placed
  have hkernel : GuestMemory.twoMib.Mapped (loadAddr tinyHeader).toNat [(0xF4 : UInt8)].length := by
    rw [haddr]
    exact hmapped
  have hlong : initrdLimit GuestMemory.twoMib tinyHeader < bigInitrd.length := by
    rw [hlimit, bigInitrd_length]
    decide
  have hwild := oversized_wild tinyKernel_accepted hkernel (by rw [hlimit]; decide) hlong
    (by rw [bigInitrd_length]; decide) [0x71] 2
  refine ⟨hwild, ?_⟩
  intro h
  rw [h.refused _ _ _ tinyKernel_accepted rfl hlong] at hwild
  cases hwild

end Caiman.Vmm
