import Caiman.Vmm.Kvm.Placement

/-!
# How the guest is entered

Each vCPU gets its registers before its thread runs: it starts at the kernel, points at the
zero page, and is in flat protected mode. The segments it starts with are loaded beside the
GDT in memory, from constants of their own; the zero page is read by the guest, not by the VMM.
-/

namespace Caiman.Vmm

open Lib

/-! ## Registers -/

structure Regs where
  rax : UInt64 := 0
  rbx : UInt64 := 0
  rcx : UInt64 := 0
  rdx : UInt64 := 0
  rsi : UInt64 := 0
  rdi : UInt64 := 0
  rsp : UInt64 := 0
  rbp : UInt64 := 0
  rip : UInt64 := 0
  rflags : UInt64 := 0
  deriving DecidableEq, Repr

structure Segment where
  base : UInt64
  limit : UInt32
  selector : UInt16
  type : UInt8
  present : UInt8
  dpl : UInt8
  db : UInt8
  s : UInt8
  l : UInt8
  g : UInt8
  avl : UInt8
  deriving DecidableEq, Repr

structure DescriptorTable where
  base : UInt64
  limit : UInt16
  deriving DecidableEq, Repr

/-- `kvm_sregs`, with one table that `configure_sregs` leaves alone. -/
structure Sregs where
  cs : Segment
  ds : Segment
  es : Segment
  fs : Segment
  gs : Segment
  ss : Segment
  gdt : DescriptorTable
  idt : DescriptorTable
  cr0 : UInt64
  cr3 : UInt64
  cr4 : UInt64
  efer : UInt64
  deriving DecidableEq, Repr

/-- `kernel_load.offset` and `boot_params_addr` -/
structure KernelLoadResult where
  offset : UInt64
  bootParamsAddr : UInt64
  deriving DecidableEq, Repr

/-- What `run` hands to the vCPUs. -/
def KernelLoader.result (k : KernelLoader) : KernelLoadResult where
  offset := k.entryPoint
  bootParamsAddr := zeroPageAddr

def configureRegs (kernel : KernelLoadResult) : Regs where
  rflags := 0x0000000000000002
  rip := kernel.offset
  rsi := kernel.bootParamsAddr
  rsp := 0x00080000

def codeSeg : Segment where
  base := 0
  limit := 0xffffffff
  selector := 0x08
  type := 0xb
  present := 1
  dpl := 0
  db := 1
  s := 1
  l := 0
  g := 1
  avl := 0

def dataSeg : Segment where
  base := 0
  limit := 0xffffffff
  selector := 0x10
  type := 0x3
  present := 1
  dpl := 0
  db := 1
  s := 1
  l := 0
  g := 1
  avl := 0

/-- `sregs` is what the vCPU was made with. -/
def configureSregs (sregs : Sregs) : Sregs :=
  { sregs with
    cs := codeSeg
    ds := dataSeg
    es := dataSeg
    fs := dataSeg
    gs := dataSeg
    ss := dataSeg
    gdt := ⟨0x5000, 4 * 8 - 1⟩
    cr0 := 0x00000011
    cr4 := 0
    efer := 0 }

def Sregs.segments (sregs : Sregs) : List Segment :=
  [sregs.cs, sregs.ds, sregs.es, sregs.fs, sregs.gs, sregs.ss]

/-! ## What the processor and the kernel make of memory -/

/-- `n` bits of a descriptor, from bit `lo` on. -/
def bits (d lo n : Nat) : Nat := d / 2 ^ lo % 2 ^ n

def limitOf (d : Nat) : Nat :=
  let limit := bits d 0 16 + bits d 48 4 * 2 ^ 16
  if bits d 55 1 = 1 then limit * 2 ^ 12 + (2 ^ 12 - 1) else limit

/-- The register holds what the descriptor says. Loading a segment sets its accessed bit. -/
structure Segment.Describes (seg : Segment) (d : Nat) : Prop where
  base : seg.base.toNat = bits d 16 24 + bits d 56 8 * 2 ^ 24
  limit : seg.limit.toNat = limitOf d
  type : seg.type.toNat ||| 1 = bits d 40 4 ||| 1
  s : seg.s.toNat = bits d 44 1
  dpl : seg.dpl.toNat = bits d 45 2
  present : seg.present.toNat = bits d 47 1
  avl : seg.avl.toNat = bits d 52 1
  l : seg.l.toNat = bits d 53 1
  db : seg.db.toNat = bits d 54 1
  g : seg.g.toNat = bits d 55 1

instance (seg : Segment) (d : Nat) : Decidable (seg.Describes d) :=
  decidable_of_iff (seg.base.toNat = bits d 16 24 + bits d 56 8 * 2 ^ 24 ∧
      seg.limit.toNat = limitOf d ∧ seg.type.toNat ||| 1 = bits d 40 4 ||| 1 ∧
      seg.s.toNat = bits d 44 1 ∧ seg.dpl.toNat = bits d 45 2 ∧ seg.present.toNat = bits d 47 1 ∧
      seg.avl.toNat = bits d 52 1 ∧ seg.l.toNat = bits d 53 1 ∧ seg.db.toNat = bits d 54 1 ∧
      seg.g.toNat = bits d 55 1)
    ⟨fun ⟨h1, h2, h3, h4, h5, h6, h7, h8, h9, h10⟩ => ⟨h1, h2, h3, h4, h5, h6, h7, h8, h9, h10⟩,
      fun h => ⟨h.base, h.limit, h.type, h.s, h.dpl, h.present, h.avl, h.l, h.db, h.g⟩⟩

namespace GuestMemory

def readLe (g : GuestMemory) (a width : Nat) : Nat := leNat (g.load a width)

def descriptor (g : GuestMemory) (base : Nat) (selector : UInt16) : Nat :=
  g.readLe (base + selector.toNat / 8 * 8) 8

/-- The entries of a memory map that the guest reads: their count first. -/
def memoryMap (g : GuestMemory) (page : Nat) : List (Nat × Nat × Nat) :=
  (List.range (g.readLe (page + 0x1E8) 1)).map fun i =>
    (g.readLe (page + 0x2D0 + 20 * i) 8, g.readLe (page + 0x2D0 + 20 * i + 8) 8,
      g.readLe (page + 0x2D0 + 20 * i + 16) 4)

end GuestMemory

/-- The segment that a register holds is the one that its selector names in the table. -/
def GuestMemory.Agrees (g : GuestMemory) (table : DescriptorTable) (seg : Segment) : Prop :=
  seg.selector.toNat / 8 * 8 + 7 ≤ table.limit.toNat ∧
    g.Mapped (table.base.toNat + seg.selector.toNat / 8 * 8) 8 ∧
    seg.Describes (g.descriptor table.base.toNat seg.selector)

/-- The fields of the header that the loader sets. -/
def loaderFields : List Range :=
  [(0x210, 1), (0x211, 1), (0x218, 4), (0x21C, 4), (0x224, 2), (0x228, 4), (0x238, 4)]

/-- What a kernel finds when a vCPU comes to its first instruction. -/
structure Entered (g : GuestMemory) (regs : Regs) (sregs : Sregs) (hdr : BootHeader)
    (kernelData cmdline : List UInt8) (initrd : Option (Option (List UInt8))) (memMib : UInt64) :
    Prop where
  /-- protected mode without paging, and no interrupts -/
  mode : sregs.cr0.toNat.testBit 0 = true ∧ sregs.cr0.toNat.testBit 31 = false ∧
    sregs.cr4 = 0 ∧ sregs.efer = 0 ∧ regs.rflags.toNat.testBit 9 = false
  zeros : regs.rbx = 0 ∧ regs.rbp = 0 ∧ regs.rdi = 0
  segments : ∀ seg ∈ sregs.segments, g.Agrees sregs.gdt seg
  flat : ∀ seg ∈ sregs.segments, seg.base = 0 ∧ seg.limit.toNat = 2 ^ 32 - 1
  code : g.Holds regs.rip.toNat kernelData
  commandLine : g.Holds (g.readLe (regs.rsi.toNat + 0x228) 4) (cmdline ++ [0])
  initrd : ∀ data, initrd = some (some data) →
    g.Holds (g.readLe (regs.rsi.toNat + 0x218) 4) data ∧
      g.readLe (regs.rsi.toNat + 0x21C) 4 = data.length
  memory : g.memoryMap regs.rsi.toNat =
    [(0, 0x9FC00, 1), (0xA0000, 0x60000, 1),
      (0x100000, (memMib * 1024 * 1024 - 0x00100000).toNat, 1)]
  /-- the rest of the header is the kernel's own -/
  header : ∀ off width, hdrOffset ≤ off → off + width ≤ hdrOffset + hdrSize →
    (∀ r ∈ loaderFields, Apart r (off, width)) →
      g.readLe (regs.rsi.toNat + off) width = hdr.field off width

/-! ## Reading back -/

namespace GuestMemory

variable {g : GuestMemory} {a : Nat} {data : List UInt8}

theorem Holds.part (h : g.Holds a data) {i n : Nat} (hn : i + n ≤ data.length) :
    g.Holds (a + i) ((data.drop i).take n) := by
  have hlen : ((data.drop i).take n).length = n := by
    rw [List.length_take, List.length_drop]
    omega
  have hpart : g.Mapped (a + i) n := h.1.mono (by omega) (by omega)
  rw [Holds, hlen]
  refine ⟨hpart, List.ext_getElem? fun j => ?_⟩
  by_cases hj : j < n
  · have hbyte := load_getElem? h.1 (show i + j < data.length by omega)
    rw [h.2] at hbyte
    rw [load_getElem? hpart hj, List.getElem?_take_of_lt hj, List.getElem?_drop, hbyte,
      Nat.add_assoc]
  · rw [List.getElem?_eq_none (by simp; omega), List.getElem?_eq_none (by rw [hlen]; omega)]

theorem Holds.readLe (h : g.Holds a data) : g.readLe a data.length = leNat data := by
  rw [GuestMemory.readLe, h.2]

theorem Holds.readLe_part (h : g.Holds a data) {i n : Nat} (hn : i + n ≤ data.length) :
    g.readLe (a + i) n = leNat ((data.drop i).take n) := by
  have hlen : ((data.drop i).take n).length = n := by
    rw [List.length_take, List.length_drop]
    omega
  have hread := (h.part hn).readLe
  rwa [hlen] at hread

end GuestMemory

/-! ## The zero page -/

theorem E820Entry.bytes_length (e : E820Entry) : e.bytes.length = 20 := by
  simp only [E820Entry.bytes, List.length_append, leBytes_length]

theorem table_entry (table : List E820Entry) {i : Nat} (hi : i < table.length) :
    ((table.flatMap E820Entry.bytes).drop (20 * i)).take 20 = table[i].bytes := by
  induction table generalizing i with
  | nil => cases hi
  | cons e table ih =>
      rw [List.flatMap_cons]
      cases i with
      | zero => exact List.take_left' e.bytes_length
      | succ i =>
          have hdrop : (e.bytes ++ table.flatMap E820Entry.bytes).drop (20 * (i + 1)) =
              (table.flatMap E820Entry.bytes).drop (20 * i) := by
            rw [show 20 * (i + 1) = e.bytes.length + 20 * i by rw [e.bytes_length]; omega,
              List.drop_length_add_append]
          rw [hdrop, ih (Nat.lt_of_succ_lt_succ hi), List.getElem_cons_succ]

theorem E820Entry.fields (e : E820Entry) :
    leNat ((e.bytes.drop 0).take 8) = e.addr.toNat ∧
      leNat ((e.bytes.drop 8).take 8) = e.size.toNat ∧
      leNat ((e.bytes.drop 16).take 4) = e.entryType.toNat := by
  have haddr := leBytes_length 8 e.addr.toNat
  have hsize := leBytes_length 8 e.size.toNat
  have htype := leBytes_length 4 e.entryType.toNat
  refine ⟨?_, ?_, ?_⟩
  · rw [E820Entry.bytes, List.drop_zero, List.append_assoc, List.take_left' haddr]
    exact leNat_leBytes e.addr.toNat_lt
  · rw [E820Entry.bytes, List.append_assoc, List.drop_left' haddr, List.take_left' hsize]
    exact leNat_leBytes e.size.toNat_lt
  · rw [E820Entry.bytes, List.drop_left' (by simp), List.take_of_length_le (by omega)]
    exact leNat_leBytes e.entryType.toNat_lt

theorem memoryMap_of_holds {g : GuestMemory} {page : Nat} {count : UInt8}
    {table : List E820Entry} (hcount : g.Holds (page + 0x1E8) [count])
    (htable : g.Holds (page + 0x2D0) (table.flatMap E820Entry.bytes))
    (hlength : count.toNat = table.length) :
    g.memoryMap page =
      table.map fun e => (e.addr.toNat, e.size.toNat, e.entryType.toNat) := by
  have hread : g.readLe (page + 0x1E8) 1 = table.length := by
    have hone := hcount.readLe
    rw [List.length_singleton] at hone
    rw [hone, ← hlength]
    simp [leNat]
  rw [GuestMemory.memoryMap, hread]
  apply List.ext_getElem
  · simp
  · intro i hi hi'
    have hlt : i < table.length := by simpa using hi
    have hlen := table_length table
    have hentry : g.Holds (page + 0x2D0 + 20 * i) table[i].bytes := by
      rw [← table_entry table hlt]
      exact htable.part (by omega)
    have hbytes := table[i].bytes_length
    obtain ⟨haddr, hsize, htype⟩ := table[i].fields
    rw [List.getElem_map, List.getElem_map, List.getElem_range, ← haddr, ← hsize, ← htype,
      ← hentry.readLe_part (by omega), ← hentry.readLe_part (by omega),
      ← hentry.readLe_part (by omega)]
    rfl

section

variable {g g₄ g' : GuestMemory} {hdr : BootHeader} {memMib : UInt64} {start : Option UInt64}
  {size : UInt64}

/-- What the three writes leave of the page: its count, its table, and the header, which
lies between the two. -/
theorem page_holds
    (hparams : writeBootParams g (buildBootParams hdr memMib start size) = .ok g₄)
    (hgdt : setupGdt g₄ = .ok g') :
    g'.Holds (0x7000 + 0x1E8) [(buildBootParams hdr memMib start size).e820Entries] ∧
      g'.Holds (0x7000 + 0x1F1) (buildBootParams hdr memMib start size).hdr.bytes ∧
      g'.Holds (0x7000 + 0x2D0)
        ((buildBootParams hdr memMib start size).entries.flatMap E820Entry.bytes) := by
  obtain ⟨-, hentries⟩ := bootParams_length hdr memMib start size
  generalize buildBootParams hdr memMib start size = p at hparams hentries ⊢
  have hcountAt : (zeroPageAddr + 0x1E8).toNat = 0x7000 + 0x1E8 := rfl
  have htableAt : (zeroPageAddr + 0x2D0).toNat = 0x7000 + 0x2D0 := rfl
  have hgdtAt : gdtAddr.toNat = 0x5000 := rfl
  obtain ⟨g₁, hfirst, hparams⟩ := Load.bind_eq_ok.mp hparams
  obtain ⟨g₂, hsecond, hthird⟩ := Load.bind_eq_ok.mp hparams
  have hheader : g₁.Holds (0x7000 + 0x1F1) p.hdr.bytes := by
    have hpage := GuestMemory.Holds.of_put hfirst
    have hbytes : p.bytes = (List.replicate 0x1E8 0 ++ [p.e820Entries] ++ List.replicate 8 0) ++
        (p.hdr.bytes ++ p.e820Table.flatMap E820Entry.bytes) := by
      rw [BootParams.bytes, List.append_assoc]
    have hfront : (List.replicate 0x1E8 0 ++ [p.e820Entries] ++
        List.replicate 8 (0 : UInt8)).length = 0x1F1 := by
      simp only [List.length_append, List.length_replicate, List.length_singleton]
    have hpart : (p.bytes.drop 0x1F1).take hdrSize = p.hdr.bytes := by
      rw [hbytes, List.drop_left' hfront, List.take_left' p.hdr.size]
    rw [← hpart]
    apply hpage.part
    rw [hbytes, List.length_append, hfront, List.length_append, p.hdr.size]
    omega
  have hcount := GuestMemory.Holds.of_put hsecond
  have htable := GuestMemory.Holds.of_put hthird
  rw [hcountAt] at hcount
  rw [htableAt] at htable
  have hsize := p.hdr.size
  rw [hdrSize] at hsize
  refine ⟨(hcount.put hthird ?_).put hgdt ?_, ((hheader.put hsecond ?_).put hthird ?_).put hgdt ?_,
    htable.put hgdt ?_⟩
  all_goals
    intro x hx
    simp only [hcountAt, htableAt, hgdtAt, gdt_length, hentries, hsize,
      List.length_singleton] at hx ⊢
    omega

theorem readLe_field (hheader : g'.Holds (0x7000 + 0x1F1) hdr.bytes) {off width : Nat}
    (hlo : hdrOffset ≤ off) (hhi : off + width ≤ hdrOffset + hdrSize) :
    g'.readLe (0x7000 + off) width = hdr.field off width := by
  have hplace : 0x7000 + 0x1F1 + (off - hdrOffset) = 0x7000 + off := by
    rw [hdrOffset] at hlo ⊢
    omega
  have hread := hheader.readLe_part (show off - hdrOffset + width ≤ hdr.bytes.length by
    rw [hdr.size]
    omega)
  rw [hplace] at hread
  exact hread

end

theorem field_buildBootParams (hdr : BootHeader) (memMib : UInt64) (start : Option UInt64)
    (size : UInt64) {off width : Nat} (hlo : hdrOffset ≤ off)
    (hapart : ∀ r ∈ loaderFields, Apart r (off, width)) :
    (buildBootParams hdr memMib start size).hdr.field off width = hdr.field off width := by
  by_cases hwidth : width = 0
  · rw [hwidth, BootHeader.field, BootHeader.field, List.take_zero, List.take_zero]
  · simp only [loaderFields, List.mem_cons, List.not_mem_nil, or_false, forall_eq_or_imp,
      forall_eq] at hapart
    obtain ⟨h1, h2, h3, h4, h5, h6, h7⟩ := hapart
    have hpos : 0 < width := Nat.pos_of_ne_zero hwidth
    have hkeep : ∀ (h : BootHeader) (r : Range) (n : Nat), 0 < r.2 → Apart r (off, width) →
        (h.setField r.1 r.2 n).field off width = h.field off width := by
      intro h r n hr hr'
      exact h.field_setField_other n hlo (((apart_iff hr hpos).mp hr').symm)
    have hbase : ∀ (h : BootHeader), ((((((h.setField 0x210 1 0xFF).setField 0x211 1
        ((h.setField 0x210 1 0xFF).loadflags ||| canUseHeap)).setField 0x224 2 0xFE00).setField
          0x228 4 cmdlineAddr.toNat).setField 0x238 4 cmdlineMax)).field off width =
            h.field off width := by
      intro h
      rw [hkeep _ _ _ (by decide) h7, hkeep _ _ _ (by decide) h6, hkeep _ _ _ (by decide) h5,
        hkeep _ _ _ (by decide) h2, hkeep _ _ _ (by decide) h1]
    cases start with
    | none => exact hbase hdr
    | some addr =>
        simp only [buildBootParams]
        rw [hkeep _ _ _ (by decide) h4, hkeep _ _ _ (by decide) h3]
        exact hbase hdr

/-! ## The entry -/

def gdtBytes : List UInt8 := gdt.flatMap fun d => leBytes 8 d.toNat

theorem gdtBytes_length : gdtBytes.length = 32 := gdt_length

/-- The constants of both segments and the table agree. -/
theorem segment_describes (seg : Segment) (h : seg = codeSeg ∨ seg = dataSeg) :
    seg.selector.toNat / 8 * 8 + 8 ≤ gdtBytes.length ∧
      seg.Describes (leNat ((gdtBytes.drop (seg.selector.toNat / 8 * 8)).take 8)) := by
  rcases h with rfl | rfl
  · decide +kernel
  · decide +kernel

theorem agrees_of_gdt {g : GuestMemory} (hgdt : g.Holds 0x5000 gdtBytes) {seg : Segment}
    (h : seg = codeSeg ∨ seg = dataSeg) : g.Agrees ⟨0x5000, 4 * 8 - 1⟩ seg := by
  obtain ⟨hin, hdescribes⟩ := segment_describes seg h
  have hbase : (0x5000 : UInt64).toNat = 0x5000 := rfl
  have hlimit : (4 * 8 - 1 : UInt16).toNat = 31 := rfl
  have hread := hgdt.readLe_part hin
  rw [gdtBytes_length] at hin
  refine ⟨?_, ?_, ?_⟩
  · rw [hlimit]
    omega
  · rw [hbase]
    apply hgdt.1.mono (Nat.le_add_right _ _)
    rw [gdtBytes_length]
    omega
  · rw [hbase, GuestMemory.descriptor, hread]
    exact hdescribes

theorem mem_segments {sregs : Sregs} {seg : Segment}
    (h : seg ∈ (configureSregs sregs).segments) : seg = codeSeg ∨ seg = dataSeg := by
  simp only [Sregs.segments, configureSregs, List.mem_cons, List.not_mem_nil, or_false] at h
  tauto

/-- Whatever is loaded, when it has a place: every vCPU is entered at the kernel, in flat
protected mode with the segments of the table in memory, and finds the command line, the
initrd, the memory map and the header of the kernel through the zero page. -/
theorem entered_as_loaded {g g' : GuestMemory} {kernel : Option (List UInt8)}
    {cmdline : List UInt8} {initrd : Option (Option (List UInt8))} {memMib : UInt64}
    {k : KernelLoader} {hdr : BootHeader} {kernelData : List UInt8} (sregs : Sregs)
    (hload : loadBzimage g kernel cmdline initrd memMib = .ok (g', k))
    (hacc : Accepted kernel hdr kernelData) (hplace : Placeable g kernel cmdline initrd) :
    Entered g' (configureRegs k.result) (configureSregs sregs) hdr kernelData cmdline initrd
      memMib := by
  have hintact := intact_of_apart hload hacc (hplace.ranges_apart hload hacc)
  obtain ⟨bytes, hdr', off, g₁, g₂, g₃, g₄, rfl, hparse, hcheck, -, hinitrd, -, -, hparams, hgdt,
    -, -⟩ := loadBzimage_ok hload
  obtain ⟨rfl, -⟩ := hacc.unique ⟨bytes, off, rfl, hparse, hcheck, rfl⟩
  obtain ⟨hcount, hheader, htable⟩ := page_holds hparams hgdt
  have hpage : (configureRegs k.result).rsi.toNat = 0x7000 := rfl
  have hprotected : (0x00000011 : UInt64).toNat.testBit 0 = true := by decide
  have hpaging : (0x00000011 : UInt64).toNat.testBit 31 = false := by decide
  have hmasked : (0x0000000000000002 : UInt64).toNat.testBit 9 = false := by decide
  refine
    { mode := ⟨hprotected, hpaging, rfl, rfl, hmasked⟩
      zeros := ⟨rfl, rfl, rfl⟩
      segments := fun seg hseg => agrees_of_gdt (GuestMemory.Holds.of_put hgdt) (mem_segments hseg)
      flat := ?_
      code := hintact.kernel
      commandLine := ?_
      initrd := ?_
      memory := ?_
      header := ?_ }
  · intro seg hseg
    rcases mem_segments hseg with rfl | rfl
    · exact ⟨rfl, rfl⟩
    · exact ⟨rfl, rfl⟩
  · rw [hpage, readLe_field hheader (by decide) (by decide)]
    have hptr := cmdLinePtr_eq hdr' memMib k.initrdStart k.initrdSize
    rw [BootHeader.cmdLinePtr] at hptr
    rw [hptr]
    exact hintact.commandLine
  · intro data hdata
    obtain ⟨addr, hstart, hold, -⟩ := hintact.initrd data hdata
    rcases loadInitrd_cases hinitrd with ⟨hnone, -, -⟩ | ⟨data', hdata', hloaded⟩
    · rw [hnone] at hdata
      cases hdata
    · cases hdata.symm.trans hdata'
      have hbelow := initrdPlace_le hloaded.fits
      have hlimit := initrdLimit_lt g₁ hdr'
      have haddr : addr.toNat = initrdPlace (initrdLimit g₁ hdr') data.length := by
        rw [← hloaded.place]
        cases hstart.symm.trans hloaded.start
        rfl
      have hsize := hloaded.size
      obtain ⟨himage, hramsize⟩ := ramdisk_eq hdr' memMib (show addr.toNat < 2 ^ 32 by omega)
        (show k.initrdSize.toNat < 2 ^ 32 by omega)
      rw [hstart] at hheader
      rw [BootHeader.ramdiskImage] at himage
      rw [BootHeader.ramdiskSize] at hramsize
      rw [hpage, readLe_field hheader (by decide) (by decide),
        readLe_field hheader (by decide) (by decide), himage, hramsize]
      exact ⟨hold, hsize⟩
  · rw [hpage, memoryMap_of_holds hcount htable (by rw [entries_eq]; rfl), entries_eq]
    rfl
  · intro off' width hlo hhi hapart
    rw [hpage, readLe_field hheader hlo hhi, field_buildBootParams _ _ _ _ hlo hapart]

theorem tinyKernel_placeable :
    Placeable GuestMemory.twoMib (some tinyKernel) [0x71] (some (some [0x42])) := by
  intro hdr kernelData hacc
  obtain ⟨rfl, rfl⟩ := tinyKernel_accepted.unique hacc
  obtain ⟨haddr, -, hlimit⟩ := tinyKernel_placed
  rw [haddr, hlimit]
  refine ⟨by decide, ?_⟩
  intro data hdata _
  cases hdata
  refine ⟨by decide, ?_⟩
  intro _ _ _ r hr
  simp only [fixedRanges, List.mem_cons, List.not_mem_nil, or_false] at hr
  rcases hr with rfl | rfl | rfl | rfl <;> decide

def madeSregs : Sregs where
  cs := { codeSeg with base := 0xffff0000, limit := 0xffff, selector := 0xf000, db := 0, g := 0 }
  ds := { dataSeg with limit := 0xffff, selector := 0, db := 0, g := 0 }
  es := { dataSeg with limit := 0xffff, selector := 0, db := 0, g := 0 }
  fs := { dataSeg with limit := 0xffff, selector := 0, db := 0, g := 0 }
  gs := { dataSeg with limit := 0xffff, selector := 0, db := 0, g := 0 }
  ss := { dataSeg with limit := 0xffff, selector := 0, db := 0, g := 0 }
  gdt := ⟨0, 0xffff⟩
  idt := ⟨0, 0xffff⟩
  cr0 := 0x60000010
  cr3 := 0
  cr4 := 0
  efer := 0

theorem entered_as_loaded_tiny :
    ∃ g' k, loadBzimage GuestMemory.twoMib (some tinyKernel) [0x71] (some (some [0x42])) 2 =
        .ok (g', k) ∧
      Entered g' (configureRegs k.result) (configureSregs madeSregs) tinyHeader [0xF4] [0x71]
        (some (some [0x42])) 2 := by
  obtain ⟨haddr, hmapped, hlimit⟩ := tinyKernel_placed
  have hkernel : GuestMemory.twoMib.Mapped (loadAddr tinyHeader).toNat [(0xF4 : UInt8)].length := by
    rw [haddr]
    exact hmapped
  have hfits : [(0x42 : UInt8)].length ≤ initrdLimit GuestMemory.twoMib tinyHeader := by
    rw [hlimit]
    decide
  have hplaced : GuestMemory.twoMib.Mapped
      (initrdPlace (initrdLimit GuestMemory.twoMib tinyHeader) 1) 1 := by
    rw [hlimit]
    decide
  have hline : [(0x71 : UInt8)].length ≤ cmdlineMax := by decide
  obtain ⟨g', k, -, hload, -⟩ :=
    loadBzimage_succeeds tinyKernel_accepted hkernel hfits hplaced hline 2
  exact ⟨g', k, hload, entered_as_loaded madeSregs hload tinyKernel_accepted tinyKernel_placeable⟩

end Caiman.Vmm
