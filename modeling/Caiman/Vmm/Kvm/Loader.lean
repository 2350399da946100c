import Caiman.Lib.Bytes
import Caiman.Vmm.Kvm.Memory

/-!
# Linux boot protocol

`load_bzimage` parses the setup header of a bzImage, copies the protected-mode
kernel, the initrd and the command line into guest RAM, and leaves the zero page
with its E820 table behind. The header is a packed structure of 119 bytes at
offset 0x1F1 of the file; fields are named by their offset in the file.
-/

namespace Caiman.Vmm

open Lib

/-- `load_bzimage` returns an error, or does not return. -/
inductive LoadError
  | err
  | halt (h : Halt)
  deriving DecidableEq, Repr

abbrev Load (α : Type) := Except LoadError α

def bootMagic : Nat := 0xAA55
def hdrMagic : Nat := 0x53726448
def kernelLoadAddr : UInt64 := 0x00100000
def zeroPageAddr : UInt64 := 0x00007000
def cmdlineAddr : UInt64 := 0x00020000
def cmdlineMax : Nat := 4096
def gdtAddr : UInt64 := 0x00005000

def loadedHigh : Nat := 1
def canUseHeap : Nat := 128

def hdrOffset : Nat := 0x1F1
def hdrSize : Nat := 119

/-! ## Boot header -/

structure BootHeader where
  bytes : List UInt8
  size : bytes.length = hdrSize
  deriving DecidableEq, Repr

namespace BootHeader

/-- The little-endian field of `width` bytes at file offset `off`. -/
def field (h : BootHeader) (off width : Nat) : Nat :=
  leNat ((h.bytes.drop (off - hdrOffset)).take width)

def setField (h : BootHeader) (off width n : Nat) : BootHeader where
  bytes := h.bytes.mapIdx fun i b =>
    if off ≤ hdrOffset + i ∧ hdrOffset + i < off + width then
      (leBytes width n).getD (hdrOffset + i - off) 0
    else b
  size := by rw [List.length_mapIdx, h.size]

def setupSects (h : BootHeader) : Nat := h.field 0x1F1 1
def bootFlag (h : BootHeader) : Nat := h.field 0x1FE 2
def header (h : BootHeader) : Nat := h.field 0x202 4
def version (h : BootHeader) : Nat := h.field 0x206 2
def loadflags (h : BootHeader) : Nat := h.field 0x211 1
def ramdiskImage (h : BootHeader) : Nat := h.field 0x218 4
def ramdiskSize (h : BootHeader) : Nat := h.field 0x21C 4
def cmdLinePtr (h : BootHeader) : Nat := h.field 0x228 4
def initrdAddrMax (h : BootHeader) : Nat := h.field 0x22C 4
def relocatableKernel (h : BootHeader) : Nat := h.field 0x234 1
def prefAddress (h : BootHeader) : Nat := h.field 0x258 8

end BootHeader

def parseBootHeader (data : List UInt8) : Load BootHeader :=
  if h : hdrOffset + hdrSize ≤ data.length then
    .ok ⟨(data.drop hdrOffset).take hdrSize, by
      simp only [List.length_take, List.length_drop]
      omega⟩
  else .error .err

/-! ## Zero page -/

def e820Ram : UInt32 := 1

structure E820Entry where
  addr : UInt64
  size : UInt64
  entryType : UInt32
  deriving DecidableEq, Repr

def E820Entry.bytes (e : E820Entry) : List UInt8 :=
  leBytes 8 e.addr.toNat ++ leBytes 8 e.size.toNat ++ leBytes 4 e.entryType.toNat

structure BootParams where
  e820Entries : UInt8
  hdr : BootHeader
  e820Table : List E820Entry
  deriving DecidableEq, Repr

namespace BootParams

def entries (p : BootParams) : List E820Entry := p.e820Table.take p.e820Entries.toNat

/-- The packed structure, with its two pads of zeros. -/
def bytes (p : BootParams) : List UInt8 :=
  List.replicate 0x1E8 0 ++ [p.e820Entries] ++ List.replicate 8 0 ++ p.hdr.bytes ++
    p.e820Table.flatMap E820Entry.bytes

end BootParams

def buildBootParams (hdr : BootHeader) (memMib : UInt64) (initrdAddr : Option UInt64)
    (initrdSize : UInt64) : BootParams :=
  let hdr := hdr.setField 0x210 1 0xFF
  let hdr := hdr.setField 0x211 1 (hdr.loadflags ||| canUseHeap)
  let hdr := hdr.setField 0x224 2 0xFE00
  let hdr := hdr.setField 0x228 4 cmdlineAddr.toNat
  let hdr := hdr.setField 0x238 4 cmdlineMax
  let hdr :=
    match initrdAddr with
    | some addr => (hdr.setField 0x218 4 addr.toNat).setField 0x21C 4 initrdSize.toNat
    | none => hdr
  let memBytes := memMib * 1024 * 1024
  { e820Entries := 3
    hdr := hdr
    e820Table :=
      [⟨0x00000000, 0x0009FC00, e820Ram⟩,
        ⟨0x000A0000, 0x00060000, e820Ram⟩,
        ⟨0x00100000, memBytes - 0x00100000, e820Ram⟩] ++ List.replicate 125 ⟨0, 0, 0⟩ }

/-! ## Loading -/

namespace GuestMemory

def size (g : GuestMemory) : UInt64 := (g.regions.map MemoryRegion.size).foldl (· + ·) 0

def put (g : GuestMemory) (data : List UInt8) (addr : UInt64) : Load GuestMemory :=
  match g.writeSlice data addr with
  | .ok (some g') => .ok g'
  | .ok none => .error .err
  | .error h => .error (.halt h)

end GuestMemory

structure KernelLoader where
  entryPoint : UInt64
  kernelEnd : UInt64
  initrdStart : Option UInt64
  initrdSize : UInt64
  deriving DecidableEq, Repr

/-- The checks on the header, and the offset of the kernel in the file. -/
def checkHeader (hdr : BootHeader) (kernelLen : Nat) : Load Nat :=
  if hdr.bootFlag ≠ bootMagic then .error .err
  else if hdr.header ≠ hdrMagic then .error .err
  else if hdr.version < 0x0202 then .error .err
  else if hdr.loadflags &&& loadedHigh = 0 then .error .err
  else
    let setupSects := if hdr.setupSects = 0 then 4 else hdr.setupSects
    let kernelOffset := (setupSects + 1) * 512
    if kernelLen ≤ kernelOffset then .error .err else .ok kernelOffset

def loadAddr (hdr : BootHeader) : UInt64 :=
  if hdr.relocatableKernel ≠ 0 then max (UInt64.ofNat hdr.prefAddress) kernelLoadAddr
  else kernelLoadAddr

/-- The address the initrd must end at or below. -/
def initrdTop (g : GuestMemory) (hdr : BootHeader) : UInt64 :=
  let maxAddr : UInt64 :=
    if 0 < hdr.initrdAddrMax then UInt64.ofNat hdr.initrdAddrMax else 0x38000000
  let memTop := g.size
  min (min memTop maxAddr) memTop

/-- Aligned down to a page. The subtraction wraps. -/
def initrdAddr (g : GuestMemory) (hdr : BootHeader) (size : UInt64) : UInt64 :=
  (initrdTop g hdr - size) &&& ~~~0xFFF

/-- `initrd` is what reading its file gave, if a path was given. -/
def loadInitrd (g : GuestMemory) (hdr : BootHeader) :
    Option (Option (List UInt8)) → Load (GuestMemory × Option UInt64 × UInt64)
  | none => .ok (g, none, 0)
  | some none => .error .err
  | some (some data) => do
      let size := UInt64.ofNat data.length
      let addr := initrdAddr g hdr size
      let g ← g.put data addr
      .ok (g, some addr, size)

def gdt : List UInt64 :=
  [0x0000000000000000, 0x00CF9A000000FFFF, 0x00CF92000000FFFF, 0x00AF9A000000FFFF]

def setupGdt (g : GuestMemory) : Load GuestMemory :=
  g.put (gdt.flatMap fun d => leBytes 8 d.toNat) gdtAddr

def writeBootParams (g : GuestMemory) (p : BootParams) : Load GuestMemory := do
  let g ← g.put p.bytes zeroPageAddr
  let g ← g.put [p.e820Entries] (zeroPageAddr + 0x1E8)
  g.put (p.entries.flatMap E820Entry.bytes) (zeroPageAddr + 0x2D0)

/-- `kernel` and `initrd` are what reading the files gave, `cmdline` its UTF-8 bytes. -/
def loadBzimage (g : GuestMemory) (kernel : Option (List UInt8)) (cmdline : List UInt8)
    (initrd : Option (Option (List UInt8))) (memMib : UInt64) :
    Load (GuestMemory × KernelLoader) :=
  match kernel with
  | none => .error .err
  | some kernelBytes => do
      let hdr ← parseBootHeader kernelBytes
      let kernelOffset ← checkHeader hdr kernelBytes.length
      let kernelData := kernelBytes.drop kernelOffset
      let g ← g.put kernelData (loadAddr hdr)
      let kernelEnd := loadAddr hdr + UInt64.ofNat kernelData.length
      let (g, initrdStart, initrdSize) ← loadInitrd g hdr initrd
      if cmdlineMax < cmdline.length then .error .err
      else
        let g ← g.put (cmdline ++ [0]) cmdlineAddr
        let g ← writeBootParams g (buildBootParams hdr memMib initrdStart initrdSize)
        let g ← setupGdt g
        .ok (g, ⟨loadAddr hdr, kernelEnd, initrdStart, initrdSize⟩)

end Caiman.Vmm
