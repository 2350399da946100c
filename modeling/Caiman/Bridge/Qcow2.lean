import Caiman.Lib.Bytes
import Caiman.Lib.File

/-!
# Reading qcow2 images

`Qcow2Reader` as the import uses it: `open` checks the header and loads the L1
table, `resolve_cluster` walks the two tables through a cache of one L2 table,
and `convert_to_raw` and `read_at` copy clusters out. An index out of range is a
panic. What has been asked of the image file, ranges read and buffers allocated,
is kept beside it.

The integers are the `u64`s of a release build; `usize` is 64 bits wide and only
ever holds lengths here.
-/

namespace Caiman.Bridge

open Lib

inductive Qcow2Error
  | io (e : IoError)
  | badMagic (magic : UInt32)
  | unsupportedVersion (version : UInt32)
  | badClusterBits (bits : UInt32)
  | encrypted (method : UInt32)
  | hasBackingFile
  | compressedCluster
  | unsupportedIncompatibleFeatures (bits : UInt64)
  | truncatedHeader
  | offsetOutOfRange (offset : UInt64)
  deriving DecidableEq, Repr

/-- Why a call does not return a value: an error, an index out of range, or a
loop that makes no progress. -/
inductive Fault
  | err (e : Qcow2Error)
  | panic
  | spin
  deriving DecidableEq, Repr

/-- The image file, the ranges read from it and the sizes allocated for it. -/
structure Input where
  file : File
  reads : List (Nat × Nat)
  allocs : List Nat
  deriving DecidableEq, Repr

structure Qcow2Reader where
  input : Input
  fileLen : UInt64
  clusterSize : UInt64
  clusterBits : UInt32
  virtualSize : UInt64
  l2Entries : UInt64
  l1Table : List UInt64
  l2CacheOffset : UInt64
  l2Cache : List UInt64
  deriving DecidableEq, Repr

inductive ClusterLoc
  | zero
  | data (hostOffset : UInt64)
  deriving DecidableEq, Repr

def qcow2Magic : UInt32 := 0x514649fb

/-- Bits 9 to 55 of an L1 or L2 entry. -/
def offsetMask : UInt64 := 0x00fffffffffffe00

def l2Compressed : UInt64 := (1 : UInt64) <<< 62

def l2Zero : UInt64 := 1

def incompatSupported : UInt64 := (1 : UInt64) <<< 0

/-- `a.checked_add(b).unwrap_or(u64::MAX)` -/
def checkedEnd (a b : UInt64) : UInt64 :=
  if a.toNat + b.toNat < 2 ^ 64 then a + b else 0xffffffffffffffff

section

variable {σ : Type}

def refuse (bad : Prop) [Decidable bad] (e : Qcow2Error) : EStateM Fault σ Unit :=
  if bad then throw (.err e) else pure ()

def beU32 (buf : List UInt8) (off : Nat) : EStateM Fault σ UInt32 :=
  if off + 4 ≤ buf.length then pure (UInt32.ofNat (beNat ((buf.drop off).take 4)))
  else throw .panic

def beU64 (buf : List UInt8) (off : Nat) : EStateM Fault σ UInt64 :=
  if off + 8 ≤ buf.length then pure (UInt64.ofNat (beNat ((buf.drop off).take 8)))
  else throw .panic

def parseTable (raw : List UInt8) : Nat → Nat → EStateM Fault σ (List UInt64)
  | 0, _ => pure []
  | n + 1, i => do
      let entry ← beU64 raw (i * 8)
      let rest ← parseTable raw n (i + 1)
      pure (entry :: rest)

/-- `xs[i]` -/
def index {α : Type} (xs : List α) (i : Nat) : EStateM Fault σ α :=
  match xs[i]? with
  | some x => pure x
  | none => throw .panic

end

namespace Input

def ofData (image : FileData) : Input := ⟨⟨image.bytes, 0⟩, [], []⟩

def onFile {α : Type} (op : EStateM IoError File α) : EStateM Fault Input α :=
  zoom (·.file) (fun f s => { s with file := f }) (fun e => .err (.io e)) op

def seek (offset : UInt64) : EStateM Fault Input Unit := onFile (File.seek offset)

def readExact (n : Nat) : EStateM Fault Input (List UInt8) := do
  modify fun s => { s with reads := (s.file.pos, n) :: s.reads }
  onFile (File.readExact n)

def allocate (n : Nat) : EStateM Fault Input Unit :=
  modify fun s => { s with allocs := n :: s.allocs }

/-- `metadata().len()` -/
def len : EStateM Fault Input UInt64 := do
  let s ← get
  pure (UInt64.ofNat s.file.data.length)

end Input

namespace Qcow2Reader

/-- The incompatible features, which only a version 3 header has. -/
def checkFeatures (version : UInt32) (toRead : Nat) (hdr : List UInt8) :
    EStateM Fault Input Unit :=
  if 3 ≤ version ∧ 80 ≤ toRead then do
    let incompatible ← beU64 hdr 72
    refuse (incompatible &&& ~~~incompatSupported ≠ 0)
      (.unsupportedIncompatibleFeatures (incompatible &&& ~~~incompatSupported))
  else pure ()

structure Header where
  fileLen : UInt64
  clusterBits : UInt32
  virtualSize : UInt64
  l1Size : UInt64
  l1TableOffset : UInt64

/-- The first half of `open`: the header and the checks on it. -/
def readHeader : EStateM Fault Input Header := do
  let fileLen ← Input.len
  refuse (fileLen < 72) .truncatedHeader
  let toRead := if 104 ≤ fileLen then 104 else 72
  Input.seek 0
  let got ← Input.readExact toRead
  let hdr := got ++ List.replicate (104 - toRead) 0
  let magic ← beU32 hdr 0
  refuse (magic ≠ qcow2Magic) (.badMagic magic)
  let version ← beU32 hdr 4
  refuse (version ≠ 2 ∧ version ≠ 3) (.unsupportedVersion version)
  let backingFileOffset ← beU64 hdr 8
  refuse (backingFileOffset ≠ 0) .hasBackingFile
  let clusterBits ← beU32 hdr 20
  refuse (clusterBits < 9 ∨ 21 < clusterBits) (.badClusterBits clusterBits)
  let virtualSize ← beU64 hdr 24
  let cryptMethod ← beU32 hdr 32
  refuse (cryptMethod ≠ 0) (.encrypted cryptMethod)
  let l1Size ← beU32 hdr 36
  let l1TableOffset ← beU64 hdr 40
  checkFeatures version toRead hdr
  pure ⟨fileLen, clusterBits, virtualSize, l1Size.toUInt64, l1TableOffset⟩

def openImage : EStateM Fault Input Qcow2Reader := do
  let h ← readHeader
  let clusterSize := (1 : UInt64) <<< h.clusterBits.toUInt64
  refuse (h.fileLen < checkedEnd h.l1TableOffset (h.l1Size * 8))
    (.offsetOutOfRange h.l1TableOffset)
  Input.allocate (h.l1Size * 8).toNat
  Input.seek h.l1TableOffset
  let l1Raw ← Input.readExact (h.l1Size * 8).toNat
  Input.allocate (h.l1Size.toNat * 8)
  let l1Table ← parseTable l1Raw h.l1Size.toNat 0
  let input ← get
  pure {
    input := input
    fileLen := h.fileLen
    clusterSize := clusterSize
    clusterBits := h.clusterBits
    virtualSize := h.virtualSize
    l2Entries := clusterSize / 8
    l1Table := l1Table
    l2CacheOffset := 0
    l2Cache := [] }

def onInput {α : Type} (op : EStateM Fault Input α) : EStateM Fault Qcow2Reader α :=
  zoom (·.input) (fun f r => { r with input := f }) id op

/-- The L2 table at `l2Offset` replaces the one in the cache. -/
def loadL2 (l2Offset : UInt64) : EStateM Fault Qcow2Reader Unit := do
  let r ← get
  refuse (r.fileLen < checkedEnd l2Offset r.clusterSize) (.offsetOutOfRange l2Offset)
  onInput (Input.allocate r.clusterSize.toNat)
  onInput (Input.seek l2Offset)
  let raw ← onInput (Input.readExact r.clusterSize.toNat)
  onInput (Input.allocate (r.l2Entries.toNat * 8))
  let table ← parseTable raw r.l2Entries.toNat 0
  modify fun r => { r with l2Cache := table, l2CacheOffset := l2Offset }

/-- The L2 table at `l2Offset` is in the cache. -/
def ensureL2 (l2Offset : UInt64) : EStateM Fault Qcow2Reader Unit := do
  let r ← get
  if l2Offset ≠ r.l2CacheOffset ∨ r.l2Cache = [] then loadL2 l2Offset else pure ()

def entryLoc (entry : UInt64) : EStateM Fault Qcow2Reader ClusterLoc := do
  refuse (entry &&& l2Compressed ≠ 0) .compressedCluster
  let hostOffset := entry &&& offsetMask
  if entry &&& l2Zero ≠ 0 ∨ hostOffset = 0 then pure .zero
  else pure (.data hostOffset)

def resolveCluster (guestCluster : UInt64) : EStateM Fault Qcow2Reader ClusterLoc := do
  let r ← get
  let l1Index := (guestCluster / r.l2Entries).toNat
  let l2Index := (guestCluster % r.l2Entries).toNat
  if r.l1Table.length ≤ l1Index then pure .zero
  else
    let l2Offset := (← index r.l1Table l1Index) &&& offsetMask
    if l2Offset = 0 then pure .zero
    else
      ensureL2 l2Offset
      let entry ← index (← get).l2Cache l2Index
      entryLoc entry

/-- The cluster at a host offset: the check and the two calls of each site that
reads one. -/
def readHost (hostOffset : UInt64) (n : Nat) : EStateM Fault Qcow2Reader (List UInt8) := do
  let r ← get
  refuse (r.fileLen < checkedEnd hostOffset r.clusterSize) (.offsetOutOfRange hostOffset)
  onInput (Input.seek hostOffset)
  onInput (Input.readExact n)

/-- The buffer filled with the cluster; after an error it is not looked at. -/
def readClusterInto (guestCluster : UInt64) (buf : List UInt8) :
    EStateM Fault Qcow2Reader (List UInt8) := do
  match ← resolveCluster guestCluster with
  | .zero => pure (List.replicate buf.length 0)
  | .data hostOffset => readHost hostOffset buf.length

/-! ## Conversion -/

structure Conversion where
  reader : Qcow2Reader
  out : File
  deriving DecidableEq, Repr

def onReader {α : Type} (op : EStateM Fault Qcow2Reader α) : EStateM Fault Conversion α :=
  zoom (·.reader) (fun r s => { s with reader := r }) id op

def onOut {α : Type} (op : EStateM IoError File α) : EStateM Fault Conversion α :=
  zoom (·.out) (fun f s => { s with out := f }) (fun e => .err (.io e)) op

/-- The turn of the loop for guest cluster `c`. -/
def convertCluster (c : UInt64) : EStateM Fault Conversion Unit := do
  let r := (← get).reader
  let guestPos := c * r.clusterSize
  let writeLen := min r.clusterSize.toNat (r.virtualSize - guestPos).toNat
  match ← onReader (resolveCluster c) with
  | .zero => pure ()
  | .data hostOffset =>
      let buf ← onReader (readHost hostOffset r.clusterSize.toNat)
      onOut (File.seek guestPos)
      if writeLen ≤ buf.length then onOut (File.writeAll (buf.take writeLen))
      else throw .panic

def convertClusters : Nat → UInt64 → EStateM Fault Conversion Unit
  | 0, _ => pure ()
  | n + 1, c => do
      convertCluster c
      convertClusters n (c + 1)

def convertToRaw : EStateM Fault Conversion Unit := do
  modify fun s => { s with out := s.out.truncate }
  let r := (← get).reader
  let numClusters := (r.virtualSize + r.clusterSize - 1) / r.clusterSize
  convertClusters numClusters.toNat 0
  onOut (File.setLen r.virtualSize)

/-! ## Random reads -/

/-- The `while` loop; a turn that takes nothing would be taken for ever. -/
def readLoop : Nat → UInt64 → Nat → List UInt8 → EStateM Fault Qcow2Reader (List UInt8)
  | 0, _, written, dst => if written < dst.length then throw .spin else pure dst
  | fuel + 1, offset, written, dst =>
      if written < dst.length then do
        let r ← get
        let guestCluster := offset >>> r.clusterBits.toUInt64
        let inCluster := (offset &&& (r.clusterSize - 1)).toNat
        let clusterBuf ← readClusterInto guestCluster (List.replicate r.clusterSize.toNat 0)
        let take := min (r.clusterSize.toNat - inCluster) (dst.length - written)
        if inCluster + take ≤ clusterBuf.length ∧ written + take ≤ dst.length then
          readLoop fuel (offset + UInt64.ofNat take) (written + take)
            (overwrite dst written ((clusterBuf.drop inCluster).take take))
        else throw .panic
      else pure dst

def readAt (offset : UInt64) (dst : List UInt8) : EStateM Fault Qcow2Reader (List UInt8) :=
  readLoop dst.length offset 0 dst

end Qcow2Reader

end Caiman.Bridge
