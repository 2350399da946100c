import Mathlib.Data.List.Infix
import Caiman.Lib.Path
import Caiman.Lib.Run

/-!
# vGPU devices

`vgpu.rs` makes a mediated device for a VM through sysfs, and on release looks for the
devices whose path, two levels up, contains the PCI address of the GPU. The id of the vGPU
is not stored with the device.
-/

namespace Caiman.Gpu

open Lib

structure GpuDevice where
  pciAddress : String
  deriving DecidableEq

structure VgpuProfile where
  name : String
  mdevType : String
  deriving DecidableEq

structure GpuAllocation where
  gpu : GpuDevice
  profile : VgpuProfile
  vgpuId : UInt32
  mdevPath : String
  deriving DecidableEq

/-! ## Sysfs -/

/-- An entry of `mdev_supported_types`: its name, empty when it cannot be read, and how many
devices can still be made of it, none when that cannot be read. -/
structure MdevType where
  mdevType : String
  name : String
  available : UInt32

/-- A mediated device, and for which GPU and VM it was made. -/
structure Mdev where
  uuid : String
  /-- Where the link `/sys/bus/mdev/devices/<uuid>` leads. -/
  dir : List String
  forGpu : String
  forId : UInt32
  deriving DecidableEq

structure Sysfs where
  /-- Where the link `/sys/bus/pci/devices/<address>` leads. -/
  pciDir : String → Option (List String)
  /-- The directories between that of a GPU and those of its devices: none in Linux. -/
  between : List String
  devices : List Mdev

def Sysfs.new (pciDir : String → Option (List String)) (between : List String) : Sysfs :=
  ⟨pciDir, between, []⟩

/-- What comes of writing an id to a `create` file. -/
inductive Create
  | failed
  /-- The write succeeds, and no device appears. -/
  | missing
  | made
  deriving DecidableEq

def contains (s sub : String) : Bool := decide (sub.toList <:+: s.toList)

def pathText (dir : List String) : String := "/" ++ "/".intercalate dir

/-! ## Allocation -/

def typesPath (gpu : GpuDevice) : String :=
  "/sys/bus/pci/devices/" ++ gpu.pciAddress ++ "/mdev_supported_types"

/-- The directory cannot be read, or these are its entries. -/
def listProfiles (gpu : GpuDevice) (types : Option (List MdevType)) :
    Except String (List VgpuProfile) :=
  match types with
  | none => .error ("reading mdev types from " ++ typesPath gpu)
  | some entries =>
      .ok ((entries.filter fun e => e.available ≠ 0).map fun e => ⟨e.name, e.mdevType⟩)

/-- `lower` is `str::to_lowercase`. -/
def findProfile (lower : String → String) (profiles : List VgpuProfile) (profileStr : String) :
    Except String VgpuProfile :=
  match profiles.find? fun p => contains (lower p.name) (lower profileStr) with
  | some profile => .ok profile
  | none => .error ("vGPU profile '" ++ profileStr ++ "' not found")

structure AllocateArgs where
  gpu : GpuDevice
  profileStr : String
  vmId : UInt32

/-- What the surroundings contribute: the types, the new id, and the outcome of the write. -/
structure AllocateIo where
  types : Option (List MdevType)
  mdevUuid : String
  create : Create

/-- The kernel puts the directory of the new device below that of the GPU. It refuses an id
that is in use. -/
def Sysfs.create (s : Sysfs) (args : AllocateArgs) (io : AllocateIo) : Create × Sysfs :=
  match s.pciDir args.gpu.pciAddress, io.create with
  | none, _ | _, .failed => (.failed, s)
  | _, .missing => (.missing, s)
  | some dir, .made =>
      if s.devices.any fun d => d.uuid = io.mdevUuid then (.failed, s)
      else
        (.made, { s with devices := s.devices ++
          [⟨io.mdevUuid, dir ++ s.between ++ [io.mdevUuid], args.gpu.pciAddress, args.vmId⟩] })

def allocate (lower : String → String) (s : Sysfs) (args : AllocateArgs) (io : AllocateIo) :
    Except String GpuAllocation × Sysfs :=
  match listProfiles args.gpu io.types with
  | .error e => (.error e, s)
  | .ok profiles =>
      match findProfile lower profiles args.profileStr with
      | .error e => (.error e, s)
      | .ok profile =>
          let mdevCreatePath := typesPath args.gpu ++ "/" ++ profile.mdevType ++ "/create"
          let mdevPath := "/sys/bus/mdev/devices/" ++ io.mdevUuid
          match s.create args io with
          | (.failed, s) => (.error ("creating mdev device at " ++ mdevCreatePath), s)
          | (.missing, s) => (.error ("mdev device " ++ mdevPath ++ " not created"), s)
          | (.made, s) => (.ok ⟨args.gpu, profile, args.vmId, mdevPath⟩, s)

/-! ## Release -/

/-- `mdev_path.join("../..").canonicalize()` -/
def Mdev.above (d : Mdev) : List String := ["..", ".."].foldl Path.enter d.dir

/-- The check that the device belongs to the GPU. -/
def Mdev.selectedBy (d : Mdev) (gpu : GpuDevice) : Bool :=
  contains (pathText d.above) gpu.pciAddress

/-- `io` tells for which devices the entry is read, the path resolved and the write to `remove`
carried out; what fails is passed over. -/
def Sysfs.release (s : Sysfs) (gpu : GpuDevice) (_vgpuId : UInt32) (io : String → Bool) : Sysfs :=
  { s with devices := s.devices.filter fun d => !(d.selectedBy gpu && io d.uuid) }

inductive VgpuCall
  | allocate (args : AllocateArgs) (io : AllocateIo)
  | release (gpu : GpuDevice) (vgpuId : UInt32) (io : String → Bool)

def machine (lower : String → String) : Machine Sysfs VgpuCall (Except String GpuAllocation) where
  step s
    | .allocate args io =>
        let (reply, s) := allocate lower s args io
        (s, [reply])
    | .release gpu vgpuId io => (s.release gpu vgpuId io, [])

/-! ## What is released -/

def Mdev.isFor (d : Mdev) (gpu : GpuDevice) (vgpuId : UInt32) : Bool :=
  d.forGpu = gpu.pciAddress && d.forId = vgpuId

/-- The path of the directory two levels above the devices of the one GPU contains the address
of the other. -/
def Sysfs.liesBelow (s : Sysfs) (forGpu : String) (gpu : GpuDevice) : Bool :=
  (s.pciDir forGpu).any fun dir => contains (pathText (dir ++ s.between).dropLast) gpu.pciAddress

/-- Every device is below the directory of the GPU that it was made for. -/
def Sysfs.Placed (s : Sysfs) : Prop :=
  ∀ d ∈ s.devices, ∃ dir, s.pciDir d.forGpu = some dir ∧ d.dir = dir ++ s.between ++ [d.uuid]

theorem create_cases (s : Sysfs) (args : AllocateArgs) (io : AllocateIo) :
    (s.create args io).2 = s ∨ ∃ dir, s.pciDir args.gpu.pciAddress = some dir ∧
      (s.create args io).2 = { s with devices := s.devices ++
        [⟨io.mdevUuid, dir ++ s.between ++ [io.mdevUuid], args.gpu.pciAddress, args.vmId⟩] } := by
  unfold Sysfs.create
  split
  · exact Or.inl rfl
  · exact Or.inl rfl
  · exact Or.inl rfl
  · rename_i hdir _
    split
    · exact Or.inl rfl
    · exact Or.inr ⟨_, hdir, rfl⟩

theorem allocate_cases (lower : String → String) (s : Sysfs) (args : AllocateArgs)
    (io : AllocateIo) :
    (allocate lower s args io).2 = s ∨ (allocate lower s args io).2 = (s.create args io).2 := by
  unfold allocate
  split
  · exact Or.inl rfl
  · split
    · exact Or.inl rfl
    · split
      all_goals
        rename_i h
        rw [h]
        exact Or.inr rfl

theorem create_placed {s : Sysfs} (h : s.Placed) (args : AllocateArgs) (io : AllocateIo) :
    (s.create args io).2.Placed := by
  rcases create_cases s args io with hs | ⟨dir, hdir, hs⟩
  · rw [hs]
    exact h
  · rw [hs]
    intro d hd
    rcases List.mem_append.mp hd with hold | hnew
    · exact h d hold
    · rw [List.mem_singleton.mp hnew]
      exact ⟨dir, hdir, rfl⟩

theorem step_placed (lower : String → String) (s : Sysfs) (a : VgpuCall) (h : s.Placed) :
    ((machine lower).step s a).1.Placed := by
  cases a with
  | allocate args io =>
      change (allocate lower s args io).2.Placed
      rcases allocate_cases lower s args io with hs | hs
      · rw [hs]
        exact h
      · rw [hs]
        exact create_placed h args io
  | release gpu vgpuId io => exact fun d hd => h d (List.mem_of_mem_filter hd)

/-- What is compared with the address is the path above the GPU of the device. -/
theorem Sysfs.Placed.selectedBy_eq {s : Sysfs} (h : s.Placed) {d : Mdev} (hd : d ∈ s.devices)
    (gpu : GpuDevice) : d.selectedBy gpu = s.liesBelow d.forGpu gpu := by
  obtain ⟨dir, hdir, hplace⟩ := h d hd
  have habove : d.above = (dir ++ s.between).dropLast := by
    rw [Mdev.above, hplace]
    exact congrArg List.dropLast List.dropLast_concat
  rw [Mdev.selectedBy, habove, Sysfs.liesBelow, hdir]
  rfl

theorem filter_eq_iff {α : Type} {l : List α} {p q : α → Bool} :
    l.filter p = l.filter q ↔ ∀ x ∈ l, p x = q x := by
  constructor
  · intro h x hx
    have hmem : x ∈ l.filter p ↔ x ∈ l.filter q := by rw [h]
    rw [List.mem_filter, List.mem_filter] at hmem
    rw [Bool.eq_iff_iff]
    exact ⟨fun hp => (hmem.mp ⟨hx, hp⟩).2, fun hq => (hmem.mpr ⟨hx, hq⟩).2⟩
  · exact List.filter_congr

/-- After any calls, a release takes away exactly the devices made for the id on the GPU when
those are the ones whose GPU lies below a path that contains the address. -/
theorem release_exact_iff (lower : String → String) (pciDir : String → Option (List String))
    (between : List String) (calls : List VgpuCall) (gpu : GpuDevice) (vgpuId : UInt32)
    (io : String → Bool) :
    let s := ((machine lower).run (.new pciDir between) calls).1
    (s.release gpu vgpuId io).devices = s.devices.filter (fun d => !d.isFor gpu vgpuId) ↔
      ∀ d ∈ s.devices, (s.liesBelow d.forGpu gpu = true ∧ io d.uuid = true ↔
        d.forGpu = gpu.pciAddress ∧ d.forId = vgpuId) := by
  intro s
  have hempty : (Sysfs.new pciDir between).Placed := fun d hd => absurd hd List.not_mem_nil
  have hplaced : s.Placed := (machine lower).run_inductive (step_placed lower) hempty calls
  rw [Sysfs.release, filter_eq_iff]
  refine forall_congr' fun d => forall_congr' fun hd => ?_
  rw [hplaced.selectedBy_eq hd, Bool.not_inj_iff, Bool.eq_iff_iff, Bool.and_eq_true, Mdev.isFor,
    Bool.and_eq_true, decide_eq_true_eq, decide_eq_true_eq]

def sampleDir (address : String) : Option (List String) :=
  if address = "0000:3b:00.0" then
    some ["sys", "devices", "pci0000:3a", "0000:3a:00.0", "0000:3b:00.0"]
  else none

def sampleDevices (between : List String) : Sysfs :=
  let allocateFor := fun vmId uuid => VgpuCall.allocate ⟨⟨"0000:3b:00.0"⟩, "40c", vmId⟩
    ⟨some [⟨"nvidia-105", "GRID A100-40C", 2⟩], uuid, .made⟩
  ((machine String.toLower).run (.new sampleDir between)
    [allocateFor 1 "u1", allocateFor 2 "u2"]).1

/-- The release for the first VM should leave the device of the second. It leaves both, and
would leave none if devices had one more directory above them. -/
theorem release_for_one_vm :
    let gpu : GpuDevice := ⟨"0000:3b:00.0"⟩
    let left := fun s : Sysfs => (s.release gpu 1 fun _ => true).devices.map Mdev.uuid
    let expected := fun s : Sysfs => (s.devices.filter fun d => !d.isFor gpu 1).map Mdev.uuid
    expected (sampleDevices []) = ["u2"] ∧ left (sampleDevices []) = ["u1", "u2"] ∧
      expected (sampleDevices ["mdev"]) = ["u2"] ∧ left (sampleDevices ["mdev"]) = [] := by
  decide +kernel

end Caiman.Gpu
