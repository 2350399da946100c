import Caiman.Vmm.Kvm.Confinement
import Caiman.Vmm.Kvm.Vcpu

/-!
# Guest RAM and the device windows

`register_with_vm` hands every region to KVM as a memory slot. A guest access to
a slot is served from RAM without an exit; only what no slot backs comes back as
an MMIO exit.
-/

namespace Caiman.Vmm

open Blk Net

structure KvmSlot where
  slot : UInt32
  flags : UInt32
  guestPhysAddr : UInt64
  memorySize : UInt64
  userspaceAddr : UInt64
  deriving DecidableEq, Repr

def KvmSlot.Backs (k : KvmSlot) (addr : UInt64) : Prop :=
  k.guestPhysAddr.toNat ≤ addr.toNat ∧ addr.toNat < k.guestPhysAddr.toNat + k.memorySize.toNat

instance (k : KvmSlot) (addr : UInt64) : Decidable (k.Backs addr) :=
  inferInstanceAs (Decidable (_ ∧ _))

inductive GuestAccess
  | read (addr : UInt64) (buf : List UInt8)
  | write (addr : UInt64) (data : List UInt8)
  deriving DecidableEq, Repr

namespace GuestAccess

def addr : GuestAccess → UInt64
  | read addr _ => addr
  | write addr _ => addr

/-- The exit KVM makes of an access no slot backs. -/
def mmio : GuestAccess → VcpuExit
  | read addr buf => .mmioRead addr buf
  | write addr data => .mmioWrite addr data

/-- `none` when the access stays in the guest. -/
def exit (slots : List KvmSlot) (a : GuestAccess) : Option VcpuExit :=
  if ∃ k ∈ slots, k.Backs a.addr then none else some a.mmio

end GuestAccess

namespace GuestMemory

def registerWithVm (g : GuestMemory) : List KvmSlot :=
  g.regions.map fun r => ⟨r.slot, 0, r.guestAddr, r.size, r.hostPtr⟩

/-- The address is a register of the network or of the block device. -/
def InWindow (addr : UInt64) : Prop := Devices.inNet addr = true ∨ Devices.inBlk addr = true

/-- RAM and the device windows are apart, and every access to a window exits. -/
structure SparesWindows (g : GuestMemory) : Prop where
  disjoint : g.regions.Pairwise fun r r' => ∀ x, r.Contains x 1 → ¬ r'.Contains x 1
  clear : ∀ r ∈ g.regions, ∀ addr : UInt64, r.Contains addr.toNat 1 → ¬ InWindow addr
  exits : ∀ a : GuestAccess, InWindow a.addr → a.exit g.registerWithVm = some a.mmio

theorem inNet_iff (addr : UInt64) :
    Devices.inNet addr = true ↔ 0xD0000000 ≤ addr.toNat ∧ addr.toNat < 0xD0001000 := by
  simp [Devices.inNet, virtioNetMmioBase, virtioNetMmioSize, UInt64.le_iff_toNat_le,
    UInt64.lt_iff_toNat_lt]

theorem inBlk_iff (addr : UInt64) :
    Devices.inBlk addr = true ↔ 0xD0010000 ≤ addr.toNat ∧ addr.toNat < 0xD0011000 := by
  simp [Devices.inBlk, virtioBlkMmioBase, virtioBlkMmioSize, UInt64.le_iff_toNat_le,
    UInt64.lt_iff_toNat_lt]

theorem regions_disjoint (g : GuestMemory) :
    g.regions.Pairwise fun r r' => ∀ x, r.Contains x 1 → ¬ r'.Contains x 1 := by
  refine List.pairwise_pair.mpr ?_
  intro x hlow hhigh
  rw [low_contains_iff] at hlow
  rw [high_contains_iff] at hhigh
  omega

theorem backs_iff (g : GuestMemory) (addr : UInt64) :
    (∃ k ∈ g.registerWithVm, k.Backs addr) ↔ ∃ r ∈ g.regions, r.Contains addr.toNat 1 := by
  simp only [registerWithVm, List.mem_map, exists_exists_and_eq_and, KvmSlot.Backs,
    MemoryRegion.Contains, Nat.succ_le_iff]

theorem clear_iff (g : GuestMemory) :
    (∀ r ∈ g.regions, ∀ addr : UInt64, r.Contains addr.toNat 1 → ¬ InWindow addr) ↔
      g.ramEnd ≤ 0xD0000000 := by
  constructor
  · intro h
    by_contra hend
    have hbase : (0xD0000000 : UInt64).toNat = 0xD0000000 := rfl
    refine h g.high (by simp [regions]) 0xD0000000 ?_ (Or.inl (by decide))
    rw [high_contains_iff, hbase]
    omega
  · intro hend r hr addr hcontains hwindow
    have hin : 0xD0000000 ≤ addr.toNat := by
      rcases hwindow with h | h
      · exact ((inNet_iff addr).mp h).1
      · have := ((inBlk_iff addr).mp h).1
        omega
    rcases List.mem_pair.mp hr with rfl | rfl
    · rw [low_contains_iff] at hcontains
      omega
    · rw [high_contains_iff] at hcontains
      omega

theorem sparesWindows_iff (g : GuestMemory) : g.SparesWindows ↔ g.ramEnd ≤ 0xD0000000 := by
  constructor
  · exact fun h => g.clear_iff.mp h.clear
  · intro hend
    have hclear := g.clear_iff.mpr hend
    refine ⟨g.regions_disjoint, hclear, ?_⟩
    intro a hwindow
    rw [GuestAccess.exit, if_neg]
    rw [backs_iff]
    intro hback
    obtain ⟨r, hr, hcontains⟩ := hback
    exact hclear r hr a.addr hcontains hwindow

/-- The layout `alloc` makes for `mem_mib` leaves the device windows to the devices
exactly when RAM ends at or below the first window. -/
theorem alloc_sparesWindows_iff (mmapAnon : MmapAnon) (memMib : UInt64) (g : GuestMemory)
    (h : alloc mmapAnon memMib = some g) :
    g.SparesWindows ↔ memMib.toNat % 2 ^ 44 ≤ 3328 := by
  rw [sparesWindows_iff, alloc_ramEnd h]
  omega

/-- The default size leaves them alone. -/
theorem default_sparesWindows : ∃ g, alloc userMmap 256 = some g ∧ g.SparesWindows := by
  obtain ⟨g, hg⟩ := Option.isSome_iff_exists.mp (show (alloc userMmap 256).isSome by decide)
  exact ⟨g, hg, (alloc_sparesWindows_iff userMmap 256 g hg).mpr (by decide)⟩

/-- With 4 GiB the network device's registers are ordinary RAM. -/
theorem fourGib_shadows : ∃ g, alloc userMmap 4096 = some g ∧ ¬ g.SparesWindows := by
  refine ⟨_, rfl, fun h => ?_⟩
  refine h.clear _ (List.mem_cons_of_mem _ (List.mem_singleton_self _)) 0xD0000000 ?_
    (Or.inl (by decide))
  decide

end GuestMemory

end Caiman.Vmm
