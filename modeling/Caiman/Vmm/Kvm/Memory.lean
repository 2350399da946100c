import Mathlib.Data.List.Basic
import Mathlib.Tactic.Ring

/-!
# Guest memory

`GuestMemory::alloc` maps two anonymous regions, 640 KiB of conventional RAM at
guest address 0 and the extended RAM at 1 MiB, and every device reaches guest
RAM through `read_slice` and `write_slice`. Both ask `region_for` for a region
and then copy through a raw host pointer. Addresses are `u64` and lengths are
`usize`, and the sums of the bounds check wrap as they do in the release
profile. A copy that leaves its mapping has no defined result; the model stops
there with `Halt.wild` and says nothing about what follows.
-/

namespace Caiman.Vmm

/-- The ways a computation ends without returning: a Rust panic, which aborts
the process in the release profile, or a raw copy outside its mapping. -/
inductive Halt
  | panic
  | wild
  deriving DecidableEq, Repr

abbrev Exec (α : Type) := Except Halt α

/-- Largest length a Rust slice or vector can have. -/
def isizeMax : Nat := 2 ^ 63 - 1

/-- `bytes` is the content of the mapping that starts at `hostPtr`, by offset. -/
structure MemoryRegion where
  hostPtr : UInt64
  guestAddr : UInt64
  size : UInt64
  slot : UInt32
  bytes : Nat → UInt8

namespace MemoryRegion

/-- The comparison `region_for` makes, with its wrapping sums. -/
def admits (r : MemoryRegion) (guestAddr len : UInt64) : Bool :=
  r.guestAddr ≤ guestAddr && guestAddr + len ≤ r.guestAddr + r.size

/-- The interval `[a, a + n)` lies inside the region, in exact arithmetic. -/
def Contains (r : MemoryRegion) (a n : Nat) : Prop :=
  r.guestAddr.toNat ≤ a ∧ a + n ≤ r.guestAddr.toNat + r.size.toNat

instance (r : MemoryRegion) (a n : Nat) : Decidable (r.Contains a n) :=
  inferInstanceAs (Decidable (_ ∧ _))

def copyIn (r : MemoryRegion) (offset : Nat) (data : List UInt8) : MemoryRegion :=
  { r with
    bytes := fun i =>
      if offset ≤ i ∧ i < offset + data.length then data.getD (i - offset) 0 else r.bytes i }

def copyOut (r : MemoryRegion) (offset len : Nat) : List UInt8 :=
  (List.range len).map fun i => r.bytes (offset + i)

end MemoryRegion

def lowSize : UInt64 := 640 * 1024
def highBase : UInt64 := 0x00100000

/-- The two regions `alloc` pushes, with what it guarantees about them. The
vector is private and never resized, so no other shape occurs. -/
structure GuestMemory where
  low : MemoryRegion
  high : MemoryRegion
  low_addr : low.guestAddr = 0
  low_size : low.size = lowSize
  low_slot : low.slot = 0
  high_addr : high.guestAddr = highBase
  high_slot : high.slot = 1
  high_size : high.size.toNat ≤ isizeMax

/-- `mmap` with a null hint, by call number. A mapping it returns lies in the
lower, user half of the address space. -/
structure MmapAnon where
  map : Nat → UInt64 → Option UInt64
  fits : ∀ {call size ptr}, map call size = some ptr → ptr.toNat + size.toNat ≤ isizeMax

namespace GuestMemory

def regions (g : GuestMemory) : List MemoryRegion := [g.low, g.high]

def alloc (mmapAnon : MmapAnon) (memMib : UInt64) : Option GuestMemory :=
  let highSize := memMib * 1024 * 1024 - 0x00100000
  match mmapAnon.map 0 lowSize with
  | none => none
  | some lowPtr =>
      match hmap : mmapAnon.map 1 highSize with
      | none => none
      | some highPtr =>
          -- anonymous mappings are zero-filled
          some
            { low := ⟨lowPtr, 0, lowSize, 0, fun _ => 0⟩
              high := ⟨highPtr, highBase, highSize, 1, fun _ => 0⟩
              low_addr := rfl
              low_size := rfl
              low_slot := rfl
              high_addr := rfl
              high_slot := rfl
              high_size := Nat.le_trans (Nat.le_add_left _ _) (mmapAnon.fits hmap) }

def regionFor (g : GuestMemory) (guestAddr len : UInt64) : Option MemoryRegion :=
  g.regions.find? fun r => r.admits guestAddr len

/-- Write through the host pointer of the region registered under `slot`. -/
def copyInto (g : GuestMemory) (slot : UInt32) (offset : Nat) (data : List UInt8) : GuestMemory where
  low := if g.low.slot = slot then g.low.copyIn offset data else g.low
  high := if g.high.slot = slot then g.high.copyIn offset data else g.high
  low_addr := by split <;> exact g.low_addr
  low_size := by split <;> exact g.low_size
  low_slot := by split <;> exact g.low_slot
  high_addr := by split <;> exact g.high_addr
  high_slot := by split <;> exact g.high_slot
  high_size := by split <;> exact g.high_size

/-- `some` is the function's `Ok`, `none` its `Err`. -/
def writeSlice (g : GuestMemory) (data : List UInt8) (guestAddr : UInt64) :
    Exec (Option GuestMemory) :=
  match g.regionFor guestAddr (UInt64.ofNat data.length) with
  | none => .ok none
  | some region =>
      let offset := (guestAddr - region.guestAddr).toNat
      if offset + data.length ≤ region.size.toNat then
        .ok (some (g.copyInto region.slot offset data))
      else .error .wild

def readSlice (g : GuestMemory) (guestAddr len : UInt64) : Exec (Option (List UInt8)) :=
  match g.regionFor guestAddr len with
  | none => .ok none
  | some region =>
      let offset := (guestAddr - region.guestAddr).toNat
      -- `vec![0u8; len]` panics on capacity overflow
      if isizeMax < len.toNat then .error .panic
      else if offset + len.toNat ≤ region.size.toNat then
        .ok (some (region.copyOut offset len.toNat))
      else .error .wild

/-- `let _ = mem.write_slice(..)`: the caller drops the result. -/
def writeSliceIgnored (g : GuestMemory) (data : List UInt8) (guestAddr : UInt64) :
    Exec GuestMemory :=
  match g.writeSlice data guestAddr with
  | .ok (some g') => .ok g'
  | .ok none => .ok g
  | .error h => .error h

/-- Mappings as a 64-bit Linux host hands them out: two areas of the user half,
each with room for a terabyte. -/
def userMmap : MmapAnon where
  map call size :=
    if size.toNat ≤ 2 ^ 40 then some (if call = 0 then 0x600000000000 else 0x700000000000) else none
  fits := by
    intro call size ptr h
    have h6 : (0x600000000000 : UInt64).toNat = 0x600000000000 := rfl
    have h7 : (0x700000000000 : UInt64).toNat = 0x700000000000 := rfl
    simp only [isizeMax]
    split at h
    · cases h
      split <;> omega
    · cases h

/-- Guest RAM of 2 MiB as `alloc` leaves it. -/
def twoMib : GuestMemory := (alloc userMmap 2).get (by decide)

/-! ## Guest-physical view

What an access does is stated by guest address and in exact arithmetic. `Mapped`
ranges are copied, `Wraps` ranges are the ones the bounds check mistakes for
mapped, and every other range is refused.
-/

def ramEnd (g : GuestMemory) : Nat := highBase.toNat + g.high.size.toNat

/-- `[a, a + n)` lies inside one region. -/
def Mapped (g : GuestMemory) (a n : Nat) : Prop := g.low.Contains a n ∨ g.high.Contains a n

/-- `a + n` passes `2 ^ 64` and comes back at or below the end of RAM. -/
def Wraps (g : GuestMemory) (a n : Nat) : Prop := 2 ^ 64 ≤ a + n ∧ a + n ≤ 2 ^ 64 + g.ramEnd

instance (g : GuestMemory) (a n : Nat) : Decidable (g.Mapped a n) :=
  inferInstanceAs (Decidable (_ ∨ _))

instance (g : GuestMemory) (a n : Nat) : Decidable (g.Wraps a n) :=
  inferInstanceAs (Decidable (_ ∧ _))

def byteAt (g : GuestMemory) (x : Nat) : Option UInt8 :=
  if g.low.Contains x 1 then some (g.low.bytes x)
  else if g.high.Contains x 1 then some (g.high.bytes (x - highBase.toNat))
  else none

def load (g : GuestMemory) (a n : Nat) : List UInt8 :=
  if g.low.Contains a n then g.low.copyOut a n else g.high.copyOut (a - highBase.toNat) n

def store (g : GuestMemory) (a : Nat) (data : List UInt8) : GuestMemory :=
  if g.low.Contains a data.length then g.copyInto 0 a data
  else if g.high.Contains a data.length then g.copyInto 1 (a - highBase.toNat) data
  else g

theorem low_contains_iff (g : GuestMemory) (a n : Nat) :
    g.low.Contains a n ↔ a + n ≤ 655360 := by
  simp [MemoryRegion.Contains, g.low_addr, g.low_size, lowSize]

theorem high_contains_iff (g : GuestMemory) (a n : Nat) :
    g.high.Contains a n ↔ 1048576 ≤ a ∧ a + n ≤ g.ramEnd := by
  simp [MemoryRegion.Contains, g.high_addr, ramEnd, highBase]

theorem mapped_iff (g : GuestMemory) (a n : Nat) :
    g.Mapped a n ↔ a + n ≤ 655360 ∨ 1048576 ≤ a ∧ a + n ≤ g.ramEnd := by
  rw [Mapped, low_contains_iff, high_contains_iff]

theorem ramEnd_bounds (g : GuestMemory) : 1048576 ≤ g.ramEnd ∧ g.ramEnd < 2 ^ 63 + 1048576 := by
  have h := g.high_size
  simp only [isizeMax] at h
  simp only [ramEnd, highBase]
  have hb : (0x00100000 : UInt64).toNat = 1048576 := rfl
  omega

theorem Mapped.lt {g : GuestMemory} {a n : Nat} (h : g.Mapped a n) : a + n < 2 ^ 64 := by
  have hb := g.ramEnd_bounds
  rw [mapped_iff] at h
  omega

theorem Mapped.not_wraps {g : GuestMemory} {a n : Nat} (h : g.Mapped a n) : ¬ g.Wraps a n := by
  intro hw
  have hlt := h.lt
  have hge := hw.1
  omega

theorem Mapped.mono {g : GuestMemory} {a n b k : Nat} (h : g.Mapped a n) (hl : a ≤ b)
    (hr : b + k ≤ a + n) : g.Mapped b k := by
  rw [mapped_iff] at h ⊢
  omega

theorem low_admits_iff (g : GuestMemory) (a n : UInt64) :
    g.low.admits a n = true ↔ (a.toNat + n.toNat) % 2 ^ 64 ≤ 655360 := by
  simp [MemoryRegion.admits, g.low_addr, g.low_size, lowSize, UInt64.le_iff_toNat_le]

theorem high_admits_iff (g : GuestMemory) (a n : UInt64) :
    g.high.admits a n = true ↔
      1048576 ≤ a.toNat ∧ (a.toNat + n.toNat) % 2 ^ 64 ≤ g.ramEnd := by
  have hb := g.ramEnd_bounds
  have hend : (highBase + g.high.size).toNat = g.ramEnd := by
    rw [UInt64.toNat_add, ramEnd] at *
    exact Nat.mod_eq_of_lt (by omega)
  have hbase : highBase.toNat = 1048576 := rfl
  simp only [MemoryRegion.admits, g.high_addr, UInt64.le_iff_toNat_le, hend, hbase,
    Bool.and_eq_true, decide_eq_true_eq]
  rw [UInt64.toNat_add]

/-- `region_for` on a length a slice can have: without wrap-around it returns the
region that contains the range, past `2 ^ 64` whichever region the wrapped end
falls below. -/
theorem regionFor_eq (g : GuestMemory) (a n : UInt64) (hn : n.toNat ≤ isizeMax) :
    g.regionFor a n =
      if g.low.Contains a.toNat n.toNat ∨
          2 ^ 64 ≤ a.toNat + n.toNat ∧ a.toNat + n.toNat ≤ 2 ^ 64 + 655360 then some g.low
      else if g.high.Contains a.toNat n.toNat ∨ g.Wraps a.toNat n.toNat then some g.high
      else none := by
  have hb := g.ramEnd_bounds
  have ha := a.toNat_lt
  simp only [isizeMax] at hn
  have hlow : (g.low.admits a n = true) ↔ (g.low.Contains a.toNat n.toNat ∨
      2 ^ 64 ≤ a.toNat + n.toNat ∧ a.toNat + n.toNat ≤ 2 ^ 64 + 655360) := by
    rw [low_admits_iff, low_contains_iff]
    omega
  have hhigh : (g.high.admits a n = true) ↔ (g.high.Contains a.toNat n.toNat ∨
      g.Wraps a.toNat n.toNat) := by
    rw [high_admits_iff, high_contains_iff, Wraps]
    omega
  simp only [regionFor, regions, List.find?_cons, List.find?_nil]
  by_cases hl : g.low.admits a n = true
  · rw [if_pos (hlow.mp hl), hl]
  · rw [if_neg (fun h => hl (hlow.mpr h)), Bool.eq_false_iff.mpr hl]
    by_cases hh : g.high.admits a n = true
    · rw [if_pos (hhigh.mp hh), hh]
    · rw [if_neg (fun h => hh (hhigh.mpr h)), Bool.eq_false_iff.mpr hh]

theorem regionFor_low {g : GuestMemory} {a n : UInt64} (hn : n.toNat ≤ isizeMax)
    (h : g.low.Contains a.toNat n.toNat) : g.regionFor a n = some g.low := by
  rw [regionFor_eq g a n hn, if_pos (Or.inl h)]

theorem regionFor_high {g : GuestMemory} {a n : UInt64} (hn : n.toNat ≤ isizeMax)
    (hl : ¬ g.low.Contains a.toNat n.toNat) (h : g.high.Contains a.toNat n.toNat) :
    g.regionFor a n = some g.high := by
  have hlt := Mapped.lt (Or.inr h)
  rw [regionFor_eq g a n hn, if_neg, if_pos (Or.inl h)]
  exact fun h' => h'.elim hl (fun h' => by omega)

theorem regionFor_none {g : GuestMemory} {a n : UInt64} (hn : n.toNat ≤ isizeMax)
    (hm : ¬ g.Mapped a.toNat n.toNat) (hw : ¬ g.Wraps a.toNat n.toNat) :
    g.regionFor a n = none := by
  have hb := g.ramEnd_bounds
  simp only [Mapped, not_or] at hm
  rw [regionFor_eq g a n hn, if_neg, if_neg]
  · exact fun h => h.elim hm.2 hw
  · rintro (h | h)
    · exact hm.1 h
    · exact hw ⟨h.1, by omega⟩

/-- A range that wraps is attributed to a region it is not inside of, at an
offset from which the copy leaves the mapping. -/
theorem regionFor_wraps {g : GuestMemory} {a n : UInt64} (hn : n.toNat ≤ isizeMax)
    (hw : g.Wraps a.toNat n.toNat) :
    ∃ r, g.regionFor a n = some r ∧ r ∈ g.regions ∧ ¬ r.Contains a.toNat n.toNat ∧
      ¬ (a - r.guestAddr).toNat + n.toNat ≤ r.size.toNat := by
  have hb := g.ramEnd_bounds
  have hm : ¬ g.Mapped a.toNat n.toNat := fun h => h.not_wraps hw
  simp only [Mapped, not_or] at hm
  simp only [isizeMax] at hn
  have hbase : highBase.toNat = 1048576 := rfl
  have hlow : lowSize.toNat = 655360 := rfl
  rw [regionFor_eq g a n hn]
  by_cases hl : a.toNat + n.toNat ≤ 2 ^ 64 + 655360
  · refine ⟨g.low, by rw [if_pos (Or.inr ⟨hw.1, hl⟩)], by simp [regions], hm.1, ?_⟩
    rw [g.low_addr, g.low_size, UInt64.sub_zero, hlow]
    have := hw.1
    omega
  · refine ⟨g.high, ?_, by simp [regions], hm.2, ?_⟩
    · rw [if_neg (fun h => h.elim hm.1 (fun h => hl h.2)), if_pos (Or.inr hw)]
    · have hle : highBase ≤ a := UInt64.le_iff_toNat_le.mpr (by have := hw.1; omega)
      rw [g.high_addr, UInt64.toNat_sub_of_le _ _ hle]
      have := hw.1
      simp only [ramEnd] at hb
      omega

private theorem low_offset {g : GuestMemory} {a : UInt64} {n : Nat}
    (h : g.low.Contains a.toNat n) :
    (a - g.low.guestAddr).toNat = a.toNat ∧ a.toNat + n ≤ g.low.size.toNat := by
  rw [g.low_addr, UInt64.sub_zero]
  exact ⟨rfl, by simpa [MemoryRegion.Contains, g.low_addr] using h⟩

private theorem high_offset {g : GuestMemory} {a : UInt64} {n : Nat}
    (h : g.high.Contains a.toNat n) :
    (a - g.high.guestAddr).toNat = a.toNat - highBase.toNat ∧
      a.toNat - highBase.toNat + n ≤ g.high.size.toNat := by
  obtain ⟨hle, hend⟩ := h
  rw [UInt64.toNat_sub_of_le _ _ (UInt64.le_iff_toNat_le.mpr hle), g.high_addr] at *
  exact ⟨rfl, by omega⟩

theorem writeSlice_eq (g : GuestMemory) (data : List UInt8) (a : UInt64)
    (hn : data.length ≤ isizeMax) :
    g.writeSlice data a =
      if g.Mapped a.toNat data.length then .ok (some (g.store a.toNat data))
      else if g.Wraps a.toNat data.length then .error .wild
      else .ok none := by
  have hlen : (UInt64.ofNat data.length).toNat = data.length := by
    simp only [isizeMax] at hn
    exact UInt64.toNat_ofNat_of_lt' (Nat.lt_of_le_of_lt hn (by decide))
  rw [← hlen] at hn
  by_cases hl : g.low.Contains a.toNat data.length
  · obtain ⟨hoff, hle⟩ := low_offset hl
    have hfind : g.regionFor a (UInt64.ofNat data.length) = some g.low :=
      regionFor_low hn (by rwa [hlen])
    simp only [writeSlice, hfind, hoff, if_pos hle, if_pos (show g.Mapped _ _ from Or.inl hl),
      store, if_pos hl, g.low_slot]
  · by_cases hh : g.high.Contains a.toNat data.length
    · obtain ⟨hoff, hle⟩ := high_offset hh
      have hfind : g.regionFor a (UInt64.ofNat data.length) = some g.high :=
        regionFor_high hn (by rwa [hlen]) (by rwa [hlen])
      simp only [writeSlice, hfind, hoff, if_pos hle, if_pos (show g.Mapped _ _ from Or.inr hh),
        store, if_neg hl, if_pos hh, g.high_slot]
    · have hm : ¬ g.Mapped a.toNat data.length := fun h => h.elim hl hh
      rw [if_neg hm]
      by_cases hw : g.Wraps a.toNat data.length
      · obtain ⟨r, hfind, -, -, hout⟩ := regionFor_wraps (g := g) (a := a) hn (by rwa [hlen])
        rw [hlen] at hout
        simp only [writeSlice, hfind, if_neg hout, if_pos hw]
      · have hfind : g.regionFor a (UInt64.ofNat data.length) = none :=
          regionFor_none hn (by rwa [hlen]) (by rwa [hlen])
        simp only [writeSlice, hfind, if_neg hw]

theorem readSlice_eq (g : GuestMemory) (a n : UInt64) (hn : n.toNat ≤ isizeMax) :
    g.readSlice a n =
      if g.Mapped a.toNat n.toNat then .ok (some (g.load a.toNat n.toNat))
      else if g.Wraps a.toNat n.toNat then .error .wild
      else .ok none := by
  have hcap : ¬ isizeMax < n.toNat := Nat.not_lt.mpr hn
  by_cases hl : g.low.Contains a.toNat n.toNat
  · obtain ⟨hoff, hle⟩ := low_offset hl
    simp only [readSlice, regionFor_low hn hl, hoff, if_neg hcap, if_pos hle,
      if_pos (show g.Mapped _ _ from Or.inl hl), load, if_pos hl]
  · by_cases hh : g.high.Contains a.toNat n.toNat
    · obtain ⟨hoff, hle⟩ := high_offset hh
      simp only [readSlice, regionFor_high hn hl hh, hoff, if_neg hcap, if_pos hle,
        if_pos (show g.Mapped _ _ from Or.inr hh), load, if_neg hl]
    · have hm : ¬ g.Mapped a.toNat n.toNat := fun h => h.elim hl hh
      rw [if_neg hm]
      by_cases hw : g.Wraps a.toNat n.toNat
      · obtain ⟨r, hfind, -, -, hout⟩ := regionFor_wraps hn hw
        simp only [readSlice, hfind, if_neg hcap, if_neg hout, if_pos hw]
      · simp only [readSlice, regionFor_none hn hm hw, if_neg hw]

theorem store_of_not_mapped {g : GuestMemory} {a : Nat} {data : List UInt8}
    (h : ¬ g.Mapped a data.length) : g.store a data = g := by
  simp only [Mapped, not_or] at h
  rw [store, if_neg h.1, if_neg h.2]

theorem writeSliceIgnored_eq (g : GuestMemory) (data : List UInt8) (a : UInt64)
    (hn : data.length ≤ isizeMax) :
    g.writeSliceIgnored data a =
      if g.Wraps a.toNat data.length then .error .wild else .ok (g.store a.toNat data) := by
  rw [writeSliceIgnored, writeSlice_eq g data a hn]
  by_cases hm : g.Mapped a.toNat data.length
  · rw [if_pos hm, if_neg hm.not_wraps]
  · by_cases hw : g.Wraps a.toNat data.length
    · rw [if_neg hm, if_pos hw, if_pos hw]
    · rw [if_neg hm, if_neg hw, if_neg hw, store_of_not_mapped hm]

/-! ## Bytes before and after a copy -/

@[simp] theorem ramEnd_store (g : GuestMemory) (a : Nat) (data : List UInt8) :
    (g.store a data).ramEnd = g.ramEnd := by
  have hcopy : ∀ slot offset, (g.copyInto slot offset data).high.size = g.high.size := by
    intro slot offset
    simp only [copyInto]
    split <;> rfl
  unfold store
  split
  · rw [ramEnd, ramEnd, hcopy]
  · split
    · rw [ramEnd, ramEnd, hcopy]
    · rfl

@[simp] theorem mapped_store (g : GuestMemory) (a : Nat) (data : List UInt8) (b n : Nat) :
    (g.store a data).Mapped b n ↔ g.Mapped b n := by
  simp only [mapped_iff, ramEnd_store]

@[simp] theorem wraps_store (g : GuestMemory) (a : Nat) (data : List UInt8) (b n : Nat) :
    (g.store a data).Wraps b n ↔ g.Wraps b n := by
  simp only [Wraps, ramEnd_store]

theorem byteAt_low {g : GuestMemory} {x : Nat} (h : x < 655360) :
    g.byteAt x = some (g.low.bytes x) := by
  rw [byteAt, if_pos]
  rw [low_contains_iff]
  omega

theorem byteAt_high {g : GuestMemory} {x : Nat} (hx : 1048576 ≤ x) (he : x < g.ramEnd) :
    g.byteAt x = some (g.high.bytes (x - highBase.toNat)) := by
  rw [byteAt, if_neg, if_pos]
  · rw [high_contains_iff]
    omega
  · rw [low_contains_iff]
    omega

@[simp] theorem load_length (g : GuestMemory) (a n : Nat) : (g.load a n).length = n := by
  unfold load MemoryRegion.copyOut
  split <;> simp

theorem load_getElem? {g : GuestMemory} {a n i : Nat} (h : g.Mapped a n) (hi : i < n) :
    (g.load a n)[i]? = g.byteAt (a + i) := by
  have hbase : highBase.toNat = 1048576 := rfl
  unfold load
  by_cases hl : g.low.Contains a n
  · rw [if_pos hl]
    rw [low_contains_iff] at hl
    rw [byteAt_low (by omega)]
    simp [MemoryRegion.copyOut, hi]
  · have hh := h.resolve_left hl
    rw [if_neg hl]
    rw [high_contains_iff] at hh
    rw [byteAt_high (by omega) (by omega)]
    have hoff : a - highBase.toNat + i = a + i - highBase.toNat := by omega
    simp [MemoryRegion.copyOut, hi, hoff]

private theorem copyInto_low (g : GuestMemory) (offset : Nat) (data : List UInt8) :
    (g.copyInto 0 offset data).low = g.low.copyIn offset data ∧
      (g.copyInto 0 offset data).high = g.high := by
  simp [copyInto, g.low_slot, g.high_slot]

private theorem copyInto_high (g : GuestMemory) (offset : Nat) (data : List UInt8) :
    (g.copyInto 1 offset data).low = g.low ∧
      (g.copyInto 1 offset data).high = g.high.copyIn offset data := by
  simp [copyInto, g.low_slot, g.high_slot]

theorem byteAt_store {g : GuestMemory} {a : Nat} {data : List UInt8}
    (h : g.Mapped a data.length) (x : Nat) :
    (g.store a data).byteAt x =
      if a ≤ x ∧ x < a + data.length then some (data.getD (x - a) 0) else g.byteAt x := by
  have hbase : highBase.toNat = 1048576 := rfl
  have hend := ramEnd_store g a data
  by_cases hl : g.low.Contains a data.length
  · have hstore : g.store a data = g.copyInto 0 a data := by rw [store, if_pos hl]
    obtain ⟨hlow, hhigh⟩ := copyInto_low g a data
    rw [low_contains_iff] at hl
    rw [hstore] at hend ⊢
    by_cases hx : x < 655360
    · rw [byteAt_low hx, byteAt_low hx, hlow]
      simp only [MemoryRegion.copyIn]
      split <;> rfl
    · have hx' : ¬ x + 1 ≤ 655360 := by omega
      rw [if_neg (by omega)]
      simp only [byteAt, low_contains_iff, high_contains_iff, if_neg hx', hhigh]
  · have hh := h.resolve_left hl
    have hstore : g.store a data = g.copyInto 1 (a - highBase.toNat) data := by
      rw [store, if_neg hl, if_pos hh]
    obtain ⟨hlow, hhigh⟩ := copyInto_high g (a - highBase.toNat) data
    rw [high_contains_iff] at hh
    rw [hstore] at hend ⊢
    by_cases hx : 1048576 ≤ x ∧ x < g.ramEnd
    · rw [byteAt_high hx.1 hx.2, byteAt_high hx.1 (by omega), hhigh]
      simp only [MemoryRegion.copyIn]
      by_cases hin : a ≤ x ∧ x < a + data.length
      · have hoff : x - highBase.toNat - (a - highBase.toNat) = x - a := by omega
        rw [if_pos hin, if_pos (by omega), hoff]
      · rw [if_neg hin, if_neg (by omega)]
    · rw [if_neg (by omega)]
      simp only [byteAt, low_contains_iff, high_contains_iff, hend]
      rw [hlow]
      split
      · rfl
      · rw [if_neg (by omega), if_neg (by omega)]

theorem byteAt_store_of_not_mem {g : GuestMemory} {a : Nat} {data : List UInt8} {x : Nat}
    (hx : ¬ (a ≤ x ∧ x < a + data.length)) : (g.store a data).byteAt x = g.byteAt x := by
  by_cases h : g.Mapped a data.length
  · rw [byteAt_store h, if_neg hx]
  · rw [store_of_not_mapped h]

/-- A copy of `n` bytes to `a` goes through and reaches byte `x`. -/
def Covers (g : GuestMemory) (a n x : Nat) : Prop := g.Mapped a n ∧ a ≤ x ∧ x < a + n

instance (g : GuestMemory) (a n x : Nat) : Decidable (g.Covers a n x) :=
  inferInstanceAs (Decidable (_ ∧ _ ∧ _))

theorem byteAt_store_eq (g : GuestMemory) (a : Nat) (data : List UInt8) (x : Nat) :
    (g.store a data).byteAt x =
      if g.Covers a data.length x then some (data.getD (x - a) 0) else g.byteAt x := by
  by_cases h : g.Mapped a data.length
  · rw [byteAt_store h]
    simp only [Covers, h, true_and]
  · rw [store_of_not_mapped h, if_neg fun hc => h hc.1]

theorem covers_congr {g g' : GuestMemory} (hend : g'.ramEnd = g.ramEnd) (a n x : Nat) :
    g'.Covers a n x ↔ g.Covers a n x := by
  simp only [Covers, mapped_iff, hend]

/-- After the same copy, two memories of one layout agree on the bytes it reaches
and wherever they agreed before. -/
theorem byteAt_store_congr {g g' : GuestMemory} (hend : g'.ramEnd = g.ramEnd) {a : Nat}
    {data : List UInt8} {x : Nat}
    (h : g.Covers a data.length x ∨ g'.byteAt x = g.byteAt x) :
    (g'.store a data).byteAt x = (g.store a data).byteAt x := by
  rw [byteAt_store_eq, byteAt_store_eq]
  simp only [covers_congr hend]
  by_cases hc : g.Covers a data.length x
  · rw [if_pos hc, if_pos hc]
  · rw [if_neg hc, if_neg hc]
    exact h.resolve_left hc

def ChangesOnly (allowed : Nat → Prop) (g g' : GuestMemory) : Prop :=
  ∀ x, g'.byteAt x ≠ g.byteAt x → allowed x

namespace ChangesOnly

variable {allowed : Nat → Prop} {g g' g'' : GuestMemory}

theorem refl (allowed : Nat → Prop) (g : GuestMemory) : ChangesOnly allowed g g :=
  fun _ h => absurd rfl h

theorem trans (h : ChangesOnly allowed g g') (h' : ChangesOnly allowed g' g'') :
    ChangesOnly allowed g g'' := by
  intro x hx
  by_cases hfirst : g'.byteAt x = g.byteAt x
  · exact h' x (by rwa [hfirst])
  · exact h x hfirst

theorem mono {allowed' : Nat → Prop} (h : ChangesOnly allowed g g')
    (hsub : ∀ x, allowed x → allowed' x) : ChangesOnly allowed' g g' :=
  fun x hx => hsub x (h x hx)

theorem store (g : GuestMemory) (a : Nat) (data : List UInt8)
    (h : ∀ x, g.Covers a data.length x → allowed x) : ChangesOnly allowed g (g.store a data) := by
  intro x hx
  rw [byteAt_store_eq] at hx
  split at hx
  · rename_i hc
    exact h x hc
  · exact absurd rfl hx

end ChangesOnly

def fill (g : GuestMemory) (v : UInt8) : GuestMemory :=
  { g with
    low := { g.low with bytes := fun _ => v }
    high := { g.high with bytes := fun _ => v } }

@[simp] theorem ramEnd_fill (g : GuestMemory) (v : UInt8) : (g.fill v).ramEnd = g.ramEnd := rfl

theorem byteAt_fill {g : GuestMemory} {v : UInt8} {x : Nat} (h : g.Mapped x 1) :
    (g.fill v).byteAt x = some v := by
  unfold byteAt
  by_cases hl : (g.fill v).low.Contains x 1
  · rw [if_pos hl]
    rfl
  · have hh : (g.fill v).high.Contains x 1 := h.resolve_left hl
    rw [if_neg hl, if_pos hh]
    rfl

theorem load_fill (g : GuestMemory) (v : UInt8) (a n : Nat) :
    (g.fill v).load a n = List.replicate n v := by
  unfold load MemoryRegion.copyOut
  split <;> simp [fill]

theorem load_congr {g g' : GuestMemory} {a n : Nat} (h : g.Mapped a n) (h' : g'.Mapped a n)
    (hbytes : ∀ x, a ≤ x → x < a + n → g'.byteAt x = g.byteAt x) :
    g'.load a n = g.load a n := by
  apply List.ext_getElem?
  intro i
  by_cases hi : i < n
  · rw [load_getElem? h hi, load_getElem? h' hi]
    exact hbytes (a + i) (by omega) (by omega)
  · rw [List.getElem?_eq_none (by simp; omega), List.getElem?_eq_none (by simp; omega)]

theorem load_store {g : GuestMemory} {a n : Nat} {data : List UInt8} (hn : data.length = n)
    (h : g.Mapped a n) : (g.store a data).load a n = data := by
  subst hn
  apply List.ext_getElem?
  intro i
  by_cases hi : i < data.length
  · rw [load_getElem? ((mapped_store g a data a _).mpr h) hi, byteAt_store h,
      if_pos ⟨by omega, by omega⟩]
    simp [hi]
  · rw [List.getElem?_eq_none (by simp; omega), List.getElem?_eq_none (by omega)]

theorem load_store_of_disjoint {g : GuestMemory} {a b n : Nat} {data : List UInt8}
    (h : g.Mapped b n) (hd : b + n ≤ a ∨ a + data.length ≤ b) :
    (g.store a data).load b n = g.load b n :=
  load_congr h ((mapped_store g a data b n).mpr h)
    (fun x _ _ => byteAt_store_of_not_mem (by omega))

end GuestMemory

end Caiman.Vmm
