import Caiman.Vmm.Kvm.Memory

/-!
# Confinement of guest-memory accesses

Which accesses stay inside the region `region_for` names. The bounds check adds
a guest-chosen address to a guest-chosen length in `u64`, so the only ranges it
lets through wrongly are those whose end passes `2 ^ 64` and comes back at or
below the end of RAM.
-/

namespace Caiman.Vmm

/-- The Rust function returned `Ok`, after a copy inside its mapping or after a
copy that left it. -/
def ReturnsOk {α : Type} (result : Exec (Option α)) : Prop :=
  (∃ v, result = .ok (some v)) ∨ result = .error .wild

/-- A Rust byte slice: its length never exceeds `isize::MAX`. -/
abbrev Slice := { data : List UInt8 // data.length ≤ isizeMax }

namespace GuestMemory

/-- An access of `n` bytes at `a` that returns `Ok` lies, in exact arithmetic,
inside the region `region_for` returned for it. -/
structure Confined (g : GuestMemory) (a n : UInt64) : Prop where
  write : ∀ data : Slice, data.val.length = n.toNat → ReturnsOk (g.writeSlice data.val a) →
    ∃ r, g.regionFor a n = some r ∧ r.Contains a.toNat n.toNat
  read : ReturnsOk (g.readSlice a n) →
    ∃ r, g.regionFor a n = some r ∧ r.Contains a.toNat n.toNat

theorem regionFor_of_mapped {g : GuestMemory} {a n : UInt64} (hn : n.toNat ≤ isizeMax)
    (h : g.Mapped a.toNat n.toNat) :
    ∃ r, g.regionFor a n = some r ∧ r.Contains a.toNat n.toNat := by
  by_cases hl : g.low.Contains a.toNat n.toNat
  · exact ⟨g.low, regionFor_low hn hl, hl⟩
  · exact ⟨g.high, regionFor_high hn hl (h.resolve_left hl), h.resolve_left hl⟩

theorem confined_of_isizeMax_lt {g : GuestMemory} {a n : UInt64} (hn : isizeMax < n.toNat) :
    g.Confined a n where
  write := by
    intro data hlen
    have := data.property
    omega
  read := by
    intro hok
    have hpanic : ∀ r, g.regionFor a n = some r → g.readSlice a n = .error .panic := by
      intro r hr
      simp only [readSlice, hr, if_pos hn]
    have hnone : g.regionFor a n = none → g.readSlice a n = .ok none := by
      intro hr
      simp only [readSlice, hr]
    cases hr : g.regionFor a n with
    | none => simp [ReturnsOk, hnone hr] at hok
    | some r => simp [ReturnsOk, hpanic r hr] at hok

theorem confined_of_not_wraps {g : GuestMemory} {a n : UInt64} (hn : n.toNat ≤ isizeMax)
    (hw : ¬ g.Wraps a.toNat n.toNat) : g.Confined a n where
  write := by
    intro data hlen hok
    by_cases hm : g.Mapped a.toNat n.toNat
    · exact regionFor_of_mapped hn hm
    · rw [writeSlice_eq g data.val a data.property, hlen, if_neg hm, if_neg hw] at hok
      simp [ReturnsOk] at hok
  read := by
    intro hok
    by_cases hm : g.Mapped a.toNat n.toNat
    · exact regionFor_of_mapped hn hm
    · rw [readSlice_eq g a n hn, if_neg hm, if_neg hw] at hok
      simp [ReturnsOk] at hok

theorem not_confined_of_wraps {g : GuestMemory} {a n : UInt64} (hn : n.toNat ≤ isizeMax)
    (hw : g.Wraps a.toNat n.toNat) : ¬ g.Confined a n := by
  intro hc
  have hm : ¬ g.Mapped a.toNat n.toNat := fun h => h.not_wraps hw
  have hok : ReturnsOk (g.readSlice a n) := by
    rw [readSlice_eq g a n hn, if_neg hm, if_pos hw]
    exact Or.inr rfl
  obtain ⟨r, hfind, hin⟩ := hc.read hok
  obtain ⟨r', hfind', -, hout, -⟩ := regionFor_wraps hn hw
  have hr : r = r' := Option.some.inj (hfind.symm.trans hfind')
  exact hout (hr ▸ hin)

/-- An access is confined unless its end wraps past `2 ^ 64` to an address at or
below the end of RAM. -/
theorem confined_iff (g : GuestMemory) (a n : UInt64) :
    g.Confined a n ↔
      isizeMax < n.toNat ∨ a.toNat + n.toNat < 2 ^ 64 ∨
        2 ^ 64 + g.ramEnd < a.toNat + n.toNat := by
  by_cases hn : isizeMax < n.toNat
  · exact ⟨fun _ => Or.inl hn, fun _ => confined_of_isizeMax_lt hn⟩
  · have hle : n.toNat ≤ isizeMax := Nat.not_lt.mp hn
    constructor
    · intro hc
      by_contra hcond
      exact not_confined_of_wraps hle ⟨by omega, by omega⟩ hc
    · intro hcond
      refine confined_of_not_wraps hle (fun hw => ?_)
      obtain ⟨h1, h2⟩ := hw
      omega

theorem alloc_highSize {mmapAnon : MmapAnon} {memMib : UInt64} {g : GuestMemory}
    (h : alloc mmapAnon memMib = some g) : g.high.size = memMib * 1024 * 1024 - 0x00100000 := by
  unfold alloc at h
  dsimp only at h
  split at h
  · cases h
  · split at h
    · cases h
    · cases h
      rfl

/-- End of RAM in a freshly allocated memory: `mem_mib` MiB, in `u64`. -/
theorem alloc_ramEnd {mmapAnon : MmapAnon} {memMib : UInt64} {g : GuestMemory}
    (h : alloc mmapAnon memMib = some g) : g.ramEnd = memMib.toNat * 2 ^ 20 % 2 ^ 64 := by
  have hb := g.ramEnd_bounds
  have hbase : highBase.toNat = 1048576 := rfl
  have hs : g.high.size.toNat = (2 ^ 64 - 1048576 + memMib.toNat * 1048576 % 2 ^ 64) % 2 ^ 64 := by
    rw [alloc_highSize h]
    simp [UInt64.toNat_sub, UInt64.toNat_mul]
    omega
  simp only [ramEnd] at hb ⊢
  omega

/-- Sixteen bytes at `2 ^ 64 - 8`, the length of a descriptor or of a block
request header, pass the check of a 256 MiB guest. -/
theorem alloc_not_confined :
    ∃ g, alloc userMmap 256 = some g ∧ ¬ g.Confined 0xFFFFFFFFFFFFFFF8 16 := by
  refine ⟨_, rfl, not_confined_of_wraps (by decide) ?_⟩
  decide

end GuestMemory

end Caiman.Vmm
