import Caiman.Lib.Last
import Caiman.Vmm.Kvm.Confinement

/-!
# Guest memory as a store of bytes

For accesses whose end is an address the bounds check is exact. What is written is then what
is read, byte by byte, through any sequence of writes, and a refused write leaves no trace.
-/

namespace Caiman.Vmm

open Lib

/-- At least a byte, and an end that is still an address. -/
def InAddressSpace (a n : Nat) : Prop := 1 ≤ n ∧ a + n ≤ 2 ^ 64 - 1

instance (a n : Nat) : Decidable (InAddressSpace a n) := inferInstanceAs (Decidable (_ ∧ _))

theorem InAddressSpace.lt {a n : Nat} (h : InAddressSpace a n) : a + n < 2 ^ 64 := by
  have hend := h.2
  omega

/-- A call of `write_slice`. -/
structure Write where
  data : Slice
  addr : UInt64

abbrev Write.len (w : Write) : Nat := w.data.val.length

def Write.InAddressSpace (w : Write) : Prop := Vmm.InAddressSpace w.addr.toNat w.len

instance (w : Write) : Decidable w.InAddressSpace :=
  inferInstanceAs (Decidable (Vmm.InAddressSpace _ _))

namespace GuestMemory

variable {g : GuestMemory}

theorem not_wraps {a n : Nat} (h : InAddressSpace a n) : ¬ g.Wraps a n := by
  intro hw
  have hge := hw.1
  have hlt := h.lt
  omega

theorem not_mapped_of_long {a n : Nat} (hn : isizeMax < n) : ¬ g.Mapped a n := by
  have hsize := g.high_size
  have hbase : highBase.toNat = 1048576 := rfl
  rw [mapped_iff, ramEnd, hbase]
  simp only [isizeMax] at hn hsize
  omega

theorem regionFor_none_of_long {a n : UInt64} (hn : isizeMax < n.toNat)
    (h : InAddressSpace a.toNat n.toNat) : g.regionFor a n = none := by
  have hexact : (a.toNat + n.toNat) % 2 ^ 64 = a.toNat + n.toNat := Nat.mod_eq_of_lt h.lt
  have hm : ¬ g.Mapped a.toNat n.toNat := not_mapped_of_long hn
  rw [mapped_iff, not_or] at hm
  have hlow : g.low.admits a n = false := by
    rw [← Bool.not_eq_true, low_admits_iff, hexact]
    exact hm.1
  have hhigh : g.high.admits a n = false := by
    rw [← Bool.not_eq_true, high_admits_iff, hexact]
    exact hm.2
  simp only [regionFor, regions, List.find?_cons, List.find?_nil, hlow, hhigh]

/-- A read whose end is an address is answered or refused, never carried past a region. -/
theorem readSlice_exact {a n : UInt64} (h : InAddressSpace a.toNat n.toNat) :
    g.readSlice a n =
      if g.Mapped a.toNat n.toNat then .ok (some (g.load a.toNat n.toNat)) else .ok none := by
  by_cases hn : isizeMax < n.toNat
  · rw [if_neg (not_mapped_of_long hn), readSlice, regionFor_none_of_long hn h]
  · rw [readSlice_eq g a n (Nat.le_of_not_lt hn), if_neg (not_wraps h)]

theorem writeSlice_exact {w : Write} (h : w.InAddressSpace) :
    g.writeSlice w.data.val w.addr =
      if g.Mapped w.addr.toNat w.len then .ok (some (g.store w.addr.toNat w.data.val))
      else .ok none := by
  have hwraps : ¬ g.Wraps w.addr.toNat w.data.val.length := not_wraps h
  rw [writeSlice_eq g w.data.val w.addr w.data.property, if_neg hwraps]

theorem writeSliceIgnored_exact {w : Write} (h : w.InAddressSpace) :
    g.writeSliceIgnored w.data.val w.addr = .ok (g.store w.addr.toNat w.data.val) := by
  have hwraps : ¬ g.Wraps w.addr.toNat w.data.val.length := not_wraps h
  rw [writeSliceIgnored_eq g w.data.val w.addr w.data.property, if_neg hwraps]

/-- What the accesses owe to one another: an access goes through when it lies inside a region
and otherwise changes nothing, a write is read back, and no other range notices it. -/
structure FaithfulStore (g : GuestMemory) : Prop where
  read : ∀ a n : UInt64, InAddressSpace a.toNat n.toNat →
    if g.Mapped a.toNat n.toNat then ∃ bytes, g.readSlice a n = .ok (some bytes)
    else g.readSlice a n = .ok none
  write : ∀ w : Write, w.InAddressSpace →
    if g.Mapped w.addr.toNat w.len then ∃ g', g.writeSlice w.data.val w.addr = .ok (some g')
    else g.writeSlice w.data.val w.addr = .ok none ∧
      g.writeSliceIgnored w.data.val w.addr = .ok g
  readBack : ∀ (w : Write) g', w.InAddressSpace → g.writeSlice w.data.val w.addr = .ok (some g') →
    g'.readSlice w.addr (UInt64.ofNat w.len) = .ok (some w.data.val)
  frame : ∀ (w : Write) g', w.InAddressSpace → g.writeSlice w.data.val w.addr = .ok (some g') →
    ∀ b m : UInt64, InAddressSpace b.toNat m.toNat →
      (b.toNat + m.toNat ≤ w.addr.toNat ∨ w.addr.toNat + w.len ≤ b.toNat) →
        g'.readSlice b m = g.readSlice b m

theorem eq_store_of_writeSlice {w : Write} {g' : GuestMemory} (h : w.InAddressSpace)
    (hwrite : g.writeSlice w.data.val w.addr = .ok (some g')) :
    g.Mapped w.addr.toNat w.len ∧ g' = g.store w.addr.toNat w.data.val := by
  rw [writeSlice_exact h] at hwrite
  by_cases hm : g.Mapped w.addr.toNat w.len
  · rw [if_pos hm] at hwrite
    cases hwrite
    exact ⟨hm, rfl⟩
  · rw [if_neg hm] at hwrite
    cases hwrite

theorem faithfulStore (g : GuestMemory) : g.FaithfulStore where
  read := by
    intro a n h
    rw [readSlice_exact h]
    by_cases hm : g.Mapped a.toNat n.toNat
    · rw [if_pos hm, if_pos hm]
      exact ⟨_, rfl⟩
    · rw [if_neg hm, if_neg hm]
  write := by
    intro w h
    rw [writeSlice_exact h, writeSliceIgnored_exact h]
    by_cases hm : g.Mapped w.addr.toNat w.len
    · rw [if_pos hm, if_pos hm]
      exact ⟨_, rfl⟩
    · rw [if_neg hm, if_neg hm, store_of_not_mapped hm]
      exact ⟨rfl, rfl⟩
  readBack := by
    intro w g' h hwrite
    obtain ⟨hm, rfl⟩ := eq_store_of_writeSlice h hwrite
    have hlen : (UInt64.ofNat w.len).toNat = w.len :=
      UInt64.toNat_ofNat_of_lt' (Nat.lt_of_le_of_lt (Nat.le_add_left _ _) h.lt)
    have hread : InAddressSpace w.addr.toNat (UInt64.ofNat w.len).toNat := by
      rw [hlen]
      exact h
    rw [readSlice_exact hread, hlen, if_pos ((mapped_store _ _ _ _ _).mpr hm), load_store rfl hm]
  frame := by
    intro w g' h hwrite b m hread hd
    obtain ⟨hm, rfl⟩ := eq_store_of_writeSlice h hwrite
    rw [readSlice_exact hread, readSlice_exact hread]
    by_cases hb : g.Mapped b.toNat m.toNat
    · rw [if_pos hb, if_pos ((mapped_store _ _ _ _ _).mpr hb), load_store_of_disjoint hb hd]
    · rw [if_neg hb, if_neg fun h => hb ((mapped_store _ _ _ _ _).mp h)]

/-! ## Sequences of writes -/

def writeAll (g : GuestMemory) (ws : List Write) : Exec GuestMemory :=
  ws.foldlM (fun g w => g.writeSliceIgnored w.data.val w.addr) g

/-- The byte a write puts at `x`, when it goes through and reaches it. -/
def putByte (g : GuestMemory) (x : Nat) (w : Write) : Option UInt8 :=
  if g.Covers w.addr.toNat w.len x then w.data.val[x - w.addr.toNat]? else none

theorem writeAll_eq {ws : List Write} (hws : ∀ w ∈ ws, w.InAddressSpace) :
    g.writeAll ws = .ok (ws.foldl (fun g w => g.store w.addr.toNat w.data.val) g) := by
  induction ws generalizing g with
  | nil => rfl
  | cons w ws ih =>
      rw [writeAll, List.foldlM_cons, writeSliceIgnored_exact (hws w List.mem_cons_self)]
      exact ih fun v hv => hws v (List.mem_cons_of_mem w hv)

theorem byteAt_store_put {g' : GuestMemory} (hend : g'.ramEnd = g.ramEnd) (w : Write) (x : Nat) :
    (g'.store w.addr.toNat w.data.val).byteAt x = (g.putByte x w).or (g'.byteAt x) := by
  rw [byteAt_store_eq, putByte]
  by_cases hc : g.Covers w.addr.toNat w.len x
  · have hin : x - w.addr.toNat < w.data.val.length := by
      obtain ⟨-, hge, hlt⟩ := hc
      exact Nat.sub_lt_left_of_lt_add hge hlt
    rw [if_pos ((covers_congr hend _ _ _).mpr hc), if_pos hc,
      List.getD_eq_getElem?_getD, List.getElem?_eq_getElem hin]
    rfl
  · rw [if_neg fun h => hc ((covers_congr hend _ _ _).mp h), if_neg hc]
    rfl

theorem byteAt_writeAll (ws : List Write) (x : Nat) :
    (ws.foldl (fun g w => g.store w.addr.toNat w.data.val) g).ramEnd = g.ramEnd ∧
      (ws.foldl (fun g w => g.store w.addr.toNat w.data.val) g).byteAt x =
        (lastPut (g.putByte x) ws).or (g.byteAt x) :=
  read_foldl (fun g' => g'.byteAt x) (I := fun g' => g'.ramEnd = g.ramEnd) (P := fun _ => True)
    (fun g' w hend _ => ⟨(ramEnd_store g' _ _).trans hend, byteAt_store_put hend w x⟩)
    rfl fun _ _ => trivial

/-- Memory is handed out filled with zeros. -/
theorem alloc_byteAt {mmapAnon : MmapAnon} {memMib : UInt64}
    (h : alloc mmapAnon memMib = some g) {x : Nat} (hx : g.Mapped x 1) :
    g.byteAt x = some 0 := by
  have hzero : (∀ i, g.low.bytes i = 0) ∧ ∀ i, g.high.bytes i = 0 := by
    unfold alloc at h
    dsimp only at h
    split at h
    · cases h
    · split at h
      · cases h
      · cases h
        exact ⟨fun _ => rfl, fun _ => rfl⟩
  rw [byteAt]
  by_cases hl : g.low.Contains x 1
  · rw [if_pos hl, hzero.1]
  · rw [if_neg hl, if_pos (hx.resolve_left hl), hzero.2]

/-- Guest memory is a faithful store of bytes from its allocation on: after any sequence of
writes the accesses keep to their laws, and every range that lies inside a region reads as the
last byte written to each of its addresses, or the zero it held at first. -/
theorem memory_faithful {mmapAnon : MmapAnon} {memMib : UInt64}
    (h : alloc mmapAnon memMib = some g) {ws : List Write} (hws : ∀ w ∈ ws, w.InAddressSpace) :
    ∃ g', g.writeAll ws = .ok g' ∧ g'.FaithfulStore ∧
      ∀ b m : UInt64, InAddressSpace b.toNat m.toNat →
        (g'.Mapped b.toNat m.toNat ↔ g.Mapped b.toNat m.toNat) ∧
        (g.Mapped b.toNat m.toNat → g'.readSlice b m = .ok (some ((List.range m.toNat).map
          fun i => (lastPut (g.putByte (b.toNat + i)) ws).getD 0))) := by
  refine ⟨_, writeAll_eq hws, faithfulStore _, ?_⟩
  intro b m hread
  have hend := (byteAt_writeAll (g := g) ws 0).1
  have hmapped : (ws.foldl (fun g w => g.store w.addr.toNat w.data.val) g).Mapped b.toNat m.toNat ↔
      g.Mapped b.toNat m.toNat := by
    rw [mapped_iff, mapped_iff, hend]
  refine ⟨hmapped, ?_⟩
  intro hm
  rw [readSlice_exact hread, if_pos (hmapped.mpr hm)]
  congr 2
  apply List.ext_getElem?
  intro i
  by_cases hi : i < m.toNat
  · have hone : g.Mapped (b.toNat + i) 1 := hm.mono (Nat.le_add_right _ _) (by omega)
    rw [load_getElem? (hmapped.mpr hm) hi, (byteAt_writeAll ws (b.toNat + i)).2,
      alloc_byteAt h hone]
    rw [List.getElem?_map, List.getElem?_range hi, Option.map_some]
    cases lastPut (g.putByte (b.toNat + i)) ws <;> rfl
  · rw [List.getElem?_eq_none (by simp; omega), List.getElem?_eq_none (by simp; omega)]

/-- Two writes that overlap at the end of the low region, and one refused in the hole. -/
def sampleWrites : List Write :=
  [⟨⟨[1, 2, 3, 4], by decide⟩, 0x9FFFC⟩, ⟨⟨[9, 9], by decide⟩, 0x9FFFF⟩, ⟨⟨[7], by decide⟩, 0x9FFFD⟩]

theorem memory_faithful_sample :
    ∃ g', twoMib.writeAll sampleWrites = .ok g' ∧ g'.FaithfulStore ∧
      g'.readSlice 0x9FFFC 4 = .ok (some [1, 7, 3, 4]) := by
  have halloc : alloc userMmap 2 = some twoMib := (Option.some_get _).symm
  have hws : ∀ w ∈ sampleWrites, w.InAddressSpace := by decide
  obtain ⟨g', hrun, hfaithful, hread⟩ := memory_faithful halloc hws
  exact ⟨g', hrun, hfaithful, (hread 0x9FFFC 4 (by decide)).2 (by decide)⟩

end GuestMemory

end Caiman.Vmm
