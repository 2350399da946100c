import Caiman.Lib.Bytes
import Caiman.Vmm.Kvm.Memory

/-!
# Split virtqueue

The device side of a split-ring virtqueue: descriptor table, available ring and
used ring live in guest RAM at addresses the driver programs through MMIO, and
the queue keeps two private free-running `u16` indices. Ring addresses are added
to in `u64` arithmetic that wraps; `% size` panics when the driver has set the
size to zero.
-/

namespace Caiman.Vmm

open Lib

def virtqDescFNext : UInt16 := 0x1
def virtqDescFWrite : UInt16 := 0x2

def maxQueueSize : UInt16 := 1024

structure Descriptor where
  addr : UInt64
  len : UInt32
  flags : UInt16
  next : UInt16
  deriving DecidableEq, Repr

namespace Descriptor

def hasNext (d : Descriptor) : Bool := d.flags &&& virtqDescFNext != 0
def isWrite (d : Descriptor) : Bool := d.flags &&& virtqDescFWrite != 0

/-- The sixteen bytes with which a driver puts the descriptor in the table. -/
def encode (d : Descriptor) : List UInt8 :=
  leBytes 8 d.addr.toNat ++ leBytes 4 d.len.toNat ++ leBytes 2 d.flags.toNat ++
    leBytes 2 d.next.toNat

end Descriptor

structure Virtqueue where
  size : UInt16
  ready : Bool
  descTable : UInt64
  availRing : UInt64
  usedRing : UInt64
  lastAvailIdx : UInt16
  usedIdx : UInt16
  deriving DecidableEq, Repr

def remU16 (a b : UInt16) : Exec UInt16 :=
  if b = 0 then .error .panic else .ok (a % b)

/-- One of the three address registers, low half then high half. A half that is
written as zero leaves the register as it was. -/
def setHalves (old : UInt64) (low high : UInt32) : UInt64 :=
  let withLow : UInt64 :=
    if low ≠ 0 then (old &&& (0xFFFFFFFF00000000 : UInt64)) ||| low.toUInt64 else old
  if high ≠ 0 then (withLow &&& (0x00000000FFFFFFFF : UInt64)) ||| (high.toUInt64 <<< 32)
  else withLow

namespace Virtqueue

def new (size : UInt16) : Virtqueue where
  size := min size maxQueueSize
  ready := false
  descTable := 0
  availRing := 0
  usedRing := 0
  lastAvailIdx := 0
  usedIdx := 0

def setDescTable (q : Virtqueue) (low high : UInt32) : Virtqueue :=
  { q with descTable := setHalves q.descTable low high }

def setAvailRing (q : Virtqueue) (low high : UInt32) : Virtqueue :=
  { q with availRing := setHalves q.availRing low high }

def setUsedRing (q : Virtqueue) (low high : UInt32) : Virtqueue :=
  { q with usedRing := setHalves q.usedRing low high }

/-! ## Reading the rings -/

def readAvailIdx (q : Virtqueue) (mem : GuestMemory) : Exec (Option UInt16) := do
  if q.availRing = 0 then return none
  match ← mem.readSlice (q.availRing + 2) 2 with
  | none => return none
  | some bytes => return some (UInt16.ofNat (leNat bytes))

def readAvailRingEntry (q : Virtqueue) (mem : GuestMemory) (ringIdx : UInt16) :
    Exec (Option UInt16) := do
  let offset := q.availRing + 4 + ringIdx.toUInt64 * 2
  match ← mem.readSlice offset 2 with
  | none => return none
  | some bytes => return some (UInt16.ofNat (leNat bytes))

def readDesc (q : Virtqueue) (mem : GuestMemory) (idx : UInt16) : Exec (Option Descriptor) := do
  if q.descTable = 0 ∨ q.size ≤ idx then return none
  let offset := q.descTable + idx.toUInt64 * 16
  match ← mem.readSlice offset 16 with
  | none => return none
  | some bytes =>
      return some
        { addr := UInt64.ofNat (leNat (bytes.take 8))
          len := UInt32.ofNat (leNat ((bytes.drop 8).take 4))
          flags := UInt16.ofNat (leNat ((bytes.drop 12).take 2))
          next := UInt16.ofNat (leNat ((bytes.drop 14).take 2)) }

def nextAvail (q : Virtqueue) (mem : GuestMemory) : Exec (Option UInt16 × Virtqueue) := do
  match ← q.readAvailIdx mem with
  | none => return (none, q)
  | some availIdx =>
      if q.lastAvailIdx = availIdx then return (none, q)
      let ringIdx ← remU16 q.lastAvailIdx q.size
      match ← q.readAvailRingEntry mem ringIdx with
      | none => return (none, q)
      | some descIdx => return (some descIdx, { q with lastAvailIdx := q.lastAvailIdx + 1 })

/-- Body of the loop of `read_chain`. The loop leaves once the chain has 65
descriptors, so `fuel` 65 never runs out. -/
def readChainLoop (q : Virtqueue) (mem : GuestMemory) :
    Nat → UInt16 → List Descriptor → Exec (List Descriptor)
  | 0, _, chain => .ok chain
  | fuel + 1, idx, chain => do
      match ← q.readDesc mem idx with
      | none => return chain
      | some desc =>
          let chain := chain ++ [desc]
          if !desc.hasNext || chain.length > 64 then return chain
          readChainLoop q mem fuel desc.next chain

def readChain (q : Virtqueue) (mem : GuestMemory) (head : UInt16) : Exec (List Descriptor) :=
  q.readChainLoop mem 65 head []

/-! ## Writing the used ring -/

def usedElemAddr (q : Virtqueue) (ringIdx : UInt16) : UInt64 :=
  q.usedRing + 4 + ringIdx.toUInt64 * 8

def addUsed (q : Virtqueue) (mem : GuestMemory) (head : UInt16) (len : UInt32) :
    Exec (Bool × Virtqueue × GuestMemory) := do
  if q.usedRing = 0 then return (false, q, mem)
  let ringIdx ← remU16 q.usedIdx q.size
  let elemOffset := q.usedElemAddr ringIdx
  let mem ← mem.writeSliceIgnored (leBytes 4 head.toUInt32.toNat) elemOffset
  let mem ← mem.writeSliceIgnored (leBytes 4 len.toNat) (elemOffset + 4)
  let usedIdx := q.usedIdx + 1
  let mem ← mem.writeSliceIgnored (leBytes 2 usedIdx.toNat) (q.usedRing + 2)
  return (true, { q with usedIdx := usedIdx }, mem)

/-! ## What the calls do -/

def usedSlot (q : Virtqueue) : UInt16 := q.usedIdx % q.size

/-- One of the three writes of a completion is mistaken for a mapped one. -/
def UsedWraps (q : Virtqueue) (mem : GuestMemory) : Prop :=
  mem.Wraps (q.usedElemAddr q.usedSlot).toNat 4 ∨
    mem.Wraps (q.usedElemAddr q.usedSlot + 4).toNat 4 ∨ mem.Wraps (q.usedRing + 2).toNat 2

instance (q : Virtqueue) (mem : GuestMemory) : Decidable (q.UsedWraps mem) :=
  inferInstanceAs (Decidable (_ ∨ _ ∨ _))

/-- Memory after the element and then the index have been written. -/
def publishUsed (q : Virtqueue) (mem : GuestMemory) (head : UInt16) (len : UInt32) : GuestMemory :=
  ((mem.store (q.usedElemAddr q.usedSlot).toNat (leBytes 4 head.toUInt32.toNat)).store
      (q.usedElemAddr q.usedSlot + 4).toNat (leBytes 4 len.toNat)).store
    (q.usedRing + 2).toNat (leBytes 2 (q.usedIdx + 1).toNat)

/-- A completion writes byte `x`: of its element's id or length, or of the index. -/
def UsedCovers (q : Virtqueue) (mem : GuestMemory) (x : Nat) : Prop :=
  mem.Covers (q.usedElemAddr q.usedSlot).toNat 4 x ∨
    mem.Covers (q.usedElemAddr q.usedSlot + 4).toNat 4 x ∨ mem.Covers (q.usedRing + 2).toNat 2 x

instance (q : Virtqueue) (mem : GuestMemory) (x : Nat) : Decidable (q.UsedCovers mem x) :=
  inferInstanceAs (Decidable (_ ∨ _ ∨ _))

theorem usedWraps_congr {q : Virtqueue} {mem mem' : GuestMemory}
    (hend : mem'.ramEnd = mem.ramEnd) : q.UsedWraps mem' ↔ q.UsedWraps mem := by
  simp only [UsedWraps, GuestMemory.Wraps, hend]

theorem usedCovers_congr {q : Virtqueue} {mem mem' : GuestMemory}
    (hend : mem'.ramEnd = mem.ramEnd) (x : Nat) : q.UsedCovers mem' x ↔ q.UsedCovers mem x := by
  simp only [UsedCovers, GuestMemory.covers_congr hend]

theorem byteAt_publishUsed_of_not_covers {q : Virtqueue} {mem : GuestMemory} {head : UInt16}
    {len : UInt32} {x : Nat} (h : ¬ q.UsedCovers mem x) :
    (q.publishUsed mem head len).byteAt x = mem.byteAt x := by
  simp only [UsedCovers, not_or] at h
  obtain ⟨hid, hlen, hidx⟩ := h
  simp only [publishUsed, GuestMemory.byteAt_store_eq, leBytes_length,
    GuestMemory.covers_congr (GuestMemory.ramEnd_store _ _ _), if_neg hid, if_neg hlen,
    if_neg hidx]

theorem byteAt_publishUsed_congr {q : Virtqueue} {mem mem' : GuestMemory} {head : UInt16}
    {len : UInt32} {x : Nat} (hend : mem'.ramEnd = mem.ramEnd)
    (h : q.UsedCovers mem x ∨ mem'.byteAt x = mem.byteAt x) :
    (q.publishUsed mem' head len).byteAt x = (q.publishUsed mem head len).byteAt x := by
  have hcovers : ∀ a data b n, (mem.store a data).Covers b n x ↔ mem.Covers b n x :=
    fun a data b n => GuestMemory.covers_congr (mem.ramEnd_store a data) b n x
  unfold publishUsed
  apply GuestMemory.byteAt_store_congr (by simp [hend])
  by_cases hidx : mem.Covers (q.usedRing + 2).toNat 2 x
  · left
    rw [leBytes_length, GuestMemory.covers_congr (GuestMemory.ramEnd_store _ _ _), hcovers]
    exact hidx
  right
  apply GuestMemory.byteAt_store_congr (by simp [hend])
  by_cases hlen : mem.Covers (q.usedElemAddr q.usedSlot + 4).toNat 4 x
  · left
    rw [leBytes_length, hcovers]
    exact hlen
  right
  apply GuestMemory.byteAt_store_congr hend
  rw [leBytes_length]
  rcases h with (hid | hlen' | hidx') | hsame
  · exact Or.inl hid
  · exact absurd hlen' hlen
  · exact absurd hidx' hidx
  · exact Or.inr hsame

theorem addUsed_eq (q : Virtqueue) (mem : GuestMemory) (head : UInt16) (len : UInt32) :
    q.addUsed mem head len =
      if q.usedRing = 0 then .ok (false, q, mem)
      else if q.size = 0 then .error .panic
      else if q.UsedWraps mem then .error .wild
      else .ok (true, { q with usedIdx := q.usedIdx + 1 }, q.publishUsed mem head len) := by
  have h4 : ∀ n, (leBytes 4 n).length ≤ isizeMax := by
    intro n
    rw [leBytes_length]
    decide
  have h2 : ∀ n, (leBytes 2 n).length ≤ isizeMax := by
    intro n
    rw [leBytes_length]
    decide
  by_cases hring : q.usedRing = 0
  · simp [addUsed, hring, pure, Except.pure]
  by_cases hsize : q.size = 0
  · simp [addUsed, hring, hsize, remU16, bind, Except.bind]
  -- the three writes in order; the first that wraps decides
  simp only [addUsed, remU16, hring, hsize, if_false, bind, Except.bind, pure, Except.pure,
    GuestMemory.writeSliceIgnored_eq _ _ _ (h4 _), GuestMemory.writeSliceIgnored_eq _ _ _ (h2 _),
    leBytes_length, UsedWraps, publishUsed, usedSlot]
  by_cases he : mem.Wraps (q.usedElemAddr (q.usedIdx % q.size)).toNat 4
  · simp [he]
  by_cases hl : mem.Wraps (q.usedElemAddr (q.usedIdx % q.size) + 4).toNat 4
  · simp only [he, hl, if_false, GuestMemory.wraps_store, if_true, true_or, or_true]
  by_cases hi : mem.Wraps (q.usedRing + 2).toNat 2
  · simp only [he, hl, hi, if_false, GuestMemory.wraps_store, if_true, or_true]
  · simp only [he, hl, hi, if_false, GuestMemory.wraps_store, or_self]

theorem addUsed_cases {q q' : Virtqueue} {mem mem' : GuestMemory} {head : UInt16} {len : UInt32}
    {added : Bool} (h : q.addUsed mem head len = .ok (added, q', mem')) :
    (q.usedRing = 0 ∧ added = false ∧ q' = q ∧ mem' = mem) ∨
      (q.usedRing ≠ 0 ∧ q.size ≠ 0 ∧ ¬ q.UsedWraps mem ∧ added = true ∧
        q' = { q with usedIdx := q.usedIdx + 1 } ∧ mem' = q.publishUsed mem head len) := by
  rw [addUsed_eq] at h
  by_cases hring : q.usedRing = 0
  · rw [if_pos hring] at h
    simp only [Except.ok.injEq, Prod.mk.injEq] at h
    exact Or.inl ⟨hring, h.1.symm, h.2.1.symm, h.2.2.symm⟩
  by_cases hsize : q.size = 0
  · simp [hring, hsize] at h
  by_cases hw : q.UsedWraps mem
  · simp [hring, hsize, hw] at h
  · rw [if_neg hring, if_neg hsize, if_neg hw] at h
    simp only [Except.ok.injEq, Prod.mk.injEq] at h
    exact Or.inr ⟨hring, hsize, hw, h.1.symm, h.2.1.symm, h.2.2.symm⟩

@[simp] theorem ramEnd_publishUsed (q : Virtqueue) (mem : GuestMemory) (head : UInt16)
    (len : UInt32) : (q.publishUsed mem head len).ramEnd = mem.ramEnd := by
  simp [publishUsed]

theorem addUsed_ramEnd {q q' : Virtqueue} {mem mem' : GuestMemory} {head : UInt16} {len : UInt32}
    {added : Bool} (h : q.addUsed mem head len = .ok (added, q', mem')) :
    mem'.ramEnd = mem.ramEnd := by
  rcases addUsed_cases h with ⟨-, -, -, rfl⟩ | ⟨-, -, -, -, -, rfl⟩ <;> simp

theorem addUsed_added {q q' : Virtqueue} {mem mem' : GuestMemory} {head : UInt16} {len : UInt32}
    {added : Bool} (h : q.addUsed mem head len = .ok (added, q', mem')) :
    added = true ↔ q.usedRing ≠ 0 := by
  rcases addUsed_cases h with ⟨hring, rfl, -⟩ | ⟨hring, -, -, rfl, -⟩ <;> simp [hring]

/-! ## Rings inside one region -/

/-- The available ring is configured and lies inside one region. -/
structure AvailReadable (q : Virtqueue) (mem : GuestMemory) : Prop where
  size_ne : q.size ≠ 0
  ring_ne : q.availRing ≠ 0
  mapped : mem.Mapped q.availRing.toNat (4 + 2 * q.size.toNat)

def availIdxAt (q : Virtqueue) (mem : GuestMemory) : UInt16 :=
  UInt16.ofNat (leNat (mem.load (q.availRing.toNat + 2) 2))

def availEntry (q : Virtqueue) (mem : GuestMemory) (j : Nat) : UInt16 :=
  UInt16.ofNat (leNat (mem.load (q.availRing.toNat + 4 + 2 * j) 2))

theorem readAvailIdx_eq {q : Virtqueue} {mem : GuestMemory} (h : q.AvailReadable mem) :
    q.readAvailIdx mem = .ok (some (q.availIdxAt mem)) := by
  have hlt := h.mapped.lt
  have haddr : (q.availRing + 2).toNat = q.availRing.toNat + 2 := by
    have h2 : (2 : UInt64).toNat = 2 := rfl
    rw [UInt64.toNat_add, h2]
    omega
  have hm : mem.Mapped (q.availRing + 2).toNat (2 : UInt64).toNat := by
    rw [haddr]
    exact h.mapped.mono (by omega) (by simp; omega)
  simp only [readAvailIdx, if_neg h.ring_ne, bind, Except.bind, pure, Except.pure,
    GuestMemory.readSlice_eq _ _ _ (show (2 : UInt64).toNat ≤ isizeMax by decide), if_pos hm]
  rw [haddr]
  rfl

theorem readAvailRingEntry_eq {q : Virtqueue} {mem : GuestMemory} (h : q.AvailReadable mem)
    {ringIdx : UInt16} (hidx : ringIdx.toNat < q.size.toNat) :
    q.readAvailRingEntry mem ringIdx = .ok (some (q.availEntry mem ringIdx.toNat)) := by
  have hlt := h.mapped.lt
  have haddr : (q.availRing + 4 + ringIdx.toUInt64 * 2).toNat =
      q.availRing.toNat + 4 + 2 * ringIdx.toNat := by
    have h4 : (4 : UInt64).toNat = 4 := rfl
    have h2 : (2 : UInt64).toNat = 2 := rfl
    simp only [UInt64.toNat_add, UInt64.toNat_mul, UInt16.toNat_toUInt64, h4, h2]
    omega
  have hm : mem.Mapped (q.availRing + 4 + ringIdx.toUInt64 * 2).toNat (2 : UInt64).toNat := by
    rw [haddr]
    exact h.mapped.mono (by omega) (by simp; omega)
  simp only [readAvailRingEntry, bind, Except.bind, pure, Except.pure,
    GuestMemory.readSlice_eq _ _ _ (show (2 : UInt64).toNat ≤ isizeMax by decide), if_pos hm]
  rw [haddr]
  rfl

theorem nextAvail_eq {q : Virtqueue} {mem : GuestMemory} (h : q.AvailReadable mem) :
    q.nextAvail mem =
      .ok (if q.lastAvailIdx = q.availIdxAt mem then (none, q)
        else (some (q.availEntry mem (q.lastAvailIdx.toNat % q.size.toNat)),
          { q with lastAvailIdx := q.lastAvailIdx + 1 })) := by
  have hpos : 0 < q.size.toNat := by
    refine Nat.pos_of_ne_zero fun h0 => h.size_ne ?_
    exact UInt16.toNat_inj.mp h0
  have hlt : (q.lastAvailIdx % q.size).toNat < q.size.toNat := by
    rw [UInt16.toNat_mod]
    exact Nat.mod_lt _ hpos
  simp only [nextAvail, readAvailIdx_eq h, remU16, if_neg h.size_ne, readAvailRingEntry_eq h hlt,
    bind, Except.bind, pure, Except.pure, UInt16.toNat_mod]
  split <;> rfl

end Virtqueue

end Caiman.Vmm
