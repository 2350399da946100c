import Caiman.Lib.Ring
import Caiman.Lib.Run
import Caiman.Vmm.Virtio.Queue

/-!
# Both rings as FIFOs

A driver and a device share the two rings of one queue. The driver publishes a
head in two stores, the slot and then the index, and reads used elements up to
the index it finds; the device side is `next_avail` and `add_used`. The four
16-bit indices run freely and wrap; the ghost logs of the system remember what
was published, taken, completed and seen, so that losing, repeating or
reordering an entry can be stated.
-/

namespace Caiman.Vmm

open Lib

namespace Virtqueue

/-! ## The used ring in memory -/

structure UsedWritable (q : Virtqueue) (mem : GuestMemory) : Prop where
  size_ne : q.size ≠ 0
  ring_ne : q.usedRing ≠ 0
  mapped : mem.Mapped q.usedRing.toNat (4 + 8 * q.size.toNat)

def usedIdxAt (q : Virtqueue) (mem : GuestMemory) : UInt16 :=
  UInt16.ofNat (leNat (mem.load (q.usedRing.toNat + 2) 2))

def usedElem (q : Virtqueue) (mem : GuestMemory) (j : Nat) : UInt32 × UInt32 :=
  (UInt32.ofNat (leNat (mem.load (q.usedRing.toNat + 4 + 8 * j) 4)),
    UInt32.ofNat (leNat (mem.load (q.usedRing.toNat + 8 + 8 * j) 4)))

theorem size_pos {q : Virtqueue} (h : q.size ≠ 0) : 0 < q.size.toNat :=
  Nat.pos_of_ne_zero fun h0 => h (UInt16.toNat_inj.mp h0)

/-- The three addresses a completion writes to, in exact arithmetic. -/
theorem used_addrs {q : Virtqueue} {mem : GuestMemory} (h : q.UsedWritable mem) :
    (q.usedElemAddr q.usedSlot).toNat =
        q.usedRing.toNat + 4 + 8 * (q.usedIdx.toNat % q.size.toNat) ∧
      (q.usedElemAddr q.usedSlot + 4).toNat =
        q.usedRing.toNat + 8 + 8 * (q.usedIdx.toNat % q.size.toNat) ∧
      (q.usedRing + 2).toNat = q.usedRing.toNat + 2 := by
  have hlt := h.mapped.lt
  have hmod : q.usedIdx.toNat % q.size.toNat < q.size.toNat := Nat.mod_lt _ (size_pos h.size_ne)
  have h2 : (2 : UInt64).toNat = 2 := rfl
  have h4 : (4 : UInt64).toNat = 4 := rfl
  have h8 : (8 : UInt64).toNat = 8 := rfl
  have helem : (q.usedElemAddr q.usedSlot).toNat =
      q.usedRing.toNat + 4 + 8 * (q.usedIdx.toNat % q.size.toNat) := by
    simp only [usedElemAddr, usedSlot, UInt64.toNat_add, UInt64.toNat_mul,
      UInt16.toNat_toUInt64, UInt16.toNat_mod, h4, h8]
    omega
  refine ⟨helem, ?_, ?_⟩
  · rw [UInt64.toNat_add, helem, h4]
    omega
  · rw [UInt64.toNat_add, h2]
    omega

theorem addUsed_writable {q : Virtqueue} {mem : GuestMemory} (h : q.UsedWritable mem)
    (head : UInt16) (len : UInt32) :
    q.addUsed mem head len =
      .ok (true, { q with usedIdx := q.usedIdx + 1 }, q.publishUsed mem head len) := by
  have hlt := h.mapped.lt
  have hmod : q.usedIdx.toNat % q.size.toNat < q.size.toNat := Nat.mod_lt _ (size_pos h.size_ne)
  obtain ⟨helem, hlen, hidx⟩ := used_addrs h
  have hw : ¬ q.UsedWraps mem := by
    simp only [UsedWraps, GuestMemory.Wraps, helem, hlen, hidx]
    omega
  rw [addUsed_eq, if_neg h.ring_ne, if_neg h.size_ne, if_neg hw]

/-- A completion writes its element, advances the index and leaves every range
outside the used ring alone. -/
theorem publishUsed_load_of_disjoint {q : Virtqueue} {mem : GuestMemory} (h : q.UsedWritable mem)
    (head : UInt16) (len : UInt32) {a n : Nat} (hm : mem.Mapped a n)
    (hd : a + n ≤ q.usedRing.toNat ∨ q.usedRing.toNat + (4 + 8 * q.size.toNat) ≤ a) :
    (q.publishUsed mem head len).load a n = mem.load a n := by
  have hmod : q.usedIdx.toNat % q.size.toNat < q.size.toNat := Nat.mod_lt _ (size_pos h.size_ne)
  obtain ⟨helem, hlen, hidx⟩ := used_addrs h
  rw [publishUsed, helem, hlen, hidx,
    GuestMemory.load_store_of_disjoint (by simpa using hm) (by simp; omega),
    GuestMemory.load_store_of_disjoint (by simpa using hm) (by simp; omega),
    GuestMemory.load_store_of_disjoint hm (by simp; omega)]

theorem usedIdxAt_publishUsed {q : Virtqueue} {mem : GuestMemory} (h : q.UsedWritable mem)
    (head : UInt16) (len : UInt32) :
    q.usedIdxAt (q.publishUsed mem head len) = q.usedIdx + 1 := by
  obtain ⟨helem, hlen, hidx⟩ := used_addrs h
  have hm : mem.Mapped (q.usedRing.toNat + 2) 2 := h.mapped.mono (by omega) (by omega)
  have hload : (q.publishUsed mem head len).load (q.usedRing.toNat + 2) 2 =
      leBytes 2 (q.usedIdx + 1).toNat := by
    rw [publishUsed, hidx]
    exact GuestMemory.load_store (leBytes_length _ _) (by simpa using hm)
  rw [usedIdxAt, hload, ofNat_leNat_leBytes_16]

theorem usedElem_publishUsed {q : Virtqueue} {mem : GuestMemory} (h : q.UsedWritable mem)
    (head : UInt16) (len : UInt32) {j : Nat} (hj : j < q.size.toNat) :
    q.usedElem (q.publishUsed mem head len) j =
      if j = q.usedIdx.toNat % q.size.toNat then (head.toUInt32, len) else q.usedElem mem j := by
  obtain ⟨helem, hlen, hidx⟩ := used_addrs h
  have hid : mem.Mapped (q.usedRing.toNat + 4 + 8 * j) 4 := h.mapped.mono (by omega) (by omega)
  have hln : mem.Mapped (q.usedRing.toNat + 8 + 8 * j) 4 := h.mapped.mono (by omega) (by omega)
  by_cases hslot : j = q.usedIdx.toNat % q.size.toNat
  · rw [if_pos hslot]
    rw [hslot] at hid hln
    simp only [usedElem, publishUsed, helem, hlen, hidx, hslot]
    rw [GuestMemory.load_store_of_disjoint (by simpa using hid) (by simp),
      GuestMemory.load_store_of_disjoint (by simpa using hid) (by simp; omega),
      GuestMemory.load_store (leBytes_length _ _) hid,
      GuestMemory.load_store_of_disjoint (by simpa using hln) (by simp; omega),
      GuestMemory.load_store (leBytes_length _ _) (by simpa using hln),
      ofNat_leNat_leBytes_32, ofNat_leNat_leBytes_32]
  · rw [if_neg hslot]
    -- a different slot is at least eight bytes away
    simp only [usedElem, publishUsed, helem, hlen, hidx]
    rw [GuestMemory.load_store_of_disjoint (by simpa using hid) (by simp),
      GuestMemory.load_store_of_disjoint (by simpa using hid) (by simp; omega),
      GuestMemory.load_store_of_disjoint hid (by simp; omega),
      GuestMemory.load_store_of_disjoint (by simpa using hln) (by simp; omega),
      GuestMemory.load_store_of_disjoint (by simpa using hln) (by simp; omega),
      GuestMemory.load_store_of_disjoint hln (by simp; omega)]

theorem mapped_publishUsed (q : Virtqueue) (mem : GuestMemory) (head : UInt16) (len : UInt32)
    (a n : Nat) : (q.publishUsed mem head len).Mapped a n ↔ mem.Mapped a n := by
  simp only [publishUsed, GuestMemory.mapped_store]

theorem used_congr {q : Virtqueue} {mem mem' : GuestMemory}
    (h : ∀ b k, q.usedRing.toNat + 2 ≤ b → b + k ≤ q.usedRing.toNat + (4 + 8 * q.size.toNat) →
      mem'.load b k = mem.load b k) (hsize : 0 < q.size.toNat) :
    q.usedIdxAt mem' = q.usedIdxAt mem ∧
      ∀ j, j < q.size.toNat → q.usedElem mem' j = q.usedElem mem j := by
  refine ⟨by rw [usedIdxAt, usedIdxAt, h _ _ (by omega) (by omega)], fun j hj => ?_⟩
  rw [usedElem, usedElem, h _ _ (by omega) (by omega), h _ _ (by omega) (by omega)]

/-! ## The available ring as the driver writes it -/

theorem avail_congr {q : Virtqueue} {mem mem' : GuestMemory}
    (h : ∀ b k, q.availRing.toNat + 2 ≤ b → b + k ≤ q.availRing.toNat + (4 + 2 * q.size.toNat) →
      mem'.load b k = mem.load b k) (hsize : 0 < q.size.toNat) :
    q.availIdxAt mem' = q.availIdxAt mem ∧
      ∀ j, j < q.size.toNat → q.availEntry mem' j = q.availEntry mem j := by
  refine ⟨by rw [availIdxAt, availIdxAt, h _ _ (by omega) (by omega)], fun j hj => ?_⟩
  rw [availEntry, availEntry, h _ _ (by omega) (by omega)]

/-- The driver writes a head to the slot its index names. -/
def writeAvailEntry (q : Virtqueue) (mem : GuestMemory) (idx head : UInt16) : GuestMemory :=
  mem.store (q.availRing.toNat + 4 + 2 * (idx.toNat % q.size.toNat)) (leBytes 2 head.toNat)

def writeAvailIdx (q : Virtqueue) (mem : GuestMemory) (idx : UInt16) : GuestMemory :=
  mem.store (q.availRing.toNat + 2) (leBytes 2 idx.toNat)

theorem availIdxAt_writeAvailEntry {q : Virtqueue} {mem : GuestMemory} (h : q.AvailReadable mem)
    (idx head : UInt16) : q.availIdxAt (q.writeAvailEntry mem idx head) = q.availIdxAt mem := by
  have hm : mem.Mapped (q.availRing.toNat + 2) 2 := h.mapped.mono (by omega) (by omega)
  rw [availIdxAt, writeAvailEntry, GuestMemory.load_store_of_disjoint hm (by simp),
    availIdxAt]

theorem availEntry_writeAvailEntry {q : Virtqueue} {mem : GuestMemory} (h : q.AvailReadable mem)
    (idx head : UInt16) {j : Nat} (hj : j < q.size.toNat) :
    q.availEntry (q.writeAvailEntry mem idx head) j =
      if j = idx.toNat % q.size.toNat then head else q.availEntry mem j := by
  have hm : mem.Mapped (q.availRing.toNat + 4 + 2 * j) 2 := h.mapped.mono (by omega) (by omega)
  by_cases hslot : j = idx.toNat % q.size.toNat
  · rw [if_pos hslot, availEntry, writeAvailEntry, ← hslot,
      GuestMemory.load_store (leBytes_length _ _) hm, ofNat_leNat_leBytes_16]
  · rw [if_neg hslot, availEntry, writeAvailEntry,
      GuestMemory.load_store_of_disjoint hm (by simp; omega), availEntry]

theorem availIdxAt_writeAvailIdx {q : Virtqueue} {mem : GuestMemory} (h : q.AvailReadable mem)
    (idx : UInt16) : q.availIdxAt (q.writeAvailIdx mem idx) = idx := by
  have hm : mem.Mapped (q.availRing.toNat + 2) 2 := h.mapped.mono (by omega) (by omega)
  rw [availIdxAt, writeAvailIdx, GuestMemory.load_store (leBytes_length _ _) hm,
    ofNat_leNat_leBytes_16]

theorem availEntry_writeAvailIdx {q : Virtqueue} {mem : GuestMemory} (h : q.AvailReadable mem)
    (idx : UInt16) {j : Nat} (hj : j < q.size.toNat) :
    q.availEntry (q.writeAvailIdx mem idx) j = q.availEntry mem j := by
  have hm : mem.Mapped (q.availRing.toNat + 4 + 2 * j) 2 := h.mapped.mono (by omega) (by omega)
  rw [availEntry, writeAvailIdx, GuestMemory.load_store_of_disjoint hm (by simp),
    availEntry]

end Virtqueue

/-! ## Driver and device -/

/-- A queue in use: a power-of-two size and two disjoint rings, each configured
and inside one region. -/
structure Shared (q : Virtqueue) (mem : GuestMemory) : Prop where
  pow2 : ∃ k, q.size.toNat = 2 ^ k
  avail : q.AvailReadable mem
  used : q.UsedWritable mem
  disjoint : q.availRing.toNat + (4 + 2 * q.size.toNat) ≤ q.usedRing.toNat ∨
    q.usedRing.toNat + (4 + 8 * q.size.toNat) ≤ q.availRing.toNat

namespace Shared

variable {q : Virtqueue} {mem mem' : GuestMemory}

theorem dvd (h : Shared q mem) : q.size.toNat ∣ 2 ^ 16 := by
  obtain ⟨k, hk⟩ := h.pow2
  have hlt := q.size.toNat_lt
  rw [hk] at hlt ⊢
  exact Nat.pow_dvd_pow 2 (Nat.le_of_lt ((Nat.pow_lt_pow_iff_right (by decide)).mp hlt))

theorem pos (h : Shared q mem) : 0 < q.size.toNat := Virtqueue.size_pos h.avail.size_ne

theorem of_mapped (h : Shared q mem) (hm : ∀ a n, mem'.Mapped a n ↔ mem.Mapped a n) :
    Shared q mem' where
  pow2 := h.pow2
  avail := ⟨h.avail.size_ne, h.avail.ring_ne, (hm _ _).mpr h.avail.mapped⟩
  used := ⟨h.used.size_ne, h.used.ring_ne, (hm _ _).mpr h.used.mapped⟩
  disjoint := h.disjoint

theorem withIndices (h : Shared q mem) (lastAvailIdx usedIdx : UInt16) :
    Shared { q with lastAvailIdx := lastAvailIdx, usedIdx := usedIdx } mem where
  pow2 := h.pow2
  avail := ⟨h.avail.size_ne, h.avail.ring_ne, h.avail.mapped⟩
  used := ⟨h.used.size_ne, h.used.ring_ne, h.used.mapped⟩
  disjoint := h.disjoint

theorem used_store_avail (h : Shared q mem) {a : Nat} (ha : q.availRing.toNat ≤ a)
    (data : List UInt8) (hd : a + data.length ≤ q.availRing.toNat + (4 + 2 * q.size.toNat)) :
    q.usedIdxAt (mem.store a data) = q.usedIdxAt mem ∧
      ∀ j, j < q.size.toNat → q.usedElem (mem.store a data) j = q.usedElem mem j := by
  refine Virtqueue.used_congr (fun b k hb hk => ?_) h.pos
  have hdis := h.disjoint
  exact GuestMemory.load_store_of_disjoint (h.used.mapped.mono (by omega) hk) (by omega)

theorem avail_publishUsed (h : Shared q mem) (head : UInt16) (len : UInt32) :
    q.availIdxAt (q.publishUsed mem head len) = q.availIdxAt mem ∧
      ∀ j, j < q.size.toNat →
        q.availEntry (q.publishUsed mem head len) j = q.availEntry mem j := by
  refine Virtqueue.avail_congr (fun b k hb hk => ?_) h.pos
  have hdis := h.disjoint
  exact Virtqueue.publishUsed_load_of_disjoint h.used head len
    (h.avail.mapped.mono (by omega) hk) (by omega)

end Shared

/-- The queue with guest memory, the driver's own two indices and the head it
has put in a slot but not yet published, and the logs of the four ends. Used
elements are logged as the ring carries them, the head as a `u32`. -/
structure RingSystem where
  q : Virtqueue
  mem : GuestMemory
  availIdx : UInt16
  seenIdx : UInt16
  staged : Option UInt16
  published : List UInt16
  taken : List UInt16
  completed : List (UInt32 × UInt32)
  seen : List (UInt32 × UInt32)

/-- A publish is two stores with any other step between them. `other` is any
store of either side outside the two rings. -/
inductive RingAction
  | stage (head : UInt16)
  | publish
  | nextAvail
  | addUsed (head : UInt16) (len : UInt32)
  | readUsed
  | other (addr : Nat) (data : List UInt8)
  deriving DecidableEq, Repr

namespace RingSystem

def new (q : Virtqueue) (mem : GuestMemory) : RingSystem where
  q := q
  mem := mem
  availIdx := 0
  seenIdx := 0
  staged := none
  published := []
  taken := []
  completed := []
  seen := []

/-- The used element the driver finds at its own index, if `used.idx` is past it. -/
def peekUsed (s : RingSystem) : Option (UInt32 × UInt32) :=
  if s.seenIdx = s.q.usedIdxAt s.mem then none
  else some (s.q.usedElem s.mem (s.seenIdx.toNat % s.q.size.toNat))

def step (s : RingSystem) : RingAction → RingSystem
  | .stage head =>
      { s with mem := s.q.writeAvailEntry s.mem s.availIdx head, staged := some head }
  | .publish =>
      match s.staged with
      | none => s
      | some head =>
          { s with
            mem := s.q.writeAvailIdx s.mem (s.availIdx + 1)
            availIdx := s.availIdx + 1
            staged := none
            published := s.published ++ [head] }
  | .nextAvail =>
      match s.q.nextAvail s.mem with
      | .ok (some head, q) => { s with q := q, taken := s.taken ++ [head] }
      | _ => s
  | .addUsed head len =>
      match s.q.addUsed s.mem head len with
      | .ok (_, q, mem) =>
          { s with q := q, mem := mem, completed := s.completed ++ [(head.toUInt32, len)] }
      | .error _ => s
  | .readUsed =>
      match s.peekUsed with
      | none => s
      | some elem => { s with seenIdx := s.seenIdx + 1, seen := s.seen ++ [elem] }
  | .other addr data => { s with mem := s.mem.store addr data }

/-- At most `size` heads outstanding on one ring and `size` elements unread on
the other, and stores elsewhere stay elsewhere. -/
def Allowed (s : RingSystem) : RingAction → Prop
  | .stage _ => s.published.length < s.taken.length + s.q.size.toNat
  | .addUsed _ _ => s.completed.length < s.seen.length + s.q.size.toNat
  | .other addr data =>
      (addr + data.length ≤ s.q.availRing.toNat + 2 ∨
        s.q.availRing.toNat + (4 + 2 * s.q.size.toNat) ≤ addr) ∧
      (addr + data.length ≤ s.q.usedRing.toNat + 2 ∨
        s.q.usedRing.toNat + (4 + 8 * s.q.size.toNat) ≤ addr)
  | _ => True

instance (s : RingSystem) : ∀ a, Decidable (s.Allowed a)
  | .stage _ => inferInstanceAs (Decidable (_ < _))
  | .addUsed _ _ => inferInstanceAs (Decidable (_ < _))
  | .other _ _ => inferInstanceAs (Decidable (_ ∧ _))
  | .publish => isTrue trivial
  | .nextAvail => isTrue trivial
  | .readUsed => isTrue trivial

/-! ### Invariant -/

/-- Both rings are FIFOs between their ends, the index fields in memory are the
producers' own, and a staged head stands in the next slot. -/
structure Inv (s : RingSystem) : Prop where
  shared : Shared s.q s.mem
  availIdx : s.q.availIdxAt s.mem = s.availIdx
  avail : Fifo s.q.size.toNat (2 ^ 16) (s.q.availEntry s.mem) s.published s.taken
    s.availIdx.toNat s.q.lastAvailIdx.toNat
  staged : ∀ head, s.staged = some head →
    s.published.length < s.taken.length + s.q.size.toNat ∧
      s.q.availEntry s.mem (s.availIdx.toNat % s.q.size.toNat) = head
  usedIdx : s.q.usedIdxAt s.mem = s.q.usedIdx
  used : Fifo s.q.size.toNat (2 ^ 16) (s.q.usedElem s.mem) s.completed s.seen
    s.q.usedIdx.toNat s.seenIdx.toNat

theorem toNat_succ (x : UInt16) : (x + 1).toNat = (x.toNat + 1) % 2 ^ 16 := by
  rw [UInt16.toNat_add]
  rfl

namespace Inv

variable {s : RingSystem}

theorem slot_lt (h : s.Inv) (i : Nat) : i % s.q.size.toNat < s.q.size.toNat :=
  Nat.mod_lt _ h.shared.pos

theorem nextAvail_eq (h : s.Inv) :
    s.q.nextAvail s.mem =
      .ok (s.published[s.taken.length]?,
        if s.q.lastAvailIdx = s.availIdx then s.q
        else { s.q with lastAvailIdx := s.q.lastAvailIdx + 1 }) := by
  have hnext := h.avail.next h.shared.dvd s.q.size.toNat_lt
  rw [Virtqueue.nextAvail_eq h.shared.avail, h.availIdx, hnext]
  by_cases heq : s.q.lastAvailIdx = s.availIdx
  · simp [heq]
  · have hne : ¬ s.q.lastAvailIdx.toNat = s.availIdx.toNat := fun h' => heq (UInt16.toNat_inj.mp h')
    simp [heq, hne]

theorem peekUsed_eq (h : s.Inv) : s.peekUsed = s.completed[s.seen.length]? := by
  have hnext := h.used.next h.shared.dvd s.q.size.toNat_lt
  rw [peekUsed, h.usedIdx, hnext]
  by_cases heq : s.seenIdx = s.q.usedIdx
  · simp [heq]
  · have hne : ¬ s.seenIdx.toNat = s.q.usedIdx.toNat := fun h' => heq (UInt16.toNat_inj.mp h')
    simp [heq, hne]

theorem frame (h : s.Inv) {mem : GuestMemory} (hm : ∀ a n, mem.Mapped a n ↔ s.mem.Mapped a n)
    (ha : ∀ b k, s.q.availRing.toNat + 2 ≤ b →
      b + k ≤ s.q.availRing.toNat + (4 + 2 * s.q.size.toNat) → mem.load b k = s.mem.load b k)
    (hu : ∀ b k, s.q.usedRing.toNat + 2 ≤ b →
      b + k ≤ s.q.usedRing.toNat + (4 + 8 * s.q.size.toNat) → mem.load b k = s.mem.load b k) :
    Inv { s with mem := mem } := by
  obtain ⟨haidx, haentry⟩ := Virtqueue.avail_congr ha h.shared.pos
  obtain ⟨huidx, huelem⟩ := Virtqueue.used_congr hu h.shared.pos
  constructor
  · exact h.shared.of_mapped hm
  · exact haidx.trans h.availIdx
  · exact h.avail.congr h.shared.pos haentry
  · intro head hstaged
    obtain ⟨hroom, hslot⟩ := h.staged head hstaged
    exact ⟨hroom, (haentry _ (h.slot_lt _)).trans hslot⟩
  · exact huidx.trans h.usedIdx
  · exact h.used.congr h.shared.pos huelem

theorem stage (h : s.Inv) (head : UInt16)
    (hroom : s.published.length < s.taken.length + s.q.size.toNat) :
    Inv (s.step (.stage head)) := by
  have hin := h.slot_lt s.availIdx.toNat
  have hentry := fun j hj =>
    Virtqueue.availEntry_writeAvailEntry h.shared.avail s.availIdx head (j := j) hj
  have hused := h.shared.used_store_avail
    (a := s.q.availRing.toNat + 4 + 2 * (s.availIdx.toNat % s.q.size.toNat)) (by omega)
    (leBytes 2 head.toNat) (by rw [leBytes_length]; omega)
  constructor
  · exact h.shared.of_mapped (GuestMemory.mapped_store _ _ _)
  · exact (Virtqueue.availIdxAt_writeAvailEntry h.shared.avail _ _).trans h.availIdx
  · refine h.avail.write h.shared.dvd h.shared.pos hroom fun j hj hne => ?_
    exact (hentry j hj).trans (if_neg hne)
  · intro head' hstaged
    obtain rfl := Option.some.inj hstaged
    exact ⟨hroom, (hentry _ hin).trans (if_pos rfl)⟩
  · exact hused.1.trans h.usedIdx
  · exact h.used.congr h.shared.pos hused.2

theorem publish (h : s.Inv) : Inv (s.step .publish) := by
  cases hstaged : s.staged with
  | none => simpa only [step, hstaged] using h
  | some head =>
      simp only [step, hstaged]
      obtain ⟨hroom, hslot⟩ := h.staged head hstaged
      have hentry := fun j hj =>
        Virtqueue.availEntry_writeAvailIdx h.shared.avail (s.availIdx + 1) (j := j) hj
      have hused := h.shared.used_store_avail (a := s.q.availRing.toNat + 2) (by omega)
        (leBytes 2 (s.availIdx + 1).toNat) (by rw [leBytes_length]; omega)
      constructor
      · exact h.shared.of_mapped (GuestMemory.mapped_store _ _ _)
      · exact Virtqueue.availIdxAt_writeAvailIdx h.shared.avail _
      · rw [toNat_succ]
        exact (h.avail.push h.shared.dvd hroom hslot).congr h.shared.pos hentry
      · intro head' hnone
        cases hnone
      · exact hused.1.trans h.usedIdx
      · exact h.used.congr h.shared.pos hused.2

theorem takeNext (h : s.Inv) : Inv (s.step .nextAvail) := by
  have hnext := h.avail.next h.shared.dvd s.q.size.toNat_lt
  simp only [step, h.nextAvail_eq]
  by_cases heq : s.q.lastAvailIdx = s.availIdx
  · rw [if_pos (by rw [heq])] at hnext
    simpa only [hnext] using h
  · have hne : s.q.lastAvailIdx.toNat ≠ s.availIdx.toNat := fun h' => heq (UInt16.toNat_inj.mp h')
    rw [if_neg hne] at hnext
    simp only [hnext, if_neg heq]
    have havail := h.avail.pop h.shared.dvd s.q.size.toNat_lt hne
    rw [← toNat_succ] at havail
    exact {
      shared := h.shared.withIndices _ _
      availIdx := h.availIdx
      avail := havail
      staged := by
        intro head hstaged
        obtain ⟨hroom, hslot⟩ := h.staged head hstaged
        refine ⟨?_, hslot⟩
        simp only [List.length_append, List.length_singleton]
        omega
      usedIdx := h.usedIdx
      used := h.used }

theorem addUsed (h : s.Inv) (head : UInt16) (len : UInt32)
    (hroom : s.completed.length < s.seen.length + s.q.size.toNat) :
    Inv (s.step (.addUsed head len)) := by
  simp only [step, Virtqueue.addUsed_writable h.shared.used]
  have hin := h.slot_lt s.q.usedIdx.toNat
  have helem := fun j hj => Virtqueue.usedElem_publishUsed h.shared.used head len (j := j) hj
  have havail := h.shared.avail_publishUsed head len
  -- the element goes to its slot, then the index makes it part of the log
  have hwritten := h.used.write h.shared.dvd h.shared.pos hroom
    (fun j hj hne => (helem j hj).trans (if_neg hne))
  exact {
    shared := (h.shared.of_mapped (Virtqueue.mapped_publishUsed _ _ _ _)).withIndices _ _
    availIdx := havail.1.trans h.availIdx
    avail := h.avail.congr h.shared.pos havail.2
    staged := by
      intro head' hstaged
      obtain ⟨hroom', hslot⟩ := h.staged head' hstaged
      exact ⟨hroom', (havail.2 _ (h.slot_lt _)).trans hslot⟩
    usedIdx := Virtqueue.usedIdxAt_publishUsed h.shared.used head len
    used := by
      rw [toNat_succ]
      exact hwritten.push h.shared.dvd hroom ((helem _ hin).trans (if_pos rfl)) }

theorem readUsed (h : s.Inv) : Inv (s.step .readUsed) := by
  have hnext := h.used.next h.shared.dvd s.q.size.toNat_lt
  simp only [step, h.peekUsed_eq]
  by_cases heq : s.seenIdx.toNat = s.q.usedIdx.toNat
  · rw [if_pos heq] at hnext
    simpa only [hnext] using h
  · rw [if_neg heq] at hnext
    have hused := h.used.pop h.shared.dvd s.q.size.toNat_lt heq
    rw [← toNat_succ] at hused
    simp only [hnext]
    exact { h with used := hused }

theorem step (h : s.Inv) (a : RingAction) (hallow : s.Allowed a) : Inv (s.step a) := by
  cases a with
  | stage head => exact h.stage head hallow
  | publish => exact h.publish
  | nextAvail => exact h.takeNext
  | addUsed head len => exact h.addUsed head len hallow
  | readUsed => exact h.readUsed
  | other addr data =>
      obtain ⟨ha, hu⟩ := hallow
      refine h.frame (GuestMemory.mapped_store _ _ _) (fun b k hb hk => ?_) (fun b k hb hk => ?_)
      · exact GuestMemory.load_store_of_disjoint
          (h.shared.avail.mapped.mono (by omega) hk) (by omega)
      · exact GuestMemory.load_store_of_disjoint
          (h.shared.used.mapped.mono (by omega) hk) (by omega)

end Inv

/-- A queue that has just been set up: every index is zero. -/
structure Fresh (q : Virtqueue) (mem : GuestMemory) : Prop where
  shared : Shared q mem
  lastAvailIdx : q.lastAvailIdx = 0
  usedIdx : q.usedIdx = 0
  availIdxAt : q.availIdxAt mem = 0
  usedIdxAt : q.usedIdxAt mem = 0

theorem new_inv {q : Virtqueue} {mem : GuestMemory} (h : Fresh q mem) : (new q mem).Inv where
  shared := h.shared
  availIdx := h.availIdxAt
  avail := by
    simp only [new, h.lastAvailIdx]
    exact Fifo.empty _ _ _
  staged := by
    intro head hnone
    cases hnone
  usedIdx := by simp only [new, h.usedIdxAt, h.usedIdx]
  used := by
    simp only [new, h.usedIdx]
    exact Fifo.empty _ _ _

def machine : Machine RingSystem RingAction Empty where
  step s a := (s.step a, [])

/-- Heads come out of `next_avail` as published and used elements reach the
driver as completed: in order, each once, and nothing is reported only when
nothing is left. -/
structure Lossless (s : RingSystem) : Prop where
  taken : s.taken <+: s.published
  nextAvail : ∃ q, s.q.nextAvail s.mem = .ok (s.published[s.taken.length]?, q)
  drained : (∃ q, s.q.nextAvail s.mem = .ok (none, q)) ↔ s.taken = s.published
  addUsed : ∀ head len, ∃ q mem, s.q.addUsed s.mem head len = .ok (true, q, mem)
  seen : s.seen <+: s.completed
  peekUsed : s.peekUsed = s.completed[s.seen.length]?
  caughtUp : s.peekUsed = none ↔ s.seen = s.completed

theorem getElem?_prefix_eq_none_iff {α : Type} {l l' : List α} (h : l <+: l') :
    l'[l.length]? = none ↔ l = l' := by
  rw [List.getElem?_eq_none_iff]
  constructor
  · exact fun hle => h.eq_of_length_le hle
  · rintro rfl
    exact Nat.le_refl _

theorem Inv.lossless {s : RingSystem} (h : s.Inv) : s.Lossless where
  taken := h.avail.got_prefix
  nextAvail := ⟨_, h.nextAvail_eq⟩
  drained := by
    rw [← getElem?_prefix_eq_none_iff h.avail.got_prefix, h.nextAvail_eq]
    simp
  addUsed := fun head len => ⟨_, _, Virtqueue.addUsed_writable h.shared.used head len⟩
  seen := h.used.got_prefix
  peekUsed := h.peekUsed_eq
  caughtUp := by rw [h.peekUsed_eq, getElem?_prefix_eq_none_iff h.used.got_prefix]

/-- In every run of a driver that keeps to the ring sizes, both rings are FIFOs,
however often the indices wrap. -/
theorem rings_lossless {q : Virtqueue} {mem : GuestMemory} (h : Fresh q mem)
    (as : List RingAction) (hall : machine.AllSteps Allowed (new q mem) as) :
    (machine.run (new q mem) as).1.Lossless :=
  (machine.run_invariant (fun _ a hs ha => hs.step a ha) (new_inv h) hall).lossless

def smallQueue : Virtqueue :=
  { Virtqueue.new 2 with ready := true, availRing := 0x1000, usedRing := 0x4000 }

theorem smallQueue_fresh : Fresh smallQueue .twoMib where
  shared := {
    pow2 := ⟨1, rfl⟩
    avail := ⟨by decide, by decide, by decide⟩
    used := ⟨by decide, by decide, by decide⟩
    disjoint := by decide }
  lastAvailIdx := rfl
  usedIdx := rfl
  availIdxAt := by decide
  usedIdxAt := by decide

def smallRun : List RingAction :=
  [.stage 7, .publish, .stage 8, .nextAvail, .publish, .addUsed 7 512, .stage 9, .publish,
    .nextAvail, .nextAvail, .readUsed, .addUsed 8 1, .addUsed 9 0, .readUsed]

theorem rings_lossless_smallRun :
    machine.AllSteps Allowed (new smallQueue .twoMib) smallRun ∧
      (machine.run (new smallQueue .twoMib) smallRun).1.taken = [7, 8, 9] ∧
      (machine.run (new smallQueue .twoMib) smallRun).1.Lossless :=
  ⟨by decide, by decide, rings_lossless smallQueue_fresh smallRun (by decide)⟩

end RingSystem

end Caiman.Vmm
