import Caiman.Vmm.Virtio.Net

/-!
# Queue sizes under register writes

`REG_QUEUE_NUM` stores the low half of whatever the driver writes, so the size a
queue has is the last such value, whatever the other registers received. The
bounds the device advertises hold along a sequence of writes exactly when every
`REG_QUEUE_NUM` value in it respects them.
-/

namespace Caiman.Vmm

/-- A register write: offset and value. -/
abbrev RegWrite := UInt64 × UInt32

/-- The value is a size between one and the advertised maximum once the register
has truncated it to `u16`. -/
def RegWrite.SizeOk (max : Nat) (w : RegWrite) : Prop :=
  w.1 = Reg.queueNum.offset → 1 ≤ w.2.toUInt16.toNat ∧ w.2.toUInt16.toNat ≤ max

/-- The size is in range, with what the range is for: neither `% size` divides by
zero and no descriptor index from the maximum on is read. -/
structure Virtqueue.SizeSound (max : Nat) (q : Virtqueue) : Prop where
  pos : 1 ≤ q.size.toNat
  le : q.size.toNat ≤ max
  take : ∀ mem, q.nextAvail mem ≠ .error .panic
  complete : ∀ mem head len, q.addUsed mem head len ≠ .error .panic
  index : ∀ mem idx, max ≤ idx.toNat → q.readDesc mem idx = .ok none

namespace Virtqueue

theorem readSlice_ne_panic (mem : GuestMemory) (a n : UInt64) (hn : n.toNat ≤ isizeMax) :
    mem.readSlice a n ≠ .error .panic := by
  rw [GuestMemory.readSlice_eq mem a n hn]
  split
  · simp
  · split <;> simp

theorem readAvailIdx_ne_panic (q : Virtqueue) (mem : GuestMemory) :
    q.readAvailIdx mem ≠ .error .panic := by
  have h := readSlice_ne_panic mem (q.availRing + 2) 2 (by decide)
  simp only [readAvailIdx, bind, Except.bind, pure, Except.pure]
  split
  · simp
  · cases hr : mem.readSlice (q.availRing + 2) 2 with
    | error e =>
        rw [hr] at h
        simpa using h
    | ok bytes => cases bytes <;> simp

theorem readAvailRingEntry_ne_panic (q : Virtqueue) (mem : GuestMemory) (ringIdx : UInt16) :
    q.readAvailRingEntry mem ringIdx ≠ .error .panic := by
  have h := readSlice_ne_panic mem (q.availRing + 4 + ringIdx.toUInt64 * 2) 2 (by decide)
  simp only [readAvailRingEntry, bind, Except.bind, pure, Except.pure]
  cases hr : mem.readSlice (q.availRing + 4 + ringIdx.toUInt64 * 2) 2 with
  | error e =>
      rw [hr] at h
      simpa using h
  | ok bytes => cases bytes <;> simp

theorem nextAvail_ne_panic {q : Virtqueue} (hsize : q.size ≠ 0) (mem : GuestMemory) :
    q.nextAvail mem ≠ .error .panic := by
  have hidx := q.readAvailIdx_ne_panic mem
  have hent := q.readAvailRingEntry_ne_panic mem (q.lastAvailIdx % q.size)
  simp only [nextAvail, remU16, if_neg hsize, bind, Except.bind, pure, Except.pure]
  cases hi : q.readAvailIdx mem with
  | error e =>
      rw [hi] at hidx
      simpa using hidx
  | ok idx =>
      cases idx with
      | none => simp
      | some availIdx =>
          dsimp only
          split
          · simp
          · cases he : q.readAvailRingEntry mem (q.lastAvailIdx % q.size) with
            | error e =>
                rw [he] at hent
                simpa using hent
            | ok entry => cases entry <;> simp

theorem addUsed_ne_panic {q : Virtqueue} (hsize : q.size ≠ 0) (mem : GuestMemory)
    (head : UInt16) (len : UInt32) : q.addUsed mem head len ≠ .error .panic := by
  rw [addUsed_eq, if_neg hsize]
  split
  · simp
  · split <;> simp

theorem readDesc_of_size_le {q : Virtqueue} {idx : UInt16} (h : q.size.toNat ≤ idx.toNat)
    (mem : GuestMemory) : q.readDesc mem idx = .ok none := by
  have hle : q.size ≤ idx := UInt16.le_iff_toNat_le.mpr h
  simp [readDesc, hle, pure, Except.pure]

theorem sizeSound_iff {max : Nat} {q : Virtqueue} :
    q.SizeSound max ↔ 1 ≤ q.size.toNat ∧ q.size.toNat ≤ max := by
  constructor
  · exact fun h => ⟨h.pos, h.le⟩
  · rintro ⟨hpos, hle⟩
    have hsize : q.size ≠ 0 := by
      intro h
      simp [h] at hpos
    exact ⟨hpos, hle, nextAvail_ne_panic hsize, addUsed_ne_panic hsize,
      fun mem idx hidx => readDesc_of_size_le (Nat.le_trans hle hidx) mem⟩

end Virtqueue

/-! ## Block device -/

namespace Blk.BlkState

def writes (s : BlkState) (ws : List RegWrite) : BlkState :=
  ws.foldl (fun s w => (s.mmioWrite w.1 w.2).1) s

theorem mmioWrite_size (s : BlkState) (offset : UInt64) (val : UInt32) :
    (s.mmioWrite offset val).1.queue.size =
      if offset = Reg.queueNum.offset then val.toUInt16 else s.queue.size := by
  unfold mmioWrite
  by_cases hnum : Reg.decode offset = some .queueNum
  · rw [hnum, if_pos (Reg.decode_eq_some_iff.mp hnum)]
  · rw [if_neg (fun h => hnum (Reg.decode_eq_some_iff.mpr h))]
    cases hr : Reg.decode offset with
    | none => rfl
    | some r =>
        rw [hr] at hnum
        cases r
        case queueNum => exact absurd rfl hnum
        all_goals rfl

theorem mmioWrite_sizeSound_iff (s : BlkState) (w : RegWrite)
    (h : s.queue.SizeSound 128) :
    (s.mmioWrite w.1 w.2).1.queue.SizeSound 128 ↔ w.SizeOk 128 := by
  rw [Virtqueue.sizeSound_iff] at h
  rw [Virtqueue.sizeSound_iff, mmioWrite_size, RegWrite.SizeOk]
  by_cases hw : w.1 = Reg.queueNum.offset
  · simp [hw]
  · simp [hw, h]

theorem new_sizeSound (sectorCount : UInt64) (readOnly : Bool) :
    (new sectorCount readOnly).queue.SizeSound 128 := by
  show (Virtqueue.new 128).SizeSound 128
  exact Virtqueue.sizeSound_iff.mpr (by decide)

theorem writes_sizeSound_iff (sectorCount : UInt64) (readOnly : Bool) (ws : List RegWrite) :
    (∀ pre, pre <+: ws → ((new sectorCount readOnly).writes pre).queue.SizeSound 128) ↔
      ∀ w ∈ ws, w.SizeOk 128 :=
  Lib.foldl_prefixes_iff (P := fun s : BlkState => s.queue.SizeSound 128)
    mmioWrite_sizeSound_iff (new_sizeSound sectorCount readOnly) ws

end Blk.BlkState

/-! ## Network device -/

namespace Net.NetState

/-- No write has panicked, the selector names a queue and both sizes are in range. -/
def Sound (result : Exec NetState) : Prop :=
  ∃ s, result = .ok s ∧ (s.queueSel = 0 ∨ s.queueSel = 1) ∧ ∀ i, (s.queues i).SizeSound 256

def writes (s : NetState) (ws : List RegWrite) : Exec NetState :=
  ws.foldl (fun result w => result.bind fun s => s.mmioWrite w.1 w.2) (.ok s)

theorem onQueue_eq {s : NetState} (hsel : s.queueSel = 0 ∨ s.queueSel = 1)
    (f : Virtqueue → Virtqueue) :
    ∃ i, s.onQueue f = .ok { s with queues := Function.update s.queues i (f (s.queues i)) } := by
  rcases hsel with h | h
  · exact ⟨0, by simp [onQueue, queueIndex, h, bind, Except.bind, pure, Except.pure]⟩
  · exact ⟨1, by simp [onQueue, queueIndex, h, bind, Except.bind, pure, Except.pure]⟩

theorem and_one_eq (val : UInt32) : val &&& 1 = 0 ∨ val &&& 1 = 1 := by
  have h : (val &&& 1).toNat = val.toNat % 2 := by
    rw [UInt32.toNat_and]
    exact Nat.and_one_is_mod _
  rcases Nat.mod_two_eq_zero_or_one val.toNat with h0 | h1
  · exact Or.inl (UInt32.toNat_inj.mp (h.trans h0))
  · exact Or.inr (UInt32.toNat_inj.mp (h.trans h1))

theorem sound_onQueue {s : NetState} (hsel : s.queueSel = 0 ∨ s.queueSel = 1)
    (hs : ∀ i, (s.queues i).SizeSound 256) {f : Virtqueue → Virtqueue}
    (hf : ∀ q : Virtqueue, (f q).size = q.size) : Sound (s.onQueue f) := by
  obtain ⟨i, hi⟩ := onQueue_eq hsel f
  refine ⟨_, hi, hsel, ?_⟩
  intro j
  by_cases hj : j = i
  · subst hj
    simpa [Virtqueue.sizeSound_iff, hf] using Virtqueue.sizeSound_iff.mp (hs j)
  · simpa [Function.update_of_ne hj] using hs j

theorem sound_setSize_iff {s : NetState} (hsel : s.queueSel = 0 ∨ s.queueSel = 1)
    (hs : ∀ i, (s.queues i).SizeSound 256) (size : UInt16) :
    Sound (s.onQueue fun q => { q with size := size }) ↔ 1 ≤ size.toNat ∧ size.toNat ≤ 256 := by
  obtain ⟨i, hi⟩ := onQueue_eq hsel fun q => { q with size := size }
  rw [hi]
  constructor
  · rintro ⟨s', hs', -, hall⟩
    cases hs'
    simpa [Virtqueue.sizeSound_iff] using hall i
  · intro hsize
    refine ⟨_, rfl, hsel, ?_⟩
    intro j
    by_cases hj : j = i
    · subst hj
      simpa [Virtqueue.sizeSound_iff] using hsize
    · simpa [Function.update_of_ne hj] using hs j

theorem mmioWrite_sound_iff (result : Exec NetState) (w : RegWrite) (h : Sound result) :
    Sound (result.bind fun s => s.mmioWrite w.1 w.2) ↔ w.SizeOk 256 := by
  obtain ⟨s, rfl, hsel, hs⟩ := h
  simp only [Except.bind, mmioWrite, RegWrite.SizeOk]
  by_cases hnum : Reg.decode w.1 = some .queueNum
  · rw [hnum]
    have hoff := Reg.decode_eq_some_iff.mp hnum
    simpa [hoff] using sound_setSize_iff hsel hs w.2.toUInt16
  · have hoff : ¬ w.1 = Reg.queueNum.offset := fun h => hnum (Reg.decode_eq_some_iff.mpr h)
    simp only [hoff, false_implies, iff_true]
    cases hr : Reg.decode w.1 with
    | none => exact ⟨s, rfl, hsel, hs⟩
    | some r =>
        rw [hr] at hnum
        cases r
        case queueNum => exact absurd rfl hnum
        case queueSel => exact ⟨_, rfl, and_one_eq w.2, hs⟩
        case driverFeatures =>
            dsimp only
            split <;> exact ⟨_, rfl, hsel, hs⟩
        case queueReady => exact sound_onQueue hsel hs fun _ => rfl
        case queueDescLo => exact sound_onQueue hsel hs fun _ => rfl
        case queueDescHi => exact sound_onQueue hsel hs fun _ => rfl
        case queueAvailLo => exact sound_onQueue hsel hs fun _ => rfl
        case queueAvailHi => exact sound_onQueue hsel hs fun _ => rfl
        case queueUsedLo => exact sound_onQueue hsel hs fun _ => rfl
        case queueUsedHi => exact sound_onQueue hsel hs fun _ => rfl
        all_goals exact ⟨_, rfl, hsel, hs⟩

theorem new_sound (mac : Fin 6 → UInt8) : Sound (.ok (new mac)) := by
  refine ⟨new mac, rfl, Or.inl rfl, fun i => ?_⟩
  show (Virtqueue.new 256).SizeSound 256
  exact Virtqueue.sizeSound_iff.mpr (by decide)

theorem writes_sound_iff (mac : Fin 6 → UInt8) (ws : List RegWrite) :
    (∀ pre, pre <+: ws → Sound ((new mac).writes pre)) ↔ ∀ w ∈ ws, w.SizeOk 256 :=
  Lib.foldl_prefixes_iff mmioWrite_sound_iff (new_sound mac) ws

end Net.NetState

/-- Along a sequence of register writes from a fresh device, every queue size
stays between one and the advertised maximum exactly when every value written
to `REG_QUEUE_NUM` does. -/
theorem queue_size_invariant_iff (sectorCount : UInt64) (readOnly : Bool) (mac : Fin 6 → UInt8)
    (ws : List RegWrite) :
    ((∀ pre, pre <+: ws →
        ((Blk.BlkState.new sectorCount readOnly).writes pre).queue.SizeSound
          Blk.queueNumMax.toNat) ↔
      ∀ w ∈ ws, w.SizeOk Blk.queueNumMax.toNat) ∧
    ((∀ pre, pre <+: ws →
        Net.NetState.Sound ((Net.NetState.new mac).writes pre)) ↔
      ∀ w ∈ ws, w.SizeOk Net.queueNumMax.toNat) :=
  ⟨Blk.BlkState.writes_sizeSound_iff sectorCount readOnly ws,
    Net.NetState.writes_sound_iff mac ws⟩

/-- Writing 65536 to `REG_QUEUE_NUM` sets the size to zero. -/
theorem queue_size_zero_after_write :
    ¬ (((Blk.BlkState.new 8 false).writes [(Reg.queueNum.offset, 65536)]).queue.SizeSound
        Blk.queueNumMax.toNat) ∧
      ¬ Net.NetState.Sound ((Net.NetState.new fun _ => 0).writes
        [(Reg.queueNum.offset, 65536)]) := by
  constructor
  · intro h
    exact absurd h.pos (by decide)
  · rintro ⟨s, hs, -, hall⟩
    have hsize : (s.queues 0).size = 0 := by
      cases hs
      rfl
    have hpos := (hall 0).pos
    rw [hsize] at hpos
    exact absurd hpos (by decide)

end Caiman.Vmm
