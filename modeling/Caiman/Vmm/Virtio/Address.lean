import Mathlib.Data.List.Induction
import Caiman.Lib.Last
import Caiman.Vmm.Virtio.QueueSize

/-!
# Queue addresses under register writes

A driver writes each address of a queue by halves, a register for either. The setters take a
half of zero for one that is not being written, so a register holds the last value other than
zero, and an address can be moved below 4 GiB, or to a multiple of it, only once.
-/

namespace Caiman.Vmm

open Lib

/-- The addresses a queue is given. -/
inductive Address
  | descTable
  | availRing
  | usedRing
  deriving DecidableEq, Repr

inductive Half
  | low
  | high
  deriving DecidableEq, Repr

namespace Address

def value : Address → Virtqueue → UInt64
  | descTable => Virtqueue.descTable
  | availRing => Virtqueue.availRing
  | usedRing => Virtqueue.usedRing

def reg : Address → Half → Reg
  | descTable, .low => .queueDescLo
  | descTable, .high => .queueDescHi
  | availRing, .low => .queueAvailLo
  | availRing, .high => .queueAvailHi
  | usedRing, .low => .queueUsedLo
  | usedRing, .high => .queueUsedHi

end Address

def Half.of : Half → UInt64 → UInt32
  | .low, x => x.toUInt32
  | .high, x => (x >>> 32).toUInt32

theorem toNat_halves (x : UInt64) :
    x.toNat = (Half.high.of x).toNat * 2 ^ 32 + (Half.low.of x).toNat := by
  have hlow : (Half.low.of x).toNat = x.toNat % 2 ^ 32 := UInt64.toNat_toUInt32 x
  have hhigh : (Half.high.of x).toNat = x.toNat / 2 ^ 32 := by
    have hshift : (x >>> 32).toNat = x.toNat / 2 ^ 32 := by
      rw [UInt64.toNat_shiftRight]
      exact Nat.shiftRight_eq_div_pow _ _
    have hlt := x.toNat_lt
    rw [Half.of, UInt64.toNat_toUInt32, hshift]
    omega
  omega

theorem upperMask_bits : ∀ i < 32, (0xFFFFFFFF00000000#64).getLsbD (32 + i) = true := by
  decide

theorem lowerMask_bits : ∀ i < 32, (0xFFFFFFFF#32).getLsbD i = true ∧
    (0xFFFFFFFF#64).getLsbD (32 + i) = false := by
  decide

theorem half_withLow (h : Half) (old : UInt64) (low : UInt32) :
    h.of ((old &&& (0xFFFFFFFF00000000 : UInt64)) ||| low.toUInt64) =
      match h with
      | .low => low
      | .high => Half.high.of old := by
  cases h with
  | low =>
      apply UInt32.toBitVec_inj.mp
      ext i hi
      simp [Half.of]
  | high =>
      apply UInt32.toBitVec_inj.mp
      ext i hi
      have hmask := upperMask_bits i hi
      simp [Half.of, hmask]

theorem half_withHigh (h : Half) (old : UInt64) (high : UInt32) :
    h.of ((old &&& (0x00000000FFFFFFFF : UInt64)) ||| (high.toUInt64 <<< 32)) =
      match h with
      | .low => Half.low.of old
      | .high => high := by
  cases h with
  | low =>
      apply UInt32.toBitVec_inj.mp
      ext i hi
      have hmask := lowerMask_bits i hi
      rw [BitVec.getLsbD_eq_getElem hi] at hmask
      simp [Half.of, hmask.1]
  | high =>
      apply UInt32.toBitVec_inj.mp
      ext i hi
      have hmask := (lowerMask_bits i hi).2
      have hin : 32 + i < 64 := by omega
      have hbit : i < 64 := by omega
      rw [BitVec.getLsbD_eq_getElem hin] at hmask
      simp [Half.of, hmask, hin, hbit, BitVec.getLsbD_eq_getElem hi]

theorem half_setHalves (h : Half) (old : UInt64) (low high : UInt32) :
    h.of (setHalves old low high) =
      match h with
      | .low => if low ≠ 0 then low else Half.low.of old
      | .high => if high ≠ 0 then high else Half.high.of old := by
  unfold setHalves
  by_cases hlow : low ≠ 0
  · by_cases hhigh : high ≠ 0
    · simp only [if_pos hlow, if_pos hhigh, half_withHigh, half_withLow]
    · simp only [if_pos hlow, if_neg hhigh, half_withLow]
  · by_cases hhigh : high ≠ 0
    · simp only [if_neg hlow, if_pos hhigh, half_withHigh]
    · simp only [if_neg hlow, if_neg hhigh]
      cases h <;> rfl

/-! ## One write -/

/-- What a write to a register does to the selected queue, with either device. -/
def Virtqueue.assign (q : Virtqueue) (val : UInt32) : Reg → Virtqueue
  | .queueNum => { q with size := val.toUInt16 }
  | .queueReady => { q with ready := val != 0 }
  | .queueDescLo => q.setDescTable val 0
  | .queueDescHi => q.setDescTable 0 val
  | .queueAvailLo => q.setAvailRing val 0
  | .queueAvailHi => q.setAvailRing 0 val
  | .queueUsedLo => q.setUsedRing val 0
  | .queueUsedHi => q.setUsedRing 0 val
  | _ => q

theorem value_assign (a : Address) (q : Virtqueue) (val : UInt32) (r : Reg) :
    a.value (q.assign val r) =
      if r = a.reg .low then setHalves (a.value q) val 0
      else if r = a.reg .high then setHalves (a.value q) 0 val
      else a.value q := by
  cases a <;> cases r <;> rfl

theorem reg_low_ne_high (a : Address) : a.reg .low ≠ a.reg .high := by
  cases a <;> decide

theorem half_assign (a : Address) (h : Half) (q : Virtqueue) (val : UInt32) (r : Reg) :
    h.of (a.value (q.assign val r)) =
      if r = a.reg h ∧ val ≠ 0 then val else h.of (a.value q) := by
  have hne := reg_low_ne_high a
  rw [value_assign]
  by_cases hlow : r = a.reg .low
  · rw [if_pos hlow, half_setHalves]
    cases h with
    | low => simp [hlow]
    | high => simp [hlow, hne]
  · rw [if_neg hlow]
    by_cases hhigh : r = a.reg .high
    · rw [if_pos hhigh, half_setHalves]
      cases h with
      | low => simp [hhigh, hne.symm]
      | high => simp [hhigh]
    · rw [if_neg hhigh]
      cases h with
      | low => simp [hlow]
      | high => simp [hhigh]

def RegWrite.put (r : Reg) (w : RegWrite) : Option UInt32 :=
  if w.1 = r.offset then some w.2 else none

def Virtqueue.write (q : Virtqueue) (w : RegWrite) : Virtqueue :=
  match Reg.decode w.1 with
  | some r => q.assign w.2 r
  | none => q

def nonzero (val : UInt32) : Option UInt32 := if val ≠ 0 then some val else none

theorem half_write (a : Address) (h : Half) (q : Virtqueue) (w : RegWrite) :
    h.of (a.value (q.write w)) =
      ((w.put (a.reg h)).bind nonzero).getD (h.of (a.value q)) := by
  rw [Virtqueue.write]
  cases hdecode : Reg.decode w.1 with
  | none =>
      have hoff : w.1 ≠ (a.reg h).offset := by
        intro hoff
        rw [Reg.decode_eq_some_iff.mpr hoff] at hdecode
        cases hdecode
      rw [RegWrite.put, if_neg hoff]
      rfl
  | some r =>
      dsimp only
      rw [half_assign, RegWrite.put]
      by_cases hr : r = a.reg h
      · subst hr
        rw [if_pos (Reg.decode_eq_some_iff.mp hdecode), Option.bind_some, nonzero]
        by_cases hval : w.2 ≠ 0
        · rw [if_pos ⟨rfl, hval⟩, if_pos hval]
          rfl
        · rw [if_neg fun hand => hval hand.2, if_neg hval]
          rfl
      · have hoff : w.1 ≠ (a.reg h).offset := by
          intro hoff
          rw [Reg.decode_eq_some_iff.mpr hoff] at hdecode
          exact hr (Option.some.inj hdecode).symm
        rw [if_neg fun hand => hr hand.1, if_neg hoff]
        rfl

/-! ## Sequences of writes -/

/-- The address is made of the last value written to either of its registers, or zero. -/
def LastWriteWins (a : Address) (q : Virtqueue) (written : Reg → List UInt32) : Prop :=
  (a.value q).toNat =
    ((written (a.reg .high)).getLastD 0).toNat * 2 ^ 32 +
      ((written (a.reg .low)).getLastD 0).toNat

instance (a : Address) (q : Virtqueue) (written : Reg → List UInt32) :
    Decidable (LastWriteWins a q written) :=
  inferInstanceAs (Decidable (_ = _))

/-- Zero is not written over another value and left there. -/
def NeverCleared (vals : List UInt32) : Prop := vals.getLastD 0 = 0 → ∀ val ∈ vals, val = 0

theorem lastPut_nonzero_append (vals : List UInt32) (val : UInt32) :
    (lastPut nonzero (vals ++ [val])).getD 0 =
      if val ≠ 0 then val else (lastPut nonzero vals).getD 0 := by
  rw [lastPut_append, lastPut, nonzero]
  by_cases hval : val ≠ 0
  · rw [if_pos hval, if_pos hval]
    rfl
  · rw [if_neg hval, if_neg hval]
    rfl

theorem lastPut_nonzero_eq_zero_iff (vals : List UInt32) :
    (lastPut nonzero vals).getD 0 = 0 ↔ ∀ val ∈ vals, val = 0 := by
  induction vals using List.reverseRecOn with
  | nil => simp [lastPut]
  | append_singleton vals val ih =>
      rw [lastPut_nonzero_append, List.forall_mem_append, List.forall_mem_singleton, ← ih]
      by_cases hval : val = 0 <;> simp [hval]

/-- The registers hold the last value written exactly when that is not a zero over another
value. -/
theorem lastPut_nonzero_iff (vals : List UInt32) :
    (lastPut nonzero vals).getD 0 = vals.getLastD 0 ↔ NeverCleared vals := by
  induction vals using List.reverseRecOn with
  | nil => simp [lastPut, NeverCleared]
  | append_singleton vals val ih =>
      rw [lastPut_nonzero_append, NeverCleared, List.getLastD_concat, List.forall_mem_append,
        List.forall_mem_singleton, ← lastPut_nonzero_eq_zero_iff]
      by_cases hval : val = 0 <;> simp [hval]

/-- When a register holds the last value other than zero in either half, its law is a matter of
what was written to the halves. -/
theorem lastWriteWins_iff {a : Address} {q : Virtqueue} {written : Reg → List UInt32}
    (hheld : ∀ h : Half, h.of (a.value q) = (lastPut nonzero (written (a.reg h))).getD 0) :
    LastWriteWins a q written ↔ ∀ h, NeverCleared (written (a.reg h)) := by
  have hlow := ((written (a.reg .low)).getLastD 0).toNat_lt
  have hheldlow := (Half.low.of (a.value q)).toNat_lt
  have hhalves : LastWriteWins a q written ↔
      ∀ h : Half, h.of (a.value q) = (written (a.reg h)).getLastD 0 := by
    rw [LastWriteWins, toNat_halves]
    constructor
    · intro heq h
      apply UInt32.toNat_inj.mp
      cases h <;> omega
    · intro heq
      rw [heq .high, heq .low]
  rw [hhalves]
  apply forall_congr'
  intro h
  rw [hheld h, lastPut_nonzero_iff]

/-! ## Block device -/

namespace Blk.BlkState

def written (r : Reg) (ws : List RegWrite) : List UInt32 := ws.filterMap (RegWrite.put r)

theorem mmioWrite_queue (s : BlkState) (w : RegWrite) :
    (s.mmioWrite w.1 w.2).1.queue = s.queue.write w := by
  rw [mmioWrite, Virtqueue.write]
  cases Reg.decode w.1 with
  | none => rfl
  | some r => cases r <;> rfl

theorem half_writes (s : BlkState) (ws : List RegWrite) (a : Address) (h : Half) :
    h.of (a.value (s.writes ws).queue) =
      (lastPut nonzero (written (a.reg h) ws)).getD (h.of (a.value s.queue)) := by
  induction ws generalizing s with
  | nil => rfl
  | cons w ws ih =>
      have hrest : (s.writes (w :: ws)) = (s.mmioWrite w.1 w.2).1.writes ws := rfl
      rw [hrest, ih, mmioWrite_queue, half_write, written, written]
      cases hput : w.put (a.reg h) with
      | none => rw [List.filterMap_cons_none hput, Option.bind_none, Option.getD_none]
      | some val =>
          rw [List.filterMap_cons_some hput, lastPut, Option.bind_some]
          cases lastPut nonzero (ws.filterMap (RegWrite.put (a.reg h))) <;> rfl

end Blk.BlkState

/-! ## Network device -/

namespace Net.NetState

/-- The values written to a register while a queue is selected. -/
def written (i : Fin 2) (r : Reg) : UInt32 → List RegWrite → List UInt32
  | _, [] => []
  | queueSel, w :: ws =>
      (if queueSel.toNat = i.val then (w.put r).toList else []) ++
        written i r (if w.1 = Reg.queueSel.offset then w.2 &&& 1 else queueSel) ws

theorem onQueue_selected {s : NetState} (hsel : s.queueSel = 0 ∨ s.queueSel = 1)
    (f : Virtqueue → Virtqueue) :
    ∃ queues, s.onQueue f = .ok { s with queues := queues } ∧
      ∀ i : Fin 2, queues i = if s.queueSel.toNat = i.val then f (s.queues i) else s.queues i := by
  rcases hsel with h | h
  · refine ⟨Function.update s.queues 0 (f (s.queues 0)), by simp [onQueue, queueIndex, h, bind,
      Except.bind, pure, Except.pure], ?_⟩
    rw [Fin.forall_fin_two]
    simp [h]
  · refine ⟨Function.update s.queues 1 (f (s.queues 1)), by simp [onQueue, queueIndex, h, bind,
      Except.bind, pure, Except.pure], ?_⟩
    rw [Fin.forall_fin_two]
    simp [h]

theorem mmioWrite_queues {s : NetState} (hsel : s.queueSel = 0 ∨ s.queueSel = 1)
    (w : RegWrite) :
    ∃ s', s.mmioWrite w.1 w.2 = .ok s' ∧
      s'.queueSel = (if w.1 = Reg.queueSel.offset then w.2 &&& 1 else s.queueSel) ∧
      ∀ i : Fin 2, s'.queues i =
        if s.queueSel.toNat = i.val then (s.queues i).write w else s.queues i := by
  have hdecode : w.1 = Reg.queueSel.offset ↔ Reg.decode w.1 = some .queueSel :=
    Reg.decode_eq_some_iff.symm
  simp only [hdecode, mmioWrite, Virtqueue.write]
  cases hr : Reg.decode w.1 with
  | none => exact ⟨s, rfl, rfl, fun i => (ite_self _).symm⟩
  | some r =>
      have hqueue : ∀ f : Virtqueue → Virtqueue, r ≠ .queueSel → (∀ q, f q = q.assign w.2 r) →
          ∃ s', s.onQueue f = .ok s' ∧
            s'.queueSel = (if some r = some Reg.queueSel then w.2 &&& 1 else s.queueSel) ∧
            ∀ i : Fin 2, s'.queues i =
              if s.queueSel.toNat = i.val then (s.queues i).assign w.2 r else s.queues i := by
        intro f hr hf
        obtain ⟨queues, hrun, hqueues⟩ := onQueue_selected hsel f
        refine ⟨_, hrun, (if_neg fun h => hr (Option.some.inj h)).symm, ?_⟩
        intro i
        rw [← hf]
        exact hqueues i
      cases r with
      | queueNum => exact hqueue _ (by decide) fun _ => rfl
      | queueReady => exact hqueue _ (by decide) fun _ => rfl
      | queueDescLo => exact hqueue _ (by decide) fun _ => rfl
      | queueDescHi => exact hqueue _ (by decide) fun _ => rfl
      | queueAvailLo => exact hqueue _ (by decide) fun _ => rfl
      | queueAvailHi => exact hqueue _ (by decide) fun _ => rfl
      | queueUsedLo => exact hqueue _ (by decide) fun _ => rfl
      | queueUsedHi => exact hqueue _ (by decide) fun _ => rfl
      | driverFeatures =>
          dsimp only
          split <;> exact ⟨_, rfl, rfl, fun i => (ite_self _).symm⟩
      | _ => exact ⟨_, rfl, rfl, fun i => (ite_self _).symm⟩

theorem half_writes {s : NetState} (hsel : s.queueSel = 0 ∨ s.queueSel = 1)
    (ws : List RegWrite) :
    ∃ s', s.writes ws = .ok s' ∧ ∀ (i : Fin 2) (a : Address) (h : Half),
      h.of (a.value (s'.queues i)) =
        (lastPut nonzero (written i (a.reg h) s.queueSel ws)).getD (h.of (a.value (s.queues i))) := by
  induction ws generalizing s with
  | nil => exact ⟨s, rfl, fun _ _ _ => rfl⟩
  | cons w ws ih =>
      obtain ⟨next, hstep, hnext, hqueues⟩ := mmioWrite_queues hsel w
      have hsel' : next.queueSel = 0 ∨ next.queueSel = 1 := by
        rw [hnext]
        split
        · exact and_one_eq w.2
        · exact hsel
      obtain ⟨s', hrun, hhalf⟩ := ih hsel'
      refine ⟨s', ?_, ?_⟩
      · rw [writes, List.foldl_cons, Except.bind, hstep]
        exact hrun
      · intro i a h
        rw [hhalf, hqueues, written, ← hnext]
        by_cases hi : s.queueSel.toNat = i.val
        · rw [if_pos hi, if_pos hi, half_write]
          cases hput : w.put (a.reg h) with
          | none => rfl
          | some val =>
              rw [Option.toList_some, List.singleton_append, lastPut, Option.bind_some]
              cases lastPut nonzero (written i (a.reg h) next.queueSel ws) <;> rfl
        · rw [if_neg hi, if_neg hi]
          rfl

end Net.NetState

/-- In every sequence of register writes from a fresh device an address of a queue is made of
the last values written to its halves exactly when neither half was written zero over another
value at the end. -/
theorem address_registers_iff (sectorCount : UInt64) (readOnly : Bool) (mac : Fin 6 → UInt8)
    (ws : List RegWrite) (a : Address) :
    (LastWriteWins a ((Blk.BlkState.new sectorCount readOnly).writes ws).queue
        (fun r => Blk.BlkState.written r ws) ↔
      ∀ h, NeverCleared (Blk.BlkState.written (a.reg h) ws)) ∧
    ∃ s, (Net.NetState.new mac).writes ws = .ok s ∧ ∀ i : Fin 2,
      (LastWriteWins a (s.queues i) (fun r => Net.NetState.written i r 0 ws) ↔
        ∀ h, NeverCleared (Net.NetState.written i (a.reg h) 0 ws)) := by
  have hzero : ∀ (size : UInt16) (h : Half), h.of (a.value (Virtqueue.new size)) = 0 := by
    intro size h
    have hvalue : a.value (Virtqueue.new size) = 0 := by cases a <;> rfl
    rw [hvalue]
    cases h <;> decide
  constructor
  · apply lastWriteWins_iff
    intro h
    rw [Blk.BlkState.half_writes]
    congr 1
    exact hzero 128 h
  · obtain ⟨s, hrun, hhalf⟩ := Net.NetState.half_writes
      (s := Net.NetState.new mac) (Or.inl rfl) ws
    refine ⟨s, hrun, ?_⟩
    intro i
    apply lastWriteWins_iff
    intro h
    rw [hhalf]
    congr 1
    exact hzero 256 h

/-- A ring above 4 GiB, and after a reset another below: the high half of the first stays. -/
def movedDown : List RegWrite :=
  [(Reg.queueDescLo.offset, 0x2000), (Reg.queueDescHi.offset, 1), (Reg.status.offset, 0),
    (Reg.queueDescLo.offset, 0x3000), (Reg.queueDescHi.offset, 0)]

theorem address_high_half_stays :
    ¬ (LastWriteWins .descTable ((Blk.BlkState.new 8 false).writes movedDown).queue
        fun r => Blk.BlkState.written r movedDown) ∧
      ¬ ∃ s, (Net.NetState.new fun _ => 0).writes movedDown = .ok s ∧
        LastWriteWins .descTable (s.queues 0) fun r => Net.NetState.written 0 r 0 movedDown := by
  constructor
  · decide +kernel
  · intro h
    obtain ⟨s, hrun, hlaw⟩ := h
    cases hrun
    revert hlaw
    decide +kernel

end Caiman.Vmm
