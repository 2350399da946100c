import Caiman.Vmm.Virtio.Net

/-!
# Ready gating

Which steps of the two dataplanes go to a queue's rings, set against the last
value the driver has written to the ready register of that queue. The block
device tests the ready bit before it looks for a head and not again when it
completes the chain; the network device never tests it.
-/

namespace Caiman.Vmm

open Lib

namespace Virtqueue

/-- `next_avail` gets as far as reading the available ring. -/
def pollsRing (q : Virtqueue) : Bool := q.availRing != 0

/-- `add_used` gets as far as writing the used ring. -/
def fillsRing (q : Virtqueue) : Bool := q.usedRing != 0 && q.size != 0

theorem nextAvail_of_not_pollsRing {q : Virtqueue} (h : q.pollsRing = false) (mem : GuestMemory) :
    q.nextAvail mem = .ok (none, q) := by
  have hring : q.availRing = 0 := by simpa [pollsRing] using h
  simp [nextAvail, readAvailIdx, hring, bind, Except.bind, pure, Except.pure]

/-- A head is only ever taken from a configured ring, and taking it moves one
private index. -/
theorem nextAvail_some {q q' : Virtqueue} {mem : GuestMemory} {head : UInt16}
    (h : q.nextAvail mem = .ok (some head, q')) :
    q.pollsRing = true ∧ q' = { q with lastAvailIdx := q.lastAvailIdx + 1 } := by
  constructor
  · by_contra hpoll
    rw [nextAvail_of_not_pollsRing (by simpa using hpoll)] at h
    cases h
  · unfold nextAvail at h
    simp only [bind, Except.bind, pure, Except.pure] at h
    split at h
    · cases h
    · split at h
      · cases h
      · split at h
        · cases h
        · split at h
          · cases h
          · split at h
            · cases h
            · split at h
              · cases h
              · cases h
                rfl

theorem addUsed_of_not_fillsRing {q q' : Virtqueue} {mem mem' : GuestMemory} {head : UInt16}
    {len : UInt32} {added : Bool} (hfill : q.fillsRing = false)
    (h : q.addUsed mem head len = .ok (added, q', mem')) :
    added = false ∧ q' = q ∧ mem' = mem := by
  rcases addUsed_cases h with ⟨-, hadded, hq, hmem⟩ | ⟨hring, hsize, -⟩
  · exact ⟨hadded, hq, hmem⟩
  · simp [fillsRing, hring, hsize] at hfill

theorem addUsed_ready {q q' : Virtqueue} {mem mem' : GuestMemory} {head : UInt16} {len : UInt32}
    {added : Bool} (h : q.addUsed mem head len = .ok (added, q', mem')) : q'.ready = q.ready := by
  rcases addUsed_cases h with ⟨-, -, rfl, -⟩ | ⟨-, -, -, -, rfl, -⟩ <;> rfl

end Virtqueue

/-- The private indices of the queue stay as they are and none of the events is a
head taken from it or an element put in its used ring. -/
structure IdleOn (queue : Nat) (q q' : Virtqueue) (events : List Event) : Prop where
  lastAvailIdx : q'.lastAvailIdx = q.lastAvailIdx
  usedIdx : q'.usedIdx = q.usedIdx
  take : ∀ head, .take queue head ∉ events
  used : ∀ head len, .used queue head len true ∉ events

/-! ## Block device -/

namespace Blk

/-- The value last written to the ready register, as the driver knows it. -/
def readyWritten (_ : BlkSystem) (ready : Bool) : BlkAction → Bool
  | .mmioWrite offset val => if offset = Reg.queueReady.offset then val != 0 else ready
  | _ => ready

def completes (s : BlkSystem) : BlkAction → Bool
  | .dataplane _ =>
      match s.pc with
      | .serve _ chain => decide (chain.length < 2)
      | .complete _ _ => true
      | _ => false
  | _ => false

/-- The step reads the available ring or the descriptor table, or writes the used
ring. A head is taken and its chain read in the step that polls. -/
def touches (s : BlkSystem) : BlkAction → Bool
  | .dataplane io =>
      match s.pc with
      | .poll => s.state.queue.ready && s.state.queue.pollsRing
      | _ => completes s (.dataplane io) && s.state.queue.fillsRing
  | _ => false

structure LeavesAlone (s : BlkSystem) (a : BlkAction) : Prop where
  touches : touches s a = false
  idle : IdleOn 0 s.state.queue (machine.step s a).1.state.queue (machine.step s a).2

/-- Along the run, the rings are left alone whenever the last value written to
the ready register is zero or none has been written. -/
def Gated (s : BlkSystem) (as : List BlkAction) : Prop :=
  ∀ pre a post, as = pre ++ a :: post → machine.track readyWritten s false pre = false →
    LeavesAlone (machine.run s pre).1 a

/-- The queue is still ready when a chain goes into its used ring. -/
def readyAtCompletion (s : BlkSystem) (a : BlkAction) : Bool :=
  !completes s a || !s.state.queue.fillsRing || s.state.queue.ready

theorem mmioWrite_ready (s : BlkState) (offset : UInt64) (val : UInt32) :
    (s.mmioWrite offset val).1.queue.ready =
      if offset = Reg.queueReady.offset then val != 0 else s.queue.ready := by
  unfold BlkState.mmioWrite
  by_cases hready : Reg.decode offset = some .queueReady
  · rw [hready, if_pos (Reg.decode_eq_some_iff.mp hready)]
  · rw [if_neg (fun h => hready (Reg.decode_eq_some_iff.mpr h))]
    cases hr : Reg.decode offset with
    | none => rfl
    | some r =>
        rw [hr] at hready
        cases r
        case queueReady => exact absurd rfl hready
        all_goals rfl

theorem machine_ready (s : BlkSystem) (a : BlkAction) :
    (machine.step s a).1.state.queue.ready = readyWritten s s.state.queue.ready a := by
  cases a with
  | mmioRead offset => rfl
  | mmioWrite offset val => exact mmioWrite_ready s.state offset val
  | store addr data => rfl
  | dataplane io =>
      change (s.dataplaneStep io).1.state.queue.ready = s.state.queue.ready
      rcases s.dataplaneStep_effect io with
        ⟨kick, pc, h⟩ | ⟨head, q, pc, hnext, h⟩ |
          ⟨head, usedLen, added, q, mem, irqStatus, pc, hadd, h⟩ |
          ⟨head, hdrDesc, dataDesc, rest, c, -, -, h⟩
      · rw [h]
      · rw [h, (Virtqueue.nextAvail_some hnext).2]
        rfl
      · rw [h]
        exact Virtqueue.addUsed_ready hadd
      · rw [h]

theorem track_readyWritten (image : Image) (readOnly : Bool) (mem : GuestMemory)
    (as : List BlkAction) :
    machine.track readyWritten (.new image readOnly mem) false as =
      (machine.run (.new image readOnly mem) as).1.state.queue.ready := by
  refine (machine.run_tracked (R := fun s ready => s.state.queue.ready = ready) ?_ rfl
    (machine.allSteps_of (fun _ _ => trivial) _ as)).symm
  rintro s ready a rfl -
  exact machine_ready s a

theorem poll_idle {s : BlkSystem}
    (h : (s.state.queue.ready && s.state.queue.pollsRing) = false) :
    s.pollStep = ({ s with pc := .wait }, [.idle]) := by
  unfold BlkSystem.pollStep
  rw [if_pos]
  rw [Virtqueue.pollsRing] at h
  cases hready : s.state.queue.ready <;> simp_all

theorem serve_idle {s : BlkSystem} {io : Transfer} {head : UInt16} {chain : List Descriptor}
    (h : (decide (chain.length < 2) && s.state.queue.fillsRing) = false) :
    IdleOn 0 s.state.queue (s.serveStep io head chain).1.state.queue
      (s.serveStep io head chain).2 := by
  rcases s.serveStep_cases io head chain with
    ⟨why, hs⟩ | ⟨added, q, mem, hshort, hadd, hs⟩ |
      ⟨hdrDesc, dataDesc, rest, -, ⟨-, hs⟩ | ⟨c, -, hs⟩⟩
  · rw [hs]
    exact ⟨rfl, rfl, by simp, by simp⟩
  · have hfill : s.state.queue.fillsRing = false := by simpa [hshort] using h
    obtain ⟨rfl, rfl, -⟩ := Virtqueue.addUsed_of_not_fillsRing hfill hadd
    rw [hs]
    exact ⟨rfl, rfl, by simp, by simp⟩
  · rw [hs]
    exact ⟨rfl, rfl, by simp, by simp⟩
  · rw [hs]
    exact ⟨rfl, rfl, by simp, by simp⟩

theorem complete_idle {s : BlkSystem} {head : UInt16} {usedLen : UInt32}
    (h : s.state.queue.fillsRing = false) :
    IdleOn 0 s.state.queue (s.completeStep head usedLen).1.state.queue
      (s.completeStep head usedLen).2 := by
  rcases s.completeStep_cases head usedLen with ⟨why, hs⟩ | ⟨added, q, mem, hadd, hs⟩
  · rw [hs]
    exact ⟨rfl, rfl, by simp, by simp⟩
  · obtain ⟨rfl, rfl, -⟩ := Virtqueue.addUsed_of_not_fillsRing h hadd
    rw [hs]
    exact ⟨rfl, rfl, by simp, by simp⟩

/-- A step that does not go to the rings leaves no trace on the queue. -/
theorem leavesAlone_iff (s : BlkSystem) (a : BlkAction) :
    LeavesAlone s a ↔ touches s a = false := by
  refine ⟨LeavesAlone.touches, fun h => ⟨h, ?_⟩⟩
  cases a with
  | mmioRead offset => exact ⟨rfl, rfl, by simp [machine], by simp [machine]⟩
  | mmioWrite offset val =>
      refine ⟨?_, ?_, by simp [machine], by simp [machine]⟩
      all_goals
        simp only [machine, BlkState.mmioWrite]
        split <;> rfl
  | store addr data => exact ⟨rfl, rfl, by simp [machine], by simp [machine]⟩
  | dataplane io =>
      simp only [machine, BlkSystem.dataplaneStep]
      cases hpc : s.pc with
      | wait =>
          dsimp only
          split
          · exact ⟨rfl, rfl, by simp, by simp⟩
          · exact ⟨rfl, rfl, by simp, by simp⟩
      | poll =>
          rw [touches, hpc] at h
          dsimp only
          rw [poll_idle h]
          exact ⟨rfl, rfl, by simp, by simp⟩
      | serve head chain =>
          simp only [touches, completes, hpc] at h
          exact serve_idle h
      | complete head usedLen =>
          simp only [touches, completes, hpc, Bool.true_and] at h
          exact complete_idle h
      | inject => exact ⟨rfl, rfl, by simp, by simp⟩
      | halted why => exact ⟨rfl, rfl, by simp, by simp⟩

theorem touches_of_not_ready {s : BlkSystem} (hready : s.state.queue.ready = false)
    (a : BlkAction) : touches s a = false ↔ readyAtCompletion s a = true := by
  cases a with
  | dataplane io =>
      cases hpc : s.pc
      all_goals
        cases hfill : s.state.queue.fillsRing
        all_goals simp [touches, readyAtCompletion, completes, hpc, hready, hfill]
  | _ => simp [touches, readyAtCompletion, completes]

theorem gated_iff (image : Image) (readOnly : Bool) (mem : GuestMemory) (as : List BlkAction) :
    Gated (.new image readOnly mem) as ↔
      machine.AllSteps (fun s a => readyAtCompletion s a = true) (.new image readOnly mem) as := by
  rw [Machine.allSteps_iff_split, Gated]
  refine forall_congr' fun pre => forall_congr' fun a => forall_congr' fun post =>
    imp_congr_right fun _ => ?_
  rw [track_readyWritten, leavesAlone_iff]
  cases hready : (machine.run (.new image readOnly mem) pre).1.state.queue.ready with
  | false => simpa using touches_of_not_ready hready a
  | true => simp [readyAtCompletion, hready]

end Blk

/-! ## Network device -/

namespace Net

/-- The driver's account of its own writes: the queue it has selected and the
value it last wrote to the ready register of each. -/
structure Written where
  sel : Fin 2
  ready : Fin 2 → Bool

namespace Written

def none : Written := ⟨0, fun _ => false⟩

def write (w : Written) (offset : UInt64) (val : UInt32) : Written :=
  if offset = Reg.queueSel.offset then { w with sel := if val &&& 1 = 0 then 0 else 1 }
  else if offset = Reg.queueReady.offset then
    { w with ready := Function.update w.ready w.sel (val != 0) }
  else w

end Written

/-- A write made while the drain holds the lock has not happened yet. -/
def readyWritten (s : NetSystem) (w : Written) : NetAction → Written
  | .mmioWrite offset val => if s.pc = .tx true then w else w.write offset val
  | _ => w

def polls (s : NetSystem) : NetAction → Option (Fin 2)
  | .dataplane packet =>
      match s.pc with
      | .tx _ => some 1
      | .rx => if (recv packet).isSome then some 0 else none
      | _ => none
  | _ => none

/-- The step reads the rings of queue `i` or writes its used ring. A chain is
read and completed in the step that takes its head. -/
def touches (s : NetSystem) (i : Fin 2) (a : NetAction) : Bool :=
  polls s a == some i && (s.state.queues i).pollsRing

structure LeavesAlone (s : NetSystem) (i : Fin 2) (a : NetAction) : Prop where
  touches : touches s i a = false
  idle : IdleOn i (s.state.queues i) ((machine.step s a).1.state.queues i) (machine.step s a).2

/-- Along the run, each queue is left alone whenever the last value written to
its ready register is zero or none has been written. -/
def Gated (s : NetSystem) (as : List NetAction) : Prop :=
  ∀ pre a post, as = pre ++ a :: post →
    ∀ i, (machine.track readyWritten s .none pre).ready i = false →
      LeavesAlone (machine.run s pre).1 i a

/-- The queue polled by the step is ready or has no available ring. -/
def readyAtPoll (s : NetSystem) (a : NetAction) : Bool :=
  match polls s a with
  | some i => !(s.state.queues i).pollsRing || (s.state.queues i).ready
  | none => true

structure Reflects (state : NetState) (w : Written) : Prop where
  sel : queueIndex state.queueSel = .ok w.sel
  ready : ∀ i, (state.queues i).ready = w.ready i

theorem onQueue_of_sel {s : NetState} {i : Fin 2} (h : queueIndex s.queueSel = .ok i)
    (f : Virtqueue → Virtqueue) :
    s.onQueue f = .ok { s with queues := Function.update s.queues i (f (s.queues i)) } := by
  simp [NetState.onQueue, h, bind, Except.bind, pure, Except.pure]

theorem Reflects.onQueue {s : NetState} {w : Written} (h : Reflects s w)
    {f : Virtqueue → Virtqueue} (hf : ∀ q, (f q).ready = q.ready) :
    ∃ s', s.onQueue f = .ok s' ∧ Reflects s' w := by
  refine ⟨_, onQueue_of_sel h.sel f, h.sel, ?_⟩
  intro i
  by_cases hi : i = w.sel
  · subst hi
    simpa [hf] using h.ready w.sel
  · simpa [Function.update_of_ne hi] using h.ready i

theorem queueIndex_and_one (val : UInt32) :
    queueIndex (val &&& 1) = .ok (if val &&& 1 = 0 then 0 else 1) := by
  have hlow : (val &&& 1).toNat = val.toNat % 2 := by
    rw [UInt32.toNat_and]
    exact Nat.and_one_is_mod _
  by_cases h0 : val &&& 1 = 0
  · simp [queueIndex, h0]
  · have h1 : val &&& 1 = 1 := by
      apply UInt32.toNat_inj.mp
      have hne : (val &&& 1).toNat ≠ 0 := fun h => h0 (UInt32.toNat_inj.mp h)
      rw [hlow] at hne ⊢
      have hone : (1 : UInt32).toNat = 1 := rfl
      omega
    simp [queueIndex, h1]

theorem Reflects.mmioWrite {s : NetState} {w : Written} (h : Reflects s w) (offset : UInt64)
    (val : UInt32) :
    ∃ s', s.mmioWrite offset val = .ok s' ∧ Reflects s' (w.write offset val) := by
  unfold NetState.mmioWrite
  cases hr : Reg.decode offset with
  | none =>
      have hsel : offset ≠ Reg.queueSel.offset := by
        rintro rfl
        simp at hr
      have hready : offset ≠ Reg.queueReady.offset := by
        rintro rfl
        simp at hr
      rw [Written.write, if_neg hsel, if_neg hready]
      exact ⟨s, rfl, h⟩
  | some r =>
      obtain rfl := Reg.decode_eq_some_iff.mp hr
      cases r
      case queueSel => exact ⟨_, rfl, queueIndex_and_one val, h.ready⟩
      case queueReady =>
          refine ⟨_, onQueue_of_sel h.sel _, h.sel, ?_⟩
          intro i
          change (Function.update s.queues w.sel _ i).ready =
            Function.update w.ready w.sel (val != 0) i
          by_cases hi : i = w.sel
          · subst hi
            simp
          · simpa [Function.update_of_ne hi] using h.ready i
      case driverFeatures =>
          dsimp only
          split
          · exact ⟨_, rfl, h.sel, h.ready⟩
          · exact ⟨_, rfl, h.sel, h.ready⟩
      all_goals first
        | exact h.onQueue fun _ => rfl
        | exact ⟨_, rfl, h.sel, h.ready⟩

theorem Reflects.withQueue {s : NetSystem} {w : Written} (h : Reflects s.state w) {i : Fin 2}
    {q : Virtqueue} (hq : q.ready = (s.state.queues i).ready) :
    Reflects (s.withQueue i q).state w := by
  refine ⟨h.sel, fun j => ?_⟩
  change (Function.update s.state.queues i q j).ready = w.ready j
  by_cases hj : j = i
  · subst hj
    rw [Function.update_self, hq]
    exact h.ready j
  · rw [Function.update_of_ne hj]
    exact h.ready j

theorem nextAvail_ready {q q' : Virtqueue} {mem : GuestMemory} {head : UInt16}
    (h : q.nextAvail mem = .ok (some head, q')) : q'.ready = q.ready := by
  rw [(Virtqueue.nextAvail_some h).2]

theorem Reflects.txStep {s : NetSystem} {w : Written} (h : Reflects s.state w) :
    Reflects s.txStep.1.state w := by
  rcases s.txStep_cases with
    ⟨why, hs⟩ | hs | ⟨head, q, hnext, ⟨why, buf, hs⟩ | ⟨chain, buf, added, q', mem, -, -, hadd, hs⟩⟩
  · rw [hs]
    exact h
  · rw [hs]
    exact h
  · rw [hs]
    exact h.withQueue (nextAvail_ready hnext)
  · rw [hs]
    exact h.withQueue ((Virtqueue.addUsed_ready hadd).trans (nextAvail_ready hnext))

theorem Reflects.rxStep {s : NetSystem} {w : Written} (h : Reflects s.state w)
    (packet : List UInt8) : Reflects (s.rxStep packet).1.state w := by
  rcases s.rxStep_cases packet with
    ⟨why, hs⟩ | hs | ⟨frame, head, q, -, hnext,
      ⟨why, mem, hs⟩ | ⟨chain, written, mem, -, -, ⟨-, hs⟩ | ⟨-, added, q', mem', hadd, hs⟩⟩⟩
  · rw [hs]
    exact h
  · rw [hs]
    exact h
  · rw [hs]
    exact h.withQueue (nextAvail_ready hnext)
  · rw [hs]
    exact h.withQueue (nextAvail_ready hnext)
  · have hq := h.withQueue ((Virtqueue.addUsed_ready hadd).trans (nextAvail_ready hnext))
    rw [hs]
    exact ⟨hq.sel, hq.ready⟩

theorem step_reflects (s : NetSystem) (w : Written) (a : NetAction) (h : Reflects s.state w) :
    Reflects (machine.step s a).1.state (readyWritten s w a) := by
  cases a with
  | mmioRead offset =>
      simp only [machine, readyWritten]
      split
      · exact h
      · split
        · exact h
        · exact h
  | mmioWrite offset val =>
      simp only [machine, readyWritten]
      by_cases hlock : s.pc = .tx true
      · rw [if_pos hlock, if_pos hlock]
        exact h
      · obtain ⟨state, hwrite, hstate⟩ := h.mmioWrite offset val
        rw [if_neg hlock, if_neg hlock, hwrite]
        exact hstate
  | store addr data => exact h
  | dataplane packet =>
      simp only [machine, readyWritten, NetSystem.dataplaneStep]
      cases s.pc with
      | tx locked => exact h.txStep
      | rx => exact h.rxStep packet
      | inject => exact h
      | sleep => exact h
      | halted why => exact h

theorem run_reflects (mac : Fin 6 → UInt8) (mem : GuestMemory) (as : List NetAction) :
    Reflects (machine.run (.new mac mem) as).1.state
      (machine.track readyWritten (.new mac mem) .none as) :=
  machine.run_tracked (R := fun s w => Reflects s.state w) (fun s w a h _ => step_reflects s w a h)
    ⟨rfl, fun _ => rfl⟩ (machine.allSteps_of (fun _ _ => trivial) _ as)

/-! ### Steps that leave a queue alone -/

theorem mmioWrite_indices {s s' : NetState} {offset : UInt64} {val : UInt32}
    (h : s.mmioWrite offset val = .ok s') (i : Fin 2) :
    (s'.queues i).lastAvailIdx = (s.queues i).lastAvailIdx ∧
      (s'.queues i).usedIdx = (s.queues i).usedIdx := by
  have honQueue : ∀ f : Virtqueue → Virtqueue,
      (∀ q, (f q).lastAvailIdx = q.lastAvailIdx ∧ (f q).usedIdx = q.usedIdx) →
      s.onQueue f = .ok s' →
      (s'.queues i).lastAvailIdx = (s.queues i).lastAvailIdx ∧
        (s'.queues i).usedIdx = (s.queues i).usedIdx := by
    intro f hf h
    cases hsel : queueIndex s.queueSel with
    | error why => simp [NetState.onQueue, hsel, bind, Except.bind] at h
    | ok j =>
        rw [onQueue_of_sel hsel] at h
        cases h
        by_cases hi : i = j
        · subst hi
          simpa using hf (s.queues i)
        · simp [Function.update_of_ne hi]
  unfold NetState.mmioWrite at h
  split at h
  case h_2 =>
      split at h
      · cases h
        exact ⟨rfl, rfl⟩
      · cases h
        exact ⟨rfl, rfl⟩
  all_goals first
    | (refine honQueue _ ?_ h; exact fun _ => ⟨rfl, rfl⟩)
    | (cases h; exact ⟨rfl, rfl⟩)

theorem tx_unpolled {s : NetSystem} (h : (s.state.queues 1).pollsRing = false) :
    s.txStep = ({ s with pc := .rx }, []) := by
  unfold NetSystem.txStep
  rw [Virtqueue.nextAvail_of_not_pollsRing h]

theorem rx_unpolled {s : NetSystem} (packet : List UInt8)
    (h : (recv packet).isSome = true → (s.state.queues 0).pollsRing = false) :
    s.rxStep packet = ({ s with pc := .sleep }, [.idle]) := by
  unfold NetSystem.rxStep
  cases hp : recv packet with
  | none => rfl
  | some frame =>
      dsimp only
      rw [Virtqueue.nextAvail_of_not_pollsRing (h (by simp [hp]))]

theorem tx_idle_rx (s : NetSystem) :
    IdleOn 0 (s.state.queues 0) (s.txStep.1.state.queues 0) s.txStep.2 := by
  have hother : ∀ q, (s.withQueue 1 q).state.queues 0 = s.state.queues 0 := by
    intro q
    exact Function.update_of_ne (show (0 : Fin 2) ≠ 1 by decide) q s.state.queues
  rcases s.txStep_cases with
    ⟨why, hs⟩ | hs | ⟨head, q, -, ⟨why, buf, hs⟩ | ⟨chain, buf, added, q', mem, -, -, -, hs⟩⟩
  · rw [hs]
    exact ⟨rfl, rfl, by simp, by simp⟩
  · rw [hs]
    exact ⟨rfl, rfl, by simp, by simp⟩
  · rw [hs]
    exact ⟨by rw [hother], by rw [hother], by simp [NetSystem.take_not_mem_sent],
      by simp [NetSystem.used_not_mem_sent]⟩
  · rw [hs]
    exact ⟨by rw [hother], by rw [hother], by simp [NetSystem.take_not_mem_sent],
      by simp [NetSystem.used_not_mem_sent]⟩

theorem rx_idle_tx (s : NetSystem) (packet : List UInt8) :
    IdleOn 1 (s.state.queues 1) ((s.rxStep packet).1.state.queues 1) (s.rxStep packet).2 := by
  have hother : ∀ q, (s.withQueue 0 q).state.queues 1 = s.state.queues 1 := by
    intro q
    exact Function.update_of_ne (show (1 : Fin 2) ≠ 0 by decide) q s.state.queues
  rcases s.rxStep_cases packet with
    ⟨why, hs⟩ | hs | ⟨frame, head, q, -, -,
      ⟨why, mem, hs⟩ | ⟨chain, written, mem, -, -, ⟨-, hs⟩ | ⟨-, added, q', mem', -, hs⟩⟩⟩
  · rw [hs]
    exact ⟨rfl, rfl, by simp, by simp⟩
  · rw [hs]
    exact ⟨rfl, rfl, by simp, by simp⟩
  · rw [hs]
    exact ⟨by rw [hother], by rw [hother], by simp, by simp⟩
  · rw [hs]
    exact ⟨by rw [hother], by rw [hother], by simp, by simp⟩
  · rw [hs]
    exact ⟨by rw [hother], by rw [hother], by simp, by simp⟩

theorem leavesAlone_iff (s : NetSystem) (i : Fin 2) (a : NetAction) :
    LeavesAlone s i a ↔ touches s i a = false := by
  refine ⟨LeavesAlone.touches, fun h => ⟨h, ?_⟩⟩
  cases a with
  | mmioRead offset =>
      simp only [machine]
      split
      · exact ⟨rfl, rfl, by simp, by simp⟩
      · split
        · exact ⟨rfl, rfl, by simp, by simp⟩
        · exact ⟨rfl, rfl, by simp, by simp⟩
  | mmioWrite offset val =>
      simp only [machine]
      split
      · exact ⟨rfl, rfl, by simp, by simp⟩
      · split
        · rename_i state hwrite
          obtain ⟨hlast, hused⟩ := mmioWrite_indices hwrite i
          exact ⟨hlast, hused, by simp, by simp⟩
        · exact ⟨rfl, rfl, by simp, by simp⟩
  | store addr data => exact ⟨rfl, rfl, by simp [machine], by simp [machine]⟩
  | dataplane packet =>
      simp only [machine, NetSystem.dataplaneStep]
      cases hpc : s.pc with
      | tx locked =>
          dsimp only
          rcases Fin.exists_fin_two.mp ⟨i, rfl⟩ with rfl | rfl
          · exact tx_idle_rx s
          · have hpoll : (s.state.queues 1).pollsRing = false := by
              simpa [touches, polls, hpc] using h
            rw [tx_unpolled hpoll]
            exact ⟨rfl, rfl, by simp, by simp⟩
      | rx =>
          dsimp only
          rcases Fin.exists_fin_two.mp ⟨i, rfl⟩ with rfl | rfl
          · have hpoll : (recv packet).isSome = true → (s.state.queues 0).pollsRing = false := by
              intro hp
              simpa [touches, polls, hpc, hp] using h
            rw [rx_unpolled packet hpoll]
            exact ⟨rfl, rfl, by simp, by simp⟩
          · exact rx_idle_tx s packet
      | inject => exact ⟨rfl, rfl, by simp, by simp⟩
      | sleep => exact ⟨rfl, rfl, by simp, by simp⟩
      | halted why => exact ⟨rfl, rfl, by simp, by simp⟩

theorem gated_iff (mac : Fin 6 → UInt8) (mem : GuestMemory) (as : List NetAction) :
    Gated (.new mac mem) as ↔
      machine.AllSteps (fun s a => readyAtPoll s a = true) (.new mac mem) as := by
  rw [Machine.allSteps_iff_split, Gated]
  refine forall_congr' fun pre => forall_congr' fun a => forall_congr' fun post =>
    imp_congr_right fun _ => ?_
  have hready := (run_reflects mac mem pre).ready
  simp only [← hready, leavesAlone_iff, touches, readyAtPoll]
  cases polls (machine.run (.new mac mem) pre).1 a with
  | none => simp
  | some i =>
      constructor
      · intro h
        cases hr : ((machine.run (.new mac mem) pre).1.state.queues i).ready with
        | false => simpa [hr] using h i hr
        | true => simp [hr]
      · intro h j hj
        by_cases hij : i = j
        · subst hij
          simpa [hj] using h
        · simp [hij]

end Net

/-- For every run of either device: the dataplane keeps away from the rings of
each queue that is not ready exactly when the block device completes its chains
while the queue is ready, and the network device polls ready queues only. -/
theorem ready_gating (image : Blk.Image) (readOnly : Bool) (mac : Fin 6 → UInt8)
    (mem : GuestMemory) (blk : List Blk.BlkAction) (net : List Net.NetAction) :
    (Blk.Gated (.new image readOnly mem) blk ↔
        Blk.machine.AllSteps (fun s a => Blk.readyAtCompletion s a = true)
          (.new image readOnly mem) blk) ∧
      (Net.Gated (.new mac mem) net ↔
        Net.machine.AllSteps (fun s a => Net.readyAtPoll s a = true) (.new mac mem) net) :=
  ⟨Blk.gated_iff image readOnly mem blk, Net.gated_iff mac mem net⟩

/-- The driver takes the block queue down while a chain is being served, and the
used ring is written; it programs the available ring of net RX and has not made
the queue ready, and a head is taken. -/
theorem rings_used_while_not_ready :
    ¬ Blk.Gated (.new [] false .twoMib)
        (Blk.flushRun.take 11 ++ [.mmioWrite Reg.queueReady.offset 0, .dataplane none]) ∧
      ¬ Net.Gated (.new (fun _ => 0) .twoMib)
        [.mmioWrite Reg.queueAvailLo.offset 0x1000, .store 0x1002 [1, 0], .dataplane [],
          .dataplane [1]] := by
  constructor
  · intro h
    have hlast := (h (Blk.flushRun.take 11 ++ [.mmioWrite Reg.queueReady.offset 0]) _ []
      (List.append_assoc _ [_] [_]).symm (by decide)).idle.used 0 0
    exact hlast (by decide +kernel)
  · intro h
    have hlast := (h [.mmioWrite Reg.queueAvailLo.offset 0x1000, .store 0x1002 [1, 0],
      .dataplane []] _ [] rfl 0 (by decide)).idle.take 0
    exact hlast (by decide +kernel)

end Caiman.Vmm
