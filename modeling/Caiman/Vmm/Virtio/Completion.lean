import Caiman.Vmm.Virtio.Net

/-!
# Completion of every head taken

A monitor reads the event trace of a device and pairs each head a dataplane
takes with the `add_used` that hands it back. It is related to the program
counter of the dataplane, one step at a time, and the run rule of the machine
library carries the relation along every interleaving with the vCPUs.
-/

namespace Caiman.Vmm

open Lib

/-! ## Monitor -/

abbrev Pending := Nat → Option UInt16

/-- A head may be taken only when the queue has none outstanding, handed back
only while it is the outstanding one, and none may be outstanding when the
dataplane goes idle. An `add_used` that returns `false` hands nothing back. -/
def pairing (pending : Pending) : Event → Option Pending
  | .take queue head =>
      if pending queue = none then some (Function.update pending queue (some head)) else none
  | .used queue head _ true =>
      if pending queue = some head then some (Function.update pending queue none) else none
  | .idle => if pending 0 = none ∧ pending 1 = none then some pending else none
  | _ => some pending

/-- Every head of the trace is handed back exactly once, on its queue, before
the next head of that queue is taken and before the dataplane goes idle. -/
def Conserves (trace : List Event) : Prop := (feed pairing (fun _ => none) trace).isSome

instance (trace : List Event) : Decidable (Conserves trace) :=
  inferInstanceAs (Decidable (_ = true))

/-! ## Block device -/

namespace Blk

/-- The step hands its head back: a request whose header can be read or a chain
too short to be a request, with a used ring to put it in. -/
def handsBack (s : BlkSystem) : BlkAction → Bool
  | .dataplane _ =>
      match s.pc with
      | .serve _ (hdrDesc :: _ :: _) =>
          match s.mem.readSlice hdrDesc.addr 16 with
          | .ok none => false
          | _ => true
      | .serve _ _ => s.state.queue.usedRing != 0
      | .complete _ _ => s.state.queue.usedRing != 0
      | _ => true
  | _ => true

def Paired (s : BlkSystem) (pending : Pending) : Prop :=
  match s.pc with
  | .serve head _ => pending = Function.update (fun _ => none) 0 (some head)
  | .complete head _ => pending = Function.update (fun _ => none) 0 (some head)
  | .halted _ => True
  | _ => pending = fun _ => none

theorem feed_take (head : UInt16) :
    feed pairing (fun _ => none) [.take 0 head] =
      some (Function.update (fun _ => none) 0 (some head)) := by
  simp [feed, pairing]

theorem feed_used (head : UInt16) (len : UInt32) :
    feed pairing (Function.update (fun _ => none) 0 (some head)) [.used 0 head len true] =
      some fun _ => none := by
  simp [feed, pairing]

theorem poll_paired (s : BlkSystem) :
    ∃ pending', feed pairing (fun _ => none) s.pollStep.2 = some pending' ∧
      Paired s.pollStep.1 pending' := by
  rcases s.pollStep_cases with ⟨why, h⟩ | ⟨-, h⟩ | ⟨head, q, -, -, -, ⟨why, h⟩ | ⟨chain, -, h⟩⟩
  · rw [h]
    exact ⟨_, rfl, trivial⟩
  · rw [h]
    exact ⟨_, by simp [feed, pairing], rfl⟩
  · rw [h]
    exact ⟨_, feed_take head, trivial⟩
  · rw [h]
    exact ⟨_, feed_take head, rfl⟩

theorem serve_paired {s : BlkSystem} {io : Transfer} {head : UInt16} {chain : List Descriptor}
    (hpc : s.pc = .serve head chain) (hback : handsBack s (.dataplane io)) :
    ∃ pending',
      feed pairing (Function.update (fun _ => none) 0 (some head)) (s.serveStep io head chain).2 =
        some pending' ∧ Paired (s.serveStep io head chain).1 pending' := by
  rcases s.serveStep_cases io head chain with ⟨why, h⟩ | ⟨added, q, mem, hshort, hadd, h⟩ |
    ⟨hdrDesc, dataDesc, rest, rfl, ⟨hnone, -⟩ | ⟨c, -, h⟩⟩
  · rw [h]
    exact ⟨_, rfl, trivial⟩
  · have hring : s.state.queue.usedRing ≠ 0 := by
      match chain, hshort with
      | [], _ => simpa [handsBack, hpc] using hback
      | [_], _ => simpa [handsBack, hpc] using hback
    rw [h, (Virtqueue.addUsed_added hadd).mpr hring]
    exact ⟨_, feed_used head 0, rfl⟩
  · simp [handsBack, hpc, hnone] at hback
  · rw [h]
    exact ⟨_, rfl, rfl⟩

theorem complete_paired {s : BlkSystem} {head : UInt16} {usedLen : UInt32}
    (hring : s.state.queue.usedRing ≠ 0) :
    ∃ pending',
      feed pairing (Function.update (fun _ => none) 0 (some head))
        (s.completeStep head usedLen).2 = some pending' ∧
        Paired (s.completeStep head usedLen).1 pending' := by
  rcases s.completeStep_cases head usedLen with ⟨why, h⟩ | ⟨added, q, mem, hadd, h⟩
  · rw [h]
    exact ⟨_, rfl, trivial⟩
  · rw [h, (Virtqueue.addUsed_added hadd).mpr hring]
    exact ⟨fun _ => none, by simp [feed, pairing], rfl⟩

theorem step_paired (s : BlkSystem) (a : BlkAction) (pending : Pending) (hR : Paired s pending)
    (hback : handsBack s a) :
    ∃ pending', feed pairing pending (machine.step s a).2 = some pending' ∧
      Paired (machine.step s a).1 pending' := by
  cases a with
  | mmioRead offset => exact ⟨pending, rfl, hR⟩
  | mmioWrite offset val => exact ⟨pending, rfl, hR⟩
  | store addr data => exact ⟨pending, rfl, hR⟩
  | dataplane io =>
      simp only [machine, BlkSystem.dataplaneStep]
      cases hpc : s.pc with
      | wait =>
          have hnone : pending = fun _ => none := by simpa only [Paired, hpc] using hR
          by_cases hk : s.kick = 0
          · rw [if_pos hk]
            exact ⟨pending, rfl, hR⟩
          · rw [if_neg hk]
            exact ⟨pending, rfl, hnone⟩
      | poll =>
          have hnone : pending = fun _ => none := by simpa only [Paired, hpc] using hR
          rw [hnone]
          exact poll_paired s
      | serve head chain =>
          have hsome : pending = Function.update (fun _ => none) 0 (some head) := by
            simpa only [Paired, hpc] using hR
          rw [hsome]
          exact serve_paired hpc hback
      | complete head usedLen =>
          have hsome : pending = Function.update (fun _ => none) 0 (some head) := by
            simpa only [Paired, hpc] using hR
          rw [hsome]
          exact complete_paired (by simpa [handsBack, hpc] using hback)
      | inject =>
          have hnone : pending = fun _ => none := by simpa only [Paired, hpc] using hR
          exact ⟨pending, rfl, hnone⟩
      | halted why => exact ⟨pending, rfl, hR⟩

theorem run_conserves (image : Image) (readOnly : Bool) (mem : GuestMemory) (as : List BlkAction)
    (hall : machine.AllSteps (handsBack · ·) (.new image readOnly mem) as) :
    Conserves (machine.run (.new image readOnly mem) as).2 := by
  have hs : Paired (.new image readOnly mem) (fun _ => none) := rfl
  obtain ⟨pending, hfeed, -⟩ := machine.run_monitored step_paired hs hall
  simp [Conserves, hfeed]

end Blk

/-! ## Network device -/

namespace Net

/-- The step hands its head back. For TX that is a matter of the used ring
alone; an RX chain also needs room for the header in its first device-writable
descriptor. -/
def handsBack (s : NetSystem) : NetAction → Bool
  | .dataplane packet =>
      match s.pc with
      | .tx _ =>
          match (s.state.queues 1).nextAvail s.mem with
          | .ok (some _, q) => q.usedRing != 0
          | _ => true
      | .rx =>
          match recv packet, (s.state.queues 0).nextAvail s.mem with
          | some _, .ok (some head, q) =>
              match q.readChain s.mem head with
              | .ok chain => deliverable chain && q.usedRing != 0
              | _ => true
          | _, _ => true
      | _ => true
  | _ => true

def Paired (s : NetSystem) (pending : Pending) : Prop :=
  match s.pc with
  | .halted _ => True
  | _ => pending = fun _ => none

theorem feed_sent (pending : Pending) (buf : List UInt8) :
    feed pairing pending (NetSystem.sent buf) = some pending := by
  unfold NetSystem.sent
  split <;> rfl

theorem tx_paired {s : NetSystem}
    (hback : ∀ head q, (s.state.queues 1).nextAvail s.mem = .ok (some head, q) →
      q.usedRing ≠ 0) :
    ∃ pending', feed pairing (fun _ => none) s.txStep.2 = some pending' ∧
      Paired s.txStep.1 pending' := by
  rcases s.txStep_cases with ⟨why, h⟩ | h |
    ⟨head, q, hnext, ⟨why, buf, h⟩ | ⟨chain, buf, added, q', mem, -, -, hadd, h⟩⟩
  · rw [h]
    exact ⟨_, rfl, trivial⟩
  · rw [h]
    exact ⟨_, rfl, rfl⟩
  · rw [h]
    refine ⟨Function.update (fun _ => none) 1 (some head), ?_, trivial⟩
    simp [feed, pairing, feed_sent]
  · rw [h, (Virtqueue.addUsed_added hadd).mpr (hback head q hnext)]
    refine ⟨fun _ => none, ?_, rfl⟩
    simp [feed, pairing, feed_append, feed_sent]

theorem rx_paired {s : NetSystem} {packet : List UInt8}
    (hback : ∀ head q chain, recv packet ≠ none →
      (s.state.queues 0).nextAvail s.mem = .ok (some head, q) →
      q.readChain s.mem head = .ok chain → deliverable chain = true ∧ q.usedRing ≠ 0) :
    ∃ pending', feed pairing (fun _ => none) (s.rxStep packet).2 = some pending' ∧
      Paired (s.rxStep packet).1 pending' := by
  rcases s.rxStep_cases packet with ⟨why, h⟩ | h |
    ⟨frame, head, q, hrecv, hnext, ⟨why, mem, h⟩ | ⟨chain, written, mem, hchain, hscat, hres⟩⟩
  · rw [h]
    exact ⟨_, rfl, trivial⟩
  · rw [h]
    exact ⟨_, by simp [feed, pairing], rfl⟩
  · rw [h]
    exact ⟨_, Blk.feed_take head, trivial⟩
  · obtain ⟨hroom, hring⟩ := hback head q chain (by simp [hrecv]) hnext hchain
    rcases hres with ⟨hzero, -⟩ | ⟨-, added, q', mem', hadd, h⟩
    · exact absurd ((scatter_written hscat).mpr hroom) hzero
    · rw [h, (Virtqueue.addUsed_added hadd).mpr hring]
      exact ⟨fun _ => none, by simp [feed, pairing], rfl⟩

theorem step_paired (s : NetSystem) (a : NetAction) (pending : Pending) (hR : Paired s pending)
    (hback : handsBack s a) :
    ∃ pending', feed pairing pending (machine.step s a).2 = some pending' ∧
      Paired (machine.step s a).1 pending' := by
  cases a with
  | mmioRead offset =>
      simp only [machine]
      split
      · exact ⟨pending, rfl, hR⟩
      · split
        · exact ⟨pending, rfl, hR⟩
        · exact ⟨pending, rfl, trivial⟩
  | mmioWrite offset val =>
      simp only [machine]
      split
      · exact ⟨pending, rfl, hR⟩
      · split
        · exact ⟨pending, rfl, hR⟩
        · exact ⟨pending, rfl, trivial⟩
  | store addr data => exact ⟨pending, rfl, hR⟩
  | dataplane packet =>
      simp only [machine, NetSystem.dataplaneStep]
      cases hpc : s.pc with
      | tx locked =>
          have hnone : pending = fun _ => none := by simpa only [Paired, hpc] using hR
          rw [hnone]
          refine tx_paired fun head q hnext => ?_
          simpa [handsBack, hpc, hnext] using hback
      | rx =>
          have hnone : pending = fun _ => none := by simpa only [Paired, hpc] using hR
          rw [hnone]
          refine rx_paired fun head q chain hrecv hnext hchain => ?_
          obtain ⟨frame, hframe⟩ := Option.ne_none_iff_exists'.mp hrecv
          simpa [handsBack, hpc, hframe, hnext, hchain] using hback
      | inject =>
          have hnone : pending = fun _ => none := by simpa only [Paired, hpc] using hR
          rw [hnone]
          exact ⟨fun _ => none, by simp [feed, pairing], rfl⟩
      | sleep =>
          have hnone : pending = fun _ => none := by simpa only [Paired, hpc] using hR
          exact ⟨pending, rfl, hnone⟩
      | halted why => exact ⟨pending, rfl, hR⟩

theorem run_conserves (mac : Fin 6 → UInt8) (mem : GuestMemory) (as : List NetAction)
    (hall : machine.AllSteps (handsBack · ·) (.new mac mem) as) :
    Conserves (machine.run (.new mac mem) as).2 := by
  have hs : Paired (.new mac mem) (fun _ => none) := rfl
  obtain ⟨pending, hfeed, -⟩ := machine.run_monitored step_paired hs hall
  simp [Conserves, hfeed]

end Net

/-- On both devices, in every run whose steps all hand their head back, each head
taken is handed back once and in time. -/
theorem completion_conservation (mem : GuestMemory) :
    (∀ (image : Blk.Image) (readOnly : Bool) (as : List Blk.BlkAction),
      Blk.machine.AllSteps (Blk.handsBack · ·) (.new image readOnly mem) as →
        Conserves (Blk.machine.run (.new image readOnly mem) as).2) ∧
    (∀ (mac : Fin 6 → UInt8) (as : List Net.NetAction),
      Net.machine.AllSteps (Net.handsBack · ·) (.new mac mem) as →
        Conserves (Net.machine.run (.new mac mem) as).2) :=
  ⟨fun image readOnly => Blk.run_conserves image readOnly mem,
    fun mac => Net.run_conserves mac mem⟩

theorem completion_conservation_flush :
    (Event.used 0 0 0 true ∈
        (Blk.machine.run (.new [] false .twoMib) Blk.flushRun).2 ∧
      Conserves (Blk.machine.run (.new [] false .twoMib) Blk.flushRun).2) ∧
    (Event.used 0 0 15 true ∈
        (Net.machine.run (.new (fun _ => 2) .twoMib) (Net.receiveRun 64)).2 ∧
      Conserves (Net.machine.run (.new (fun _ => 2) .twoMib) (Net.receiveRun 64)).2) :=
  ⟨⟨by decide, (completion_conservation .twoMib).1 _ _ _ (by decide)⟩,
    ⟨by decide, (completion_conservation .twoMib).2 _ _ (by decide)⟩⟩

/-- A request whose header lies in the hole below 1 MiB, and a frame for an RX
buffer of eight bytes, are taken and never handed back. -/
theorem unreadable_header_and_small_buffer_lost :
    ¬ Conserves (Blk.machine.run (.new [] false .twoMib)
        (Blk.requestRun [⟨0xF0000, 16, 1, 1⟩, ⟨0x3000, 1, 2, 0⟩] []
          [none, none, none, none])).2 ∧
      ¬ Conserves (Net.machine.run (.new (fun _ => 2) .twoMib) (Net.receiveRun 8)).2 := by
  decide

end Caiman.Vmm
