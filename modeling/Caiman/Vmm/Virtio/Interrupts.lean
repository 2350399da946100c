import Caiman.Vmm.Virtio.Net

/-!
# Interrupts for every completion

A monitor holds every used index that advances against the interrupt flag and
the interrupt line that announce it, and checks the account whenever the
dataplane goes idle. Neither device reads the driver's suppress-interrupt flag,
so nothing excuses a missing interrupt.
-/

namespace Caiman.Vmm

open Lib

/-! ## Monitor -/

/-- What is still due after the last completion. -/
inductive Due
  | nothing
  | flag
  | line
  deriving DecidableEq, Repr

/-- An index that advances makes the interrupt flag and then the interrupt line
due; going idle with either of them due is a missed interrupt. -/
def announcing : Due → Event → Option Due
  | _, .used _ _ _ true => some .flag
  | .flag, .irqStatus => some .line
  | .line, .irqfd => some .nothing
  | .flag, .idle => none
  | .line, .idle => none
  | due, _ => some due

/-- Whenever the dataplane goes idle, the flag was set and the line raised after
the last used index that advanced. -/
def Announces (trace : List Event) : Prop := (feed announcing .nothing trace).isSome

instance (trace : List Event) : Decidable (Announces trace) :=
  inferInstanceAs (Decidable (_ = true))

/-! ## Block device -/

namespace Blk

/-- The step completes no chain of fewer than two descriptors into a used ring:
that completion has no interrupt code behind it. -/
def audible (s : BlkSystem) : BlkAction → Bool
  | .dataplane _ =>
      match s.pc with
      | .serve _ chain => 2 ≤ chain.length || s.state.queue.usedRing == 0
      | _ => true
  | _ => true

def Settled (s : BlkSystem) (due : Due) : Prop :=
  match s.pc with
  | .inject => due ≠ .flag
  | .halted _ => True
  | _ => due = .nothing

theorem poll_settled (s : BlkSystem) :
    ∃ due', feed announcing .nothing s.pollStep.2 = some due' ∧ Settled s.pollStep.1 due' := by
  rcases s.pollStep_cases with ⟨why, h⟩ | ⟨-, h⟩ | ⟨head, q, -, -, -, ⟨why, h⟩ | ⟨chain, -, h⟩⟩
  · rw [h]
    exact ⟨_, rfl, trivial⟩
  · rw [h]
    exact ⟨_, rfl, rfl⟩
  · rw [h]
    exact ⟨_, rfl, trivial⟩
  · rw [h]
    exact ⟨_, rfl, rfl⟩

theorem serve_settled (s : BlkSystem) (io : Transfer) (head : UInt16) (chain : List Descriptor)
    (hquiet : chain.length < 2 → s.state.queue.usedRing = 0) :
    ∃ due', feed announcing .nothing (s.serveStep io head chain).2 = some due' ∧
      Settled (s.serveStep io head chain).1 due' := by
  rcases s.serveStep_cases io head chain with ⟨why, h⟩ | ⟨added, q, mem, hshort, hadd, h⟩ |
    ⟨hdrDesc, dataDesc, rest, -, ⟨-, h⟩ | ⟨c, -, h⟩⟩
  · rw [h]
    exact ⟨_, rfl, trivial⟩
  · have hfalse : added = false := by
      have := Virtqueue.addUsed_added hadd
      simpa [hquiet hshort] using this
    rw [h, hfalse]
    exact ⟨_, rfl, rfl⟩
  · rw [h]
    exact ⟨_, rfl, rfl⟩
  · rw [h]
    exact ⟨_, rfl, rfl⟩

theorem complete_settled (s : BlkSystem) (head : UInt16) (usedLen : UInt32) :
    ∃ due', feed announcing .nothing (s.completeStep head usedLen).2 = some due' ∧
      Settled (s.completeStep head usedLen).1 due' := by
  rcases s.completeStep_cases head usedLen with ⟨why, h⟩ | ⟨added, q, mem, -, h⟩
  · rw [h]
    exact ⟨_, rfl, trivial⟩
  · rw [h]
    cases added with
    | true => exact ⟨.line, rfl, by simp [Settled]⟩
    | false => exact ⟨.nothing, rfl, by simp [Settled]⟩

theorem step_settled (s : BlkSystem) (a : BlkAction) (due : Due) (hR : Settled s due)
    (hquiet : audible s a) :
    ∃ due', feed announcing due (machine.step s a).2 = some due' ∧
      Settled (machine.step s a).1 due' := by
  cases a with
  | mmioRead offset => exact ⟨due, by cases due <;> rfl, hR⟩
  | mmioWrite offset val => exact ⟨due, rfl, hR⟩
  | store addr data => exact ⟨due, rfl, hR⟩
  | dataplane io =>
      simp only [machine, BlkSystem.dataplaneStep]
      cases hpc : s.pc with
      | wait =>
          have hnone : due = .nothing := by simpa only [Settled, hpc] using hR
          by_cases hk : s.kick = 0
          · rw [if_pos hk]
            exact ⟨due, rfl, hR⟩
          · rw [if_neg hk]
            exact ⟨due, rfl, hnone⟩
      | poll =>
          have hnone : due = .nothing := by simpa only [Settled, hpc] using hR
          rw [hnone]
          exact poll_settled s
      | serve head chain =>
          have hnone : due = .nothing := by simpa only [Settled, hpc] using hR
          rw [hnone]
          have hor : 2 ≤ chain.length ∨ s.state.queue.usedRing = 0 := by
            simpa [audible, hpc] using hquiet
          exact serve_settled s io head chain fun hc => hor.resolve_left (by omega)
      | complete head usedLen =>
          have hnone : due = .nothing := by simpa only [Settled, hpc] using hR
          rw [hnone]
          exact complete_settled s head usedLen
      | inject =>
          have hline : due ≠ .flag := by simpa only [Settled, hpc] using hR
          refine ⟨.nothing, ?_, rfl⟩
          cases due with
          | nothing => rfl
          | flag => exact absurd rfl hline
          | line => rfl
      | halted why => exact ⟨due, rfl, hR⟩

theorem run_announces (image : Image) (readOnly : Bool) (mem : GuestMemory) (as : List BlkAction)
    (hall : machine.AllSteps (audible · ·) (.new image readOnly mem) as) :
    Announces (machine.run (.new image readOnly mem) as).2 := by
  have hs : Settled (.new image readOnly mem) .nothing := rfl
  obtain ⟨due, hfeed, -⟩ := machine.run_monitored step_settled hs hall
  simp [Announces, hfeed]

end Blk

/-! ## Network device -/

namespace Net

/-- The step completes no TX chain into a used ring: the TX drain has no
interrupt code. -/
def audible (s : NetSystem) : NetAction → Bool
  | .dataplane _ =>
      match s.pc with
      | .tx _ =>
          match (s.state.queues 1).nextAvail s.mem with
          | .ok (some _, q) => q.usedRing == 0
          | _ => true
      | _ => true
  | _ => true

def Settled (s : NetSystem) (due : Due) : Prop :=
  match s.pc with
  | .inject => due ≠ .flag
  | .halted _ => True
  | _ => due = .nothing

theorem feed_announcing_sent (due : Due) (buf : List UInt8) :
    feed announcing due (NetSystem.sent buf) = some due := by
  unfold NetSystem.sent
  split
  · cases due <;> rfl
  · rfl

theorem tx_settled {s : NetSystem}
    (hquiet : ∀ head q, (s.state.queues 1).nextAvail s.mem = .ok (some head, q) →
      q.usedRing = 0) :
    ∃ due', feed announcing .nothing s.txStep.2 = some due' ∧ Settled s.txStep.1 due' := by
  rcases s.txStep_cases with ⟨why, h⟩ | h |
    ⟨head, q, hnext, ⟨why, buf, h⟩ | ⟨chain, buf, added, q', mem, -, -, hadd, h⟩⟩
  · rw [h]
    exact ⟨_, rfl, trivial⟩
  · rw [h]
    exact ⟨_, rfl, rfl⟩
  · rw [h]
    exact ⟨.nothing, by simp [feed, announcing, feed_announcing_sent], trivial⟩
  · have hfalse : added = false := by
      have := Virtqueue.addUsed_added hadd
      simpa [hquiet head q hnext] using this
    rw [h, hfalse]
    refine ⟨.nothing, ?_, rfl⟩
    simp [feed, announcing, feed_append, feed_announcing_sent]

theorem rx_settled (s : NetSystem) (packet : List UInt8) :
    ∃ due', feed announcing .nothing (s.rxStep packet).2 = some due' ∧
      Settled (s.rxStep packet).1 due' := by
  rcases s.rxStep_cases packet with ⟨why, h⟩ | h |
    ⟨frame, head, q, -, -, ⟨why, mem, h⟩ |
      ⟨chain, written, mem, -, -, ⟨-, h⟩ | ⟨-, added, q', mem', -, h⟩⟩⟩
  · rw [h]
    exact ⟨_, rfl, trivial⟩
  · rw [h]
    exact ⟨_, rfl, rfl⟩
  · rw [h]
    exact ⟨_, rfl, trivial⟩
  · rw [h]
    exact ⟨_, rfl, rfl⟩
  · rw [h]
    cases added with
    | true => exact ⟨.line, rfl, by simp [Settled]⟩
    | false => exact ⟨.nothing, rfl, by simp [Settled]⟩

theorem step_settled (s : NetSystem) (a : NetAction) (due : Due) (hR : Settled s due)
    (hquiet : audible s a) :
    ∃ due', feed announcing due (machine.step s a).2 = some due' ∧
      Settled (machine.step s a).1 due' := by
  cases a with
  | mmioRead offset =>
      simp only [machine]
      split
      · exact ⟨due, rfl, hR⟩
      · split
        · exact ⟨due, by cases due <;> rfl, hR⟩
        · exact ⟨due, rfl, trivial⟩
  | mmioWrite offset val =>
      simp only [machine]
      split
      · exact ⟨due, rfl, hR⟩
      · split
        · exact ⟨due, rfl, hR⟩
        · exact ⟨due, rfl, trivial⟩
  | store addr data => exact ⟨due, rfl, hR⟩
  | dataplane packet =>
      simp only [machine, NetSystem.dataplaneStep]
      cases hpc : s.pc with
      | tx locked =>
          have hnone : due = .nothing := by simpa only [Settled, hpc] using hR
          rw [hnone]
          refine tx_settled fun head q hnext => ?_
          simpa [audible, hpc, hnext] using hquiet
      | rx =>
          have hnone : due = .nothing := by simpa only [Settled, hpc] using hR
          rw [hnone]
          exact rx_settled s packet
      | inject =>
          have hline : due ≠ .flag := by simpa only [Settled, hpc] using hR
          refine ⟨.nothing, ?_, rfl⟩
          cases due with
          | nothing => rfl
          | flag => exact absurd rfl hline
          | line => rfl
      | sleep =>
          have hnone : due = .nothing := by simpa only [Settled, hpc] using hR
          exact ⟨due, rfl, hnone⟩
      | halted why => exact ⟨due, rfl, hR⟩

theorem run_announces (mac : Fin 6 → UInt8) (mem : GuestMemory) (as : List NetAction)
    (hall : machine.AllSteps (audible · ·) (.new mac mem) as) :
    Announces (machine.run (.new mac mem) as).2 := by
  have hs : Settled (.new mac mem) .nothing := rfl
  obtain ⟨due, hfeed, -⟩ := machine.run_monitored step_settled hs hall
  simp [Announces, hfeed]

end Net

/-- On both devices, in every run that completes no short block chain and no TX
chain into a used ring, the guest is told about every completion before the
dataplane goes idle. -/
theorem interrupt_completeness (mem : GuestMemory) :
    (∀ (image : Blk.Image) (readOnly : Bool) (as : List Blk.BlkAction),
      Blk.machine.AllSteps (Blk.audible · ·) (.new image readOnly mem) as →
        Announces (Blk.machine.run (.new image readOnly mem) as).2) ∧
    (∀ (mac : Fin 6 → UInt8) (as : List Net.NetAction),
      Net.machine.AllSteps (Net.audible · ·) (.new mac mem) as →
        Announces (Net.machine.run (.new mac mem) as).2) :=
  ⟨fun image readOnly => Blk.run_announces image readOnly mem,
    fun mac => Net.run_announces mac mem⟩

theorem interrupt_completeness_flush :
    (Event.used 0 0 0 true ∈
        (Blk.machine.run (.new [] false .twoMib) Blk.flushRun).2 ∧
      Announces (Blk.machine.run (.new [] false .twoMib) Blk.flushRun).2) ∧
    (Event.used 0 0 15 true ∈
        (Net.machine.run (.new (fun _ => 2) .twoMib) (Net.receiveRun 64)).2 ∧
      Announces (Net.machine.run (.new (fun _ => 2) .twoMib) (Net.receiveRun 64)).2) :=
  ⟨⟨by decide, (interrupt_completeness .twoMib).1 _ _ _ (by decide)⟩,
    ⟨by decide, (interrupt_completeness .twoMib).2 _ _ (by decide)⟩⟩

/-- A one-descriptor chain on the block queue, and a frame the guest transmits,
are completed and the dataplanes go idle without an interrupt. -/
theorem short_chain_and_tx_silent :
    ¬ Announces (Blk.machine.run (.new [] false .twoMib)
        (Blk.requestRun [⟨0x3000, 16, 0, 0⟩] [] [none, none, none, none])).2 ∧
      ¬ Announces (Net.machine.run (.new (fun _ => 2) .twoMib) Net.transmitRun).2 := by
  decide

end Caiman.Vmm
