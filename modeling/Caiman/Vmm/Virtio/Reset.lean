import Caiman.Vmm.Virtio.Disk
import Caiman.Vmm.Virtio.Net

/-!
# Writing zero to the status register

Neither device implements the virtio reset: the status register is a plain
cell, and a driver that writes zero to it finds the queues, the ring indices and
the interrupt flag as they were. What the write does do is stated exactly, and a
device whose other registers are still at their initial values is shown to
behave like a new one on every continuation.
-/

namespace Caiman.Vmm

open Lib

namespace Blk

/-- No continuation tells the two systems apart: register reads, dataplane
events, guest memory, image and the dataplane's position are the same. -/
def SameBehaviour (s s' : BlkSystem) : Prop :=
  ∀ as : List BlkAction, (machine.run s' as).2 = (machine.run s as).2 ∧
    (machine.run s' as).1.mem = (machine.run s as).1.mem ∧
    (machine.run s' as).1.image = (machine.run s as).1.image ∧
    (machine.run s' as).1.pc = (machine.run s as).1.pc

/-- The system with the registers and the queue of a new device of the same
capacity. -/
def BlkSystem.fresh (s : BlkSystem) : BlkSystem :=
  { s with state := BlkState.new s.state.sectorCount s.state.readOnly }

def statusZero : BlkAction := .mmioWrite Reg.status.offset 0

/-- Writing zero to the status register makes the device a new one. -/
def Resets (s : BlkSystem) : Prop := SameBehaviour s.fresh (machine.step s statusZero).1

theorem statusZero_eq (s : BlkSystem) :
    machine.step s statusZero = ({ s with state := { s.state with status := 0 } }, []) := by
  simp [machine, statusZero, BlkState.mmioWrite]

/-- The queue selector is stored and never looked at: there is only one queue. -/
def BlkSystem.withSel (s : BlkSystem) (sel : UInt32) : BlkSystem :=
  { s with state := { s.state with queueSel := sel } }

theorem pollStep_withSel (s : BlkSystem) (sel : UInt32) :
    (s.withSel sel).pollStep = (s.pollStep.1.withSel sel, s.pollStep.2) := by
  have hqueue : (s.withSel sel).state.queue = s.state.queue := rfl
  have hmem : (s.withSel sel).mem = s.mem := rfl
  unfold BlkSystem.pollStep
  rw [hqueue, hmem]
  by_cases hidle : (!s.state.queue.ready || decide (s.state.queue.availRing = 0)) = true
  · rw [if_pos hidle, if_pos hidle]
    rfl
  · rw [if_neg hidle, if_neg hidle]
    cases s.state.queue.nextAvail s.mem with
    | error why => rfl
    | ok pair =>
        rcases pair with ⟨_ | head, q⟩
        · rfl
        · dsimp only
          cases q.readChain s.mem head <;> rfl

theorem serveStep_withSel (s : BlkSystem) (sel : UInt32) (io : Transfer) (head : UInt16)
    (chain : List Descriptor) :
    (s.withSel sel).serveStep io head chain =
      ((s.serveStep io head chain).1.withSel sel, (s.serveStep io head chain).2) := by
  by_cases hc : chain.length < 2
  · rw [BlkSystem.serveStep_short _ io head hc, BlkSystem.serveStep_short _ io head hc]
    simp only [BlkSystem.withSel]
    cases s.state.queue.addUsed s.mem head 0 <;> rfl
  · match chain, hc with
    | hdrDesc :: dataDesc :: rest, _ =>
        simp only [BlkSystem.serveStep, BlkSystem.withSel]
        cases serve s.readOnly io s.mem s.image hdrDesc dataDesc
            (BlkSystem.statusDesc dataDesc rest) with
        | error why => rfl
        | ok result => cases result <;> rfl
    | [], hc => exact absurd (by simp) hc
    | [_], hc => exact absurd (by simp) hc

theorem completeStep_withSel (s : BlkSystem) (sel : UInt32) (head : UInt16) (usedLen : UInt32) :
    (s.withSel sel).completeStep head usedLen =
      ((s.completeStep head usedLen).1.withSel sel, (s.completeStep head usedLen).2) := by
  simp only [BlkSystem.completeStep, BlkSystem.withSel]
  cases s.state.queue.addUsed s.mem head usedLen <;> rfl

theorem dataplaneStep_withSel (s : BlkSystem) (sel : UInt32) (io : Transfer) :
    (s.withSel sel).dataplaneStep io =
      ((s.dataplaneStep io).1.withSel sel, (s.dataplaneStep io).2) := by
  have hpc' : (s.withSel sel).pc = s.pc := rfl
  unfold BlkSystem.dataplaneStep
  rw [hpc']
  cases s.pc with
  | wait =>
      have hkick' : (s.withSel sel).kick = s.kick := rfl
      dsimp only
      rw [hkick']
      by_cases hkick : s.kick = 0
      · rw [if_pos hkick, if_pos hkick]
      · rw [if_neg hkick, if_neg hkick]
        rfl
  | poll => exact pollStep_withSel s sel
  | serve head chain => exact serveStep_withSel s sel io head chain
  | complete head usedLen => exact completeStep_withSel s sel head usedLen
  | inject => rfl
  | halted why => rfl

theorem step_withSel (s : BlkSystem) (sel : UInt32) (a : BlkAction) :
    (machine.step (s.withSel sel) a).2 = (machine.step s a).2 ∧
      ∃ sel', (machine.step (s.withSel sel) a).1 = (machine.step s a).1.withSel sel' := by
  cases a with
  | mmioRead offset => exact ⟨rfl, sel, rfl⟩
  | mmioWrite offset val =>
      refine ⟨rfl, ?_⟩
      simp only [machine, BlkState.mmioWrite, BlkSystem.withSel]
      split
      case h_2 => exact ⟨val, rfl⟩
      all_goals exact ⟨sel, rfl⟩
  | store addr data => exact ⟨rfl, sel, rfl⟩
  | dataplane io =>
      simp only [machine, dataplaneStep_withSel, true_and]
      exact ⟨sel, rfl⟩

theorem withSel_sameBehaviour (s : BlkSystem) (sel : UInt32) :
    SameBehaviour s (s.withSel sel) := by
  intro as
  have hstep : ∀ (t t' : BlkSystem) (a : BlkAction), (∃ sel, t' = t.withSel sel) →
      (machine.step t' a).2 = (machine.step t a).2 ∧
        ∃ sel, (machine.step t' a).1 = (machine.step t a).1.withSel sel := by
    rintro t t' a ⟨sel, rfl⟩
    exact step_withSel t sel a
  obtain ⟨htrace, sel', hlast⟩ := machine.run_simulation hstep ⟨sel, rfl⟩ as
  rw [hlast]
  exact ⟨htrace, rfl, rfl, rfl⟩

theorem resets_of_untouched {s : BlkSystem} (hsel : s.state.featuresSel = 0)
    (hirq : s.state.irqStatus = 0) (hqueue : s.state.queue = Virtqueue.new 128) : Resets s := by
  have hstate : (machine.step s statusZero).1 = s.fresh.withSel s.state.queueSel := by
    simp only [statusZero_eq, BlkSystem.withSel, BlkSystem.fresh, BlkState.new, hsel, hirq, hqueue]
  rw [Resets, hstate]
  exact withSel_sameBehaviour _ _

theorem fresh_state (image : Image) (readOnly : Bool) (mem : GuestMemory)
    (history : List BlkAction) :
    (machine.run (.new image readOnly mem) history).1.fresh.state =
      (BlkSystem.new image readOnly mem).state := by
  have hkeep := machine.run_inductive
    (I := fun s => s.state.sectorCount = UInt64.ofNat image.length / sectorSize ∧
      s.state.readOnly = readOnly)
    (fun s a hs => ⟨(machine_opened s a).1.trans hs.1, (machine_opened s a).2.trans hs.2⟩)
    (s := .new image readOnly mem) ⟨rfl, rfl⟩ history
  rw [BlkSystem.fresh, hkeep.1, hkeep.2]
  rfl

end Blk

namespace Net

def SameBehaviour (s s' : NetSystem) : Prop :=
  ∀ as : List NetAction, (machine.run s' as).2 = (machine.run s as).2 ∧
    (machine.run s' as).1.mem = (machine.run s as).1.mem ∧
    (machine.run s' as).1.pc = (machine.run s as).1.pc

def NetSystem.fresh (s : NetSystem) : NetSystem := { s with state := NetState.new s.state.mac }

def statusZero : NetAction := .mmioWrite Reg.status.offset 0

def Resets (s : NetSystem) : Prop := SameBehaviour s.fresh (machine.step s statusZero).1

theorem statusZero_eq {s : NetSystem} (hlock : s.pc ≠ .tx true) :
    machine.step s statusZero = ({ s with state := { s.state with status := 0 } }, []) := by
  simp only [machine, statusZero, NetState.mmioWrite, Reg.decode_offset, if_neg hlock]

/-- The accepted driver features are stored and never looked at. -/
def NetSystem.withFeatures (s : NetSystem) (features : UInt64) : NetSystem :=
  { s with state := { s.state with driverFeatures := features } }

theorem mmioWrite_withFeatures (s : NetState) (features : UInt64) (offset : UInt64)
    (val : UInt32) :
    ∃ features', { s with driverFeatures := features }.mmioWrite offset val =
      (s.mmioWrite offset val).map fun t => { t with driverFeatures := features' } := by
  have honQueue : ∀ f, { s with driverFeatures := features }.onQueue f =
      (s.onQueue f).map fun t => { t with driverFeatures := features } := by
    intro f
    simp only [NetState.onQueue, bind, Except.bind, pure, Except.pure]
    cases queueIndex s.queueSel <;> rfl
  unfold NetState.mmioWrite
  split
  case h_2 =>
    refine ⟨if features = 0 then val.toUInt64 else features ||| (val.toUInt64 <<< 32), ?_⟩
    by_cases hf : features = 0
    · by_cases hs : s.driverFeatures = 0 <;> simp [hf, hs, Except.map]
    · by_cases hs : s.driverFeatures = 0 <;> simp [hf, hs, Except.map]
  all_goals first
    | exact ⟨features, rfl⟩
    | exact ⟨features, honQueue _⟩

theorem txStep_withFeatures (s : NetSystem) (features : UInt64) :
    (s.withFeatures features).txStep = (s.txStep.1.withFeatures features, s.txStep.2) := by
  have hqueues : (s.withFeatures features).state.queues = s.state.queues := rfl
  have hmem : (s.withFeatures features).mem = s.mem := rfl
  unfold NetSystem.txStep
  rw [hqueues, hmem]
  cases (s.state.queues 1).nextAvail s.mem with
  | error why => rfl
  | ok pair =>
      rcases pair with ⟨_ | head, q⟩
      · rfl
      · dsimp only
        cases q.readChain s.mem head with
        | error why => rfl
        | ok chain =>
            dsimp only
            cases gather s.mem chain [] with
            | error why => rfl
            | ok buf =>
                dsimp only
                cases q.addUsed s.mem head (UInt32.ofNat buf.length) <;> rfl

theorem rxStep_withFeatures (s : NetSystem) (features : UInt64) (packet : List UInt8) :
    (s.withFeatures features).rxStep packet =
      ((s.rxStep packet).1.withFeatures features, (s.rxStep packet).2) := by
  have hqueues : (s.withFeatures features).state.queues = s.state.queues := rfl
  have hmem : (s.withFeatures features).mem = s.mem := rfl
  unfold NetSystem.rxStep
  rw [hqueues, hmem]
  cases recv packet with
  | none => rfl
  | some frame =>
      dsimp only
      cases (s.state.queues 0).nextAvail s.mem with
      | error why => rfl
      | ok pair =>
          rcases pair with ⟨_ | head, q⟩
          · rfl
          · dsimp only
            cases q.readChain s.mem head with
            | error why => rfl
            | ok chain =>
                dsimp only
                cases scatter s.mem frame chain with
                | error why => rfl
                | ok result =>
                    rcases result with ⟨written, mem⟩
                    dsimp only
                    by_cases hw : 0 < written
                    · rw [if_pos hw, if_pos hw]
                      cases q.addUsed mem head written <;> rfl
                    · rw [if_neg hw, if_neg hw]
                      rfl

theorem step_withFeatures (s : NetSystem) (features : UInt64) (a : NetAction) :
    (machine.step (s.withFeatures features) a).2 = (machine.step s a).2 ∧
      ∃ features', (machine.step (s.withFeatures features) a).1 =
        (machine.step s a).1.withFeatures features' := by
  have hpc : (s.withFeatures features).pc = s.pc := rfl
  cases a with
  | mmioRead offset =>
      have hread : (s.withFeatures features).state.mmioRead offset = s.state.mmioRead offset := rfl
      simp only [machine, hpc, hread]
      by_cases hlock : s.pc = .tx true
      · rw [if_pos hlock, if_pos hlock]
        exact ⟨rfl, features, rfl⟩
      · rw [if_neg hlock, if_neg hlock]
        cases s.state.mmioRead offset <;> exact ⟨rfl, features, rfl⟩
  | mmioWrite offset val =>
      obtain ⟨features', hwrite⟩ := mmioWrite_withFeatures s.state features offset val
      have hstate : (s.withFeatures features).state =
        { s.state with driverFeatures := features } := rfl
      simp only [machine, hpc, hstate, hwrite]
      by_cases hlock : s.pc = .tx true
      · rw [if_pos hlock, if_pos hlock]
        exact ⟨rfl, features, rfl⟩
      · rw [if_neg hlock, if_neg hlock]
        cases s.state.mmioWrite offset val with
        | error why => exact ⟨rfl, features, rfl⟩
        | ok state => exact ⟨rfl, features', rfl⟩
  | store addr data => exact ⟨rfl, features, rfl⟩
  | dataplane packet =>
      simp only [machine, NetSystem.dataplaneStep, hpc]
      cases s.pc with
      | tx locked =>
          dsimp only
          rw [txStep_withFeatures]
          exact ⟨rfl, features, rfl⟩
      | rx =>
          dsimp only
          rw [rxStep_withFeatures]
          exact ⟨rfl, features, rfl⟩
      | inject => exact ⟨rfl, features, rfl⟩
      | sleep => exact ⟨rfl, features, rfl⟩
      | halted why => exact ⟨rfl, features, rfl⟩

theorem withFeatures_sameBehaviour (s : NetSystem) (features : UInt64) :
    SameBehaviour s (s.withFeatures features) := by
  intro as
  have hstep : ∀ (t t' : NetSystem) (a : NetAction), (∃ f, t' = t.withFeatures f) →
      (machine.step t' a).2 = (machine.step t a).2 ∧
        ∃ f, (machine.step t' a).1 = (machine.step t a).1.withFeatures f := by
    rintro t t' a ⟨f, rfl⟩
    exact step_withFeatures t f a
  obtain ⟨htrace, features', hlast⟩ := machine.run_simulation hstep ⟨features, rfl⟩ as
  rw [hlast]
  exact ⟨htrace, rfl, rfl⟩

theorem resets_of_untouched {s : NetSystem} (hlock : s.pc ≠ .tx true)
    (hfeat : s.state.deviceFeaturesSel = 0) (hsel : s.state.queueSel = 0)
    (hirq : s.state.irqStatus = 0) (hqueues : s.state.queues = fun _ => Virtqueue.new 256) :
    Resets s := by
  have hstate : (machine.step s statusZero).1 = s.fresh.withFeatures s.state.driverFeatures := by
    simp only [statusZero_eq hlock, NetSystem.withFeatures, NetSystem.fresh, NetState.new, hfeat,
      hsel, hirq, hqueues]
  rw [Resets, hstate]
  exact withFeatures_sameBehaviour _ _

theorem mmioWrite_mac {s s' : NetState} {offset : UInt64} {val : UInt32}
    (h : s.mmioWrite offset val = .ok s') : s'.mac = s.mac := by
  have honQueue : ∀ f, s.onQueue f = .ok s' → s'.mac = s.mac := by
    intro f h
    simp only [NetState.onQueue, bind, Except.bind, pure, Except.pure] at h
    split at h
    · cases h
    · cases h
      rfl
  unfold NetState.mmioWrite at h
  split at h
  case h_2 =>
    split at h
    · cases h
      rfl
    · cases h
      rfl
  all_goals first
    | exact honQueue _ h
    | (cases h; rfl)

theorem machine_mac (s : NetSystem) (a : NetAction) :
    (machine.step s a).1.state.mac = s.state.mac := by
  cases a with
  | mmioRead offset =>
      simp only [machine]
      split
      · rfl
      · split <;> rfl
  | mmioWrite offset val =>
      simp only [machine]
      split
      · rfl
      · split
        · rename_i state hwrite
          exact mmioWrite_mac hwrite
        · rfl
  | store addr data => rfl
  | dataplane packet =>
      simp only [machine, NetSystem.dataplaneStep]
      cases s.pc with
      | tx locked =>
          rcases s.txStep_cases with
            ⟨why, h⟩ | h | ⟨head, q, -, ⟨why, buf, h⟩ | ⟨chain, buf, added, q', mem, -, -, -, h⟩⟩
          all_goals simp only [h, NetSystem.withQueue]
      | rx =>
          rcases s.rxStep_cases packet with
            ⟨why, h⟩ | h | ⟨frame, head, q, -, -,
              ⟨why, mem, h⟩ | ⟨chain, written, mem, -, -, ⟨-, h⟩ | ⟨-, added, q', mem', -, h⟩⟩⟩
          all_goals simp only [h, NetSystem.withQueue]
      | inject => rfl
      | sleep => rfl
      | halted why => rfl

theorem fresh_state (mac : Fin 6 → UInt8) (mem : GuestMemory) (history : List NetAction) :
    (machine.run (.new mac mem) history).1.fresh.state = (NetSystem.new mac mem).state := by
  have hkeep := machine.run_inductive (I := fun s => s.state.mac = mac)
    (fun s a hs => (machine_mac s a).trans hs) (s := .new mac mem) rfl history
  rw [NetSystem.fresh, hkeep]
  rfl

end Net

/-- After any history, a write of zero to the status register clears the status
and nothing else, and where nothing else needs clearing the device behaves from
then on like a new one of the same capacity or address. -/
theorem status_zero_clears_status_only :
    (∀ (image : Blk.Image) (readOnly : Bool) (mem : GuestMemory) (history : List Blk.BlkAction)
        (s : Blk.BlkSystem), s = (Blk.machine.run (.new image readOnly mem) history).1 →
      (Blk.machine.step s Blk.statusZero).1 = { s with state := { s.state with status := 0 } } ∧
        s.fresh.state = (Blk.BlkSystem.new image readOnly mem).state ∧
        (s.state.featuresSel = 0 → s.state.irqStatus = 0 → s.state.queue = Virtqueue.new 128 →
          Blk.Resets s)) ∧
    (∀ (mac : Fin 6 → UInt8) (mem : GuestMemory) (history : List Net.NetAction)
        (s : Net.NetSystem), s = (Net.machine.run (.new mac mem) history).1 → s.pc ≠ .tx true →
      (Net.machine.step s Net.statusZero).1 = { s with state := { s.state with status := 0 } } ∧
        s.fresh.state = (Net.NetSystem.new mac mem).state ∧
        (s.state.deviceFeaturesSel = 0 → s.state.queueSel = 0 → s.state.irqStatus = 0 →
          s.state.queues = (fun _ => Virtqueue.new 256) → Net.Resets s)) := by
  constructor
  · rintro image readOnly mem history s rfl
    exact ⟨by rw [Blk.statusZero_eq], Blk.fresh_state image readOnly mem history,
      Blk.resets_of_untouched⟩
  · rintro mac mem history s rfl hlock
    exact ⟨by rw [Net.statusZero_eq hlock], Net.fresh_state mac mem history,
      Net.resets_of_untouched hlock⟩

/-- Devices that were only acknowledged and had their registers poked at. -/
theorem status_zero_clears_status_only_acknowledged :
    Blk.Resets (Blk.machine.run (.new [] false .twoMib)
        [.mmioWrite Reg.status.offset 3, .mmioWrite Reg.queueSel.offset 7]).1 ∧
      Net.Resets (Net.machine.run (.new (fun _ => 2) .twoMib)
        [.mmioWrite Reg.status.offset 3, .mmioWrite Reg.driverFeatures.offset 32]).1 :=
  ⟨(status_zero_clears_status_only.1 [] false .twoMib _ _ rfl).2.2 rfl rfl rfl,
    (status_zero_clears_status_only.2 (fun _ => 2) .twoMib _ _ rfl (by decide)).2.2
      rfl rfl rfl rfl⟩

/-- A queue that was made ready is still ready after the write of zero. -/
theorem ready_survives_status_zero :
    ¬ Blk.Resets (Blk.machine.run (.new [] false .twoMib)
        [.mmioWrite Reg.queueReady.offset 1]).1 ∧
      ¬ Net.Resets (Net.machine.run (.new (fun _ => 2) .twoMib)
        [.mmioWrite Reg.queueReady.offset 1]).1 := by
  constructor
  · intro h
    exact absurd (h [.mmioRead Reg.queueReady.offset]).1 (by decide)
  · intro h
    exact absurd (h [.mmioRead Reg.queueReady.offset]).1 (by decide)

end Caiman.Vmm
