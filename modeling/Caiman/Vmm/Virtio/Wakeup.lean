import Caiman.Vmm.Virtio.Request

/-!
# No lost wakeup in virtio-blk

A notification adds to the kick counter; the dataplane resets the counter when
it wakes and goes back to sleep only after `next_avail` has returned nothing.
The heads a notification is about are followed along the run: each of them
stands in the ring until it is taken, and while one is left either the counter
is positive or the dataplane is not at its blocking read.
-/

namespace Caiman.Vmm

open Lib

namespace Virtqueue

/-- The heads that are published and not yet taken, oldest first. -/
def untaken (q : Virtqueue) (mem : GuestMemory) : List UInt16 :=
  (List.range (q.availIdxAt mem - q.lastAvailIdx).toNat).map fun i =>
    q.availEntry mem ((q.lastAvailIdx + UInt16.ofNat i).toNat % q.size.toNat)

theorem untaken_congr {q q' : Virtqueue} (mem : GuestMemory) (hring : q'.availRing = q.availRing)
    (hsize : q'.size = q.size) (hlast : q'.lastAvailIdx = q.lastAvailIdx) :
    q'.untaken mem = q.untaken mem := by
  simp only [untaken, availIdxAt, availEntry, hring, hsize, hlast]

theorem untaken_of_caught_up {q : Virtqueue} {mem : GuestMemory}
    (h : q.lastAvailIdx = q.availIdxAt mem) : q.untaken mem = [] := by
  simp [untaken, h]

theorem untaken_cons {q : Virtqueue} {mem : GuestMemory} (h : q.lastAvailIdx ≠ q.availIdxAt mem) :
    q.untaken mem = q.availEntry mem (q.lastAvailIdx.toNat % q.size.toNat) ::
      { q with lastAvailIdx := q.lastAvailIdx + 1 }.untaken mem := by
  have hcount : (q.availIdxAt mem - q.lastAvailIdx).toNat =
      (q.availIdxAt mem - (q.lastAvailIdx + 1)).toNat + 1 := by
    have hne : q.lastAvailIdx.toNat ≠ (q.availIdxAt mem).toNat := fun h' =>
      h (UInt16.toNat_inj.mp h')
    have h1 : (1 : UInt16).toNat = 1 := rfl
    have hl := q.lastAvailIdx.toNat_lt
    have ha := (q.availIdxAt mem).toNat_lt
    rw [UInt16.toNat_sub, UInt16.toNat_sub, UInt16.toNat_add, h1]
    omega
  have hnext : ∀ i, q.lastAvailIdx + UInt16.ofNat (i + 1) =
      q.lastAvailIdx + 1 + UInt16.ofNat i := by
    intro i
    rw [UInt16.ofNat_add, UInt16.add_assoc, UInt16.add_comm (UInt16.ofNat i)]
    rfl
  rw [untaken, hcount, List.range_succ_eq_map, List.map_cons, List.map_map]
  congr 1
  · simp
  · refine List.map_congr_left fun i _ => ?_
    simp only [Function.comp_apply, hnext]
    rfl

end Virtqueue

namespace Blk

/-- The queue is ready and its available ring can be read. -/
structure Live (s : BlkSystem) : Prop where
  ready : s.state.queue.ready = true
  readable : s.state.queue.AvailReadable s.mem

/-- The step leaves the queue ready and on the same ring. -/
def Steady (s : BlkSystem) (a : BlkAction) : Prop :=
  (machine.step s a).1.state.queue.ready = true ∧
    (machine.step s a).1.state.queue.availRing = s.state.queue.availRing ∧
    (machine.step s a).1.state.queue.size = s.state.queue.size

/-- The step neither withdraws nor alters a head that is published and not yet
taken; it may publish more. Stores of the driver and copies of the device to the
buffers the driver named both have to keep to this. -/
def Orderly (s : BlkSystem) (a : BlkAction) : Prop :=
  s.state.queue.untaken s.mem <+: s.state.queue.untaken (machine.step s a).1.mem

instance (s : BlkSystem) (a : BlkAction) : Decidable (Steady s a) :=
  inferInstanceAs (Decidable (_ ∧ _ ∧ _))

instance (s : BlkSystem) (a : BlkAction) : Decidable (Orderly s a) :=
  inferInstanceAs (Decidable (_ <+: _))

def takes (trace : List Event) : List UInt16 :=
  trace.filterMap fun
    | .take 0 head => some head
    | _ => none

/-- Heads still owed to a notification: each one taken has to be the oldest. -/
def owing : List UInt16 → Event → Option (List UInt16)
  | head :: owed, .take 0 head' => if head' = head then some owed else none
  | owed, _ => some owed

theorem prefix_takes_of_owing {owed : List UInt16} {trace : List Event}
    (h : feed owing owed trace = some []) : owed <+: takes trace := by
  induction trace generalizing owed with
  | nil =>
      obtain rfl := Option.some.inj h
      exact List.nil_prefix
  | cons e es ih =>
      cases owed with
      | nil => exact List.nil_prefix
      | cons head owed =>
          by_cases htake : ∃ head', e = .take 0 head'
          · obtain ⟨head', rfl⟩ := htake
            by_cases heq : head' = head
            · subst heq
              have hrest : feed owing owed es = some [] := by simpa [feed, owing] using h
              exact List.cons_prefix_cons.mpr ⟨rfl, ih hrest⟩
            · simp [feed, owing, heq] at h
          · have hskip : owing (head :: owed) e = some (head :: owed) := by
              unfold owing
              split
              · rename_i heq
                exact absurd ⟨_, rfl⟩ htake
              · rfl
            have hnone : takes (e :: es) = takes es := by
              refine List.filterMap_cons_none ?_
              split
              · exact absurd ⟨_, rfl⟩ htake
              · rfl
            rw [hnone]
            exact ih (by simpa [feed, hskip] using h)

theorem owing_take {owed rest : List UInt16} {head : UInt16} (h : owed <+: head :: rest) :
    ∃ owed', feed owing owed [.take 0 head] = some owed' ∧ owed' <+: rest := by
  cases owed with
  | nil => exact ⟨[], rfl, List.nil_prefix⟩
  | cons head' owed =>
      obtain ⟨rfl, hrest⟩ := List.cons_prefix_cons.mp h
      exact ⟨owed, by simp [feed, owing], hrest⟩

/-- What is owed stands in the ring, and while anything is owed the dataplane is
awake or about to be woken. -/
structure Awake (s : BlkSystem) (owed : List UInt16) : Prop where
  live : Live s
  standing : owed <+: s.state.queue.untaken s.mem
  awake : owed = [] ∨ 0 < s.kick ∨ s.pc ≠ .wait

theorem machine_mapped (s : BlkSystem) (a : BlkAction) (b n : Nat) :
    (machine.step s a).1.mem.Mapped b n ↔ s.mem.Mapped b n := by
  rw [GuestMemory.mapped_iff, GuestMemory.mapped_iff, machine_ramEnd]

theorem Awake.of_quiet {s : BlkSystem} {a : BlkAction} {owed : List UInt16} (h : Awake s owed)
    (hsteady : Steady s a) (horder : Orderly s a)
    (hlast : (machine.step s a).1.state.queue.lastAvailIdx = s.state.queue.lastAvailIdx)
    (hawake : owed = [] ∨ 0 < (machine.step s a).1.kick ∨ (machine.step s a).1.pc ≠ .wait) :
    Awake (machine.step s a).1 owed := by
  obtain ⟨hready, hring, hsize⟩ := hsteady
  constructor
  · refine ⟨hready, by rw [hsize]; exact h.live.readable.size_ne,
      by rw [hring]; exact h.live.readable.ring_ne, ?_⟩
    rw [hring, hsize, machine_mapped]
    exact h.live.readable.mapped
  · rw [Virtqueue.untaken_congr _ hring hsize hlast]
    exact h.standing.trans horder
  · exact hawake

theorem mmioWrite_lastAvailIdx (s : BlkState) (offset : UInt64) (val : UInt32) :
    (s.mmioWrite offset val).1.queue.lastAvailIdx = s.queue.lastAvailIdx := by
  unfold BlkState.mmioWrite
  split <;> rfl

theorem addUsed_lastAvailIdx {q q' : Virtqueue} {mem mem' : GuestMemory} {head : UInt16}
    {len : UInt32} {added : Bool} (h : q.addUsed mem head len = .ok (added, q', mem')) :
    q'.lastAvailIdx = q.lastAvailIdx := by
  rcases Virtqueue.addUsed_cases h with ⟨-, -, rfl, -⟩ | ⟨-, -, -, -, rfl, -⟩ <;> rfl

/-- At the top of the drain loop: nothing left, nothing owed; else the oldest
head is taken. -/
theorem poll_awake {s : BlkSystem} {owed : List UInt16} (h : Awake s owed) :
    ∃ owed', feed owing owed s.pollStep.2 = some owed' ∧ Awake s.pollStep.1 owed' := by
  have hnext := Virtqueue.nextAvail_eq h.live.readable
  rcases s.pollStep_cases with ⟨why, hs⟩ | ⟨hnone, hs⟩ | ⟨head, q, -, -, hsome, hres⟩
  · rw [hs]
    exact ⟨owed, rfl, ⟨h.live.ready, h.live.readable⟩, h.standing, Or.inr (Or.inr (by simp))⟩
  · obtain ⟨q, hq⟩ := hnone h.live.ready h.live.readable.ring_ne
    have hcaught : s.state.queue.lastAvailIdx = s.state.queue.availIdxAt s.mem := by
      by_contra hne
      rw [hnext, if_neg hne] at hq
      cases hq
    have howed : owed = [] := by
      have hstand := h.standing
      rw [Virtqueue.untaken_of_caught_up hcaught] at hstand
      exact List.prefix_nil.mp hstand
    subst howed
    rw [hs]
    exact ⟨[], rfl, ⟨h.live.ready, h.live.readable⟩, List.nil_prefix, Or.inl rfl⟩
  · have hne : s.state.queue.lastAvailIdx ≠ s.state.queue.availIdxAt s.mem := by
      intro heq
      rw [hnext, if_pos heq] at hsome
      cases hsome
    rw [hnext, if_neg hne] at hsome
    cases hsome
    obtain ⟨owed', hfeed, hstand⟩ := owing_take (Virtqueue.untaken_cons hne ▸ h.standing)
    have hawake : ∀ pc, pc ≠ .wait → Awake { s.withQueue
        { s.state.queue with lastAvailIdx := s.state.queue.lastAvailIdx + 1 } with pc := pc }
          owed' := fun pc hpc => ⟨⟨h.live.ready, h.live.readable.size_ne, h.live.readable.ring_ne,
            h.live.readable.mapped⟩, hstand, Or.inr (Or.inr hpc)⟩
    rcases hres with ⟨why, hs⟩ | ⟨chain, -, hs⟩
    · rw [hs]
      exact ⟨owed', hfeed, hawake _ (by simp)⟩
    · rw [hs]
      exact ⟨owed', hfeed, hawake _ (by simp)⟩

theorem Awake.step_quiet {s s' : BlkSystem} {a : BlkAction} {owed : List UInt16}
    {events : List Event} (h : Awake s owed) (hsteady : Steady s a) (horder : Orderly s a)
    (hstep : machine.step s a = (s', events)) (hfeed : feed owing owed events = some owed)
    (hlast : s'.state.queue.lastAvailIdx = s.state.queue.lastAvailIdx)
    (hawake : owed = [] ∨ 0 < s'.kick ∨ s'.pc ≠ .wait) :
    ∃ owed', feed owing owed (machine.step s a).2 = some owed' ∧
      Awake (machine.step s a).1 owed' := by
  refine ⟨owed, by rw [hstep]; exact hfeed, h.of_quiet hsteady horder ?_ ?_⟩
  · rw [hstep]
    exact hlast
  · rw [hstep]
    exact hawake

theorem serve_awake {s : BlkSystem} {io : Transfer} {head : UInt16} {chain : List Descriptor}
    {owed : List UInt16} (h : Awake s owed) (hpc : s.pc = .serve head chain)
    (hsteady : Steady s (.dataplane io)) (horder : Orderly s (.dataplane io)) :
    ∃ owed', feed owing owed (machine.step s (.dataplane io)).2 = some owed' ∧
      Awake (machine.step s (.dataplane io)).1 owed' := by
  have hstep : machine.step s (.dataplane io) = s.serveStep io head chain := by
    simp only [machine, BlkSystem.dataplaneStep, hpc]
  rcases s.serveStep_cases io head chain with
    ⟨why, hs⟩ | ⟨added, q, mem, -, hadd, hs⟩ | ⟨hdrDesc, dataDesc, rest, -, ⟨-, hs⟩ | ⟨c, -, hs⟩⟩
  · exact h.step_quiet hsteady horder (hstep.trans hs) rfl rfl (Or.inr (Or.inr (by simp)))
  · refine h.step_quiet hsteady horder (hstep.trans hs) ?_ (addUsed_lastAvailIdx hadd)
      (Or.inr (Or.inr (by simp)))
    cases owed <;> rfl
  · exact h.step_quiet hsteady horder (hstep.trans hs) rfl rfl (Or.inr (Or.inr (by simp)))
  · refine h.step_quiet hsteady horder (hstep.trans hs) ?_ rfl (Or.inr (Or.inr (by simp)))
    cases owed <;> rfl

theorem complete_awake {s : BlkSystem} {io : Transfer} {head : UInt16} {usedLen : UInt32}
    {owed : List UInt16} (h : Awake s owed) (hpc : s.pc = .complete head usedLen)
    (hsteady : Steady s (.dataplane io)) (horder : Orderly s (.dataplane io)) :
    ∃ owed', feed owing owed (machine.step s (.dataplane io)).2 = some owed' ∧
      Awake (machine.step s (.dataplane io)).1 owed' := by
  have hstep : machine.step s (.dataplane io) = s.completeStep head usedLen := by
    simp only [machine, BlkSystem.dataplaneStep, hpc]
  rcases s.completeStep_cases head usedLen with ⟨why, hs⟩ | ⟨added, q, mem, hadd, hs⟩
  · exact h.step_quiet hsteady horder (hstep.trans hs) rfl rfl (Or.inr (Or.inr (by simp)))
  · refine h.step_quiet hsteady horder (hstep.trans hs) ?_ (addUsed_lastAvailIdx hadd)
      (Or.inr (Or.inr (by simp)))
    cases owed <;> rfl

theorem step_awake (s : BlkSystem) (a : BlkAction) (owed : List UInt16) (h : Awake s owed)
    (hok : Steady s a ∧ Orderly s a) :
    ∃ owed', feed owing owed (machine.step s a).2 = some owed' ∧
      Awake (machine.step s a).1 owed' := by
  obtain ⟨hsteady, horder⟩ := hok
  cases a with
  | mmioRead offset =>
      refine h.step_quiet hsteady horder rfl ?_ rfl h.awake
      cases owed <;> rfl
  | mmioWrite offset val =>
      refine h.step_quiet hsteady horder rfl rfl (mmioWrite_lastAvailIdx _ _ _) ?_
      rcases h.awake with hnil | hkick | hpc
      · exact Or.inl hnil
      · exact Or.inr (Or.inl (Nat.lt_of_lt_of_le hkick (Nat.le_add_right _ _)))
      · exact Or.inr (Or.inr hpc)
  | store addr data => exact h.step_quiet hsteady horder rfl rfl rfl h.awake
  | dataplane io =>
      cases hpc : s.pc with
      | wait =>
          by_cases hkick : s.kick = 0
          · have hstep : machine.step s (.dataplane io) = (s, []) := by
              simp only [machine, BlkSystem.dataplaneStep, hpc, hkick, if_true]
            exact h.step_quiet hsteady horder hstep rfl rfl h.awake
          · have hstep : machine.step s (.dataplane io) =
                ({ s with kick := 0, pc := .poll }, []) := by
              simp only [machine, BlkSystem.dataplaneStep, hpc, hkick, if_false]
            exact h.step_quiet hsteady horder hstep rfl rfl (Or.inr (Or.inr (by simp)))
      | poll =>
          have hstep : machine.step s (.dataplane io) = s.pollStep := by
            simp only [machine, BlkSystem.dataplaneStep, hpc]
          rw [hstep]
          exact poll_awake h
      | serve head chain => exact serve_awake h hpc hsteady horder
      | complete head usedLen => exact complete_awake h hpc hsteady horder
      | inject =>
          have hstep : machine.step s (.dataplane io) = ({ s with pc := .poll }, [.irqfd]) := by
            simp only [machine, BlkSystem.dataplaneStep, hpc]
          refine h.step_quiet hsteady horder hstep ?_ rfl (Or.inr (Or.inr (by simp)))
          cases owed <;> rfl
      | halted why =>
          have hstep : machine.step s (.dataplane io) = (s, []) := by
            simp only [machine, BlkSystem.dataplaneStep, hpc]
          exact h.step_quiet hsteady horder hstep rfl rfl h.awake

def notify (val : UInt32) : BlkAction := .mmioWrite Reg.queueNotify.offset val

/-- In any state at all, a notification on a live queue is answered: by the time
the dataplane blocks with its counter at zero, every head that stood in the ring
has been taken, in order. -/
theorem notify_answered {s : BlkSystem} (hlive : Live s) (val : UInt32) {post : List BlkAction}
    (hsteady : machine.AllSteps (fun s a => Steady s a ∧ Orderly s a)
      (machine.step s (notify val)).1 post)
    (hwait : (machine.run s (notify val :: post)).1.pc = .wait)
    (hkick : (machine.run s (notify val :: post)).1.kick = 0) :
    s.state.queue.untaken s.mem <+: takes (machine.run s (notify val :: post)).2 := by
  have hstep : machine.step s (notify val) = ({ s with kick := s.kick + 1 }, []) := by
    simp [machine, notify, BlkState.mmioWrite]
  have hstart : Awake { s with kick := s.kick + 1 } (s.state.queue.untaken s.mem) :=
    ⟨⟨hlive.ready, hlive.readable⟩, List.prefix_refl _, Or.inr (Or.inl (Nat.succ_pos _))⟩
  rw [hstep] at hsteady
  obtain ⟨owed, hfeed, hend⟩ := machine.run_monitored step_awake hstart hsteady
  rw [Machine.run_cons, hstep] at hwait hkick ⊢
  have howed : owed = [] := by
    rcases hend.awake with hnil | hpos | hpc
    · exact hnil
    · exact absurd hkick (Nat.ne_of_gt hpos)
    · exact absurd hwait hpc
  rw [howed] at hfeed
  exact prefix_takes_of_owing hfeed

/-- In every reachable state and for every interleaving: if the dataplane is
blocked with its counter at zero and the queue was live at a notification and
has been steady since, every head that was published and not taken at that
notification has been taken after it. -/
theorem no_lost_wakeup (image : Image) (readOnly : Bool) (mem : GuestMemory)
    (pre post : List BlkAction) (val : UInt32)
    (hlive : Live (machine.run (.new image readOnly mem) pre).1)
    (hsteady : machine.AllSteps (fun s a => Steady s a ∧ Orderly s a)
      (machine.run (.new image readOnly mem) pre).1 (notify val :: post))
    (hwait : (machine.run (.new image readOnly mem) (pre ++ notify val :: post)).1.pc = .wait)
    (hkick : (machine.run (.new image readOnly mem) (pre ++ notify val :: post)).1.kick = 0) :
    (machine.run (.new image readOnly mem) pre).1.state.queue.untaken
        (machine.run (.new image readOnly mem) pre).1.mem <+:
      takes (machine.run (machine.run (.new image readOnly mem) pre).1 (notify val :: post)).2 := by
  rw [machine.run_append] at hwait hkick
  exact notify_answered hlive val hsteady.2 hwait hkick

/-- The flush request, notified once its head is published. -/
theorem no_lost_wakeup_flush :
    flushRun = flushRun.take 7 ++ notify 0 :: flushRun.drop 8 ∧
      (machine.run (.new [] false .twoMib) (flushRun.take 7)).1.state.queue.untaken
        (machine.run (.new [] false .twoMib) (flushRun.take 7)).1.mem = [0] ∧
      (machine.run (.new [] false .twoMib) (flushRun.take 7)).1.state.queue.untaken
          (machine.run (.new [] false .twoMib) (flushRun.take 7)).1.mem <+:
        takes (machine.run (machine.run (.new [] false .twoMib) (flushRun.take 7)).1
          (notify 0 :: flushRun.drop 8)).2 :=
  ⟨by decide, by decide,
    no_lost_wakeup [] false .twoMib (flushRun.take 7) (flushRun.drop 8) 0
      ⟨by decide, by decide, by decide, by decide⟩ (by decide) (by decide) (by decide)⟩

end Blk

end Caiman.Vmm
