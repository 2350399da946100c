import Mathlib.Tactic.IntervalCases
import Caiman.Api.Lifecycle

/-!
# Deletion

`delete_vm_h` kills the process that an active record names, removes the directory
and answers. A save that comes after the removal makes the directory again, and a
process that no active record named lives on.
-/

namespace Caiman.Api

open Lib

variable {vmId : String}

/-- Once a delete has answered 204 there is no state directory and no live process. -/
def Vm.Gone (s : Vm) : Prop :=
  ∀ i, s.task i = .deleted → s.host.dir = .absent ∧ ∀ p, ¬ s.host.Live p

def Task.Removed : Task → Prop
  | .removingLog | .deleted => True
  | _ => False

def Task.Ending : Task → Prop
  | .savingOff _ source => source = .delete
  | .removing | .removingLog | .deleted => True
  | _ => False

def Task.Deleting : Task → Prop
  | .signalling _ source => source = .delete
  | t => t.Ending

def Task.Writes : Task → Prop
  | .makeDisk .. | .announce _ | .confirm .. | .settling _ | .signalling .. | .savingOff ..
  | .savingReconciled .. => True
  | .reconciling st _ => st.status = .active
  | _ => False

/-- A delete loads an active record of every live process; nothing is created or spawned
while a delete is past its load; no other task may still write when the directory is
removed. -/
def Vm.Undisturbed (s : Vm) : VmAction → Prop
  | .create .. => ∀ j, ¬ (s.task j).Deleting
  | .request _ kind readable => kind = .delete → ∀ p, s.host.Live p → readable = true ∧
      ∃ st, s.host.dir = .record st ∧ st.status = .active ∧ st.pid = some p
  | .step i o => o.fails = false →
      (∀ st, s.task i = .spawning st → ∀ j, ¬ (s.task j).Deleting) ∧
      (s.task i = .removing → ∀ j, j ≠ i → ¬ (s.task j).Writes)
  | _ => True

/-! ## Steps of a task -/

/-- The task stops and deletes nothing. -/
def Task.Harmless : Task → Prop
  | .signalling .. | .savingOff .. | .removing | .removingLog | .deleted => False
  | _ => True

theorem Task.harmless_step {t : Task} (ht : t.Harmless) (h : Host) (o : Outcome) :
    (t.step h o).2.1.Harmless := by
  cases t with
  | reconciling st checks =>
      rcases Task.reconciling_step h o st checks with hr | ⟨n, hr | hr⟩
      all_goals
        rw [hr]
        trivial
  | _ =>
      simp only [Task.step]
      repeat' split
      all_goals trivial

theorem Task.Ending.not_harmless {t : Task} (ht : t.Ending) : ¬ t.Harmless := by
  intro hharmless
  cases t with
  | savingOff _ _ | removing | removingLog | deleted => exact hharmless
  | _ => exact ht

theorem Task.Removed.ending {t : Task} (ht : t.Removed) : t.Ending := by
  cases t <;> first | exact ht | cases ht

theorem Task.step_ne_signalling (t : Task) (h : Host) (o : Outcome) (st : VmState)
    (source : Stopper) : (t.step h o).2.1 ≠ .signalling st source := by
  intro ht
  by_cases hharmless : t.Harmless
  · have hnext := Task.harmless_step hharmless h o
    rw [ht] at hnext
    exact hnext
  · cases t with
    | signalling _ _ | savingOff _ _ | removing | removingLog | deleted =>
        simp only [Task.step] at ht
        repeat' split at ht
        all_goals cases ht
    | _ => exact hharmless trivial

theorem Task.not_writes_step {t : Task} {h : Host} (ht : ¬ t.Writes) (hdir : h.dir = .absent)
    (o : Outcome) : (t.step h o).1.dir = .absent ∧
      ((t.step h o).2.1.Writes → ∃ st, t = .spawning st ∧ o.fails = false) := by
  cases t with
  | finished => exact ⟨hdir, False.elim⟩
  | deleted => exact ⟨hdir, False.elim⟩
  | checking st =>
      simp only [Task.step]
      split
      · exact ⟨hdir, False.elim⟩
      · refine ⟨hdir, ?_⟩
        split <;> exact False.elim
  | prepare st =>
      refine ⟨hdir, ?_⟩
      simp only [Task.step]
      split <;> exact False.elim
  | spawning st =>
      simp only [Task.step]
      split
      · exact ⟨hdir, False.elim⟩
      · rename_i hok
        have hfails : o.fails = false := by simpa using hok
        split
        · exact ⟨hdir, False.elim⟩
        · exact ⟨hdir, fun _ => ⟨st, rfl, hfails⟩⟩
  | waiting pid =>
      simp only [Task.step]
      split
      · refine ⟨?_, False.elim⟩
        unfold Host.release
        split <;> exact hdir
      · split
        · split <;> exact ⟨hdir, False.elim⟩
        · exact ⟨hdir, False.elim⟩
  | woken =>
      simp only [Task.step, hdir, StateDir.load]
      exact ⟨trivial, False.elim⟩
  | reconciling st checks =>
      cases checks with
      | zero => exact ⟨hdir, False.elim⟩
      | succ checks =>
          simp only [Task.step]
          rw [if_neg (fun hgone => ht hgone.1)]
          exact ⟨hdir, fun hst => absurd hst ht⟩
  | removing =>
      simp only [Task.step]
      split
      · refine ⟨?_, False.elim⟩
        simp [hdir]
      · exact ⟨rfl, False.elim⟩
  | removingLog =>
      refine ⟨hdir, ?_⟩
      simp only [Task.step]
      split <;> exact False.elim
  | _ => exact absurd trivial ht

theorem Task.removed_of_step {t : Task} {h : Host} {o : Outcome}
    (ht : (t.step h o).2.1.Removed) :
    (t.Removed ∧ (t.step h o).1 = h) ∨
      (t = .removing ∧ o.fails = false ∧ (t.step h o).1.dir = .absent) := by
  have hnot : ¬ t.Harmless := fun hh => ht.ending.not_harmless (Task.harmless_step hh h o)
  cases t with
  | deleted => exact Or.inl ⟨trivial, rfl⟩
  | removingLog => exact Or.inl ⟨trivial, rfl⟩
  | removing =>
      simp only [Task.step] at ht ⊢
      split at ht
      · cases ht
      · rename_i hok
        exact Or.inr ⟨trivial, by simpa using hok, by simp [hok]⟩
  | signalling _ _ | savingOff _ _ =>
      simp only [Task.step] at ht
      repeat' split at ht
      all_goals cases ht
  | _ => exact absurd trivial hnot

theorem Task.ending_of_step {t : Task} {h : Host} {o : Outcome}
    (ht : (t.step h o).2.1.Ending) :
    t.Ending ∨ ∃ st, t = .signalling st .delete ∧
      ∀ p, (t.step h o).1.Live p → h.Live p ∧ st.pid ≠ some p := by
  have hnot : ¬ t.Harmless := fun hh => ht.not_harmless (Task.harmless_step hh h o)
  cases t with
  | deleted => exact Or.inl trivial
  | removingLog => exact Or.inl trivial
  | removing => exact Or.inl trivial
  | savingOff st source =>
      simp only [Task.step] at ht
      split at ht
      · rename_i hsource
        exact Or.inl hsource
      · cases ht
  | signalling st source =>
      cases hpid : st.pid with
      | none =>
          simp only [Task.step, hpid] at ht ⊢
          cases ht
          exact Or.inr ⟨st, rfl, fun p hp => ⟨hp, by simp [hpid]⟩⟩
      | some pid =>
          cases source with
          | stop =>
              simp only [Task.step, hpid] at ht
              split at ht <;> cases ht
          | forceStop =>
              simp only [Task.step, hpid] at ht
              cases ht
          | delete =>
              refine Or.inr ⟨st, rfl, ?_⟩
              intro p hp
              simp only [Task.step, hpid] at hp
              obtain ⟨hold, hne⟩ := Host.live_kill.mp hp
              exact ⟨hold, by simpa [hpid] using Ne.symm hne⟩
  | _ => exact absurd trivial hnot

/-! ## Runs -/

/-- What a delete has done so far. -/
structure Vm.Final (s : Vm) : Prop where
  /-- A delete that is about to kill has loaded the pid of every live process. -/
  known : ∀ i st, s.task i = .signalling st .delete → ∀ p, s.host.Live p → st.pid = some p
  dead : ∀ i, (s.task i).Ending → ∀ p, ¬ s.host.Live p
  removed : ∀ i, (s.task i).Removed → s.host.dir = .absent ∧ ∀ j, ¬ (s.task j).Writes

theorem new_final : Vm.new.Final := by
  constructor
  · intro i st hi
    cases hi
  · intro i hi
    cases hi
  · intro i hi
    cases hi

theorem Vm.Final.gone {s : Vm} (hs : s.Final) : s.Gone := by
  intro i hi
  constructor
  · exact (hs.removed i (by rw [hi]; trivial)).1
  · exact hs.dead i (by rw [hi]; trivial)

theorem Task.Ending.deleting {t : Task} (ht : t.Ending) : t.Deleting := by
  cases t <;> first | exact ht | cases ht

theorem Vm.Final.step {s : Vm} (hs : s.Final) (i : Nat) (o : Outcome)
    (ha : s.Undisturbed (.step i o)) :
    (s.advance i ((s.task i).step s.host o).1 ((s.task i).step s.host o).2.1).Final := by
  -- a process that becomes live is spawned, and then no delete is under way
  have hlive : ∀ j p, (s.task j).Deleting → ((s.task i).step s.host o).1.Live p →
      s.host.Live p := by
    intro j p hj hp
    rcases Task.live_of_step hp with hold | ⟨st, hst, hnext⟩
    · exact hold
    · have hok : o.fails = false := by
        rw [hst] at hnext
        cases hfails : o.fails with
        | false => rfl
        | true =>
            simp only [Task.step, hfails, if_true] at hnext
            cases hnext
      exact absurd hj ((ha hok).1 st hst j)
  constructor
  · intro j st hj p hp
    rcases s.advance_task_cases i ((s.task i).step s.host o).1 ((s.task i).step s.host o).2.1 j with
      ⟨-, htask⟩ | ⟨-, htask⟩
    · rw [htask] at hj
      exact absurd hj (Task.step_ne_signalling _ _ _ _ _)
    · rw [htask] at hj
      exact hs.known j st hj p (hlive j p (by rw [hj]; rfl) hp)
  · intro j hj p hp
    rcases s.advance_task_cases i ((s.task i).step s.host o).1 ((s.task i).step s.host o).2.1 j with
      ⟨-, htask⟩ | ⟨-, htask⟩
    · rw [htask] at hj
      rcases Task.ending_of_step hj with hold | ⟨st, hst, hkilled⟩
      · exact hs.dead i hold p (hlive i p hold.deleting hp)
      · obtain ⟨hbefore, hne⟩ := hkilled p hp
        exact hne (hs.known i st hst p hbefore)
    · rw [htask] at hj
      exact hs.dead j hj p (hlive j p hj.deleting hp)
  · intro j hj
    rcases s.advance_task_cases i ((s.task i).step s.host o).1 ((s.task i).step s.host o).2.1 j with
      ⟨-, htask⟩ | ⟨-, htask⟩
    · rw [htask] at hj
      have hquiet : ¬ ((s.task i).step s.host o).2.1.Writes := by
        revert hj
        cases ((s.task i).step s.host o).2.1 <;> simp [Task.Removed, Task.Writes]
      rcases Task.removed_of_step hj with ⟨hold, hhost⟩ | ⟨hst, hok, hdir⟩
      · obtain ⟨hdir, hwrites⟩ := hs.removed i hold
        refine ⟨?_, Vm.forall_advance (Q := fun t => ¬ t.Writes) hquiet fun k _ => hwrites k⟩
        show ((s.task i).step s.host o).1.dir = .absent
        rw [hhost]
        exact hdir
      · exact ⟨hdir, Vm.forall_advance (Q := fun t => ¬ t.Writes) hquiet ((ha hok).2 hst)⟩
    · rw [htask] at hj
      obtain ⟨hdir, hwrites⟩ := hs.removed j hj
      obtain ⟨hnext, hspawn⟩ := Task.not_writes_step (hwrites i) hdir o
      refine ⟨hnext, Vm.forall_advance (Q := fun t => ¬ t.Writes) ?_ fun k _ => hwrites k⟩
      intro hw
      obtain ⟨st, hst, hok⟩ := hspawn hw
      exact (ha hok).1 st hst j hj.ending.deleting

theorem Vm.Final.request {s : Vm} (hs : s.Final) (i : Nat) (kind : RequestKind) (readable : Bool)
    (ha : s.Undisturbed (.request i kind readable)) :
    (s.advance i s.host (kind.first (if readable then s.host.dir.load else none))).Final := by
  have hfirst := kind.first_cases (if readable then s.host.dir.load else none)
  constructor
  · intro j st hj p hp
    rcases s.advance_task_cases i s.host _ j with ⟨-, htask⟩ | ⟨-, htask⟩
    · rw [htask] at hj
      rw [hj] at hfirst
      rcases hfirst with h | ⟨-, h, -⟩ | ⟨st', hload, h | ⟨checks, h⟩ | ⟨source, h, hdelete⟩⟩
      · cases h
      · cases h
      · cases h
      · cases h
      · cases h
        obtain ⟨rfl, st', hdir, -, hpid⟩ := ha (hdelete rfl) p hp
        simp only [if_true, hdir, StateDir.load, Option.some.injEq] at hload
        rw [← hload]
        exact hpid
    · exact hs.known j st (htask ▸ hj) p hp
  · intro j hj p hp
    rcases s.advance_task_cases i s.host _ j with ⟨-, htask⟩ | ⟨-, htask⟩
    · rw [htask] at hj
      rcases hfirst with h | ⟨hkind, h, hstatus⟩ | ⟨st', hload, h | ⟨checks, h⟩ | ⟨source, h, -⟩⟩
      · rw [h] at hj
        cases hj
      · obtain ⟨rfl, st', hdir, hactive, -⟩ := ha hkind p hp
        exact hstatus st' (by simp [hdir, StateDir.load]) hactive
      · rw [h] at hj
        cases hj
      · rw [h] at hj
        cases hj
      · rw [h] at hj
        cases hj
    · exact hs.dead j (htask ▸ hj) p hp
  · intro j hj
    rcases s.advance_task_cases i s.host _ j with ⟨-, htask⟩ | ⟨-, htask⟩
    · rw [htask] at hj
      rcases hfirst with h | ⟨-, h, -⟩ | ⟨st', hload, h | ⟨checks, h⟩ | ⟨source, h, -⟩⟩
      all_goals
        rw [h] at hj
        cases hj
    · obtain ⟨hdir, hwrites⟩ := hs.removed j (htask ▸ hj)
      refine ⟨hdir, Vm.forall_advance (Q := fun t => ¬ t.Writes) ?_ fun k _ => hwrites k⟩
      have hload : (if readable = true then s.host.dir.load else none) = none := by
        simp [hdir, StateDir.load]
      rw [hload]
      cases kind <;> exact id

theorem step_final (s : Vm) (a : VmAction) (hs : s.Final) (ha : s.Undisturbed a) :
    ((lifecycle vmId).step s a).1.Final := by
  apply step_rule hs
  · intro i req h _ _
    subst h
    have hother : ∀ j, ¬ ((s.advance i s.host (.makeDisk vmId req)).task j).Deleting :=
      Vm.forall_advance (Q := fun t => ¬ t.Deleting) id fun j _ => ha j
    constructor
    · intro j st hj
      exact absurd (show ((s.advance i s.host (.makeDisk vmId req)).task j).Deleting by
        rw [hj]; rfl) (hother j)
    · intro j hj
      exact absurd hj.deleting (hother j)
    · intro j hj
      exact absurd hj.ending.deleting (hother j)
  · intro i kind readable h _
    subst h
    exact hs.request i kind readable ha
  · intro i o h
    subst h
    exact hs.step i o ha
  · intro pid _
    constructor
    · intro j st hj p hp
      exact hs.known j st hj p (Host.live_kill.mp hp).1
    · intro j hj p hp
      exact hs.dead j hj p (Host.live_kill.mp hp).1
    · intro j hj
      rw [Host.kill_dir]
      exact hs.removed j hj
  · intro pid p _ _ _ _
    constructor
    · intro j st hj p hp
      exact hs.known j st hj p (Host.live_remove.mp hp).1
    · intro j hj p hp
      exact hs.dead j hj p (Host.live_remove.mp hp).1
    · intro j hj
      exact hs.removed j hj

/-- For every interleaving of a delete with other requests, reapers and exits that do
not disturb it: from its answer on there is no state directory and no live VMM. -/
theorem deletion_is_final {as : List VmAction}
    (hall : (lifecycle vmId).AllSteps Vm.Undisturbed .new as) {pre : List VmAction}
    (hpre : pre <+: as) : ((lifecycle vmId).run .new pre).1.Gone := by
  have hfinal := (lifecycle vmId).prefixes_invariant step_final new_final hall hpre
  exact hfinal.gone

/-- A running VM is deleted; its reaper is done before the directory is removed. -/
theorem deletion_is_final_of_running :
    let as := createRun 7 ++ [.request 1 .delete true, .step 1 {}, .step 1 {}, .step 0 {},
      .step 0 {}, .step 0 {}, .step 1 {}, .step 1 {}]
    sampleVm.AllSteps Vm.Undisturbed .new as ∧ (sampleVm.run .new as).1.task 1 = .deleted ∧
      (sampleVm.run .new as).1.Gone := by
  intro as
  have hspawn : ∀ j, ¬ ((sampleVm.run .new ((createRun 7).take 4)).1.task j).Deleting := by
    apply forall_run_task (n := 1) (Q := fun t => ¬ t.Deleting)
    · simp [createRun, VmAction.slot]
    · exact id
    · intro j hj
      interval_cases j
      exact id
  have hload : (sampleVm.run .new (createRun 7)).1.Undisturbed (.request 1 .delete true) := by
    intro _ p hp
    obtain ⟨q, hq, -⟩ := hp
    change Function.update (fun _ : Nat => (none : Option Process)) 7 (some ⟨true, true⟩) p =
      some q at hq
    by_cases hp7 : p = 7
    · subst hp7
      exact ⟨rfl, _, rfl, rfl, rfl⟩
    · rw [Function.update_of_ne hp7] at hq
      cases hq
  have hremove : ∀ j, ¬ ((sampleVm.run .new (createRun 7 ++ [.request 1 .delete true, .step 1 {},
      .step 1 {}, .step 0 {}, .step 0 {}, .step 0 {}])).1.task j).Writes := by
    apply forall_run_task (n := 2) (Q := fun t => ¬ t.Writes)
    · simp [createRun, VmAction.slot]
    · exact id
    · intro j hj
      interval_cases j <;> exact id
  have hquiet : ∀ {s : Vm} {i : Nat} {o : Outcome} {t : Task}, s.task i = t →
      (∀ st, t ≠ .spawning st ∧ t ≠ .removing) → s.Undisturbed (.step i o) := by
    intro s i o t ht hother _
    subst ht
    exact ⟨fun st h => absurd h (hother st).1, fun h => absurd h (hother (.initial none)).2⟩
  have hall : sampleVm.AllSteps Vm.Undisturbed .new as := by
    refine ⟨fun _ => id, hquiet rfl ?_, hquiet rfl ?_, hquiet rfl ?_,
      fun _ => ⟨fun _ _ => hspawn, fun h => by cases h⟩, hquiet rfl ?_, hload, hquiet rfl ?_,
      hquiet rfl ?_, hquiet rfl ?_, hquiet rfl ?_, hquiet rfl ?_,
      fun _ => ⟨fun _ h => (by cases h), fun _ j _ => hremove j⟩, hquiet rfl ?_, trivial⟩
    all_goals
      intro st
      constructor <;>
        intro h <;>
        cases h
  exact ⟨hall, rfl, deletion_is_final hall (List.prefix_refl as)⟩

/-- A VM is stopped and deleted while its process has not ended yet: its record is not
active, so nothing is killed. -/
theorem stopped_then_deleted_lives_on :
    let s := (sampleVm.run .new (createRun 7 ++ [.request 1 .stop true, .step 1 {}, .step 1 {},
      .request 2 .delete true, .step 2 {}, .step 2 {}])).1
    s.task 1 = .finished ∧ s.task 2 = .deleted ∧ s.host.Live 7 ∧ ¬ s.Gone := by
  intro s
  have hlive : s.host.Live 7 := ⟨⟨true, true⟩, rfl, rfl⟩
  refine ⟨rfl, rfl, hlive, ?_⟩
  intro hgone
  exact (hgone 2 rfl).2 7 hlive

end Caiman.Api
