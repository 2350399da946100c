import Mathlib.Tactic.IntervalCases
import Caiman.Api.Lifecycle

/-!
# One VMM per VM

`restart_vm` refuses to start a VM whose record names a process that is there. The
check sees one pid, and it is not held until the spawn.
-/

namespace Caiman.Api

open Lib

variable {vmId : String}

def Vm.OneVmm (s : Vm) : Prop := ∀ p q, s.host.Live p → s.host.Live q → p = q

/-- On the way to a spawn, with nothing left to check. -/
def Task.Armed : Task → Prop
  | .makeDisk .. | .announce _ | .prepare _ | .spawning _ => True
  | _ => False

/-- A start that makes its check has loaded the pid of every live process, and no other
start or create is between its own check and its spawn. -/
def Vm.Guarded (s : Vm) : VmAction → Prop
  | .step i _ => ∀ st, s.task i = .checking st →
      (∀ p, s.host.Live p → st.pid = some p) ∧ ∀ j, ¬ (s.task j).Armed
  | _ => True

theorem Task.armed_of_step {t : Task} {h : Host} {o : Outcome} (ht : (t.step h o).2.1.Armed) :
    t.Armed ∨ ∃ st, t = .checking st ∧ ∀ pid, st.pid = some pid → h.alive o.taken pid = false := by
  cases t with
  | makeDisk id req => exact Or.inl trivial
  | announce disk => exact Or.inl trivial
  | prepare st => exact Or.inl trivial
  | spawning st => exact Or.inl trivial
  | checking st =>
      refine Or.inr ⟨st, rfl, ?_⟩
      intro pid hpid
      simp only [Task.step, hpid] at ht
      split at ht
      · cases ht
      · rename_i hgone
        simpa using hgone
  | finished => cases ht
  | deleted => cases ht
  | confirm pid st =>
      simp only [Task.step] at ht
      split at ht <;> cases ht
  | waiting pid =>
      simp only [Task.step] at ht
      split at ht
      · cases ht
      · split at ht
        · split at ht <;> cases ht
        · cases ht
  | woken =>
      simp only [Task.step] at ht
      split at ht
      · split at ht <;> cases ht
      · cases ht
  | settling st => cases ht
  | signalling st source =>
      simp only [Task.step] at ht
      split at ht
      · cases ht
      · split at ht <;> cases ht
      · cases ht
  | savingOff st source =>
      simp only [Task.step] at ht
      split at ht <;> cases ht
  | reconciling st checks =>
      rcases Task.reconciling_step h o st checks with hr | ⟨n, hr | hr⟩
      all_goals
        rw [hr] at ht
        cases ht
  | savingReconciled st checks => cases ht
  | removing =>
      simp only [Task.step] at ht
      split at ht <;> cases ht
  | removingLog =>
      simp only [Task.step] at ht
      split at ht <;> cases ht

theorem RequestKind.not_armed_first (kind : RequestKind) (loaded : Option VmState) :
    ¬ (kind.first loaded).Armed := by
  rcases kind.first_cases loaded with h | ⟨-, h, -⟩ | ⟨st, -, h | ⟨checks, h⟩ | ⟨source, h, -⟩⟩
  all_goals
    rw [h]
    exact id

/-- At most one task is on the way to a spawn, and then no process is live. -/
structure Vm.Single (s : Vm) : Prop where
  fresh : s.Fresh
  live : s.OneVmm
  armed : ∀ i j, (s.task i).Armed → (s.task j).Armed → i = j
  apart : ∀ i p, (s.task i).Armed → ¬ s.host.Live p

theorem new_single : Vm.new.Single := by
  constructor
  · exact new_fresh
  · intro p q hp
    obtain ⟨proc, hproc, -⟩ := hp
    cases hproc
  · intro i j hi
    cases hi
  · intro i p hi
    cases hi

theorem Vm.Single.step {s : Vm} (hs : s.Single) (i : Nat) (o : Outcome)
    (hguard : s.Guarded (.step i o)) (hfresh : ((lifecycle vmId).step s (.step i o)).1.Fresh) :
    (s.advance i ((s.task i).step s.host o).1 ((s.task i).step s.host o).2.1).Single := by
  have hspawn : ∀ p, ((s.task i).step s.host o).1.Live p → ¬ s.host.Live p →
      (s.task i).Armed ∧ ∃ st, ((s.task i).step s.host o).2.1 = .confirm p st := by
    intro p hp hnew
    rcases Task.live_of_step hp with hold | ⟨st, ht, hnext⟩
    · exact absurd hold hnew
    · rw [ht]
      exact ⟨trivial, st, ht ▸ hnext⟩
  have harmed : ((s.task i).step s.host o).2.1.Armed →
      (∀ p, ¬ s.host.Live p) ∧ ∀ j, (s.task j).Armed → j = i := by
    intro ht
    rcases Task.armed_of_step ht with hold | ⟨st, hst, hgone⟩
    · exact ⟨fun p => hs.apart i p hold, fun j hj => hs.armed j i hj hold⟩
    · obtain ⟨hknown, hnone⟩ := hguard st hst
      refine ⟨?_, fun j hj => absurd hj (hnone j)⟩
      intro p hp
      have halive := hgone p (hknown p hp)
      rw [Host.alive_of_live hp] at halive
      cases halive
  have htask : ∀ j, ((s.advance i ((s.task i).step s.host o).1
      ((s.task i).step s.host o).2.1).task j).Armed → j ≠ i → (s.task j).Armed := by
    intro j hj hne
    simpa [Vm.advance, hne] using hj
  have hown : ((s.advance i ((s.task i).step s.host o).1
      ((s.task i).step s.host o).2.1).task i) = ((s.task i).step s.host o).2.1 :=
    Function.update_self _ _ _
  constructor
  · exact hfresh
  · intro p q hp hq
    by_cases hpold : s.host.Live p
    · by_cases hqold : s.host.Live q
      · exact hs.live p q hpold hqold
      · exact absurd hpold (hs.apart i p (hspawn q hq hqold).1)
    · obtain ⟨hi, st, hnext⟩ := hspawn p hp hpold
      obtain ⟨-, st', hnext'⟩ := hspawn q hq (hs.apart i q hi)
      rw [hnext] at hnext'
      cases hnext'
      rfl
  · intro j k hj hk
    by_cases hji : j = i
    · subst hji
      rw [hown] at hj
      by_cases hki : k = j
      · exact hki.symm
      · exact ((harmed hj).2 k (htask k hk hki)).symm
    · by_cases hki : k = i
      · subst hki
        rw [hown] at hk
        exact (harmed hk).2 j (htask j hj hji)
      · exact hs.armed j k (htask j hj hji) (htask k hk hki)
  · intro j p hj hp
    by_cases hpold : s.host.Live p
    · by_cases hji : j = i
      · subst hji
        rw [hown] at hj
        exact (harmed hj).1 p hpold
      · exact hs.apart j p (htask j hj hji) hpold
    · obtain ⟨hi, st, hnext⟩ := hspawn p hp hpold
      by_cases hji : j = i
      · subst hji
        rw [hown, hnext] at hj
        cases hj
      · exact hji (hs.armed j i (htask j hj hji) hi)

theorem Vm.Single.of_le {s t : Vm} (hs : s.Single) (hfresh : t.Fresh)
    (hlive : ∀ p, t.host.Live p → s.host.Live p)
    (harmed : ∀ i, (t.task i).Armed → (s.task i).Armed) : t.Single := by
  constructor
  · exact hfresh
  · intro p q hp hq
    exact hs.live p q (hlive p hp) (hlive q hq)
  · intro i j hi hj
    exact hs.armed i j (harmed i hi) (harmed j hj)
  · intro i p hi hp
    exact hs.apart i p (harmed i hi) (hlive p hp)

theorem step_single (s : Vm) (a : VmAction) (hs : s.Single) (ha : s.Guarded a) :
    ((lifecycle vmId).step s a).1.Single := by
  have hfresh := step_fresh vmId s a hs.fresh
  apply step_rule (I := fun t => t.Fresh → t.Single) (fun _ => hs) ?_ ?_ ?_ ?_ ?_ hfresh
  · intro i req _ hcreated hfree hnext
    obtain ⟨-, hproc, htask⟩ := hs.fresh hcreated
    have hnone : ∀ p, ¬ s.host.Live p := by
      intro p hp
      obtain ⟨q, hq, -⟩ := hp
      rw [hproc p] at hq
      cases hq
    have honly : ∀ j, ((s.advance i s.host (.makeDisk vmId req)).task j).Armed → j = i := by
      intro j hj
      by_contra hne
      simp only [Vm.advance, Function.update_of_ne hne] at hj
      have hvacant := htask j
      revert hj hvacant
      cases s.task j <;> simp [Task.Armed, Task.Vacant]
    constructor
    · exact hnext
    · intro p q hp
      exact absurd hp (hnone p)
    · intro j k hj hk
      rw [honly j hj, honly k hk]
    · intro j p _
      exact hnone p
  · intro i kind readable _ hfree hnext
    apply hs.of_le hnext (fun p hp => hp)
    intro j hj
    by_cases hji : j = i
    · subst hji
      simp only [Vm.advance, Function.update_self] at hj
      exact absurd hj (kind.not_armed_first _)
    · simpa [Vm.advance, hji] using hj
  · intro i o hstep hnext
    subst hstep
    exact hs.step i o ha hfresh
  · intro pid _ hnext
    exact hs.of_le hnext (fun p hp => (Host.live_kill.mp hp).1) (fun j hj => hj)
  · intro pid p _ _ _ _ hnext
    exact hs.of_le hnext (fun p hp => (Host.live_remove.mp hp).1) (fun j hj => hj)

/-- For every interleaving of requests, reapers and exits whose checks are guarded: no
state has two live VMMs. -/
theorem one_vmm_per_vm {as : List VmAction}
    (hall : (lifecycle vmId).AllSteps Vm.Guarded .new as) {pre : List VmAction}
    (hpre : pre <+: as) : ((lifecycle vmId).run .new pre).1.OneVmm := by
  have hsingle := (lifecycle vmId).prefixes_invariant step_single new_single hall hpre
  exact hsingle.live

/-- The VM is started again after its process has ended and the reaper is done. -/
theorem one_vmm_per_vm_restarted :
    let as := createRun 7 ++ [.exit 7, .step 0 {}, .step 0 {}, .step 0 {}, .request 1 .start true,
      .step 1 {}, .step 1 {}, .step 1 { pid := 8 }]
    sampleVm.AllSteps Vm.Guarded .new as ∧ (sampleVm.run .new as).1.host.Live 8 ∧
      (sampleVm.run .new as).1.OneVmm := by
  intro as
  let before := createRun 7 ++
    [.exit 7, .step 0 {}, .step 0 {}, .step 0 {}, .request 1 .start true]
  have hproc : (sampleVm.run .new before).1.host.process = Function.update (Function.update
      (Function.update (fun _ => none) 7 (some ⟨true, true⟩)) 7 (some ⟨false, true⟩)) 7 none := rfl
  have hchecked : (sampleVm.run .new before).1.Guarded (.step 1 {}) := by
    intro st hst
    constructor
    · intro p hp
      obtain ⟨q, hq, -⟩ := hp
      rw [hproc] at hq
      simp only [Function.update_idem, Function.update_apply] at hq
      split at hq <;> cases hq
    · apply forall_run_task (n := 2) (Q := fun t => ¬ t.Armed)
      · simp [before, createRun, VmAction.slot]
      · exact id
      · intro j hj
        interval_cases j <;> exact id
  have hother : ∀ {s : Vm} {i : Nat} {o : Outcome} {t : Task}, s.task i = t →
      (∀ st, t ≠ .checking st) → s.Guarded (.step i o) := by
    intro s i o t ht hchecking st hst
    exact absurd (ht.symm.trans hst) (hchecking st)
  have hall : sampleVm.AllSteps Vm.Guarded .new as := by
    refine ⟨trivial, hother rfl ?_, hother rfl ?_, hother rfl ?_, hother rfl ?_, hother rfl ?_,
      trivial, hother rfl ?_, hother rfl ?_, hother rfl ?_, trivial, hchecked, hother rfl ?_,
      hother rfl ?_, trivial⟩
    all_goals
      intro st h
      cases h
  exact ⟨hall, ⟨⟨true, true⟩, rfl, rfl⟩, one_vmm_per_vm hall (List.prefix_refl as)⟩

/-- The VM is stopped and started while its process has not ended yet: the stop has
cleared the pid the check would have seen. -/
theorem stopped_then_started_runs_twice :
    ¬ (sampleVm.run .new (createRun 7 ++ [.request 1 .stop true, .step 1 {}, .step 1 {},
      .request 2 .start true, .step 2 {}, .step 2 {}, .step 2 { pid := 8 }])).1.OneVmm := by
  intro h
  have hsame := h 7 8 ⟨⟨true, true⟩, rfl, rfl⟩ ⟨⟨true, true⟩, rfl, rfl⟩
  cases hsame

end Caiman.Api
