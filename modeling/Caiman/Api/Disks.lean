import Caiman.Api.Lifecycle

/-!
# Disks of the VMs

Every create clones a base image to the VM's own directory. When that fails it takes
the disk the request names, or the root image that all VMs share. A start takes the
disk of the record.
-/

namespace Caiman.Api

open Lib

/-- An id that `spawn_vm` gives: the start of a random UUID. -/
structure VmId where
  text : String
  generated : ∃ digits : List Char, digits.length = 8 ∧
    (∀ c ∈ digits, c ∈ "0123456789abcdef".toList) ∧ text = "vm-" ++ String.ofList digits
  deriving DecidableEq

def fleet : Machine (VmId → Vm) (VmId × VmAction) (VmId × Launch) :=
  Machine.family fun vm => lifecycle vm.text

def Fleet.new : VmId → Vm := fun _ => .new

/-- In the run, the create of the VM has tried to clone its base image. -/
def Chooses (as : List (VmId × VmAction)) (vm : VmId) (req : CreateVmRequest) (cloned : Bool) :
    Prop :=
  ∃ pre i o post, as = pre ++ (vm, .step i o) :: post ∧
    ((fleet.run Fleet.new pre).1 vm).task i = .makeDisk vm.text req ∧ cloned = !o.fails

/-! ## Own disks -/

theorem joinPath_relative {base path : String} (hpath : path.toList.head? ≠ some '/')
    (hbase : base.toList.getLast? ≠ some '/') : joinPath base path = base ++ "/" ++ path := by
  unfold joinPath
  rw [if_neg hpath, if_neg hbase]

theorem clonedDisk_eq (vm : VmId) :
    clonedDisk vm.text = stateDir ++ "/" ++ vm.text ++ "/" ++ "disk.img" := by
  obtain ⟨digits, hlen, hhex, htext⟩ := vm.generated
  have hne : digits ≠ [] := by
    intro hnil
    rw [hnil] at hlen
    cases hlen
  have hdir : dirOf vm.text = stateDir ++ "/" ++ vm.text := by
    apply joinPath_relative
    · rw [htext]
      simp
    · decide
  have hlast : (dirOf vm.text).toList.getLast? ≠ some '/' := by
    intro hslash
    rw [hdir, htext, ← String.append_assoc, String.toList_append, String.toList_ofList,
      List.getLast?_append_of_ne_nil _ hne, List.getLast?_eq_some_getLast hne] at hslash
    have hmem := hhex _ (List.getLast_mem hne)
    rw [Option.some.inj hslash] at hmem
    exact absurd hmem (by decide)
  unfold clonedDisk
  rw [joinPath_relative (by decide) hlast, hdir]

theorem clonedDisk_injective {a b : VmId} (h : clonedDisk a.text = clonedDisk b.text) : a = b := by
  rw [clonedDisk_eq, clonedDisk_eq] at h
  simp only [String.append_left_inj, String.append_right_inj] at h
  cases a
  cases b
  cases h
  rfl

/-! ## The disk of a launch -/

section

variable {vmId : String} {D : Option String → Prop}

/-- The disk of the record is in `D`. -/
def StateDir.DiskIn (D : Option String → Prop) (dir : StateDir) : Prop :=
  ∀ st, dir = .record st → D st.diskPath

def Task.DiskIn (vmId : String) (D : Option String → Prop) : Task → Prop
  | .makeDisk id _ => id = vmId
  | .announce disk => D disk
  | .checking st | .prepare st | .spawning st | .confirm _ st | .settling st | .signalling st _
  | .savingOff st _ | .reconciling st _ | .savingReconciled st _ => D st.diskPath
  | _ => True

theorem Host.diskIn_save {h : Host} (hdir : h.dir.DiskIn D) (st : VmState) (hst : D st.diskPath)
    (o : Outcome) : (h.save st o).dir.DiskIn D := by
  intro st' hst'
  unfold Host.save at hst'
  split at hst'
  · split at hst'
    · cases hst'
    · exact hdir st' hst'
  · cases hst'
    exact hst

theorem StateDir.diskIn_of_load {dir : StateDir} (h : dir.load = none) : dir.DiskIn D := by
  intro st hst
  rw [hst] at h
  cases h

theorem StateDir.diskIn_ensure {dir : StateDir} (hdir : dir.DiskIn D) : dir.ensure.DiskIn D := by
  cases dir with
  | absent => exact StateDir.diskIn_of_load rfl
  | bare => exact hdir
  | record st => exact hdir

theorem Task.diskIn_step {t : Task} {h : Host} (ht : t.DiskIn vmId D) (hdir : h.dir.DiskIn D)
    {o : Outcome} (hmake : ∀ req, t = .makeDisk vmId req → D (chooseDisk vmId req (!o.fails))) :
    (t.step h o).1.dir.DiskIn D ∧ (t.step h o).2.1.DiskIn vmId D ∧
      ∀ d ∈ (t.step h o).2.2, D d := by
  have hquiet : ∀ d ∈ ([] : List Launch), D d := List.forall_mem_nil _
  cases t with
  | finished => exact ⟨hdir, trivial, hquiet⟩
  | deleted => exact ⟨hdir, trivial, hquiet⟩
  | makeDisk id req =>
      cases ht
      refine ⟨?_, hmake req rfl, hquiet⟩
      simp only [Task.step]
      split
      · exact hdir
      · exact StateDir.diskIn_ensure hdir
  | announce disk =>
      refine ⟨Host.diskIn_save hdir (.initial disk) ht o, ?_, hquiet⟩
      simp only [Task.step]
      split
      · trivial
      · exact ht
  | checking st =>
      simp only [Task.step]
      split
      · exact ⟨hdir, ht, hquiet⟩
      · refine ⟨hdir, ?_, hquiet⟩
        split
        · trivial
        · exact ht
  | prepare st =>
      refine ⟨hdir, ?_, hquiet⟩
      simp only [Task.step]
      split
      · trivial
      · exact ht
  | spawning st =>
      simp only [Task.step]
      split
      · exact ⟨hdir, trivial, hquiet⟩
      · split
        · exact ⟨hdir, ht, hquiet⟩
        · refine ⟨hdir, ht, ?_⟩
          intro d hd
          rw [List.mem_singleton.mp hd]
          exact ht
  | confirm pid st =>
      simp only [Task.step]
      split
      · rw [Host.release_dir]
        exact ⟨Host.diskIn_save hdir (st.launched pid) ht o, trivial, hquiet⟩
      · exact ⟨Host.diskIn_save hdir (st.launched pid) ht o, trivial, hquiet⟩
  | waiting pid =>
      simp only [Task.step]
      split
      · rw [Host.release_dir]
        exact ⟨hdir, trivial, hquiet⟩
      · split
        · split <;> exact ⟨hdir, trivial, hquiet⟩
        · exact ⟨hdir, trivial, hquiet⟩
  | woken =>
      simp only [Task.step]
      split
      · rename_i st hst
        refine ⟨hdir, ?_, hquiet⟩
        split
        · trivial
        · exact hdir st (StateDir.load_eq_some hst)
      · exact ⟨hdir, trivial, hquiet⟩
  | settling st => exact ⟨Host.diskIn_save hdir st.reaped ht o, trivial, hquiet⟩
  | signalling st source =>
      simp only [Task.step]
      split
      · exact ⟨hdir, ht, hquiet⟩
      · refine ⟨hdir, ?_, hquiet⟩
        split
        · trivial
        · exact ht
      · rw [Host.kill_dir]
        exact ⟨hdir, ht, hquiet⟩
  | savingOff st source =>
      refine ⟨Host.diskIn_save hdir st.signalled ht o, ?_, hquiet⟩
      simp only [Task.step]
      split <;> trivial
  | reconciling st checks =>
      cases checks with
      | zero => exact ⟨hdir, trivial, hquiet⟩
      | succ checks =>
          simp only [Task.step]
          split <;> exact ⟨hdir, ht, hquiet⟩
  | savingReconciled st checks =>
      exact ⟨Host.diskIn_save hdir st.reconciled ht o, ht, hquiet⟩
  | removing =>
      simp only [Task.step]
      split
      · refine ⟨?_, trivial, hquiet⟩
        split
        · exact StateDir.diskIn_of_load rfl
        · exact hdir
      · exact ⟨StateDir.diskIn_of_load rfl, trivial, hquiet⟩
  | removingLog =>
      refine ⟨hdir, ?_, hquiet⟩
      simp only [Task.step]
      split <;> trivial

structure Vm.DiskIn (vmId : String) (D : Option String → Prop) (s : Vm) : Prop where
  dir : s.host.dir.DiskIn D
  task : ∀ i, (s.task i).DiskIn vmId D

/-- A clone that is tried, or has failed, makes the disk one of `D`. -/
def Vm.ChoosesIn (vmId : String) (D : Option String → Prop) (s : Vm) (a : VmAction) : Prop :=
  ∀ i o req, a = .step i o → s.task i = .makeDisk vmId req → D (chooseDisk vmId req (!o.fails))

theorem new_diskIn : Vm.new.DiskIn vmId D := ⟨StateDir.diskIn_of_load rfl, fun _ => trivial⟩

theorem step_diskIn (s : Vm) (a : VmAction) (hs : s.DiskIn vmId D) (ha : s.ChoosesIn vmId D a) :
    ((lifecycle vmId).step s a).1.DiskIn vmId D := by
  apply step_rule hs
  · intro i req _ _ _
    exact ⟨hs.dir, Vm.forall_advance (h := s.host) rfl fun j _ => hs.task j⟩
  · intro i kind readable _ _
    refine ⟨hs.dir, Vm.forall_advance ?_ fun j _ => hs.task j⟩
    rcases kind.first_cases (if readable then s.host.dir.load else none) with
      h | ⟨-, h, -⟩ | ⟨st, hload, h⟩
    · rw [h]
      trivial
    · rw [h]
      trivial
    · have hst : D st.diskPath := by
        cases readable with
        | false => cases hload
        | true => exact hs.dir st (StateDir.load_eq_some hload)
      rcases h with h | ⟨checks, h⟩ | ⟨source, h, -⟩
      all_goals
        rw [h]
        exact hst
  · intro i o h
    obtain ⟨hdir, htask, -⟩ := Task.diskIn_step (hs.task i) hs.dir (ha i o · h)
    exact ⟨hdir, Vm.forall_advance htask fun j _ => hs.task j⟩
  · intro pid _
    refine ⟨?_, hs.task⟩
    show (s.host.kill pid).dir.DiskIn D
    rw [Host.kill_dir]
    exact hs.dir
  · intro pid p _ _ _ _
    exact ⟨hs.dir, hs.task⟩

theorem diskIn_of_launch {s : Vm} {a : VmAction} (hs : s.DiskIn vmId D)
    (ha : s.ChoosesIn vmId D a) {d : Launch} (hd : d ∈ ((lifecycle vmId).step s a).2) : D d := by
  cases a with
  | create i req =>
      simp only [lifecycle] at hd
      split at hd <;> cases hd
  | request i kind readable =>
      simp only [lifecycle] at hd
      split at hd <;> cases hd
  | step i o => exact (Task.diskIn_step (hs.task i) hs.dir (ha i o · rfl)).2.2 d hd
  | exit pid => cases hd
  | collect pid =>
      simp only [lifecycle] at hd
      split at hd
      · split at hd <;> cases hd
      · cases hd

end

theorem launched_chosen {as : List (VmId × VmAction)} {vm : VmId} {d : Launch}
    (hd : (vm, d) ∈ (fleet.run Fleet.new as).2) :
    ∃ req cloned, Chooses as vm req cloned ∧ d = chooseDisk vm.text req cloned := by
  let D : VmId → Option String → Prop := fun vm d =>
    ∃ req cloned, Chooses as vm req cloned ∧ d = chooseDisk vm.text req cloned
  obtain ⟨pre, a, post, has, hlaunch⟩ := fleet.mem_run_iff.mp hd
  have hall : fleet.AllSteps (fun s a => (s a.1).ChoosesIn a.1.text (D a.1) a.2) Fleet.new as := by
    apply fleet.allSteps_iff_split.mpr
    intro pre a post has i o req ha hi
    obtain ⟨vm, a⟩ := a
    cases ha
    exact ⟨req, _, ⟨pre, i, o, post, has, hi, rfl⟩, rfl⟩
  have hbefore := hall
  rw [has] at hbefore
  have hdisk := Machine.family_invariant _ (fun _ => step_diskIn) (fun _ => new_diskIn)
    (fleet.allSteps_append.mp hbefore).1 a.1
  have hnow := fleet.allSteps_iff_split.mp hall pre a post has
  obtain ⟨d', hd', hmark⟩ := List.mem_map.mp hlaunch
  cases hmark
  exact diskIn_of_launch hdisk hnow hd'

/-- For every interleaving of the creates, starts and other requests of all VMs: every
launch of a VM has its own clone when the base image was cloned for it, and else the disk
its request named or the shared one. Two VMs are launched with the same disk only when the
clone of one of them failed. -/
theorem disks_of_launches (as : List (VmId × VmAction)) :
    (∀ vm d, (vm, d) ∈ (fleet.run Fleet.new as).2 →
      ∃ req cloned, Chooses as vm req cloned ∧ d = chooseDisk vm.text req cloned) ∧
    ∀ a b d, a ≠ b → (a, d) ∈ (fleet.run Fleet.new as).2 →
      (b, d) ∈ (fleet.run Fleet.new as).2 →
      ∃ req, Chooses as a req false ∨ Chooses as b req false := by
  constructor
  · intro vm d hd
    exact launched_chosen hd
  · intro a b d hab ha hb
    obtain ⟨reqA, clonedA, hchoosesA, hdiskA⟩ := launched_chosen ha
    obtain ⟨reqB, clonedB, hchoosesB, hdiskB⟩ := launched_chosen hb
    cases clonedA with
    | false => exact ⟨reqA, Or.inl hchoosesA⟩
    | true =>
        cases clonedB with
        | false => exact ⟨reqB, Or.inr hchoosesB⟩
        | true =>
            have hsame : clonedDisk a.text = clonedDisk b.text := by
              rw [hdiskA] at hdiskB
              exact Option.some.inj hdiskB
            exact absurd (clonedDisk_injective hsame) hab

def firstVm : VmId := ⟨"vm-00c0ffee", "00c0ffee".toList, rfl, by simp, rfl⟩

def secondVm : VmId := ⟨"vm-0badcafe", "0badcafe".toList, rfl, by simp, rfl⟩

def createUncloned (vm : VmId) (pid : Nat) : List (VmId × VmAction) :=
  [(vm, .create 0 ⟨none, none⟩), (vm, .step 0 { fails := true }), (vm, .step 0 {}),
    (vm, .step 0 {}), (vm, .step 0 { pid })]

theorem failed_clones_share_disk :
    firstVm ≠ secondVm ∧
      (fleet.run Fleet.new (createUncloned firstVm 7 ++ createUncloned secondVm 8)).2 =
        [(firstVm, some sharedDisk), (secondVm, some sharedDisk)] :=
  ⟨by decide, rfl⟩

end Caiman.Api
