import Mathlib.Logic.Function.Basic
import Caiman.Lib.Run
import Caiman.Api.State

/-!
# Life of a VM

The handlers of the API and the reapers of its child processes, for one VM. Each
reads, signals, checks, spawns and writes in steps of its own, and nothing keeps
the steps of one from falling between those of another. A `SIGTERM` has no effect
of its own: the process ends when it ends. What the kernel and the file system
answer stands in the action.
-/

namespace Caiman.Api

open Lib

/-- The state directory: without a readable record a VM is not found. -/
inductive StateDir
  | absent
  | bare
  | record (st : VmState)
  deriving DecidableEq

def StateDir.load : StateDir → Option VmState
  | .record st => some st
  | _ => none

theorem StateDir.load_eq_some {dir : StateDir} {st : VmState} (h : dir.load = some st) :
    dir = .record st := by
  cases dir with
  | absent => cases h
  | bare => cases h
  | record st' =>
      cases h
      rfl

def StateDir.ensure : StateDir → StateDir
  | .absent => .bare
  | dir => dir

/-- A process that has ended stays in the process table until it is waited for: by
the task that holds its handle or, once the handle is dropped, by the runtime. -/
structure Process where
  alive : Bool
  held : Bool
  deriving DecidableEq

structure Host where
  dir : StateDir
  process : Nat → Option Process

namespace Host

def Live (h : Host) (pid : Nat) : Prop := ∃ p, h.process pid = some p ∧ p.alive = true

/-- `kill(pid, 0) == 0`, and that `/proc/pid` exists. `taken`: another program has
been given the pid. -/
def alive (h : Host) (taken : Bool) (pid : Nat) : Bool := (h.process pid).isSome || taken

/-- A process ends; nothing happens to a pid that names no live one. -/
def kill (h : Host) (pid : Nat) : Host :=
  match h.process pid with
  | some p => { h with process := Function.update h.process pid (some { p with alive := false }) }
  | none => h

def remove (h : Host) (pid : Nat) : Host :=
  { h with process := Function.update h.process pid none }

def release (h : Host) (pid : Nat) : Host :=
  match h.process pid with
  | some p => { h with process := Function.update h.process pid (some { p with held := false }) }
  | none => h

def spawn (h : Host) (pid : Nat) : Host :=
  { h with process := Function.update h.process pid (some ⟨true, true⟩) }

end Host

structure Outcome where
  fails : Bool := false
  /-- A write or removal that fails leaves the directory without a readable record. -/
  torn : Bool := false
  pid : Nat := 0
  taken : Bool := false
  deriving DecidableEq

def Host.save (h : Host) (st : VmState) (o : Outcome) : Host :=
  if o.fails then
    if o.torn then { h with dir := .bare } else h
  else { h with dir := .record st }

inductive Stopper
  | stop | forceStop | delete
  deriving DecidableEq

/-- A handler or a reaper, by the step it takes next and the copy of the record it
holds. -/
inductive Task
  | finished
  /-- `spawn_vm`: `create_disk` -/
  | makeDisk (id : String) (req : CreateVmRequest)
  /-- `spawn_vm`: `cni_add` and the first save -/
  | announce (disk : Option String)
  /-- `restart_vm`: the check that the VM is not running -/
  | checking (st : VmState)
  /-- `spawn_vm`, `restart_vm`: network, logs and console -/
  | prepare (st : VmState)
  | spawning (st : VmState)
  /-- The save after the spawn -/
  | confirm (pid : Nat) (st : VmState)
  /-- The reaper: `child.wait()` -/
  | waiting (pid : Nat)
  | woken
  | settling (st : VmState)
  /-- `stop_vm`, `kill_vm`: the signal -/
  | signalling (st : VmState) (source : Stopper)
  | savingOff (st : VmState) (source : Stopper)
  /-- `reconcile`: the check, with the number of checks left -/
  | reconciling (st : VmState) (checks : Nat)
  | savingReconciled (st : VmState) (checks : Nat)
  | removing
  | removingLog
  /-- `delete_vm_h` has returned 204 -/
  | deleted
  deriving DecidableEq

/-- `--disk` of a `caiman-vmm` that is launched. -/
abbrev Launch := Option String

def Task.step (h : Host) (o : Outcome) : Task → Host × Task × List Launch
  | .finished => (h, .finished, [])
  | .deleted => (h, .deleted, [])
  | .makeDisk id req =>
      let dir := if o.fails && !o.torn then h.dir else h.dir.ensure
      ({ h with dir }, .announce (chooseDisk id req (!o.fails)), [])
  | .announce disk =>
      let st := VmState.initial disk
      (h.save st o, if o.fails then .finished else .prepare st, [])
  | .checking st =>
      match st.pid with
      | none => (h, .prepare st, [])
      | some pid => (h, if h.alive o.taken pid then .finished else .prepare st, [])
  | .prepare st =>
      -- the console's log is written in the directory
      (h, if o.fails || h.dir = .absent then .finished else .spawning st, [])
  | .spawning st =>
      if o.fails then (h, .finished, [])
      else if (h.process o.pid).isSome then (h, .spawning st, [])
      else (h.spawn o.pid, .confirm o.pid st, [st.diskPath])
  | .confirm pid st =>
      if o.fails then ((h.save (st.launched pid) o).release pid, .finished, [])
      else (h.save (st.launched pid) o, .waiting pid, [])
  | .waiting pid =>
      if o.fails then (h.release pid, .woken, [])
      else
        match h.process pid with
        | some p => if p.alive then (h, .waiting pid, []) else (h.remove pid, .woken, [])
        | none => (h, .waiting pid, [])
  | .woken =>
      match h.dir.load with
      | some st => (h, if o.fails then .finished else .settling st, [])
      | none => (h, .finished, [])
  | .settling st => (h.save st.reaped o, .finished, [])
  | .signalling st source =>
      match st.pid, source with
      | none, _ => (h, .savingOff st source, [])
      | some _, .stop => (h, if o.fails then .finished else .savingOff st source, [])
      | some pid, _ => (h.kill pid, .savingOff st source, [])
  | .savingOff st source =>
      (h.save st.signalled o, if source = .delete then .removing else .finished, [])
  | .reconciling _ 0 => (h, .finished, [])
  | .reconciling st (checks + 1) =>
      if st.status = .active ∧ st.pid.any (h.alive o.taken) = false then
        (h, .savingReconciled st checks, [])
      else (h, .reconciling st checks, [])
  | .savingReconciled st checks =>
      (h.save st.reconciled o, .reconciling st.reconciled checks, [])
  | .removing =>
      if o.fails then
        (if o.torn && h.dir ≠ .absent then { h with dir := .bare } else h, .finished, [])
      else ({ h with dir := .absent }, .removingLog, [])
  | .removingLog => (h, if o.fails then .finished else .deleted, [])

theorem Task.reconciling_step (h : Host) (o : Outcome) (st : VmState) (checks : Nat) :
    ((Task.reconciling st checks).step h o).2.1 = .finished ∨
      ∃ n, ((Task.reconciling st checks).step h o).2.1 = .reconciling st n ∨
        ((Task.reconciling st checks).step h o).2.1 = .savingReconciled st n := by
  cases checks with
  | zero => exact Or.inl rfl
  | succ checks =>
      refine Or.inr ⟨checks, ?_⟩
      simp only [Task.step]
      split
      · exact Or.inr rfl
      · exact Or.inl rfl

/-- A request, and the number of times a read of the records reconciles the VM. -/
inductive RequestKind
  | start
  | stop
  | forceStop
  /-- `get_vm`, `get_nodes_real`: once; `list_vms`, `get_cluster_real`: twice -/
  | read (checks : Nat)
  | delete
  deriving DecidableEq

def RequestKind.first : RequestKind → Option VmState → Task
  | .start, some st => .checking st
  | .stop, some st => .signalling st .stop
  | .forceStop, some st => .signalling st .forceStop
  | .read checks, some st => .reconciling st checks
  | .delete, some st => if st.status = .active then .signalling st .delete else .removing
  | .delete, none => .removing
  | _, none => .finished

theorem RequestKind.first_cases (kind : RequestKind) (loaded : Option VmState) :
    kind.first loaded = .finished ∨
    (kind = .delete ∧ kind.first loaded = .removing ∧
      ∀ st, loaded = some st → st.status ≠ .active) ∨
    ∃ st, loaded = some st ∧
      (kind.first loaded = .checking st ∨
        (∃ checks, kind.first loaded = .reconciling st checks) ∨
        ∃ source, kind.first loaded = .signalling st source ∧
          (source = .delete → kind = .delete)) := by
  cases loaded with
  | none =>
      cases kind with
      | delete =>
          refine Or.inr (Or.inl ⟨rfl, rfl, ?_⟩)
          intro st hst
          cases hst
      | _ => exact Or.inl rfl
  | some st =>
      cases kind with
      | start => exact Or.inr (Or.inr ⟨st, rfl, Or.inl rfl⟩)
      | stop =>
          refine Or.inr (Or.inr ⟨st, rfl, Or.inr (Or.inr ⟨.stop, rfl, ?_⟩)⟩)
          intro hsource
          cases hsource
      | forceStop =>
          refine Or.inr (Or.inr ⟨st, rfl, Or.inr (Or.inr ⟨.forceStop, rfl, ?_⟩)⟩)
          intro hsource
          cases hsource
      | read checks => exact Or.inr (Or.inr ⟨st, rfl, Or.inr (Or.inl ⟨checks, rfl⟩)⟩)
      | delete =>
          by_cases hst : st.status = .active
          · exact Or.inr (Or.inr ⟨st, rfl, Or.inr (Or.inr ⟨.delete, if_pos hst, fun _ => rfl⟩)⟩)
          · refine Or.inr (Or.inl ⟨rfl, if_neg hst, ?_⟩)
            intro other hother
            cases hother
            exact hst

structure Vm where
  created : Bool
  host : Host
  task : Nat → Task

/-- An id that nothing has been created under. -/
def Vm.new : Vm := ⟨false, ⟨.absent, fun _ => none⟩, fun _ => .finished⟩

inductive VmAction
  /-- A create request is given the VM's id. -/
  | create (i : Nat) (req : CreateVmRequest)
  | request (i : Nat) (kind : RequestKind) (readable : Bool)
  | step (i : Nat) (o : Outcome)
  | exit (pid : Nat)
  /-- The runtime waits for a child nobody holds. -/
  | collect (pid : Nat)
  deriving DecidableEq

def Vm.advance (s : Vm) (i : Nat) (h : Host) (t : Task) : Vm :=
  { s with host := h, task := Function.update s.task i t }

theorem Vm.advance_task_cases (s : Vm) (i : Nat) (h : Host) (t : Task) (j : Nat) :
    (j = i ∧ (s.advance i h t).task j = t) ∨ (j ≠ i ∧ (s.advance i h t).task j = s.task j) := by
  by_cases hj : j = i
  · subst hj
    exact Or.inl ⟨rfl, Function.update_self _ _ _⟩
  · exact Or.inr ⟨hj, Function.update_of_ne hj _ _⟩

theorem Vm.forall_advance {s : Vm} {i : Nat} {h : Host} {t : Task} {Q : Task → Prop} (ht : Q t)
    (hs : ∀ j, j ≠ i → Q (s.task j)) (j : Nat) : Q ((s.advance i h t).task j) := by
  rcases s.advance_task_cases i h t j with ⟨-, hj⟩ | ⟨hne, hj⟩
  · rw [hj]
    exact ht
  · rw [hj]
    exact hs j hne

/-- New requests take a free slot; no id is given to two create requests. -/
def lifecycle (vmId : String) : Machine Vm VmAction Launch where
  step s
    | .create i req =>
        if s.created || s.task i ≠ .finished then (s, [])
        else ({ s.advance i s.host (.makeDisk vmId req) with created := true }, [])
    | .request i kind readable =>
        if s.task i ≠ .finished then (s, [])
        else (s.advance i s.host (kind.first (if readable then s.host.dir.load else none)), [])
    | .step i o =>
        let next := (s.task i).step s.host o
        (s.advance i next.1 next.2.1, next.2.2)
    | .exit pid => ({ s with host := s.host.kill pid }, [])
    | .collect pid =>
        match s.host.process pid with
        | some p =>
            if p.alive || p.held then (s, []) else ({ s with host := s.host.remove pid }, [])
        | none => (s, [])

theorem step_rule {vmId : String} {I : Vm → Prop} {s : Vm} {a : VmAction} (hs : I s)
    (hcreate : ∀ i req, a = .create i req → s.created = false → s.task i = .finished →
      I { s.advance i s.host (.makeDisk vmId req) with created := true })
    (hrequest : ∀ i kind readable, a = .request i kind readable → s.task i = .finished →
      I (s.advance i s.host (kind.first (if readable then s.host.dir.load else none))))
    (hstep : ∀ i o, a = .step i o →
      I (s.advance i ((s.task i).step s.host o).1 ((s.task i).step s.host o).2.1))
    (hexit : ∀ pid, a = .exit pid → I { s with host := s.host.kill pid })
    (hcollect : ∀ pid p, a = .collect pid → s.host.process pid = some p → p.alive = false →
      p.held = false → I { s with host := s.host.remove pid }) :
    I ((lifecycle vmId).step s a).1 := by
  cases a with
  | create i req =>
      simp only [lifecycle]
      split
      · exact hs
      · rename_i hfree
        simp only [Bool.or_eq_true, decide_eq_true_eq, not_or, Bool.not_eq_true,
          ne_eq, not_not] at hfree
        exact hcreate i req rfl hfree.1 hfree.2
  | request i kind readable =>
      simp only [lifecycle]
      split
      · exact hs
      · rename_i hfree
        exact hrequest i kind readable rfl (not_not.mp hfree)
  | step i o => exact hstep i o rfl
  | exit pid => exact hexit pid rfl
  | collect pid =>
      simp only [lifecycle]
      cases hpid : s.host.process pid with
      | none => exact hs
      | some p =>
          dsimp only
          split
          · exact hs
          · rename_i hdone
            simp only [Bool.or_eq_true, not_or, Bool.not_eq_true] at hdone
            exact hcollect pid p rfl hpid hdone.1 hdone.2

def VmAction.slot : VmAction → Option Nat
  | .create i _ | .request i _ _ | .step i _ => some i
  | _ => none

theorem run_task_of_slot {vmId : String} {as : List VmAction} {j : Nat}
    (h : ∀ a ∈ as, a.slot ≠ some j) (s : Vm) :
    ((lifecycle vmId).run s as).1.task j = s.task j := by
  have hother : ∀ (t : Vm) (a : VmAction), a.slot ≠ some j →
      ((lifecycle vmId).step t a).1.task j = t.task j := by
    intro t a ha
    apply step_rule (I := fun u => u.task j = t.task j) rfl
    · intro i req hi _ _
      subst hi
      exact Function.update_of_ne (fun hj => ha (congrArg some hj.symm)) _ _
    · intro i kind readable hi _
      subst hi
      exact Function.update_of_ne (fun hj => ha (congrArg some hj.symm)) _ _
    · intro i o hi
      subst hi
      exact Function.update_of_ne (fun hj => ha (congrArg some hj.symm)) _ _
    · intro pid _
      rfl
    · intro pid p _ _ _ _
      rfl
  induction as generalizing s with
  | nil => rfl
  | cons a as ih =>
      rw [Machine.run_cons]
      dsimp only
      rw [ih (fun b hb => h b (List.mem_cons_of_mem a hb)), hother s a (h a List.mem_cons_self)]

theorem forall_run_task {vmId : String} {as : List VmAction} {n : Nat} {Q : Task → Prop}
    (hslots : ∀ a ∈ as, ∀ i, a.slot = some i → i < n) (hfinished : Q .finished)
    (hused : ∀ j < n, Q (((lifecycle vmId).run .new as).1.task j)) (j : Nat) :
    Q (((lifecycle vmId).run .new as).1.task j) := by
  by_cases hj : j < n
  · exact hused j hj
  · have hslot : ∀ a ∈ as, a.slot ≠ some j := fun a ha h => hj (hslots a ha j h)
    rw [run_task_of_slot hslot]
    exact hfinished

abbrev sampleVm : Machine Vm VmAction Launch := lifecycle "vm-00c0ffee"

def createRun (pid : Nat) : List VmAction :=
  [.create 0 ⟨none, none⟩, .step 0 {}, .step 0 {}, .step 0 {}, .step 0 { pid },
    .step 0 {}]

/-! ## Processes -/

namespace Host

theorem live_kill {h : Host} {pid p : Nat} : (h.kill pid).Live p ↔ h.Live p ∧ p ≠ pid := by
  unfold Live kill
  by_cases hp : p = pid
  · subst hp
    cases hproc : h.process p with
    | none => simp [hproc]
    | some q => simp
  · cases hproc : h.process pid with
    | none => simp [hp]
    | some q => simp [hp]

theorem live_remove {h : Host} {pid p : Nat} : (h.remove pid).Live p ↔ h.Live p ∧ p ≠ pid := by
  unfold Live remove
  by_cases hp : p = pid
  · subst hp
    simp
  · simp [hp]

theorem live_release {h : Host} {pid p : Nat} : (h.release pid).Live p ↔ h.Live p := by
  unfold Live release
  cases hproc : h.process pid with
  | none => rfl
  | some q =>
      by_cases hp : p = pid
      · subst hp
        simp [hproc]
      · simp [hp]

theorem live_spawn {h : Host} {pid p : Nat} : (h.spawn pid).Live p ↔ p = pid ∨ h.Live p := by
  unfold Live spawn
  by_cases hp : p = pid
  · subst hp
    simp
  · simp [hp]

theorem live_congr {h h' : Host} (hproc : h'.process = h.process) {p : Nat} :
    h'.Live p ↔ h.Live p := by
  unfold Live
  rw [hproc]

@[simp] theorem kill_dir (h : Host) (pid : Nat) : (h.kill pid).dir = h.dir := by
  unfold kill
  split <;> rfl

@[simp] theorem release_dir (h : Host) (pid : Nat) : (h.release pid).dir = h.dir := by
  unfold release
  split <;> rfl

@[simp] theorem save_process (h : Host) (st : VmState) (o : Outcome) :
    (h.save st o).process = h.process := by
  unfold save
  split
  · split <;> rfl
  · rfl

theorem alive_of_live {h : Host} {p : Nat} (hp : h.Live p) (taken : Bool) :
    h.alive taken p = true := by
  obtain ⟨q, hq, -⟩ := hp
  simp [alive, hq]

end Host

theorem Task.live_of_step {t : Task} {h : Host} {o : Outcome} {p : Nat}
    (hp : (t.step h o).1.Live p) :
    h.Live p ∨ ∃ st, t = .spawning st ∧ (t.step h o).2.1 = .confirm p st := by
  cases t with
  | finished => exact Or.inl hp
  | deleted => exact Or.inl hp
  | makeDisk id req => exact Or.inl hp
  | announce disk => exact Or.inl ((Host.live_congr (Host.save_process _ _ _)).mp hp)
  | checking st =>
      simp only [Task.step] at hp
      split at hp <;> exact Or.inl hp
  | prepare st => exact Or.inl hp
  | spawning st =>
      simp only [Task.step] at hp ⊢
      split at hp
      · exact Or.inl hp
      · split at hp
        · exact Or.inl hp
        · rcases Host.live_spawn.mp hp with rfl | hold
          · exact Or.inr ⟨st, rfl, by simp [*]⟩
          · exact Or.inl hold
  | confirm pid st =>
      simp only [Task.step] at hp
      split at hp
      · exact Or.inl ((Host.live_congr (Host.save_process _ _ _)).mp (Host.live_release.mp hp))
      · exact Or.inl ((Host.live_congr (Host.save_process _ _ _)).mp hp)
  | waiting pid =>
      simp only [Task.step] at hp
      split at hp
      · exact Or.inl (Host.live_release.mp hp)
      · split at hp
        · split at hp
          · exact Or.inl hp
          · exact Or.inl (Host.live_remove.mp hp).1
        · exact Or.inl hp
  | woken =>
      simp only [Task.step] at hp
      split at hp <;> exact Or.inl hp
  | settling st => exact Or.inl ((Host.live_congr (Host.save_process _ _ _)).mp hp)
  | signalling st source =>
      simp only [Task.step] at hp
      split at hp
      · exact Or.inl hp
      · exact Or.inl hp
      · exact Or.inl (Host.live_kill.mp hp).1
  | savingOff st source => exact Or.inl ((Host.live_congr (Host.save_process _ _ _)).mp hp)
  | reconciling st checks =>
      cases checks with
      | zero => exact Or.inl hp
      | succ checks =>
          simp only [Task.step] at hp
          split at hp <;> exact Or.inl hp
  | savingReconciled st checks =>
      exact Or.inl ((Host.live_congr (Host.save_process _ _ _)).mp hp)
  | removing =>
      simp only [Task.step] at hp
      split at hp
      · split at hp <;> exact Or.inl hp
      · exact Or.inl hp
  | removingLog => exact Or.inl hp

/-! ## Before the VM is created -/

/-- The tasks there can be for an id that nothing has been created under. -/
def Task.Vacant : Task → Prop
  | .finished | .removing | .removingLog | .deleted => True
  | _ => False

def Vm.Fresh (s : Vm) : Prop :=
  s.created = false →
    s.host.dir = .absent ∧ (∀ p, s.host.process p = none) ∧ ∀ i, (s.task i).Vacant

theorem Task.vacant_step {t : Task} (ht : t.Vacant) {h : Host} (hdir : h.dir = .absent)
    (o : Outcome) : (t.step h o).1 = h ∧ (t.step h o).2.1.Vacant := by
  cases t with
  | finished => exact ⟨rfl, trivial⟩
  | deleted => exact ⟨rfl, trivial⟩
  | removing =>
      simp only [Task.step]
      split
      · simp [hdir, Vacant]
      · exact ⟨by rw [← hdir], trivial⟩
  | removingLog =>
      simp only [Task.step]
      refine ⟨trivial, ?_⟩
      split <;> trivial
  | _ => cases ht

theorem RequestKind.vacant_first (kind : RequestKind) : (kind.first none).Vacant := by
  cases kind <;> trivial

theorem new_fresh : Vm.new.Fresh := fun _ => ⟨rfl, fun _ => rfl, fun _ => trivial⟩

theorem step_fresh (vmId : String) (s : Vm) (a : VmAction) (hs : s.Fresh) :
    ((lifecycle vmId).step s a).1.Fresh := by
  apply step_rule hs
  · intro i req ha hcreated hfree hnew
    cases hnew
  · intro i kind readable ha hfree hcreated
    obtain ⟨hdir, hproc, htask⟩ := hs hcreated
    have hload : (if readable = true then s.host.dir.load else none) = none := by
      simp [hdir, StateDir.load]
    rw [hload]
    exact ⟨hdir, hproc, Vm.forall_advance kind.vacant_first fun j _ => htask j⟩
  · intro i o ha hcreated
    obtain ⟨hdir, hproc, htask⟩ := hs hcreated
    obtain ⟨hhost, hnext⟩ := Task.vacant_step (htask i) hdir o
    rw [hhost]
    exact ⟨hdir, hproc, Vm.forall_advance hnext fun j _ => htask j⟩
  · intro pid ha hcreated
    obtain ⟨hdir, hproc, htask⟩ := hs hcreated
    have hkill : s.host.kill pid = s.host := by simp [Host.kill, hproc]
    rw [hkill]
    exact ⟨hdir, hproc, htask⟩
  · intro pid p ha hpid hdead hunheld hcreated
    have hnone : s.host.process pid = none := (hs hcreated).2.1 pid
    rw [hpid] at hnone
    cases hnone

end Caiman.Api
