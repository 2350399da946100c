import Caiman.Api.Tap
import Caiman.Cni.Ipam

/-!
# Addresses of the VMs that exist

A create and a start ask `caiman-cni` for an address, which is kept under the VM's id
until a DEL of the id. The requests follow each other; the files they read and write
and the commands of `caiman-cni` do not fail.
-/

namespace Caiman.Api

open Lib

structure Accounts where
  /-- `allocations.json` -/
  allocs : Cni.Allocations
  /-- The interfaces that `caiman-cni` has made. -/
  taps : List String
  /-- The records under `STATE_DIR`. -/
  vms : AList fun _ : String => VmState

def Accounts.new : Accounts := ⟨∅, [], ∅⟩

/-- A request to the API, with what the system answers. `vmm`: the pid of the VMM, none
when its console or the VMM itself cannot be had. -/
inductive VmRequest
  | create (vm : VmId) (req : CreateVmRequest) (cloned : Bool) (vmm : Option Nat)
  | start (vm : VmId) (alive tapExists : Bool) (vmm : Option Nat)
  | stop (vm : VmId) (signalled : Bool)
  | delete (vm : VmId)

namespace Accounts

/-- ADD: an error is logged, and the command succeeds without an address. -/
def cniAdd (s : Accounts) (vmId : String) : Accounts :=
  match Cni.allocate s.allocs vmId with
  | .error _ => s
  | .ok (_, saved) =>
      { s with
        allocs := saved.getD s.allocs
        taps := (Cni.tapName vmId).elim s.taps fun name => s.taps.insert name }

def save (s : Accounts) (vmId : String) (st : VmState) : Accounts :=
  { s with vms := s.vms.insert vmId st }

/-- The save of `spawn_vm` and `restart_vm` once the VMM runs. -/
def launch (s : Accounts) (vmId : String) (st : VmState) (vmm : Option Nat) : Accounts :=
  match vmm with
  | some pid => s.save vmId (st.launched pid)
  | none => s

def spawnVm (s : Accounts) (vmId : String) (req : CreateVmRequest) (cloned : Bool)
    (vmm : Option Nat) : Accounts :=
  let st := VmState.initial (chooseDisk vmId req cloned)
  ((s.cniAdd vmId).save vmId st).launch vmId st vmm

def restartVm (s : Accounts) (vmId : String) (alive tapExists : Bool) (vmm : Option Nat) :
    Accounts :=
  match s.vms.lookup vmId with
  | none => s
  | some st =>
      if st.pid.isSome && alive then s
      else (if tapExists then s else s.cniAdd vmId).launch vmId st vmm

def stopVm (s : Accounts) (vmId : String) (signalled : Bool) : Accounts :=
  match s.vms.lookup vmId with
  | none => s
  | some st => if st.pid.isSome && !signalled then s else s.save vmId st.signalled

/-- `delete_vm_h`, which does not come to `cni_del`. -/
def deleteVm (s : Accounts) (vmId : String) : Accounts :=
  let killed :=
    match s.vms.lookup vmId with
    | none => s
    | some st => if st.status = VmStatus.active then s.save vmId st.signalled else s
  { killed with vms := killed.vms.erase vmId }

end Accounts

def handlers : Machine Accounts VmRequest Empty where
  step s
    | .create vm req cloned vmm => (s.spawnVm vm.text req cloned vmm, [])
    | .start vm alive tapExists vmm => (s.restartVm vm.text alive tapExists vmm, [])
    | .stop vm signalled => (s.stopVm vm.text signalled, [])
    | .delete vm => (s.deleteVm vm.text, [])

/-- The ids with an address are the ids with a record. -/
def Accounted (s : Accounts) : Prop := ∀ vmId, vmId ∈ s.allocs ↔ vmId ∈ s.vms

/-- Neither an address nor the interface. -/
def Returned (s : Accounts) (vmId : String) : Prop :=
  vmId ∉ s.allocs ∧ ∀ name, Cni.tapName vmId = some name → name ∉ s.taps

/-- A VM that is deleted, or that could not be created, has given back what it had. -/
def GivesBack (s : Accounts) (op : VmRequest) : Prop :=
  match op with
  | .create vm _ _ none => Returned (handlers.step s op).1 vm.text
  | .delete vm => vm.text ∈ s.vms → Returned (handlers.step s op).1 vm.text
  | _ => True

/-- No address is left for the VM, which has none. -/
def Refused (s : Accounts) (vmId : String) : Prop :=
  vmId ∉ s.allocs ∧ ∀ ip ∈ Cni.pool, ip ∈ Cni.used s.allocs

/-- A create that finds an address and comes to its end; a delete of no VM. -/
def KeepsAccount (s : Accounts) : VmRequest → Prop
  | .create vm _ _ vmm => vmm ≠ none ∧ ¬ Refused s vm.text
  | .delete vm => vm.text ∉ s.vms
  | _ => True

/-! ## What the requests do to the ids -/

theorem Accounts.cniAdd_vms (s : Accounts) (vmId : String) : (s.cniAdd vmId).vms = s.vms := by
  unfold Accounts.cniAdd
  split <;> rfl

theorem Accounts.mem_cniAdd {s : Accounts} {vmId p : String} :
    p ∈ (s.cniAdd vmId).allocs ↔ p ∈ s.allocs ∨ (p = vmId ∧ ¬ Refused s vmId) := by
  unfold Accounts.cniAdd
  split
  · rename_i e herror
    have hrefused : Refused s vmId := Cni.allocate_isOk_iff.mp (by rw [herror]; rfl)
    simp [hrefused]
  · rename_i reply saved hok
    have hserved : ¬ Refused s vmId := by
      unfold Refused
      rw [← Cni.allocate_isOk_iff, hok]
      exact Bool.noConfusion
    rcases Cni.allocate_ok hok with ⟨hold, rfl⟩ | ⟨rfl, -⟩
    · have hmem : vmId ∈ s.allocs := by
        rw [← AList.lookup_isSome, hold]
        rfl
      simp only [Option.getD_none, hserved, not_false_eq_true, and_true]
      exact (or_iff_left_of_imp fun h => h ▸ hmem).symm
    · simp only [Option.getD_some, AList.mem_insert, hserved, not_false_eq_true, and_true]
      exact or_comm

namespace Accounts

theorem launch_allocs (s : Accounts) (vmId : String) (st : VmState) (vmm : Option Nat) :
    (s.launch vmId st vmm).allocs = s.allocs := by
  cases vmm <;> rfl

theorem mem_save {s : Accounts} {vmId p : String} {st : VmState} (h : vmId ∈ s.vms) :
    p ∈ (s.save vmId st).vms ↔ p ∈ s.vms := by
  unfold save
  rw [AList.mem_insert]
  exact or_iff_right_of_imp fun hp => hp ▸ h

theorem mem_launch {s : Accounts} {vmId p : String} {st : VmState} {vmm : Option Nat}
    (h : vmId ∈ s.vms) : p ∈ (s.launch vmId st vmm).vms ↔ p ∈ s.vms := by
  cases vmm with
  | none => rfl
  | some pid => exact mem_save h

theorem mem_vms_of_lookup {s : Accounts} {vmId : String} {st : VmState}
    (h : s.vms.lookup vmId = some st) : vmId ∈ s.vms := by
  rw [← AList.lookup_isSome, h]
  rfl

theorem spawnVm_ids (s : Accounts) (vmId : String) (req : CreateVmRequest) (cloned : Bool)
    (vmm : Option Nat) (p : String) :
    (p ∈ (s.spawnVm vmId req cloned vmm).allocs ↔
      p ∈ s.allocs ∨ (p = vmId ∧ ¬ Refused s vmId)) ∧
    (p ∈ (s.spawnVm vmId req cloned vmm).vms ↔ p = vmId ∨ p ∈ s.vms) := by
  have hsaved (st : VmState) : p ∈ ((s.cniAdd vmId).save vmId st).vms ↔ p = vmId ∨ p ∈ s.vms := by
    rw [save, AList.mem_insert, cniAdd_vms]
  constructor
  · rw [spawnVm, launch_allocs]
    exact mem_cniAdd
  · rw [spawnVm, mem_launch ((AList.mem_insert _).mpr (Or.inl rfl)), hsaved]

theorem restartVm_ids {s : Accounts} (h : Accounted s) (vmId : String) (alive tapExists : Bool)
    (vmm : Option Nat) (p : String) :
    (p ∈ (s.restartVm vmId alive tapExists vmm).allocs ↔ p ∈ s.allocs) ∧
    (p ∈ (s.restartVm vmId alive tapExists vmm).vms ↔ p ∈ s.vms) := by
  unfold restartVm
  split
  · exact ⟨Iff.rfl, Iff.rfl⟩
  · rename_i st hst
    have hvm : vmId ∈ s.vms := mem_vms_of_lookup hst
    have hadded : p ∈ (s.cniAdd vmId).allocs ↔ p ∈ s.allocs := by
      rw [mem_cniAdd]
      exact or_iff_left_of_imp fun hp => hp.1 ▸ (h vmId).mpr hvm
    split
    · exact ⟨Iff.rfl, Iff.rfl⟩
    · rw [launch_allocs]
      split
      · exact ⟨Iff.rfl, mem_launch hvm⟩
      · refine ⟨hadded, ?_⟩
        rw [mem_launch (by rwa [cniAdd_vms]), cniAdd_vms]

theorem stopVm_ids (s : Accounts) (vmId : String) (signalled : Bool) (p : String) :
    (p ∈ (s.stopVm vmId signalled).allocs ↔ p ∈ s.allocs) ∧
    (p ∈ (s.stopVm vmId signalled).vms ↔ p ∈ s.vms) := by
  unfold stopVm
  split
  · exact ⟨Iff.rfl, Iff.rfl⟩
  · rename_i st hst
    split
    · exact ⟨Iff.rfl, Iff.rfl⟩
    · exact ⟨Iff.rfl, mem_save (mem_vms_of_lookup hst)⟩

theorem deleteVm_ids (s : Accounts) (vmId p : String) :
    (p ∈ (s.deleteVm vmId).allocs ↔ p ∈ s.allocs) ∧
    (p ∈ (s.deleteVm vmId).vms ↔ p ≠ vmId ∧ p ∈ s.vms) := by
  unfold deleteVm
  simp only [AList.mem_erase]
  split
  · exact ⟨Iff.rfl, Iff.rfl⟩
  · rename_i st hst
    split
    · exact ⟨Iff.rfl, and_congr_right fun _ => mem_save (mem_vms_of_lookup hst)⟩
    · exact ⟨Iff.rfl, Iff.rfl⟩

end Accounts

/-! ## Accounting over a run -/

theorem create_accounted_iff {s : Accounts} (h : Accounted s) (vm : VmId) (req : CreateVmRequest)
    (cloned : Bool) (vmm : Option Nat) :
    Accounted (s.spawnVm vm.text req cloned vmm) ↔ ¬ Refused s vm.text := by
  have hids := s.spawnVm_ids vm.text req cloned vmm
  constructor
  · intro hnext hrefused
    have hmem := (hnext vm.text).mpr ((hids vm.text).2.mpr (Or.inl rfl))
    rcases (hids vm.text).1.mp hmem with hold | ⟨-, hserved⟩
    · exact hrefused.1 hold
    · exact hserved hrefused
  · intro hserved p
    rw [(hids p).1, (hids p).2, h p]
    simp only [hserved, not_false_eq_true, and_true]
    exact or_comm

theorem delete_accounted_iff {s : Accounts} (h : Accounted s) (vm : VmId) :
    Accounted (s.deleteVm vm.text) ↔ vm.text ∉ s.vms := by
  have hids := s.deleteVm_ids vm.text
  constructor
  · intro hnext hmem
    have hleft := (hnext vm.text).mp ((hids vm.text).1.mpr ((h vm.text).mpr hmem))
    exact ((hids vm.text).2.mp hleft).1 rfl
  · intro habsent p
    rw [(hids p).1, (hids p).2, h p]
    refine (and_iff_right_of_imp ?_).symm
    intro hp hvm
    exact habsent (hvm ▸ hp)

theorem failed_create_keeps {s : Accounts} (vm : VmId) (req : CreateVmRequest) (cloned : Bool)
    (hserved : ¬ Refused s vm.text) : ¬ GivesBack s (.create vm req cloned none) := by
  intro h
  exact h.1 ((s.spawnVm_ids vm.text req cloned none vm.text).1.mpr (Or.inr ⟨rfl, hserved⟩))

theorem step_accounted_iff (s : Accounts) (op : VmRequest) (h : Accounted s) :
    Accounted (handlers.step s op).1 ∧ GivesBack s op ↔ KeepsAccount s op := by
  cases op with
  | create vm req cloned vmm =>
      have haccounted := create_accounted_iff h vm req cloned vmm
      cases vmm with
      | none =>
          simp only [KeepsAccount, ne_eq, not_true_eq_false, false_and, iff_false, not_and]
          intro hnext
          exact failed_create_keeps vm req cloned (haccounted.mp hnext)
      | some pid =>
          simp only [KeepsAccount, GivesBack, ne_eq, reduceCtorEq, not_false_eq_true, true_and,
            and_true]
          exact haccounted
  | start vm alive tapExists vmm =>
      have hids := Accounts.restartVm_ids h vm.text alive tapExists vmm
      refine iff_of_true ⟨?_, trivial⟩ trivial
      intro p
      exact (hids p).1.trans ((h p).trans (hids p).2.symm)
  | stop vm signalled =>
      have hids := s.stopVm_ids vm.text signalled
      refine iff_of_true ⟨?_, trivial⟩ trivial
      intro p
      exact (hids p).1.trans ((h p).trans (hids p).2.symm)
  | delete vm =>
      have haccounted := delete_accounted_iff h vm
      constructor
      · intro hnext
        exact haccounted.mp hnext.1
      · intro habsent
        exact ⟨haccounted.mpr habsent, fun hmem => absurd hmem habsent⟩

theorem Refused.vms {s : Accounts} {vmId : String} (h : Refused s vmId) (hs : Accounted s) :
    253 ≤ s.vms.keys.length := by
  have hpool : Cni.pool.length ≤ (Cni.used s.allocs).length :=
    (List.subperm_of_subset List.nodup_range' h.2).length_le
  have hused : (Cni.used s.allocs).length ≤ s.allocs.entries.length := List.length_filterMap_le _ _
  have hkeys : s.allocs.keys.length = s.allocs.entries.length := List.length_map _
  have hvms : s.allocs.keys.length ≤ s.vms.keys.length :=
    (List.subperm_of_subset s.allocs.keys_nodup fun p hp => (hs p).mp hp).length_le
  have hsize : Cni.pool.length = 253 := List.length_range'
  omega

/-- In every run of the API: the ids with an address are the ids of the VMs that exist, and
what is deleted or cannot be created gives its address and interface back, exactly when
every create of the run gets an address and comes to its end and no VM is deleted. Then
only VMs that exist can exhaust the pool. -/
theorem addresses_follow_vms_iff (ops : List VmRequest) :
    ((∀ pre, pre <+: ops → Accounted (handlers.run Accounts.new pre).1) ∧
        handlers.AllSteps GivesBack Accounts.new ops ↔
      handlers.AllSteps KeepsAccount Accounts.new ops) ∧
    (handlers.AllSteps KeepsAccount Accounts.new ops → ∀ pre, pre <+: ops → ∀ vmId,
      Refused (handlers.run Accounts.new pre).1 vmId →
        253 ≤ (handlers.run Accounts.new pre).1.vms.keys.length) := by
  have hnew : Accounted Accounts.new := fun _ => Iff.rfl
  have hiff := handlers.prefixes_and_allSteps_iff step_accounted_iff hnew ops
  refine ⟨hiff, ?_⟩
  intro hkept pre hpre vmId hrefused
  exact hrefused.vms ((hiff.mpr hkept).1 pre hpre)

/-- A VM is created and deleted, and its address is still taken; another cannot be
created, and its address is taken as well. -/
theorem deleted_vm_keeps_address :
    let s := (handlers.run Accounts.new
      [.create firstVm ⟨none, none⟩ true (some 7), .delete firstVm,
        .create secondVm ⟨none, none⟩ true none]).1
    s.vms.keys = [secondVm.text] ∧ s.allocs.lookup firstVm.text = some "10.100.0.2" ∧
      s.allocs.lookup secondVm.text = some "10.100.0.3" ∧
      s.taps = ["caimvm-0badc", "caimvm-00c0f"] ∧ ¬ Accounted s := by
  intro s
  have hvms : s.vms.keys = [secondVm.text] := by decide +kernel
  have hfirst : s.allocs.lookup firstVm.text = some "10.100.0.2" := by decide +kernel
  refine ⟨hvms, hfirst, by decide +kernel, by decide +kernel, ?_⟩
  intro h
  have hmem : firstVm.text ∈ s.vms := by
    rw [← h firstVm.text, ← AList.lookup_isSome, hfirst]
    rfl
  rw [AList.mem_keys, hvms] at hmem
  exact absurd hmem (by decide)

end Caiman.Api
