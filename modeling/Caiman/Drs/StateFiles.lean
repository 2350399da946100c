import Caiman.Lib.Json
import Caiman.Lib.Path
import Caiman.Vmm.Mac
import Caiman.Drs.Exact
import Mathlib.Data.List.AList

/-!
# State files of the VMs

Every `caiman-vmm` writes a file about its VM, and the monitor of the DRS reads the files
of the directory. The two do not use the same names for the values.
-/

namespace Caiman

open Lib Lib.Json

/-- The files, by where their paths lead, with their texts. -/
abbrev Files := AList fun _ : List String => List UInt8

namespace Vmm

structure Args where
  kernel : String
  disk : Option String
  memMib : UInt64
  cpus : UInt8
  vmId : String
  vmName : String

/-- A VM that runs: its arguments, and what the system tells `write_vm_state`. -/
structure Running where
  args : Args
  pid : UInt32
  nodeName : String
  now : String

def Args.name (args : Args) : String := if args.vmName = "" then args.vmId else args.vmName

def Running.state (vm : Running) : Value :=
  let zero := Value.number (.float 0)
  .object [("id", .string vm.args.vmId), ("name", .string vm.args.name),
    ("status", .string "RUNNING"), ("pid", .nat vm.pid.toUInt64),
    ("cpus", .nat vm.args.cpus.toUInt64), ("memMib", .nat vm.args.memMib),
    ("nodeName", .string vm.nodeName), ("kernel", .string vm.args.kernel),
    ("disk", vm.args.disk.elim .null .string),
    ("mac", .string (fmtMac (macOf (vmNum vm.args.vmId)))), ("uplink", .string "eth0"),
    ("labels", .object []), ("createdAt", .string vm.now), ("startedAt", .string vm.now),
    ("cpuUsagePct", zero), ("memUsedMib", .nat 0), ("netRxMbps", zero), ("netTxMbps", zero),
    ("uptimeSecs", .nat 0)]

def statePath (vmId : String) : String := "/var/run/caiman/" ++ vmId ++ ".json"

/-- Where the file of a VM is. -/
def stateFile (vmId : String) : List String := Path.resolve (Path.segments (statePath vmId))

def writeVmState (json : Codec) (files : Files) (vm : Running) : Files :=
  files.insert (stateFile vm.args.vmId) (json.toVec vm.state)

end Vmm

namespace Drs

/-- `Path::extension`: after the last dot, unless the name begins with it. -/
def extension (name : String) : Option String :=
  let reversed := name.toList.reverse
  match reversed.dropWhile (· ≠ '.') with
  | [] => none
  | _ :: before =>
      if name = ".." ∨ before = [] then none
      else some (String.ofList (reversed.takeWhile (· ≠ '.')).reverse)

def isStateFile (path : List String) : Bool :=
  match path with
  | ["var", "run", "caiman", name] => extension name = some "json"
  | _ => false

variable {F : Type} (ar : Arith F)

/-- What is made of the value of a file; a key that is missing has a default. -/
def vmMetricsOf (node : String) (state : Value) : VmMetrics F where
  vmId := ((state.index "vm_id").asU64.getD 0).toUInt32
  name := (state.index "name").asStr.getD ""
  node := node
  cpuCores := ((state.index "cpus").asU64.getD 1).toUInt32
  cpuUsagePct := ar.ofNat 0
  memMib := (state.index "mem_mib").asU64.getD 256

/-- The files of the directory come in an order of the system's. -/
def collectVmMetrics (json : Codec) (node : String)
    (entries : List (Sigma fun _ : List String => List UInt8)) : List (VmMetrics F) :=
  entries.filterMap fun entry =>
    if isStateFile entry.1 then (json.fromSlice entry.2).map (vmMetricsOf ar node) else none

/-- The memory, the processors and the name that were written. -/
def OwnValues (vm : Vmm.Running) (m : VmMetrics F) : Prop :=
  m.memMib = vm.args.memMib ∧ m.cpuCores.toNat = vm.args.cpus.toNat ∧ m.name = vm.args.name

/-- One of the metrics is of each VM, and their ids tell the VMs apart. -/
def Agree (vms : List Vmm.Running) (metrics : List (VmMetrics F)) : Prop :=
  (∃ order : List (VmMetrics F), order.Perm metrics ∧ List.Forall₂ OwnValues vms order) ∧
    (metrics.map VmMetrics.vmId).Nodup

def stateFiles (json : Codec) (vms : List Vmm.Running) : Files :=
  vms.foldl (Vmm.writeVmState json) ∅

theorem mem_stateFiles {json : Codec} {vms : List Vmm.Running}
    {entry : Sigma fun _ : List String => List UInt8}
    (h : entry ∈ (stateFiles json vms).entries) :
    ∃ vm ∈ vms, entry = ⟨Vmm.stateFile vm.args.vmId, json.toVec vm.state⟩ := by
  have hrun : ∀ files : Files, entry ∈ (vms.foldl (Vmm.writeVmState json) files).entries →
      entry ∈ files.entries ∨
        ∃ vm ∈ vms, entry = ⟨Vmm.stateFile vm.args.vmId, json.toVec vm.state⟩ := by
    intro files
    clear h
    induction vms generalizing files with
    | nil => exact Or.inl
    | cons vm vms ih =>
        intro h
        rcases ih _ h with hfile | ⟨other, hother, rfl⟩
        · rw [Vmm.writeVmState, AList.entries_insert] at hfile
          rcases List.mem_cons.mp hfile with rfl | hold
          · exact Or.inr ⟨vm, List.mem_cons_self, rfl⟩
          · exact Or.inl (List.mem_of_mem_eraseP hold)
        · exact Or.inr ⟨other, List.mem_cons_of_mem vm hother, rfl⟩
  rcases hrun ∅ h with hnone | hvm
  · cases hnone
  · exact hvm

/-- What the reader makes of a file that a VM wrote: no id, and the default memory. -/
theorem vmMetricsOf_state (node : String) (vm : Vmm.Running) :
    (vmMetricsOf ar node vm.state).vmId = 0 ∧ (vmMetricsOf ar node vm.state).memMib = 256 ∧
      (vmMetricsOf ar node vm.state).cpuCores.toNat = vm.args.cpus.toNat ∧
      (vmMetricsOf ar node vm.state).name = vm.args.name := by
  refine ⟨rfl, rfl, ?_, rfl⟩
  show vm.args.cpus.toUInt64.toUInt32.toNat = _
  have hlt := vm.args.cpus.toNat_lt
  simp only [UInt64.toNat_toUInt32, UInt8.toNat_toUInt64]
  omega

theorem isStateFile_iff {vmId : String} (h : '/' ∉ vmId.toList) :
    isStateFile (Vmm.stateFile vmId) = true ↔ vmId ≠ "" := by
  have hdirsep : "/var/run/caiman/" = "/var/run/caiman" ++ "/" := by decide
  have hpath : Vmm.statePath vmId = "/var/run/caiman" ++ "/" ++ (vmId ++ ".json") := by
    show "/var/run/caiman/" ++ vmId ++ ".json" = _
    rw [hdirsep, String.append_assoc]
  have hname : Path.segments (vmId ++ ".json") = [vmId ++ ".json"] := by
    have hsep : '/' ∉ (vmId ++ ".json").toList := by
      rw [String.toList_append, List.mem_append]
      exact not_or_intro h (by decide)
    rw [Path.segments, List.splitOn_eq_singleton hsep, List.map_singleton, String.ofList_toList]
  have hreverse : (vmId ++ ".json").toList.reverse =
      ['n', 'o', 's', 'j', '.'] ++ vmId.toList.reverse := by
    rw [String.toList_append, List.reverse_append]
    rfl
  have hne {other : String} (hlast : other.toList.getLast? ≠ some 'n') :
      vmId ++ ".json" ≠ other := by
    intro heq
    apply hlast
    rw [← heq, List.getLast?_eq_head?_reverse, hreverse]
    rfl
  have hdir : Path.resolve (Path.segments "/var/run/caiman") = ["var", "run", "caiman"] := by decide
  have hfile : Vmm.stateFile vmId = ["var", "run", "caiman", vmId ++ ".json"] := by
    rw [Vmm.stateFile, hpath, Path.segments_append, Path.resolve_append, hdir, hname]
    simp only [List.foldl_cons, List.foldl_nil, Path.enter]
    rw [if_neg (not_or_intro (hne (by decide)) (hne (by decide))), if_neg (hne (by decide))]
    rfl
  have hextension : extension (vmId ++ ".json") = if vmId = "" then none else some "json" := by
    have hdrop : (vmId ++ ".json").toList.reverse.dropWhile (· ≠ '.') =
        '.' :: vmId.toList.reverse := by
      rw [hreverse]
      rfl
    have htake : (vmId ++ ".json").toList.reverse.takeWhile (· ≠ '.') = ['n', 'o', 's', 'j'] := by
      rw [hreverse]
      rfl
    have hdots : vmId ++ ".json" ≠ ".." := hne (by decide)
    have hnil : vmId.toList.reverse = [] ↔ vmId = "" := by
      rw [List.reverse_eq_nil_iff, String.toList_eq_nil_iff]
    simp only [extension, hdrop, htake, hdots, hnil, false_or]
    rfl
  rw [hfile]
  simp only [isStateFile, hextension, decide_eq_true_eq]
  by_cases hempty : vmId = ""
  · simp [hempty]
  · simp [hempty]

variable {ar} {json : Codec} {node : String} {vms : List Vmm.Running}
  {entries : List (Sigma fun _ : List String => List UInt8)}

theorem vmId_of_mem_collect
    (hjson : ∀ vm ∈ vms, json.fromSlice (json.toVec vm.state) = some vm.state)
    (hentries : entries.Perm (stateFiles json vms).entries) {m : VmMetrics F}
    (h : m ∈ collectVmMetrics ar json node entries) : m.vmId = 0 := by
  obtain ⟨entry, hentry, hread⟩ := List.mem_filterMap.mp h
  obtain ⟨vm, hvm, rfl⟩ := mem_stateFiles (hentries.mem_iff.mp hentry)
  split at hread
  · rw [hjson vm hvm, Option.map_some, Option.some.injEq] at hread
    rw [← hread]
    exact (vmMetricsOf_state ar node vm).1
  · cases hread

theorem collect_singleton {vm : Vmm.Running}
    (hjson : json.fromSlice (json.toVec vm.state) = some vm.state)
    (hentries : entries.Perm (stateFiles json [vm]).entries) :
    collectVmMetrics ar json node entries =
      if isStateFile (Vmm.stateFile vm.args.vmId) then [vmMetricsOf ar node vm.state] else [] := by
  have hone : entries = [⟨Vmm.stateFile vm.args.vmId, json.toVec vm.state⟩] :=
    List.perm_singleton.mp hentries
  rw [hone]
  unfold collectVmMetrics
  rw [List.filterMap_cons, List.filterMap_nil, hjson]
  by_cases hfile : isStateFile (Vmm.stateFile vm.args.vmId) = true
  · rw [if_pos hfile, if_pos hfile, Option.map_some]
  · rw [if_neg hfile, if_neg hfile]

theorem length_le_one_of_nodup {metrics : List (VmMetrics F)} (hids : ∀ m ∈ metrics, m.vmId = 0)
    (h : (metrics.map VmMetrics.vmId).Nodup) : metrics.length ≤ 1 := by
  match metrics with
  | [] => exact Nat.zero_le 1
  | [m] => exact le_refl 1
  | a :: b :: rest =>
      have hsame : a.vmId = b.vmId := by
        rw [hids a (by simp), hids b (by simp)]
      simp [hsame] at h

/-- The monitor has the values of every VM and can tell the VMs apart exactly when there is
none, or one with the default memory whose file is among those the monitor reads. -/
theorem state_files_agree_iff
    (hjson : ∀ vm ∈ vms, json.fromSlice (json.toVec vm.state) = some vm.state)
    (hentries : entries.Perm (stateFiles json vms).entries) :
    Agree vms (collectVmMetrics ar json node entries) ↔
      vms = [] ∨ ∃ vm, vms = [vm] ∧ vm.args.memMib = 256 ∧
        isStateFile (Vmm.stateFile vm.args.vmId) = true := by
  constructor
  · intro h
    obtain ⟨⟨order, hperm, hown⟩, hnodup⟩ := h
    have hlen : vms.length ≤ 1 := by
      rw [hown.length_eq, hperm.length_eq]
      exact length_le_one_of_nodup (fun m => vmId_of_mem_collect hjson hentries) hnodup
    match vms, hlen with
    | [], _ => exact Or.inl rfl
    | [vm], _ =>
        refine Or.inr ⟨vm, rfl, ?_⟩
        rw [collect_singleton (hjson vm List.mem_cons_self) hentries] at hperm
        by_cases hfile : isStateFile (Vmm.stateFile vm.args.vmId) = true
        · rw [if_pos hfile, List.perm_singleton] at hperm
          subst hperm
          have hmem := (List.forall₂_cons.mp hown).1.1
          exact ⟨hmem.symm, hfile⟩
        · rw [if_neg hfile, List.perm_nil] at hperm
          subst hperm
          cases hown
  · intro h
    rcases h with rfl | ⟨vm, rfl, hmem, hfile⟩
    · have hnone : entries = [] := List.perm_nil.mp hentries
      rw [hnone]
      exact ⟨⟨[], List.Perm.refl _, List.Forall₂.nil⟩, List.nodup_nil⟩
    · obtain ⟨-, hdefault, hcpus, hname⟩ := vmMetricsOf_state ar node vm
      rw [collect_singleton (hjson vm List.mem_cons_self) hentries, if_pos hfile]
      refine ⟨⟨_, List.Perm.refl _, List.Forall₂.cons ?_ List.Forall₂.nil⟩, List.nodup_singleton _⟩
      exact ⟨hdefault.trans hmem.symm, hcpus, hname⟩

def smallVm : Vmm.Running where
  args := ⟨"/k", none, 256, 2, "vm-00c0ffee", "web"⟩
  pid := 7
  nodeName := "node"
  now := "now"

def largeVm : Vmm.Running where
  args := ⟨"/k", some "/d", 4096, 4, "vm-0badcafe", ""⟩
  pid := 8
  nodeName := "node"
  now := "now"

def twoStates : Codec := .knowing (fun _ => [48, 46, 48]) [smallVm.state, largeVm.state]

theorem state_file_agrees :
    Agree [smallVm] (collectVmMetrics (Root.identity (K := ℚ)).arith twoStates "node"
      (stateFiles twoStates [smallVm]).entries) := by
  have hjson : ∀ vm ∈ [smallVm],
      twoStates.fromSlice (twoStates.toVec vm.state) = some vm.state := by
    intro vm hvm
    obtain rfl := List.mem_singleton.mp hvm
    exact Codec.knowing_cons _ _ _
  have hfile : isStateFile (Vmm.stateFile smallVm.args.vmId) = true := by decide +kernel
  exact (state_files_agree_iff hjson (List.Perm.refl _)).mpr (Or.inr ⟨smallVm, rfl, rfl, hfile⟩)

/-- Two VMs have one id, and the large one the default memory. -/
theorem state_files_differ :
    let metrics := collectVmMetrics (Root.identity (K := ℚ)).arith twoStates "node"
      (stateFiles twoStates [smallVm, largeVm]).entries
    metrics.map VmMetrics.vmId = [0, 0] ∧ metrics.map VmMetrics.name = ["vm-0badcafe", "web"] ∧
      metrics.map VmMetrics.memMib = [256, 256] ∧ largeVm.args.memMib = 4096 ∧
      ¬ Agree [smallVm, largeVm] metrics := by
  intro metrics
  have hread : metrics.map (fun m => (m.vmId, m.name, m.memMib)) =
      [(0, "vm-0badcafe", 256), (0, "web", 256)] := by decide +kernel
  clear_value metrics
  have hids : metrics.map VmMetrics.vmId = [0, 0] := by
    simpa [Function.comp_def] using congrArg (List.map fun x => x.1) hread
  have hnames : metrics.map VmMetrics.name = ["vm-0badcafe", "web"] := by
    simpa [Function.comp_def] using congrArg (List.map fun x => x.2.1) hread
  have hmem : metrics.map VmMetrics.memMib = [256, 256] := by
    simpa [Function.comp_def] using congrArg (List.map fun x => x.2.2) hread
  refine ⟨hids, hnames, hmem, rfl, ?_⟩
  intro h
  have hnodup := h.2
  rw [hids] at hnodup
  exact absurd hnodup (by decide)

end Drs

end Caiman
