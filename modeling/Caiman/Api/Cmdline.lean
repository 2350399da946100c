import Caiman.Lib.Run
import Caiman.Api.Tap
import Caiman.Cni.Standalone

/-!
# What the VMM is started with

`spawn_vm` makes the arguments of `caiman-vmm` of the request, `restart_vm` of the record.
The requests about a VM follow each other.
-/

namespace Caiman.Api.Boot

open Lib Lib.Str

structure CreateVmRequest extends Api.CreateVmRequest where
  name : String
  cpus : Option UInt8
  memMib : Option UInt64
  kernel : Option String
  initrd : Option String
  uplink : Option String
  cmdline : Option String
  netMode : Option String
  deriving DecidableEq, Repr

structure VmState extends Api.VmState where
  name : String
  cpus : UInt8
  memMib : UInt64
  kernel : String
  initrd : Option String
  ip : Option String
  uplink : String
  tap : Option String
  netMode : Option String
  deriving DecidableEq, Repr

structure VmmArgs where
  kernel : String
  memMib : UInt64
  cpus : UInt8
  tap : String
  uplink : String
  vmId : String
  vmName : String
  cmdline : String
  initrd : String
  disk : Option String
  deriving DecidableEq, Repr

structure AddEnv where
  containerId : String
  netMode : String
  uplink : String
  deriving DecidableEq, Repr

/-- How the host answers a request that starts the VMM. `cni`: the lines on the standard
error of `caiman-cni`, none when it cannot be run. `vmm`: the pid. `saved`: the last save
of the record. -/
structure Outside where
  cni : AddEnv → Option (List String)
  vmm : Option Nat
  saved : Bool

/-! ## The command line -/

def buildVmCmdline (rootDisk hasDisk : Bool) (ipConfig : String) : String :=
  " ".intercalate (["earlycon=uart8250,io,0x3f8,115200n8", "console=ttyS0,115200"] ++
    (if rootDisk then ["root=/dev/vda", "rootfstype=ext4"] else []) ++
    ["rw", "reboot=k", "panic=1", "virtio_mmio.device=0x1000@0xd0000000:5"] ++
    (if hasDisk then ["virtio_mmio.device=0x1000@0xd0010000:6"] else []) ++
    (if ipConfig = "" then [] else [ipConfig, "nameserver=1.1.1.1"]))

def ipConfigMark : String := "CAIMAN_IP_CONFIG="

/-- The configuration that `cni_add` finds. -/
def ipConfigOf (stderr : Option (List String)) : String :=
  match stderr with
  | none => ""
  | some lines =>
      ((lines.find? fun l => decide (ipConfigMark.toList <+: l.toList)).map
        (trimStartMatches ipConfigMark)).getD ""

/-- `cni_add`. None: the slice of the id panics. -/
def cniAdd (o : Outside) (env : AddEnv) : Option (String × String) :=
  (tapName env.containerId).map fun tap => (tap, ipConfigOf (o.cni env))

/-- The address in a configuration: what is between the first `=` and the next `:`. -/
def addressOf (ipConfig : String) : Option String :=
  if '=' ∈ ipConfig.toList then
    some (String.ofList (((ipConfig.toList.dropWhile (· ≠ '=')).drop 1).takeWhile (· ≠ ':')))
  else none

/-! ## The requests -/

def defaultKernel : String := "/var/lib/caiman/kernels/vmlinuz-alpine"

def defaultInitrd : String := "/var/lib/caiman/kernels/caiman-initrd.img"

def CreateVmRequest.addEnv (req : CreateVmRequest) (vmId detected : String) : AddEnv where
  containerId := vmId
  netMode := req.netMode.getD "nat"
  uplink := req.uplink.getD detected

/-- What `spawn_vm` saves before the VMM exists. -/
def VmState.initial (req : CreateVmRequest) (disk : Option String) (uplink tap : String) :
    VmState where
  toVmState := Api.VmState.initial disk
  name := req.name
  cpus := req.cpus.getD 1
  memMib := req.memMib.getD 256
  kernel := req.kernel.getD defaultKernel
  initrd := some (req.initrd.getD defaultInitrd)
  ip := none
  uplink := uplink
  tap := some tap
  netMode := some (req.netMode.getD "nat")

/-- The record once the VMM runs. An address is kept when none is found. -/
def VmState.launched (st : VmState) (pid : Nat) (ipConfig : String) : VmState :=
  { st with
    toVmState := st.toVmState.launched pid
    ip := if ipConfig = "" then st.ip else addressOf ipConfig }

/-- `spawn_vm`, with the base image cloned or not and the uplink detected: the record that
is left and what the VMM is started with. None: the VMM is not started. -/
def spawnVm (vmId : String) (req : CreateVmRequest) (cloned : Bool) (detected : String)
    (o : Outside) : Option (VmState × VmmArgs) :=
  match cniAdd o (req.addEnv vmId detected), o.vmm with
  | some (tap, ipConfig), some pid =>
      let disk := chooseDisk vmId req.toCreateVmRequest cloned
      let uplink := req.uplink.getD detected
      let st := VmState.initial req disk uplink tap
      let cmdline :=
        match req.cmdline with
        | some cl => cl
        | none => buildVmCmdline (ipConfig = "") disk.isSome ipConfig
      let args : VmmArgs :=
        { kernel := st.kernel
          memMib := st.memMib
          cpus := st.cpus
          tap := tap
          uplink := uplink
          vmId := vmId
          vmName := req.name
          cmdline := cmdline
          initrd := req.initrd.getD defaultInitrd
          disk := disk }
      some (if o.saved then st.launched pid ipConfig else st, args)
  | _, _ => none

/-- The configuration of a restart: ADD is for a tap that is gone. -/
def restartConfig (vmId : String) (st : VmState) (tapExists : Bool) (o : Outside) : Option String :=
  if tapExists then some ""
  else (cniAdd o ⟨vmId, st.netMode.getD "nat", st.uplink⟩).map Prod.snd

/-- `restart_vm`: the record that is left, and what the VMM is started with. -/
def restartVm (vmId : String) (st : VmState) (alive tapExists : Bool) (o : Outside) :
    VmState × List VmmArgs :=
  if st.pid.isSome && alive then (st, [])
  else
    match st.tap.or (tapName vmId), restartConfig vmId st tapExists o, o.vmm with
    | some tap, some ipConfig, some pid =>
        let args : VmmArgs :=
          { kernel := st.kernel
            memMib := st.memMib
            cpus := st.cpus
            tap := tap
            uplink := st.uplink
            vmId := vmId
            vmName := st.name
            cmdline := buildVmCmdline false st.diskPath.isSome ipConfig
            initrd := st.initrd.getD defaultInitrd
            disk := st.diskPath }
        (if o.saved then st.launched pid ipConfig else st, [args])
    | _, _, _ => (st, [])

inductive BootAction
  | start (alive tapExists : Bool) (o : Outside)
  | stop (signalled saved : Bool)
  | reap
  /-- `reconcile`, once the process is gone -/
  | reconcile

def stopVm (st : VmState) (signalled saved : Bool) : VmState :=
  if st.pid.isSome && !signalled then st
  else if saved then { st with toVmState := st.toVmState.signalled }
  else st

/-- The VM after its creation. An event: the VMM is started. -/
def boots (vmId : String) : Machine VmState BootAction VmmArgs where
  step st
    | .start alive tapExists o => restartVm vmId st alive tapExists o
    | .stop signalled saved => (stopVm st signalled saved, [])
    | .reap => ({ st with toVmState := st.toVmState.reaped }, [])
    | .reconcile =>
        (if st.status = VmStatus.active then { st with toVmState := st.toVmState.reconciled }
          else st, [])

/-- The words of a line that boots the initrd with both devices. -/
def initrdWords : List String :=
  ["earlycon=uart8250,io,0x3f8,115200n8", "console=ttyS0,115200", "rw", "reboot=k", "panic=1",
    "virtio_mmio.device=0x1000@0xd0000000:5", "virtio_mmio.device=0x1000@0xd0010000:6"]

def initrdLine (ipConfig : String) : String :=
  " ".intercalate (initrdWords ++ if ipConfig = "" then [] else [ipConfig, "nameserver=1.1.1.1"])

/-- Without a line of its own the VM was given a configuration when it was created, its tap
is gone and ADD gives the configuration again; a line of its own is the one that boots the
initrd. -/
def SameLine (own : Option String) (created : String) (tapExists : Bool) (given : String) : Prop :=
  match own with
  | none => created ≠ "" ∧ tapExists = false ∧ given = created
  | some cl => cl = initrdLine (if tapExists then "" else given)

/-- What holds of each start that comes to the VMM, of a VM that was created so. -/
def BootsAlike (vmId : String) (req : CreateVmRequest) (detected : String) (created : Outside)
    (st : VmState) : BootAction → Prop
  | .start alive tapExists o =>
      (st.pid.isSome && alive) = true ∨ o.vmm = none ∨
        SameLine req.cmdline (ipConfigOf (created.cni (req.addEnv vmId detected))) tapExists
          (ipConfigOf (o.cni (req.addEnv vmId detected)))
  | _ => True

/-! ## The lines -/

theorem buildVmCmdline_initrd (ipConfig : String) :
    buildVmCmdline false true ipConfig = initrdLine ipConfig := rfl

theorem initrdLine_of_ne {ipConfig : String} (h : ipConfig ≠ "") :
    initrdLine ipConfig = initrdLine "" ++ " " ++ (ipConfig ++ " " ++ "nameserver=1.1.1.1") := by
  have hwords : initrdWords ≠ [] := List.cons_ne_nil _ _
  rw [initrdLine, initrdLine, if_neg h, if_pos rfl, List.append_nil,
    String.intercalate_append_of_ne_nil hwords (List.cons_ne_nil _ _),
    String.intercalate_cons_cons, String.intercalate_singleton]

theorem initrdLine_empty_ne {ipConfig : String} (h : ipConfig ≠ "") :
    initrdLine "" ≠ initrdLine ipConfig := by
  intro hline
  have hlength := congrArg (fun line => line.toList.length) hline
  rw [initrdLine_of_ne h] at hlength
  simp at hlength

theorem initrdLine_inj_iff (ipConfig ipConfig' : String) :
    initrdLine ipConfig = initrdLine ipConfig' ↔ ipConfig = ipConfig' := by
  refine ⟨?_, congrArg initrdLine⟩
  intro h
  by_cases hempty : ipConfig = ""
  · subst hempty
    by_contra hne
    exact initrdLine_empty_ne (Ne.symm hne) h
  · by_cases hempty' : ipConfig' = ""
    · subst hempty'
      exact absurd h.symm (initrdLine_empty_ne hempty)
    · rwa [initrdLine_of_ne hempty, initrdLine_of_ne hempty', String.append_right_inj,
        String.append_left_inj, String.append_left_inj] at h

theorem root_ne_rw (s t : String) : "root=/dev/vda" ++ s ≠ "rw" ++ t := by
  intro h
  rw [← String.toList_inj] at h
  simp at h

theorem root_line_ne (ipConfig : String) : buildVmCmdline true true "" ≠ initrdLine ipConfig := by
  unfold buildVmCmdline initrdLine initrdWords
  simp only [if_true, List.append_nil, List.cons_append, List.nil_append,
    String.intercalate_cons_cons, String.append_assoc, ne_eq, String.append_right_inj]
  exact root_ne_rw _ _

/-! ## The answer of `caiman-cni` -/

theorem ipConfigOf_report {h : Cni.Host} {vmId ipConfig : String} {printed : Cni.Printed}
    (hprinted : Cni.report h vmId ipConfig = some printed)
    (hmark : ¬ ipConfigMark.toList <+: ipConfig.toList) :
    ipConfigOf (some printed.ipConfig.toList) = ipConfig := by
  obtain ⟨name, -, rfl⟩ := Option.map_eq_some_iff.mp hprinted
  by_cases hempty : ipConfig = ""
  · rw [hempty]
    rfl
  · have hstarts : ipConfigMark.toList <+: (ipConfigMark ++ ipConfig).toList := by
      rw [String.toList_append]
      exact List.prefix_append _ _
    have htrim : trimStartMatches ipConfigMark (ipConfigMark ++ ipConfig) = ipConfig :=
      trimStartMatches_append (by decide) hmark
    show ipConfigOf (some (if ipConfig = "" then none else some _).toList) = ipConfig
    rw [if_neg hempty]
    show ((List.find? _ [ipConfigMark ++ ipConfig]).map _).getD "" = ipConfig
    rw [List.find?_cons_of_pos (by exact decide_eq_true hstarts), Option.map_some, htrim,
      Option.getD_some]

theorem addressOf_config {ip : String} (hip : ':' ∉ ip.toList) (rest : String) :
    addressOf ("ip=" ++ ip ++ "::" ++ rest) = some ip := by
  have htext : ("ip=" ++ ip ++ "::" ++ rest).toList =
      'i' :: 'p' :: '=' :: (ip.toList ++ ':' :: ':' :: rest.toList) := by
    simp
  have hall : ∀ c ∈ ip.toList, decide (c ≠ ':') = true := by
    intro c hc
    rw [decide_eq_true_eq]
    rintro rfl
    exact hip hc
  unfold addressOf
  rw [htext, if_pos (by simp)]
  have hdrop : ('i' :: 'p' :: '=' :: (ip.toList ++ ':' :: ':' :: rest.toList)).dropWhile
      (fun c => decide (c ≠ '=')) = '=' :: (ip.toList ++ ':' :: ':' :: rest.toList) := by
    simp
  rw [hdrop, List.drop_one, List.tail_cons, List.takeWhile_append_of_pos hall]
  simp

/-! ## Starts of a created VM -/

/-- What a create leaves in the record of what the VMM was started with. -/
structure Keeps (args : VmmArgs) (netMode : String) (st : VmState) : Prop where
  name : st.name = args.vmName
  cpus : st.cpus = args.cpus
  memMib : st.memMib = args.memMib
  kernel : st.kernel = args.kernel
  initrd : st.initrd = some args.initrd
  disk : st.diskPath = args.disk
  uplink : st.uplink = args.uplink
  tap : st.tap = some args.tap
  netMode : st.netMode = some netMode

theorem Keeps.launched {args : VmmArgs} {netMode : String} {st : VmState}
    (h : Keeps args netMode st) (pid : Nat) (ipConfig : String) :
    Keeps args netMode (st.launched pid ipConfig) := { h with }

structure Created (vmId : String) (req : CreateVmRequest) (detected : String) (o : Outside)
    (args : VmmArgs) : Prop where
  id : args.vmId = vmId
  tap : tapName vmId = some args.tap
  uplink : args.uplink = req.uplink.getD detected
  disk : args.disk.isSome = true
  cmdline : args.cmdline =
    match req.cmdline with
    | some cl => cl
    | none =>
        buildVmCmdline (ipConfigOf (o.cni (req.addEnv vmId detected)) = "") true
          (ipConfigOf (o.cni (req.addEnv vmId detected)))

theorem chooseDisk_isSome (vmId : String) (req : Api.CreateVmRequest) (cloned : Bool) :
    (chooseDisk vmId req cloned).isSome = true := by
  unfold chooseDisk
  split
  · rfl
  · cases req.disk <;> rfl

theorem cniAdd_eq_some {o : Outside} {env : AddEnv} {tap ipConfig : String} :
    cniAdd o env = some (tap, ipConfig) ↔
      tapName env.containerId = some tap ∧ ipConfigOf (o.cni env) = ipConfig := by
  unfold cniAdd
  cases tapName env.containerId <;> simp

theorem spawnVm_spec {vmId : String} {req : CreateVmRequest} {cloned : Bool} {detected : String}
    {o : Outside} {st : VmState} {args : VmmArgs}
    (h : spawnVm vmId req cloned detected o = some (st, args)) :
    Created vmId req detected o args ∧ Keeps args (req.netMode.getD "nat") st := by
  unfold spawnVm at h
  split at h
  · rename_i tap ipConfig pid hadd hpid
    obtain ⟨htap, rfl⟩ := cniAdd_eq_some.mp hadd
    simp only [Option.some.injEq, Prod.mk.injEq] at h
    obtain ⟨rfl, rfl⟩ := h
    refine ⟨⟨rfl, htap, rfl, chooseDisk_isSome _ _ _, ?_⟩, ?_⟩
    · simp only [chooseDisk_isSome]
    · by_cases hsaved : o.saved = true
      · rw [if_pos hsaved]
        exact ⟨rfl, rfl, rfl, rfl, rfl, rfl, rfl, rfl, rfl⟩
      · rw [if_neg hsaved]
        exact ⟨rfl, rfl, rfl, rfl, rfl, rfl, rfl, rfl, rfl⟩
  · cases h

section

variable {vmId : String} {req : CreateVmRequest} {detected : String} {created : Outside}
  {args : VmmArgs} {st : VmState}

theorem mem_restartVm {alive tapExists : Bool} {o : Outside} {again : VmmArgs}
    (hcreated : Created vmId req detected created args)
    (hst : Keeps args (req.netMode.getD "nat") st) :
    again ∈ (restartVm vmId st alive tapExists o).2 ↔
      ¬ (st.pid.isSome && alive) = true ∧ o.vmm ≠ none ∧
        again = { args with
          cmdline := initrdLine
            (if tapExists then "" else ipConfigOf (o.cni (req.addEnv vmId detected))) } := by
  have hconfig : restartConfig vmId st tapExists o =
      some (if tapExists then "" else ipConfigOf (o.cni (req.addEnv vmId detected))) := by
    unfold restartConfig cniAdd
    rw [hst.netMode, hst.uplink, hcreated.uplink, hcreated.tap]
    cases tapExists <;> rfl
  have hdisk : st.diskPath.isSome = true := hst.disk ▸ hcreated.disk
  unfold restartVm
  split
  · rename_i hrunning
    simp [hrunning]
  · rename_i hstopped
    rw [hconfig, hst.tap, Option.some_or, hdisk]
    cases o.vmm with
    | none => simp
    | some pid =>
        simp only [List.mem_singleton, hstopped, not_false_eq_true, ne_eq, reduceCtorEq, true_and,
          buildVmCmdline_initrd]
        rw [hst.kernel, hst.memMib, hst.cpus, hst.uplink, hst.name, hst.initrd, hst.disk,
          ← hcreated.id]
        rfl

theorem step_keeps {netMode : String} (hst : Keeps args netMode st) (a : BootAction) :
    Keeps args netMode ((boots vmId).step st a).1 := by
  cases a with
  | start alive tapExists o =>
      show Keeps args netMode (restartVm vmId st alive tapExists o).1
      unfold restartVm
      split
      · exact hst
      · split
        · rename_i tap ipConfig pid htap hconfig hpid
          by_cases hsaved : o.saved = true
          · simp only [hsaved]
            exact hst.launched pid ipConfig
          · simp only [hsaved]
            exact hst
        · exact hst
  | stop signalled saved =>
      show Keeps args netMode (stopVm st signalled saved)
      unfold stopVm
      split
      · exact hst
      · split
        · exact { hst with }
        · exact hst
  | reap => exact { hst with }
  | reconcile =>
      show Keeps args netMode (if _ then _ else st)
      split
      · exact { hst with }
      · exact hst

theorem spawnVm_ip {cloned : Bool} {ip rest : String} (hip : ':' ∉ ip.toList)
    (hconfig : ipConfigOf (created.cni (req.addEnv vmId detected)) = "ip=" ++ ip ++ "::" ++ rest)
    (hsaved : created.saved = true)
    (hspawn : spawnVm vmId req cloned detected created = some (st, args)) : st.ip = some ip := by
  unfold spawnVm at hspawn
  split at hspawn
  · rename_i tap ipConfig pid hadd hpid
    obtain ⟨htap, rfl⟩ := cniAdd_eq_some.mp hadd
    simp only [Option.some.injEq, Prod.mk.injEq] at hspawn
    obtain ⟨rfl, rfl⟩ := hspawn
    have hne : "ip=" ++ ip ++ "::" ++ rest ≠ "" := by
      rw [ne_eq, ← String.toList_inj]
      simp
    rw [if_pos hsaved]
    show (if _ = "" then _ else addressOf _) = some ip
    rw [hconfig, if_neg hne, addressOf_config hip]
  · cases hspawn

/-- An ADD that gives the recorded address gives the configuration of the create. -/
theorem config_of_recorded_address {cloned : Bool} {ip ip' rest : String}
    (hip : ':' ∉ ip.toList) (hip' : ':' ∉ ip'.toList)
    (hconfig : ipConfigOf (created.cni (req.addEnv vmId detected)) = "ip=" ++ ip ++ "::" ++ rest)
    (hsaved : created.saved = true)
    (hspawn : spawnVm vmId req cloned detected created = some (st, args))
    (hagain : addressOf ("ip=" ++ ip' ++ "::" ++ rest) = st.ip) :
    "ip=" ++ ip' ++ "::" ++ rest = ipConfigOf (created.cni (req.addEnv vmId detected)) := by
  rw [addressOf_config hip', spawnVm_ip hip hconfig hsaved hspawn, Option.some.injEq] at hagain
  rw [hconfig, hagain]

theorem created_line_iff (hcreated : Created vmId req detected created args) (tapExists : Bool)
    (given : String) :
    initrdLine (if tapExists then "" else given) = args.cmdline ↔
      SameLine req.cmdline (ipConfigOf (created.cni (req.addEnv vmId detected))) tapExists
        given := by
  rw [hcreated.cmdline]
  generalize ipConfigOf (created.cni (req.addEnv vmId detected)) = config
  cases req.cmdline with
  | some cl => exact eq_comm
  | none =>
      show initrdLine _ = buildVmCmdline (decide (config = "")) true config ↔
        config ≠ "" ∧ tapExists = false ∧ given = config
      by_cases hconfig : config = ""
      · subst hconfig
        simp only [ne_eq, not_true_eq_false, false_and, iff_false]
        exact (root_line_ne _).symm
      · have hline := initrdLine_inj_iff (if tapExists then "" else given) config
        simp only [hconfig, decide_false, buildVmCmdline_initrd, hline, ne_eq, not_false_eq_true,
          true_and]
        cases tapExists with
        | false => simp
        | true => simp [Ne.symm hconfig]

end

/-! ## Runs -/

theorem start_alike_iff {vmId : String} {req : CreateVmRequest} {detected : String}
    {created : Outside} {args : VmmArgs} {st : VmState}
    (hcreated : Created vmId req detected created args)
    (hst : Keeps args (req.netMode.getD "nat") st) (a : BootAction) :
    (∀ again ∈ ((boots vmId).step st a).2, again.cmdline = args.cmdline) ↔
      BootsAlike vmId req detected created st a := by
  cases a with
  | start alive tapExists o =>
      have hline := created_line_iff hcreated tapExists
        (ipConfigOf (o.cni (req.addEnv vmId detected)))
      show (∀ again ∈ (restartVm vmId st alive tapExists o).2, again.cmdline = args.cmdline) ↔
        _ ∨ _ ∨ _
      rw [← hline]
      constructor
      · intro h
        by_cases hrunning : (st.pid.isSome && alive) = true
        · exact Or.inl hrunning
        · by_cases hvmm : o.vmm = none
          · exact Or.inr (Or.inl hvmm)
          · exact Or.inr (Or.inr
              (h _ ((mem_restartVm hcreated hst).mpr ⟨hrunning, hvmm, rfl⟩)))
      · intro h again hagain
        obtain ⟨hstopped, hvmm, rfl⟩ := (mem_restartVm hcreated hst).mp hagain
        exact (h.resolve_left hstopped).resolve_left hvmm
  | stop signalled saved => simp [boots, BootsAlike]
  | reap => simp [boots, BootsAlike]
  | reconcile => simp [boots, BootsAlike]

/-- Of every VM that is created, and of everything that happens to it then: each start that
comes to the VMM gives it the line of the create exactly when each does so alike, and never
anything else than at the create but for the line. -/
theorem restart_line_iff {vmId : String} {req : CreateVmRequest} {cloned : Bool}
    {detected : String} {o : Outside} {st : VmState} {args : VmmArgs}
    (hspawn : spawnVm vmId req cloned detected o = some (st, args)) (actions : List BootAction) :
    ((∀ again ∈ ((boots vmId).run st actions).2, again.cmdline = args.cmdline) ↔
      (boots vmId).AllSteps (BootsAlike vmId req detected o) st actions) ∧
    ∀ again ∈ ((boots vmId).run st actions).2, again = { args with cmdline := again.cmdline } := by
  obtain ⟨hcreated, hst⟩ := spawnVm_spec hspawn
  have hkeeps (s : VmState) (a : BootAction) (hs : Keeps args (req.netMode.getD "nat") s) :
      Keeps args (req.netMode.getD "nat") ((boots vmId).step s a).1 := step_keeps hs a
  constructor
  · rw [(boots vmId).forall_mem_run_iff]
    exact (boots vmId).allSteps_congr hkeeps
      (fun _ a hs => start_alike_iff hcreated hs a) hst actions
  · intro again hagain
    obtain ⟨pre, a, post, rfl, hstep⟩ := (boots vmId).mem_run_iff.mp hagain
    have hpre := (boots vmId).run_inductive hkeeps hst pre
    cases a with
    | start alive tapExists out =>
        obtain ⟨-, -, hargs⟩ := (mem_restartVm hcreated hpre).mp hstep
        rw [hargs]
    | stop signalled saved => cases hstep
    | reap => cases hstep
    | reconcile => cases hstep

def natRequest (cmdline : Option String) : CreateVmRequest where
  toCreateVmRequest := ⟨none, none⟩
  name := "guest"
  cpus := none
  memMib := none
  kernel := none
  initrd := none
  uplink := none
  cmdline := cmdline
  netMode := none

/-- ADD gives the first address of the pool, and gives it again. -/
def addressed : Outside where
  cni _ := some ["CAIMAN_IP_CONFIG=ip=10.100.0.2::10.100.0.1:255.255.255.0::eth0:none"]
  vmm := some 7
  saved := true

def restartLines (cmdline : Option String) (tapExists : Bool) : Option (String × List String) :=
  (spawnVm firstVm.text (natRequest cmdline) true "eth0" addressed).map fun created =>
    (created.2.cmdline,
      ((boots firstVm.text).run created.1
        [.stop true true, .start false tapExists addressed]).2.map VmmArgs.cmdline)

/-- A VM with an address whose tap is gone is started as it was created. -/
theorem restart_line_sample :
    ∃ st args, spawnVm firstVm.text (natRequest none) true "eth0" addressed = some (st, args) ∧
      ∀ again ∈ ((boots firstVm.text).run st
        [.stop true true, .start false false addressed]).2, again.cmdline = args.cmdline := by
  obtain ⟨⟨st, args⟩, hspawn⟩ := Option.isSome_iff_exists.mp
    (show (spawnVm firstVm.text (natRequest none) true "eth0" addressed).isSome = true by
      decide +kernel)
  refine ⟨st, args, hspawn, (restart_line_iff hspawn _).1.mpr ⟨trivial, ?_, trivial⟩⟩
  exact Or.inr (Or.inr ⟨by decide +kernel, rfl, rfl⟩)

/-- A VM is stopped and started: while its tap is there it loses its address, and its own
line is never seen again. -/
theorem restart_loses_address_and_line :
    restartLines none true =
      some ("earlycon=uart8250,io,0x3f8,115200n8 console=ttyS0,115200 rw reboot=k panic=1 " ++
          "virtio_mmio.device=0x1000@0xd0000000:5 virtio_mmio.device=0x1000@0xd0010000:6 " ++
          "ip=10.100.0.2::10.100.0.1:255.255.255.0::eth0:none nameserver=1.1.1.1",
        ["earlycon=uart8250,io,0x3f8,115200n8 console=ttyS0,115200 rw reboot=k panic=1 " ++
          "virtio_mmio.device=0x1000@0xd0000000:5 virtio_mmio.device=0x1000@0xd0010000:6"]) ∧
    restartLines (some "console=hvc0") true =
      some ("console=hvc0",
        ["earlycon=uart8250,io,0x3f8,115200n8 console=ttyS0,115200 rw reboot=k panic=1 " ++
          "virtio_mmio.device=0x1000@0xd0000000:5 virtio_mmio.device=0x1000@0xd0010000:6"]) := by
  constructor
  · decide +kernel
  · decide +kernel

end Caiman.Api.Boot
