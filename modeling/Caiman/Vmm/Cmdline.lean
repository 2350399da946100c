import Caiman.Api.Cmdline
import Caiman.Vmm.Kvm.Windows

/-!
# The devices on the command line

A guest on virtio-mmio finds its devices on the kernel command line only. The line is made of
the options in `cmdline.rs`, or comes from the API, which makes it on its own; the devices are
made in `run`. What the line announces is compared with what answers there.
-/

namespace Caiman.Vmm

open Lib

def virtioNetIrq : Nat := 5
def virtioBlkIrq : Nat := 6

/-! ## The line of the VMM -/

structure CmdlineOpts where
  rootDevice : Option String
  rootfstype : Option String
  hasNet : Bool
  hasDisk : Bool
  ipConfig : Option String
  extra : Option String
  deriving DecidableEq, Repr

/-- `{:#x}` -/
def hexText (n : Nat) : String := "0x" ++ String.ofList (Nat.toDigits 16 n)

def deviceWord (base : UInt64) (irq : Nat) : String :=
  "virtio_mmio.device=0x1000@" ++ hexText base.toNat ++ ":" ++ Nat.repr irq

def buildCmdline (opts : CmdlineOpts) : String :=
  " ".intercalate (["earlycon=uart8250,io,0x3f8,115200n8", "console=ttyS0,115200"] ++
    (match opts.rootDevice with
      | some root => ("root=" ++ root) :: (opts.rootfstype.map ("rootfstype=" ++ ·)).toList
      | none => []) ++
    ["rw", "reboot=k", "panic=1"] ++
    (if opts.hasNet then [deviceWord virtioNetMmioBase virtioNetIrq] else []) ++
    (if opts.hasDisk then [deviceWord virtioBlkMmioBase virtioBlkIrq] else []) ++
    opts.ipConfig.toList ++ opts.extra.toList)

/-- `run`: a line that is given wins. -/
def effectiveCmdline (cmdline disk : Option String) : String :=
  match cmdline with
  | some c => c
  | none =>
      buildCmdline
        { rootDevice := if disk.isSome then some "/dev/vda" else none
          rootfstype := if disk.isSome then some "ext4" else none
          hasNet := true
          hasDisk := disk.isSome
          ipConfig := none
          extra := none }

/-! ## What a guest makes of a line -/

structure MmioDevice where
  size : Nat
  base : Nat
  irq : Nat
  deriving DecidableEq, Repr

def hexDigit (c : Char) : Option Nat :=
  if c.isDigit then some (c.toNat - '0'.toNat)
  else if 'a' ≤ c ∧ c ≤ 'f' then some (c.toNat - 'a'.toNat + 10)
  else none

/-- The digits of a number, in a base. -/
def readDigits (base : Nat) (cs : List Char) : Option Nat :=
  if cs = [] then none
  else cs.foldlM (fun n c => (hexDigit c).bind fun d =>
    if d < base then some (base * n + d) else none) 0

def readNumber : List Char → Option Nat
  | '0' :: 'x' :: cs => readDigits 16 cs
  | cs => readDigits 10 cs

/-- `<size>@<baseaddr>:<irq>` -/
def readDevice (cs : List Char) : Option MmioDevice :=
  match cs.splitOn '@' with
  | [size, rest] =>
      match rest.splitOn ':' with
      | [base, irq] => do
          let size ← readNumber size
          let base ← readNumber base
          let irq ← readNumber irq
          some ⟨size, base, irq⟩
      | _ => none
  | _ => none

def deviceParam : List Char := "virtio_mmio.device=".toList

/-- The devices that the parameters of a line announce. `none`: one that cannot be read. -/
def announced (line : String) : List (Option MmioDevice) :=
  ((line.toList.splitOn ' ').filter (deviceParam.isPrefixOf ·)).map
    fun word => readDevice (word.drop deviceParam.length)

theorem announced_append (x y : String) :
    announced (x ++ " " ++ y) = announced x ++ announced y := by
  have hsplit : (x ++ " " ++ y).toList.splitOn ' ' =
      x.toList.splitOn ' ' ++ y.toList.splitOn ' ' := by
    rw [String.toList_append, String.toList_append, List.append_assoc]
    exact List.splitOn_append_cons_self _ _
  rw [announced, hsplit, List.filter_append, List.map_append, announced, announced]

theorem announced_empty : announced "" = [] := by decide +kernel

theorem announced_intercalate (parts : List String) :
    announced (" ".intercalate parts) = parts.flatMap announced := by
  induction parts with
  | nil => exact announced_empty
  | cons x rest ih =>
      cases rest with
      | nil => rw [String.intercalate_singleton, List.flatMap_singleton]
      | cons y rest =>
          rw [String.intercalate_cons_cons, announced_append, ih, ← List.flatMap_cons]

/-- The devices of a VMM: the network device, and the block device of a disk. -/
def mmioDevices (hasDisk : Bool) : List MmioDevice :=
  ⟨virtioNetMmioSize.toNat, virtioNetMmioBase.toNat, virtioNetIrq⟩ ::
    if hasDisk then [⟨virtioBlkMmioSize.toNat, virtioBlkMmioBase.toNat, virtioBlkIrq⟩] else []

theorem announced_buildVmCmdline (rootDisk hasDisk : Bool) {ipConfig : String}
    (hplain : announced ipConfig = []) :
    announced (Api.Boot.buildVmCmdline rootDisk hasDisk ipConfig) =
      (mmioDevices hasDisk).map some := by
  have hconfig : (if ipConfig = "" then [] else [ipConfig, "nameserver=1.1.1.1"]).flatMap
      announced = [] := by
    split
    · rfl
    · rw [List.flatMap_cons, hplain, List.flatMap_singleton]
      decide +kernel
  rw [Api.Boot.buildVmCmdline, announced_intercalate, List.flatMap_append, hconfig,
    List.append_nil]
  cases rootDisk <;> cases hasDisk <;> decide +kernel

/-- So does the line that the VMM makes when none is given. -/
theorem announced_effectiveCmdline (disk : Option String) :
    announced (effectiveCmdline none disk) = (mmioDevices disk.isSome).map some := by
  rw [effectiveCmdline, buildCmdline, announced_intercalate]
  generalize disk.isSome = hasDisk
  cases hasDisk <;> decide +kernel

/-! ## What answers -/

def magicBytes : List UInt8 := leBytes 4 virtioMagic.toNat

/-- A read of the first register comes to the VMM and finds a device. -/
def Answers (g : GuestMemory) (d : Devices) (base : UInt64) : Prop :=
  (GuestAccess.read base [0, 0, 0, 0]).exit g.registerWithVm =
      some (.mmioRead base [0, 0, 0, 0]) ∧
    d.handleMmioRead base [0, 0, 0, 0] = .ok magicBytes

namespace Devices

variable {d : Devices} {base : UInt64}

theorem netRead_magic_iff (hpage : base.toNat % 4096 = 0) :
    d.netRead base [0, 0, 0, 0] = .ok magicBytes ↔ base = virtioNetMmioBase := by
  constructor
  · intro h
    by_contra hne
    rw [netRead, if_neg] at h
    · exact absurd (Except.ok.inj h) (by decide)
    · intro hin
      have hbounds := (GuestMemory.inNet_iff base).mp hin
      apply hne
      apply UInt64.toNat_inj.mp
      show base.toNat = 0xD0000000
      omega
  · rintro rfl
    rw [netRead, if_pos (by decide)]
    rfl

/-- Of the pages of the address space those of the two devices answer. -/
theorem handleMmioRead_magic_iff (hpage : base.toNat % 4096 = 0) :
    d.handleMmioRead base [0, 0, 0, 0] = .ok magicBytes ↔
      base = virtioNetMmioBase ∨ d.vblk.isSome = true ∧ base = virtioBlkMmioBase := by
  unfold handleMmioRead
  cases d.vblk with
  | none =>
      show d.netRead base [0, 0, 0, 0] = .ok magicBytes ↔ _
      rw [netRead_magic_iff hpage]
      simp
  | some blk =>
      show (if inBlk base = true then _ else d.netRead base [0, 0, 0, 0]) = .ok magicBytes ↔ _
      by_cases hblk : inBlk base = true
      · have hbounds := (GuestMemory.inBlk_iff base).mp hblk
        have hbase : base = virtioBlkMmioBase := by
          apply UInt64.toNat_inj.mp
          show base.toNat = 0xD0010000
          omega
        subst hbase
        rw [if_pos hblk]
        exact iff_of_true rfl (Or.inr ⟨rfl, rfl⟩)
      · rw [if_neg hblk, netRead_magic_iff hpage]
        have hne : base ≠ virtioBlkMmioBase := by
          rintro rfl
          exact hblk (by decide)
        simp [hne]

end Devices

theorem exit_of_spares {g : GuestMemory} (hspares : g.ramEnd ≤ 0xD0000000) {base : UInt64}
    (hwindow : GuestMemory.InWindow base) :
    (GuestAccess.read base [0, 0, 0, 0]).exit g.registerWithVm =
      some (.mmioRead base [0, 0, 0, 0]) :=
  (g.sparesWindows_iff.mpr hspares).exits (.read base [0, 0, 0, 0]) hwindow

theorem not_answers_net {g : GuestMemory} (hram : 0xD0000000 < g.ramEnd) (d : Devices) :
    ¬ Answers g d virtioNetMmioBase := by
  intro h
  have hexit := h.1
  rw [GuestAccess.exit, if_pos] at hexit
  · cases hexit
  · rw [GuestMemory.backs_iff]
    refine ⟨g.high, by simp [GuestMemory.regions], ?_⟩
    show g.high.Contains 0xD0000000 1
    rw [GuestMemory.high_contains_iff]
    omega

theorem answers_iff {g : GuestMemory} (hspares : g.ramEnd ≤ 0xD0000000) {d : Devices}
    {base : UInt64} (hpage : base.toNat % 4096 = 0) :
    Answers g d base ↔
      base = virtioNetMmioBase ∨ d.vblk.isSome = true ∧ base = virtioBlkMmioBase := by
  rw [Answers, d.handleMmioRead_magic_iff hpage, and_iff_right_of_imp]
  rintro (rfl | ⟨-, rfl⟩)
  · exact exit_of_spares hspares (Or.inl (by decide))
  · exact exit_of_spares hspares (Or.inr (by decide))

/-! ## Over a run of the VMM -/

namespace Process

theorem handleIoOut_vblk {d d' : Devices} {es : List VmmEvent} {port : UInt16} {first : UInt8}
    {rest : List UInt8} (h : d.handleIoOut port first rest = .ok (d', es)) : d'.vblk = d.vblk := by
  unfold Devices.handleIoOut at h
  split at h
  · cases h
    rfl
  · split at h
    · cases h
      rfl
    · split at h
      · cases h
      · cases h
        rfl

theorem handleIoIn_vblk (d : Devices) (port : UInt16) (buf : List UInt8) :
    (d.handleIoIn port buf).2.1.vblk = d.vblk := by
  unfold Devices.handleIoIn
  split
  · rfl
  · split
    · rfl
    · rfl

theorem netWrite_vblk {d d' : Devices} {es : List VmmEvent} {addr : UInt64} {data : List UInt8}
    (h : d.netWrite addr data = .ok (d', es)) : d'.vblk = d.vblk := by
  unfold Devices.netWrite at h
  split at h
  · split at h
    · cases h
      rfl
    · cases h
  · cases h
    rfl

theorem deviceWrite_vblk {d d' : Devices} {es : List VmmEvent} {addr : UInt64}
    {data : List UInt8} (h : d.deviceWrite addr data = .ok (d', es)) :
    d'.vblk.isSome = d.vblk.isSome := by
  unfold Devices.deviceWrite at h
  split at h
  · rename_i blk hblk
    split at h
    · cases h
      rw [hblk]
      rfl
    · rw [netWrite_vblk h]
  · rw [netWrite_vblk h]

theorem handleMmioWrite_vblk {d d' : Devices} {es : List VmmEvent} {addr : UInt64}
    {data : List UInt8} (h : d.handleMmioWrite addr data = .ok (d', es)) :
    d'.vblk.isSome = d.vblk.isSome := by
  cases data with
  | nil => exact deviceWrite_vblk h
  | cons b rest =>
      simp only [Devices.handleMmioWrite] at h
      split at h
      · cases h
        rfl
      · exact deviceWrite_vblk h

theorem handle_vblk {d d' : Devices} {e : VcpuExit} {es : List VmmEvent}
    (h : handle d e = some (.ok (d', es))) : d'.vblk.isSome = d.vblk.isSome := by
  cases e with
  | ioIn port buf =>
      have hread := handleIoIn_vblk d port buf
      rw [Except.ok.inj (Option.some.inj h)] at hread
      rw [hread]
  | ioOut port first rest => rw [handleIoOut_vblk (Option.some.inj h)]
  | mmioRead addr buf =>
      replace h := Option.some.inj h
      cases hread : d.handleMmioRead addr buf with
      | error ending =>
          rw [hread] at h
          cases h
      | ok vals =>
          rw [hread] at h
          cases h
          rfl
  | mmioWrite addr data => exact handleMmioWrite_vblk (Option.some.inj h)
  | hlt =>
      cases h
      rfl
  | shutdown => cases h
  | systemEvent event => cases h
  | other =>
      cases h
      rfl

theorem runStep_vblk (s : Process) (id : Nat) (run : KvmRun) :
    (s.runStep id run).1.devices.vblk.isSome = s.devices.vblk.isSome := by
  cases run with
  | interrupted => rfl
  | failed => rfl
  | exit e =>
      simp only [runStep]
      split
      · rfl
      · split
        · rfl
        · rename_i d' es hhandle
          exact handle_vblk hhandle
        · rfl

theorem blkStep_vblk (s : Process) (io : Blk.Transfer) :
    (s.blkStep io).1.devices.vblk.isSome = s.devices.vblk.isSome := by
  unfold blkStep
  cases hblk : s.devices.vblk with
  | none => exact congrArg Option.isSome hblk
  | some blk => rfl

theorem step_vblk (s : Process) (a : VmmAction) :
    (machine.step s a).1.devices.vblk.isSome = s.devices.vblk.isSome := by
  simp only [machine]
  split
  · rfl
  · cases a with
    | stdinThread => rfl
    | vcpu id run =>
        dsimp only
        split
        · split
          · exact s.runStep_vblk id run
          · rfl
          · rfl
        · rfl
    | store addr data => rfl
    | blkDataplane io => exact s.blkStep_vblk io
    | netDataplane packet => rfl
    | kill => rfl

theorem run_vblk (s : Process) (as : List VmmAction) :
    (machine.run s as).1.devices.vblk.isSome = s.devices.vblk.isSome :=
  machine.run_inductive (I := fun p => p.devices.vblk.isSome = s.devices.vblk.isSome)
    (fun p a hp => (step_vblk p a).trans hp) rfl as

end Process

/-! ## What is announced and what is there -/

/-- A guest that looks where its line tells it, and anywhere else, finds what is announced. -/
def AnnouncedThere (line : String) (g : GuestMemory) (d : Devices) : Prop :=
  ∀ base : UInt64, base.toNat % 4096 = 0 →
    ((∃ size irq, some ⟨size, base.toNat, irq⟩ ∈ announced line) ↔ Answers g d base)

theorem mem_mmioDevices (hasDisk : Bool) (base : UInt64) :
    (∃ size irq, some (⟨size, base.toNat, irq⟩ : MmioDevice) ∈ (mmioDevices hasDisk).map some) ↔
      base = virtioNetMmioBase ∨ hasDisk = true ∧ base = virtioBlkMmioBase := by
  have hmem : ∀ x : MmioDevice, some x ∈ (mmioDevices hasDisk).map some ↔
      x ∈ mmioDevices hasDisk := by
    intro x
    simp
  simp only [hmem, ← UInt64.toNat_inj]
  cases hasDisk with
  | false => simp [mmioDevices]
  | true =>
      simp only [mmioDevices, if_true, List.mem_cons, MmioDevice.mk.injEq, List.not_mem_nil,
        or_false, true_and]
      constructor
      · rintro ⟨size, irq, ⟨-, hnet, -⟩ | ⟨-, hblk, -⟩⟩
        · exact Or.inl hnet
        · exact Or.inr hblk
      · rintro (hnet | hblk)
        · exact ⟨_, _, Or.inl ⟨rfl, hnet, rfl⟩⟩
        · exact ⟨_, _, Or.inr ⟨rfl, hblk, rfl⟩⟩

theorem announcedThere_iff {line : String} {hasDisk : Bool}
    (hline : announced line = (mmioDevices hasDisk).map some) (g : GuestMemory) (s : Process)
    (hdisk : s.devices.vblk.isSome = hasDisk) :
    (∀ as, AnnouncedThere line g (Process.machine.run s as).1.devices) ↔
      g.ramEnd ≤ 0xD0000000 := by
  constructor
  · intro h
    by_contra hram
    have hnet := (h [] virtioNetMmioBase (by decide)).mp
    rw [hline, mem_mmioDevices] at hnet
    exact not_answers_net (Nat.lt_of_not_le hram) _ (hnet (Or.inl rfl))
  · intro hspares as base hpage
    rw [hline, mem_mmioDevices, answers_iff hspares hpage, Process.run_vblk, hdisk]

/-- Of a VMM that is started without a line. -/
theorem announcedThere_default_iff {mmapAnon : MmapAnon} {memMib : UInt64} {g : GuestMemory}
    (halloc : GuestMemory.alloc mmapAnon memMib = some g) (disk : Option String)
    (stdin : List UInt8) (mac : Fin 6 → UInt8) {vblk : Option Blk.BlkState}
    (hvblk : vblk.isSome = disk.isSome) (mem : GuestMemory) (image : Blk.Image) (cpus : Nat) :
    (∀ as, AnnouncedThere (effectiveCmdline none disk) g
      (Process.machine.run (.boot stdin mac vblk mem image cpus) as).1.devices) ↔
        memMib.toNat % 2 ^ 44 ≤ 3328 := by
  rw [announcedThere_iff (announced_effectiveCmdline disk) g _ hvblk,
    ← GuestMemory.alloc_sparesWindows_iff mmapAnon _ g halloc, GuestMemory.sparesWindows_iff]

namespace Boot

open Api.Boot

/-- The configuration that ADD gives brings no device along. -/
def Plain (o : Outside) (env : AddEnv) : Prop := announced (ipConfigOf (o.cni env)) = []

instance (o : Outside) (env : AddEnv) : Decidable (Plain o env) :=
  inferInstanceAs (Decidable (_ = _))

/-- So does that of a later start. -/
def PlainStart (env : AddEnv) (_ : VmState) : BootAction → Prop
  | .start _ _ o => Plain o env
  | _ => True

variable {vmId : String} {req : CreateVmRequest} {cloned : Bool} {detected : String}
  {o : Outside} {st : VmState} {args again : VmmArgs}

/-- Every line the API gives a VMM, but for one of the caller's, announces the devices. -/
theorem announced_of_start (hspawn : spawnVm vmId req cloned detected o = some (st, args))
    (hown : req.cmdline = none) (hplain : Plain o (req.addEnv vmId detected))
    {actions : List BootAction}
    (hplains : (boots vmId).AllSteps (PlainStart (req.addEnv vmId detected)) st actions)
    (hagain : again ∈ args :: ((boots vmId).run st actions).2) :
    announced again.cmdline = (mmioDevices again.disk.isSome).map some := by
  obtain ⟨hcreated, hst⟩ := spawnVm_spec hspawn
  rcases List.mem_cons.mp hagain with rfl | hagain
  · rw [hcreated.disk, hcreated.cmdline, hown]
    exact announced_buildVmCmdline _ _ hplain
  · obtain ⟨pre, a, post, rfl, hstep⟩ := (boots vmId).mem_run_iff.mp hagain
    have hkeeps (s : VmState) (a : BootAction) (hs : Keeps args (req.netMode.getD "nat") s) :
        Keeps args (req.netMode.getD "nat") ((boots vmId).step s a).1 := step_keeps hs a
    have hpre := (boots vmId).run_inductive hkeeps hst pre
    have hnow := (boots vmId).allSteps_iff_split.mp hplains pre a post rfl
    cases a with
    | start alive tapExists out =>
        obtain ⟨-, -, rfl⟩ := (mem_restartVm hcreated hpre).mp hstep
        show announced (initrdLine _) = (mmioDevices args.disk.isSome).map some
        rw [hcreated.disk, ← buildVmCmdline_initrd]
        apply announced_buildVmCmdline
        cases tapExists with
        | false => exact hnow
        | true => exact announced_empty
    | stop signalled saved => cases hstep
    | reap => cases hstep
    | reconcile => cases hstep

/-- Of every VM that the API creates with a line of its own making, at its create and at every
later start, and after anything that the VMM went through: the pages that answer as a device
are those the line announces, exactly when the memory of the guest ends below the windows. -/
theorem announcedThere_start_iff
    (hspawn : spawnVm vmId req cloned detected o = some (st, args)) (hown : req.cmdline = none)
    (hplain : Plain o (req.addEnv vmId detected)) {actions : List BootAction}
    (hplains : (boots vmId).AllSteps (PlainStart (req.addEnv vmId detected)) st actions)
    (hagain : again ∈ args :: ((boots vmId).run st actions).2) {mmapAnon : MmapAnon}
    {g : GuestMemory} (halloc : GuestMemory.alloc mmapAnon again.memMib = some g)
    (stdin : List UInt8) (mac : Fin 6 → UInt8) {vblk : Option Blk.BlkState}
    (hvblk : vblk.isSome = again.disk.isSome) (mem : GuestMemory) (image : Blk.Image) :
    (∀ as, AnnouncedThere again.cmdline g
      (Process.machine.run (.boot stdin mac vblk mem image again.cpus.toNat) as).1.devices) ↔
        again.memMib.toNat % 2 ^ 44 ≤ 3328 := by
  rw [announcedThere_iff (announced_of_start hspawn hown hplain hplains hagain) g _ hvblk,
    ← GuestMemory.alloc_sparesWindows_iff mmapAnon _ g halloc, GuestMemory.sparesWindows_iff]

/-- A VM with the default memory, its stop and its next start. -/
theorem announcedThere_start_sample :
    ∃ st args again g, spawnVm Api.firstVm.text (natRequest none) true "eth0" addressed =
        some (st, args) ∧
      again ∈ ((boots Api.firstVm.text).run st
        [.stop true true, .start false false addressed]).2 ∧
      GuestMemory.alloc GuestMemory.userMmap again.memMib = some g ∧
      ∀ as, AnnouncedThere again.cmdline g
        (Process.machine.run (.boot [] (fun _ => 0) (some (.new 8 false)) g [] 1) as).1.devices := by
  obtain ⟨st, args, again, hspawn, hrun, hmem, hcpus, hdisk⟩ : ∃ st args again,
      spawnVm Api.firstVm.text (natRequest none) true "eth0" addressed = some (st, args) ∧
      ((boots Api.firstVm.text).run st [.stop true true, .start false false addressed]).2 =
        [again] ∧
      again.memMib = 256 ∧ again.cpus = 1 ∧ again.disk.isSome = true :=
    ⟨_, _, _, rfl, rfl, rfl, rfl, rfl⟩
  have hplain : Plain addressed ((natRequest none).addEnv Api.firstVm.text "eth0") := by
    decide +kernel
  have hplains : (boots Api.firstVm.text).AllSteps
      (PlainStart ((natRequest none).addEnv Api.firstVm.text "eth0")) st
      [.stop true true, .start false false addressed] := ⟨trivial, hplain, trivial⟩
  have hagain : again ∈ ((boots Api.firstVm.text).run st
      [.stop true true, .start false false addressed]).2 := by
    rw [hrun]
    exact List.mem_singleton_self again
  obtain ⟨g, halloc⟩ := Option.isSome_iff_exists.mp
    (show (GuestMemory.alloc GuestMemory.userMmap 256).isSome by decide)
  rw [← hmem] at halloc
  have hthere := (announcedThere_start_iff hspawn rfl hplain hplains
    (List.mem_cons_of_mem _ hagain) halloc [] (fun _ => 0)
    (show (some (Blk.BlkState.new 8 false)).isSome = again.disk.isSome from hdisk.symm) g []).mpr
    (by rw [hmem]; decide)
  rw [hcpus] at hthere
  exact ⟨st, args, again, g, hspawn, hagain, halloc, hthere⟩

end Boot

end Caiman.Vmm
