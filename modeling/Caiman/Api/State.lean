import Mathlib.Data.List.Basic

/-!
# VM records

The fields of `state.json` that the handlers of the API act on, where a VM's files
are, and what each writer of the record makes of the copy it loaded.
-/

namespace Caiman.Api

def stateDir : String := "/var/lib/caiman/vms"

/-- `PathBuf::join`: an absolute path replaces the base. -/
def joinPath (base path : String) : String :=
  if path.toList.head? = some '/' then path
  else if base.toList.getLast? = some '/' then base ++ path
  else base ++ "/" ++ path

def dirOf (id : String) : String := joinPath stateDir id

def pathOf (id : String) : String := joinPath (dirOf id) "state.json"

inductive VmStatus
  | active | stopped | booting | migrating | error | shutOff
  deriving DecidableEq, Repr

inductive PowerState
  | booting | running | stopped
  deriving DecidableEq, Repr

structure VmState where
  status : VmStatus
  pid : Option Nat
  powerState : PowerState
  diskPath : Option String
  deriving DecidableEq, Repr

namespace VmState

/-- What `spawn_vm` saves before the VMM exists. -/
def initial (disk : Option String) : VmState := ⟨.booting, none, .booting, disk⟩

/-- What `spawn_vm` and `restart_vm` save once the VMM runs. -/
def launched (st : VmState) (pid : Nat) : VmState :=
  { st with status := .active, pid := some pid, powerState := .running }

/-- What `stop_vm` and `kill_vm` save. The power state stays. -/
def signalled (st : VmState) : VmState := { st with status := .shutOff, pid := none }

def reaped (st : VmState) : VmState :=
  { st with status := .shutOff, powerState := .stopped, pid := none }

/-- What `reconcile` saves of an active VM whose process is gone. The pid stays. -/
def reconciled (st : VmState) : VmState :=
  { st with status := .shutOff, powerState := .stopped }

end VmState

/-! ## Disks -/

structure CreateVmRequest where
  disk : Option String
  baseImage : Option String
  deriving DecidableEq, Repr

/-- The path `create_disk` clones the base image to. -/
def clonedDisk (id : String) : String := joinPath (dirOf id) "disk.img"

def sharedDisk : String := "/var/lib/caiman/kernels/caiman-rootfs.img"

/-- The disk of `spawn_vm`: its own clone, else the one the request names, else the
shared one. -/
def chooseDisk (id : String) (req : CreateVmRequest) (cloned : Bool) : Option String :=
  if cloned then some (clonedDisk id)
  else req.disk.or (some sharedDisk)

end Caiman.Api
