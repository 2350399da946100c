import Caiman.Lib.Json
import Mathlib.Logic.Function.Basic

/-!
# Control socket of the source VM

The commands the migration sends to the VMM of the VM, what it makes of the
replies, and the VM those commands are about: whether its vCPUs run, its RAM by
page, and the pages written since the dirty log was last read.
-/

namespace Caiman.Livemig

open Lib

inductive VmmCtrl
  | enableDirtyTracking
  | getDirtyLog
  | pauseVcpus
  | resumeVcpus
  | getVcpuState
  | getMemoryRegions
  deriving DecidableEq, Repr

structure VmmResponse where
  ok : Bool
  message : Option String
  data : Option Json.Value

/-! ## Dirty pages in a reply -/

/-- The entries of the log; a reply without an array has none. -/
def dirtyPages (resp : VmmResponse) : List Json.Value :=
  (resp.data.bind Json.Value.asArray).getD []

def pageGpa (page : Json.Value) : UInt64 := (page.index "gpa").asU64.getD 0

def pageData (page : Json.Value) : List UInt8 :=
  match (page.index "data").asArray with
  | some bytes => bytes.filterMap fun v => v.asU64.map (·.toUInt8)
  | none => List.replicate 4096 0

/-- A log entry as the VMM writes it. -/
def pageEntry (gpa : UInt64) (data : List UInt8) : Json.Value :=
  .object [("gpa", .nat gpa), ("data", .array (data.map fun b => .nat b.toUInt64))]

@[simp] theorem pageGpa_pageEntry (gpa : UInt64) (data : List UInt8) :
    pageGpa (pageEntry gpa data) = gpa := rfl

@[simp] theorem pageData_pageEntry (gpa : UInt64) (data : List UInt8) :
    pageData (pageEntry gpa data) = data := by
  have hbytes : pageData (pageEntry gpa data) =
      (data.map fun b => Json.Value.nat b.toUInt64).filterMap
        fun v => v.asU64.map (·.toUInt8) := rfl
  rw [hbytes, List.filterMap_map]
  have hsome : (fun v : Json.Value => v.asU64.map (·.toUInt8)) ∘
      (fun b : UInt8 => Json.Value.nat b.toUInt64) = some := by
    funext b
    simp
  rw [hsome, List.filterMap_some]

/-! ## The source VM -/

structure SourceVm where
  running : Bool
  tracking : Bool
  ram : UInt64 → List UInt8
  dirty : List UInt64

namespace SourceVm

/-- The guest writes a page. Paused vCPUs write nothing. -/
def write (vm : SourceVm) (gpa : UInt64) (data : List UInt8) : SourceVm :=
  if vm.running then
    { vm with
      ram := Function.update vm.ram gpa data
      dirty := if vm.tracking then gpa :: vm.dirty else vm.dirty }
  else vm

/-- What a command does to the VM when the VMM carries it out. -/
def carryOut (vm : SourceVm) : VmmCtrl → SourceVm
  | .enableDirtyTracking => { vm with tracking := true, dirty := [] }
  | .getDirtyLog => { vm with dirty := [] }
  | .pauseVcpus => { vm with running := false }
  | .resumeVcpus => { vm with running := true }
  | .getVcpuState => vm
  | .getMemoryRegions => vm

/-- The reply lists exactly the dirty pages, each with its content. -/
def IsDirtyLog (vm : SourceVm) (resp : VmmResponse) : Prop :=
  ∃ gpas : List UInt64, (∀ gpa, gpa ∈ gpas ↔ gpa ∈ vm.dirty) ∧
    resp.data = some (.array (gpas.map fun gpa => pageEntry gpa (vm.ram gpa)))

end SourceVm

end Caiman.Livemig
