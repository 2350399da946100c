import Caiman.Api.Tap
import Caiman.Lib.Json
import Caiman.Vmm.Mac

/-!
# A migration request from the UI to the migrator

The UI posts the node under one field name and the handler looks for another; the
handler passes the id of the VM on as text and `caiman-livemig` takes a number.
-/

namespace Caiman.Api

open Lib Lib.Json Vmm

/-! ## UI -/

structure HttpPost where
  path : String
  body : Value

def useMigrateVm (vmId toNode : String) : HttpPost where
  path := "/api/vms/" ++ vmId ++ "/migrate"
  body := .object [("toNode", .string toNode)]

/-! ## API -/

/-- The route `/api/vms/:id/migrate`. An id has no characters that a path escapes. -/
def routeMigrate (path : String) : Option String :=
  match (path.toList.splitOn '/').map String.ofList with
  | ["", "api", "vms", id, "migrate"] => if id = "" then none else some id
  | _ => none

/-- `migrate_vm`: the arguments of `caiman-livemig`. -/
def migrateVm (id : String) (body : Value) : List String :=
  let dest := ((body.index "destination").asStr).getD "localhost"
  ["--vm-id", id, "--destination", dest]

def serveMigrate (r : HttpPost) : Option (List String) :=
  (routeMigrate r.path).map fun id => migrateVm id r.body

/-! ## Migrator -/

structure LivemigArgs where
  vmId : UInt32
  destination : String
  bandwidthMbps : UInt64
  convergenceMib : UInt64
  maxIterSecs : UInt64
  deriving DecidableEq, Repr

/-- A value that looks like an option is not taken for a value. -/
def hyphened (value : List Char) : Bool := value.head? = some '-' && value ≠ ['-']

inductive LivemigOption
  | vmId
  | destination
  | bandwidthMbps
  | convergenceMib
  | maxIterSecs
  deriving DecidableEq, Repr

namespace LivemigOption

def name : LivemigOption → String
  | vmId => "vm-id"
  | destination => "destination"
  | bandwidthMbps => "bandwidth-mbps"
  | convergenceMib => "convergence-mib"
  | maxIterSecs => "max-iter-secs"

def all : List LivemigOption := [vmId, destination, bandwidthMbps, convergenceMib, maxIterSecs]

def decode (name : List Char) : Option LivemigOption := all.find? fun o => o.name.toList = name

end LivemigOption

/-- `--name` or `--name=value`, of an option there is. -/
def splitOption (arg : List Char) : Option (LivemigOption × Option (List Char)) :=
  match arg with
  | '-' :: '-' :: rest =>
      match rest.span (· ≠ '=') with
      | (name, _ :: value) => (LivemigOption.decode name).map fun o => (o, some value)
      | (name, []) => (LivemigOption.decode name).map fun o => (o, none)
  | _ => none

abbrev Values := List (LivemigOption × List Char)

/-- The options of a command line that has nothing else, with their values. -/
def collect : List (List Char) → Option Values
  | [] => some []
  | [arg] =>
      match splitOption arg with
      | some (o, some value) => some [(o, value)]
      | _ => none
  | arg :: next :: rest =>
      match splitOption arg with
      | some (o, some value) => (collect (next :: rest)).map ((o, value) :: ·)
      | some (o, none) => if hyphened next then none else (collect rest).map ((o, next) :: ·)
      | none => none

def Values.orDefault (opts : Values) (o : LivemigOption) (default : UInt64) : Option UInt64 :=
  match opts.lookup o with
  | some value => parseU64 value
  | none => some default

/-- Every option at most once, and the first two required. -/
def interpret (opts : Values) : Option LivemigArgs :=
  if ¬ (opts.map Prod.fst).Nodup then none
  else do
    let vmId ← (opts.lookup .vmId).bind parseU32
    let destination ← opts.lookup .destination
    let bandwidthMbps ← opts.orDefault .bandwidthMbps 4000
    let convergenceMib ← opts.orDefault .convergenceMib 50
    let maxIterSecs ← opts.orDefault .maxIterSecs 300
    some ⟨vmId, String.ofList destination, bandwidthMbps, convergenceMib, maxIterSecs⟩

def parseArgs (argv : List String) : Option LivemigArgs :=
  (collect (argv.map String.toList)).bind interpret

/-- The migrator is started for this VM and this destination. -/
def Delivered (vm : VmId) (toNode : String) : Prop :=
  ∃ argv args, serveMigrate (useMigrateVm vm.text toNode) = some argv ∧
    parseArgs argv = some args ∧ args.vmId = vmNum vm.text ∧ args.destination = toNode

theorem collect_option {arg next : List Char} {o : LivemigOption} {rest : List (List Char)}
    (h : splitOption arg = some (o, none)) :
    collect (arg :: next :: rest) =
      if hyphened next then none else (collect rest).map ((o, next) :: ·) := by
  rw [collect, h]

theorem collect_migrate (id dest : List Char) :
    collect ["--vm-id".toList, id, "--destination".toList, dest] =
      if hyphened id = true ∨ hyphened dest = true then none
      else some [(.vmId, id), (.destination, dest)] := by
  have hid : splitOption "--vm-id".toList = some (.vmId, none) := by decide
  have hdest : splitOption "--destination".toList = some (.destination, none) := by decide
  rw [collect_option hid, collect_option hdest]
  cases hyphened id with
  | true => rfl
  | false => cases hyphened dest <;> rfl

theorem interpret_migrate (id dest : List Char) :
    interpret [(.vmId, id), (.destination, dest)] =
      (parseU32 id).map fun vmId => ⟨vmId, String.ofList dest, 4000, 50, 300⟩ := by
  have hid : ([(LivemigOption.vmId, id), (.destination, dest)]).lookup .vmId = some id := rfl
  have honce : ¬ ¬ ([(LivemigOption.vmId, id), (.destination, dest)].map Prod.fst).Nodup := by
    simp
  rw [interpret, if_neg honce, hid, Option.bind_some]
  cases parseU32 id with
  | none => rfl
  | some vmId => rfl

theorem parseArgs_migrate (id dest : String) :
    parseArgs ["--vm-id", id, "--destination", dest] =
      if hyphened id.toList = true ∨ hyphened dest.toList = true then none
      else (parseU32 id.toList).map fun vmId => ⟨vmId, dest, 4000, 50, 300⟩ := by
  rw [parseArgs]
  simp only [List.map_cons, List.map_nil, collect_migrate]
  split
  · rfl
  · rw [Option.bind_some, interpret_migrate, String.ofList_toList]

theorem routeMigrate_path {id : String} (hne : id ≠ "") (hslash : '/' ∉ id.toList) :
    routeMigrate ("/api/vms/" ++ id ++ "/migrate") = some id := by
  have hpath : ("/api/vms/" ++ id ++ "/migrate").toList = ['/'].intercalate
      [[], "api".toList, "vms".toList, id.toList, "migrate".toList] := by
    simp [String.toList_append]
  have hsegments : ("/api/vms/" ++ id ++ "/migrate").toList.splitOn '/' =
      [[], "api".toList, "vms".toList, id.toList, "migrate".toList] := by
    rw [hpath, List.splitOn_intercalate]
    · simp [hslash]
    · simp
  simp only [routeMigrate, hsegments, List.map_cons, List.map_nil, String.ofList_toList,
    String.ofList_nil, if_neg hne]

/-- What the handler passes on for the UI's request: the id as text, and never the node. -/
theorem serveMigrate_ui (vm : VmId) (toNode : String) :
    serveMigrate (useMigrateVm vm.text toNode) =
      some ["--vm-id", vm.text, "--destination", "localhost"] := by
  obtain ⟨digits, hlen, hhex, htext⟩ := vm.exists_digits
  have hslash : '/' ∉ vm.text.toList := by
    rw [htext]
    intro h
    rcases List.mem_append.mp h with hprefix | hdigit
    · exact absurd hprefix (by decide)
    · exact absurd (hhex '/' hdigit) (by decide)
  have hne : vm.text ≠ "" := by
    intro h
    rw [h] at htext
    cases htext
  rw [serveMigrate, useMigrateVm, routeMigrate_path hne hslash]
  rfl

/-- Whatever the VM and the node, the migrator refuses the arguments it is started with:
its VM id is a number. -/
theorem migration_not_delivered (vm : VmId) (toNode : String) :
    ¬ Delivered vm toNode ∧
      ∀ dest, parseArgs ["--vm-id", vm.text, "--destination", dest] = none := by
  have hparse : parseU32 vm.text.toList = none := by
    obtain ⟨digits, -, -, htext⟩ := vm.exists_digits
    rw [htext]
    rfl
  have hnone : ∀ dest, parseArgs ["--vm-id", vm.text, "--destination", dest] = none := by
    intro dest
    rw [parseArgs_migrate, hparse]
    split <;> rfl
  refine ⟨?_, hnone⟩
  intro h
  obtain ⟨argv, args, hserve, hargs, -⟩ := h
  rw [serveMigrate_ui] at hserve
  cases hserve
  rw [hnone] at hargs
  cases hargs

def someVm : VmId where
  text := "vm-0a1b2c3d"
  generated := ⟨"0a1b2c3d".toList, rfl, by simp, rfl⟩

theorem someVm_not_delivered : ¬ Delivered someVm "node2" := by
  intro h
  obtain ⟨argv, args, hserve, hargs, -⟩ := h
  rw [serveMigrate_ui] at hserve
  cases hserve
  rw [parseArgs_migrate] at hargs
  cases hargs

end Caiman.Api
