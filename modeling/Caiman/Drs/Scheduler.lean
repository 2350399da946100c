import Mathlib.Data.List.AList
import Mathlib.Data.List.DropRight
import Caiman.Lib.Json
import Caiman.Vmm.Mac
import Caiman.Drs.Types

/-!
# Scheduler extender

kube-scheduler asks for the nodes a pod fits on, and for a score of each node. The two
handlers find the nodes in the request in different ways. Integers wrap.
-/

namespace Caiman.Drs

open Lib.Json

/-- The further operations on `f64` that are used. -/
structure FloatOps (F : Type) extends Arith F where
  max : F → F → F
  /-- `as i64` -/
  toI64 : F → Int64
  /-- `str::parse::<f64>` -/
  parse : String → Option F
  /-- `{:.1}` -/
  fixed : F → String

/-! ## Wire types -/

structure NodeList where
  items : List Value

structure ExtenderArgs where
  pod : Value
  nodes : Option NodeList
  nodeNames : Option (List String)

abbrev FailedNodes := AList fun _ : String => String

structure ExtenderFilterResult where
  nodes : Option NodeList
  nodeNames : Option (List String)
  failedNodes : FailedNodes
  error : String

structure HostPriority where
  host : String
  score : Int64
  deriving DecidableEq, Repr

/-- The names of the nodes, of those that have one. -/
def NodeList.names (nodes : NodeList) : List String :=
  nodes.items.filterMap fun n => ((n.index "metadata").index "name").asStr

variable {F : Type} (fl : FloatOps F)

/-! ## Resources of a pod -/

structure VmResources (F : Type) where
  cpu : F
  memMib : UInt64
  gpu : Bool

def parseMemoryMib (s : String) : UInt64 :=
  let cs := s.toList
  match "Gi".toList.isSuffixOf? cs, "Mi".toList.isSuffixOf? cs, "Ki".toList.isSuffixOf? cs with
  | some g, _, _ => (Vmm.parseU64 g).getD 0 * 1024
  | none, some m, _ => (Vmm.parseU64 m).getD 0
  | none, none, some k => (Vmm.parseU64 k).getD 0 / 1024
  | none, none, none => (Vmm.parseU64 cs).getD 0 / (1024 * 1024)

/-- Cores, or thousandths of one. -/
def parseCpu (s : String) : F :=
  let number := fun cs => (fl.parse (String.ofList cs)).getD (fl.ofNat 0)
  if s.toList.getLast? = some 'm' then
    fl.div (number (s.toList.rdropWhile (· = 'm'))) (fl.ofNat 1000)
  else number s.toList

def addContainer (total : VmResources F) (container : Value) : VmResources F :=
  let requests := (container.index "resources").index "requests"
  { cpu :=
      match (requests.index "cpu").asStr with
      | some s => fl.add total.cpu (parseCpu fl s)
      | none => total.cpu
    memMib :=
      match (requests.index "memory").asStr with
      | some s => total.memMib + parseMemoryMib s
      | none => total.memMib
    gpu := total.gpu || (requests.get "caiman.io/gpu-passthrough").isSome ||
      (requests.get "caiman.io/mig-3g.40gb").isSome }

def extractVmResources (pod : Value) : VmResources F :=
  let containers := (((pod.index "spec").index "containers").asArray).getD []
  let total := containers.foldl (addContainer fl) ⟨fl.ofNat 0, 0, false⟩
  { total with
    cpu := fl.max total.cpu (fl.ofNat 1)
    memMib := max total.memMib 256 }

/-! ## Filter -/

namespace NodeMetrics

def availableCpuCores (node : NodeMetrics F) : F :=
  fl.mul (fl.ofNat node.cpuCores.toNat)
    (fl.sub (fl.ofNat 1) (fl.div node.cpuUsagePct (fl.ofNat 100)))

def availableMemMib (node : NodeMetrics F) : UInt64 := node.memFreeMib

end NodeMetrics

def ClusterSnapshot.node (snap : ClusterSnapshot F) (hostname : String) :
    Option (NodeMetrics F) :=
  snap.nodes.find? fun n => n.hostname = hostname

/-- Why the node does not do. -/
def checkNodeFeasibility (node : NodeMetrics F) (req : VmResources F) : Option String :=
  let availCpu := fl.sub (node.availableCpuCores fl)
    (fl.mul (fl.ofNat node.cpuCores.toNat) (fl.lit 15 100))
  let availMem := if node.availableMemMib < 256 then 0 else node.availableMemMib - 256
  if fl.Lt availCpu req.cpu then
    some ("insufficient CPU: need " ++ fl.fixed req.cpu ++ " cores, available " ++
      fl.fixed availCpu)
  else if availMem < req.memMib then
    some ("insufficient RAM: need " ++ toString req.memMib.toNat ++ " MiB, available " ++
      toString availMem.toNat)
  else none

/-- `candidate_names` of `filter_handler` -/
def filterCandidates (args : ExtenderArgs) : List String :=
  (args.nodeNames.or (args.nodes.map NodeList.names)).getD []

def filterNode (snap : ClusterSnapshot F) (req : VmResources F)
    (acc : List String × FailedNodes) (name : String) : List String × FailedNodes :=
  match snap.node name with
  | some node =>
      match checkNodeFeasibility fl node req with
      | none => (acc.1 ++ [name], acc.2)
      | some reason => (acc.1, acc.2.insert name reason)
  -- a node that is not in the snapshot yet is allowed
  | none => (acc.1 ++ [name], acc.2)

def filterHandler (snap : ClusterSnapshot F) (args : ExtenderArgs) : ExtenderFilterResult :=
  let req := extractVmResources fl args.pod
  let (allowedNames, failedNodes) :=
    (filterCandidates args).foldl (filterNode fl snap req) ([], ∅)
  { nodes := none
    nodeNames := some allowedNames
    failedNodes := failedNodes
    error := "" }

/-! ## Prioritize -/

def clamp (x lo hi : Int64) : Int64 := if x < lo then lo else if hi < x then hi else x

def scoreNode (node : NodeMetrics F) (snap : ClusterSnapshot F) : Int64 :=
  let cpuAvailPct := fl.div (node.availableCpuCores fl) (fl.ofNat node.cpuCores.toNat)
  let cpuScore := fl.toI64 (fl.mul cpuAvailPct (fl.ofNat 40))
  let memAvailPct := fl.div (fl.ofNat node.availableMemMib.toNat) (fl.ofNat node.memTotalMib.toNat)
  let memScore := fl.toI64 (fl.mul memAvailPct (fl.ofNat 30))
  let avgLoad := fl.div (fl.sum snap.loads) (fl.ofNat snap.nodes.length)
  let balanceScore :=
    if fl.Lt node.loadScore avgLoad then
      fl.toI64 (fl.div (fl.mul (fl.sub avgLoad node.loadScore) (fl.ofNat 20))
        (fl.max avgLoad (fl.lit 1 100)))
    else 0
  let affinityScore : Int64 := 5
  clamp (cpuScore + memScore + balanceScore + affinityScore) 0 100

/-- `candidate_names` of `prioritize_handler` -/
def prioritizeCandidates (args : ExtenderArgs) : List String := args.nodeNames.getD []

def prioritize (snap : ClusterSnapshot F) (name : String) : HostPriority where
  host := name
  score :=
    match snap.node name with
    | some node => scoreNode fl node snap
    | none => 50

def prioritizeHandler (snap : ClusterSnapshot F) (args : ExtenderArgs) : List HostPriority :=
  (prioritizeCandidates args).map (prioritize fl snap)

/-! ## The two answers together -/

/-- Every candidate is scored once, and allowed or failed but not both. -/
structure SameCandidates (snap : ClusterSnapshot F) (args : ExtenderArgs) : Prop where
  scored : ∀ name ∈ filterCandidates args, ∃ score : Int64,
    (prioritizeHandler fl snap args).filter (fun p => p.host = name) = [⟨name, score⟩] ∧
      0 ≤ score ∧ score ≤ 100
  decided : ∀ name ∈ filterCandidates args,
    Xor (name ∈ ((filterHandler fl snap args).nodeNames).getD [])
      (name ∈ (filterHandler fl snap args).failedNodes)

variable {fl}

theorem clamp_bounds {x lo hi : Int64} (h : lo ≤ hi) : lo ≤ clamp x lo hi ∧ clamp x lo hi ≤ hi := by
  rw [clamp]
  split
  next => exact ⟨Int64.le_refl _, h⟩
  next hlo =>
      split
      next => exact ⟨h, Int64.le_refl _⟩
      next hhi => exact ⟨Int64.not_lt.mp hlo, Int64.not_lt.mp hhi⟩

theorem prioritize_bounds (snap : ClusterSnapshot F) (name : String) :
    0 ≤ (prioritize fl snap name).score ∧ (prioritize fl snap name).score ≤ 100 := by
  have hmid : (0 : Int64) ≤ 50 ∧ (50 : Int64) ≤ 100 := by decide
  rw [prioritize]
  cases snap.node name with
  | none => exact hmid
  | some node => exact clamp_bounds (Int64.le_trans hmid.1 hmid.2)

def failure (fl : FloatOps F) (snap : ClusterSnapshot F) (req : VmResources F) (name : String) :
    Option String :=
  (snap.node name).bind fun node => checkNodeFeasibility fl node req

theorem filterNode_eq (snap : ClusterSnapshot F) (req : VmResources F)
    (acc : List String × FailedNodes) (name : String) :
    filterNode fl snap req acc name =
      match failure fl snap req name with
      | none => (acc.1 ++ [name], acc.2)
      | some reason => (acc.1, acc.2.insert name reason) := by
  rw [filterNode, failure]
  cases snap.node name with
  | none => rfl
  | some node => rfl

theorem mem_foldl_filterNode (fl : FloatOps F) (snap : ClusterSnapshot F)
    (req : VmResources F) (acc : List String × FailedNodes) (names : List String) (name : String) :
    (name ∈ (names.foldl (filterNode fl snap req) acc).1 ↔
      name ∈ acc.1 ∨ name ∈ names ∧ failure fl snap req name = none) ∧
    (name ∈ (names.foldl (filterNode fl snap req) acc).2 ↔
      name ∈ acc.2 ∨ name ∈ names ∧ failure fl snap req name ≠ none) := by
  induction names generalizing acc with
  | nil => simp
  | cons first rest ih =>
      rw [List.foldl_cons, (ih _).1, (ih _).2, filterNode_eq]
      by_cases hname : name = first
      · subst hname
        cases hfailure : failure fl snap req name with
        | none => simp
        | some reason => simp
      · cases failure fl snap req first with
        | none => simp [hname]
        | some reason => simp [hname]

theorem filterHandler_decides (snap : ClusterSnapshot F) (args : ExtenderArgs) {name : String}
    (hname : name ∈ filterCandidates args) :
    Xor (name ∈ ((filterHandler fl snap args).nodeNames).getD [])
      (name ∈ (filterHandler fl snap args).failedNodes) := by
  obtain ⟨hallowed, hfailed⟩ := mem_foldl_filterNode fl snap (extractVmResources fl args.pod)
    ([], ∅) (filterCandidates args) name
  rw [filterHandler, Option.getD_some, hallowed, hfailed]
  by_cases h : failure fl snap (extractVmResources fl args.pod) name = none
  · simp [Xor, hname, h]
  · simp [Xor, hname, h]

theorem filter_prioritizeHandler (snap : ClusterSnapshot F) (args : ExtenderArgs) (name : String) :
    (prioritizeHandler fl snap args).filter (fun p => p.host = name) =
      List.replicate ((prioritizeCandidates args).count name) (prioritize fl snap name) := by
  rw [prioritizeHandler, List.filter_map]
  have hsame : (prioritizeCandidates args).filter
      ((fun p : HostPriority => decide (p.host = name)) ∘ prioritize fl snap) =
        List.replicate ((prioritizeCandidates args).count name) name := by
    rw [← List.filter_eq]
    rfl
  rw [hsame, List.map_replicate]

theorem scored_iff (snap : ClusterSnapshot F) (args : ExtenderArgs) (name : String) :
    (∃ score : Int64,
      (prioritizeHandler fl snap args).filter (fun p => p.host = name) = [⟨name, score⟩] ∧
        0 ≤ score ∧ score ≤ 100) ↔ (prioritizeCandidates args).count name = 1 := by
  rw [filter_prioritizeHandler]
  constructor
  · intro h
    obtain ⟨score, hone, -⟩ := h
    have hlen := congrArg List.length hone
    rwa [List.length_replicate] at hlen
  · intro hcount
    rw [hcount]
    exact ⟨(prioritize fl snap name).score, rfl, prioritize_bounds snap name⟩

/-- When the two handlers see the same candidates: names were given, each once, or no
candidate was given at all. -/
theorem sameCandidates_iff (fl : FloatOps F) (snap : ClusterSnapshot F) (args : ExtenderArgs) :
    SameCandidates fl snap args ↔
      (∃ names, args.nodeNames = some names ∧ names.Nodup) ∨
        args.nodeNames = none ∧ ∀ nodes, args.nodes = some nodes → nodes.names = [] := by
  have hscored : SameCandidates fl snap args ↔
      ∀ name ∈ filterCandidates args, (prioritizeCandidates args).count name = 1 := by
    constructor
    · intro h name hname
      exact (scored_iff snap args name).mp (h.scored name hname)
    · intro h
      refine ⟨?_, fun name hname => filterHandler_decides snap args hname⟩
      intro name hname
      exact (scored_iff snap args name).mpr (h name hname)
  rw [hscored]
  cases hnames : args.nodeNames with
  | some names =>
      have hfilter : filterCandidates args = names := by rw [filterCandidates, hnames]; rfl
      have hprioritize : prioritizeCandidates args = names := by
        rw [prioritizeCandidates, hnames, Option.getD_some]
      rw [hfilter, hprioritize, ← List.nodup_iff_count_eq_one]
      simp
  | none =>
      have hfilter : filterCandidates args = (args.nodes.map NodeList.names).getD [] := by
        rw [filterCandidates, hnames, Option.none_or]
      have hprioritize : prioritizeCandidates args = [] := by
        rw [prioritizeCandidates, hnames, Option.getD_none]
      rw [hfilter, hprioritize]
      cases args.nodes with
      | none => simp
      | some nodes => simp [List.eq_nil_iff_forall_not_mem]

/-- A sample: the processor's arithmetic, where of all texts only whole numbers are read. -/
def sampleF64 : FloatOps Float where
  add := Float.add
  sub := Float.sub
  mul := Float.mul
  div := Float.div
  min a b := if a.isNaN then b else if b.isNaN then a else if a ≤ b then a else b
  max a b := if a.isNaN then b else if b.isNaN then a else if a ≤ b then b else a
  sqrt := Float.sqrt
  ofNat := Float.ofNat
  cmp a b :=
    if a < b then some .lt else if b < a then some .gt else if a == b then some .eq else none
  toI64 := Float.toInt64
  parse s := (Vmm.parseU64 s.toList).map fun n => Float.ofNat n.toNat
  fixed x :=
    let tenths := (x.abs * 10).round.toUInt64.toNat
    (if x < 0 then "-" else "") ++ toString (tenths / 10) ++ "." ++ toString (tenths % 10)

/-- The request that kube-scheduler makes of an extender that keeps no node cache. -/
def oneNode : ExtenderArgs where
  pod := .object []
  nodes := some ⟨[.object [("metadata", .object [("name", .string "node1")])]]⟩
  nodeNames := none

theorem oneNode_not_scored : ¬ SameCandidates sampleF64 ⟨[]⟩ oneNode := by
  intro h
  have hmem : "node1" ∈ filterCandidates oneNode := by decide
  obtain ⟨score, hscored, -⟩ := h.scored "node1" hmem
  cases hscored

end Caiman.Drs
