import Caiman.Lib.Select
import Caiman.Drs.Affinity

/-!
# Balancer

The plan of a cycle: every move of a VM from a loaded node to another is simulated on the
snapshot and scored, and the best move of every VM is kept, five at most.
-/

namespace Caiman.Drs

open Lib.Select

variable {F : Type} (ar : Arith F)

def saturatingSub (a b : UInt64) : UInt64 := if b ≤ a then a - b else 0

/-- The memory of the VM is free beside a buffer of a tenth. -/
def memFits (vm : VmMetrics F) (node : NodeMetrics F) : Bool :=
  vm.memMib ≤ saturatingSub node.memFreeMib (node.memTotalMib / 10)

def cpuFits (vm : VmMetrics F) (node : NodeMetrics F) : Bool :=
  let headroom := ar.sub (ar.ofNat 100) node.cpuUsagePct
  let needed := ar.div vm.cpuUsagePct (ar.ofNat node.cpuCores.toNat)
  !decide (ar.Lt (ar.sub headroom (ar.ofNat 10)) needed)

def fitsOnNode (vm : VmMetrics F) (node : NodeMetrics F) : Bool :=
  memFits vm node && cpuFits ar vm node

/-! ## Simulation -/

def NodeMetrics.without (weights : ResourceWeights F) (vm : VmMetrics F) (n : NodeMetrics F) :
    NodeMetrics F :=
  NodeMetrics.computeLoad ar weights
    { n with
      cpuUsagePct := ar.sub n.cpuUsagePct (ar.div vm.cpuUsagePct (ar.ofNat n.cpuCores.toNat))
      memUsedMib := n.memUsedMib - min vm.memMib n.memUsedMib }

def NodeMetrics.withVm (weights : ResourceWeights F) (vm : VmMetrics F) (n : NodeMetrics F) :
    NodeMetrics F :=
  NodeMetrics.computeLoad ar weights
    { n with
      cpuUsagePct := ar.add n.cpuUsagePct (ar.div vm.cpuUsagePct (ar.ofNat n.cpuCores.toNat))
      memUsedMib := n.memUsedMib + vm.memMib }

/-- The contribution of the VM is shifted from one node to the other. -/
def shift (weights : ResourceWeights F) (vm : VmMetrics F) (src dst : String)
    (nodes : List (NodeMetrics F)) : List (NodeMetrics F) :=
  updateFirst (fun n => n.hostname == dst) (NodeMetrics.withVm ar weights vm)
    (updateFirst (fun n => n.hostname == src) (NodeMetrics.without ar weights vm) nodes)

def ClusterSnapshot.after (snap : ClusterSnapshot F) (weights : ResourceWeights F)
    (vm : VmMetrics F) (src dst : String) : ClusterSnapshot F :=
  ⟨shift ar weights vm src dst snap.nodes⟩

def simulateMigration (snap : ClusterSnapshot F) (vm : VmMetrics F) (src dst : String)
    (weights : ResourceWeights F) : F :=
  (snap.after ar weights vm src dst).balanceScore ar

/-! ## Plan -/

structure MigrationCandidate (F : Type) where
  vmId : UInt32
  vmName : String
  fromNode : String
  toNode : String
  score : F
  estimatedBlackoutMs : UInt32

def estimateBlackoutMs (memMib : UInt64) : UInt32 := 50 + memMib.toUInt32 / 512

/-- A candidate, with the VM and the nodes it was made of. -/
structure Move (F : Type) where
  vm : VmMetrics F
  src : NodeMetrics F
  dst : NodeMetrics F
  score : F

def Move.candidate (m : Move F) : MigrationCandidate F where
  vmId := m.vm.vmId
  vmName := m.vm.name
  fromNode := m.src.hostname
  toNode := m.dst.hostname
  score := m.score
  estimatedBlackoutMs := estimateBlackoutMs m.vm.memMib

/-- What the move gains, and its score: the gain against the time it takes. -/
def deltaSigma (snap : ClusterSnapshot F) (cfg : DrsConfig F) (vm : VmMetrics F)
    (src dst : NodeMetrics F) : F :=
  ar.sub (snap.balanceScore ar) (simulateMigration ar snap vm src.hostname dst.hostname cfg.weights)

def costFactor (vm : VmMetrics F) : F :=
  let ramGib := ar.div (ar.ofNat vm.memMib.toNat) (ar.ofNat 1024)
  ar.add (ar.ofNat 1) (ar.mul ramGib (ar.lit 5 100))

/-- The inner loop of `compute_plan`. -/
def considerMove (checker : AffinityChecker) (snap : ClusterSnapshot F) (cfg : DrsConfig F)
    (src : NodeMetrics F) (vm : VmMetrics F) (dst : NodeMetrics F) : Option (Move F) :=
  if dst.hostname = src.hostname then none
  else if !checker.migrationAllowed vm dst.hostname snap then none
  else if !fitsOnNode ar vm dst then none
  else
    let delta := deltaSigma ar snap cfg vm src dst
    if ar.Le delta (ar.ofNat 0) then none
    else
      let score := ar.div delta (costFactor ar vm)
      if ar.Le cfg.minMigrationScore score then some ⟨vm, src, dst, score⟩ else none

/-- The moves off one node; only overloaded nodes are relieved. -/
def movesOff (checker : AffinityChecker) (snap : ClusterSnapshot F) (cfg : DrsConfig F)
    (src : NodeMetrics F) : List (Move F) :=
  if ar.Lt src.loadScore (ar.lit 6 10) then []
  else src.vms.flatMap fun vm => snap.nodes.filterMap (considerMove ar checker snap cfg src vm)

def choose (moves : List (Move F)) : List (Move F) :=
  (firstOfEach (fun m => m.vm.vmId) [] moves).take 5

/-- The moves of the plan. None: `partial_cmp` has no answer, and the sort panics. -/
def plannedMoves (snap : ClusterSnapshot F) (cfg : DrsConfig F) : Option (List (Move F)) :=
  let checker := AffinityChecker.new
  (sortBy (fun a b => ar.cmp b.loadScore a.loadScore) snap.nodes).bind fun sortedNodes =>
    let candidates := sortedNodes.flatMap (movesOff ar checker snap cfg)
    (sortBy (fun a b => ar.cmp b.score a.score) candidates).map choose

structure MigrationPlan (F : Type) where
  migrations : List (MigrationCandidate F)

def computePlan (snap : ClusterSnapshot F) (cfg : DrsConfig F) : Option (MigrationPlan F) :=
  (plannedMoves ar snap cfg).map fun moves => ⟨moves.map Move.candidate⟩

/-! ## What is planned -/

/-- A move that `compute_plan` takes into account. -/
structure IsCandidate (snap : ClusterSnapshot F) (cfg : DrsConfig F) (m : Move F) : Prop where
  src_mem : m.src ∈ snap.nodes
  loaded : ¬ ar.Lt m.src.loadScore (ar.lit 6 10)
  vm_mem : m.vm ∈ m.src.vms
  dst_mem : m.dst ∈ snap.nodes
  other : m.dst.hostname ≠ m.src.hostname
  fits : fitsOnNode ar m.vm m.dst = true
  gains : ¬ ar.Le (deltaSigma ar snap cfg m.vm m.src m.dst) (ar.ofNat 0)
  score_eq : m.score = ar.div (deltaSigma ar snap cfg m.vm m.src m.dst) (costFactor ar m.vm)
  enough : ar.Le cfg.minMigrationScore m.score

variable {ar} {snap : ClusterSnapshot F} {cfg : DrsConfig F} {m : Move F} {moves : List (Move F)}

theorem IsCandidate.one_lt_length (h : IsCandidate ar snap cfg m) : 1 < snap.nodes.length :=
  one_lt_length_of_ne h.dst_mem h.src_mem fun heq => h.other (congrArg NodeMetrics.hostname heq)

/-- Without rules every migration is allowed. -/
theorem considerMove_eq_some {src dst : NodeMetrics F} {vm : VmMetrics F} :
    considerMove ar .new snap cfg src vm dst = some m ↔
      (m.src = src ∧ m.vm = vm ∧ m.dst = dst) ∧ dst.hostname ≠ src.hostname ∧
        fitsOnNode ar vm dst = true ∧ ¬ ar.Le (deltaSigma ar snap cfg vm src dst) (ar.ofNat 0) ∧
        m.score = ar.div (deltaSigma ar snap cfg vm src dst) (costFactor ar vm) ∧
        ar.Le cfg.minMigrationScore m.score := by
  have hallowed : AffinityChecker.new.migrationAllowed vm dst.hostname snap = true := rfl
  simp only [considerMove, hallowed]
  constructor
  · intro h
    split at h
    · cases h
    · rename_i hother
      split at h
      · cases h
      · split at h
        · cases h
        · rename_i hfits
          split at h
          · cases h
          · rename_i hgains
            split at h
            · rename_i henough
              cases h
              exact ⟨⟨rfl, rfl, rfl⟩, hother, by simpa using hfits, hgains, rfl, henough⟩
            · cases h
  · intro h
    obtain ⟨⟨rfl, rfl, rfl⟩, hother, hfits, hgains, hscore, henough⟩ := h
    rw [hscore] at henough
    rw [if_neg hother, if_neg (by decide), hfits, if_neg (by decide), if_neg hgains,
      if_pos henough, ← hscore]

theorem mem_candidates {nodes : List (NodeMetrics F)} (hnodes : nodes.Perm snap.nodes) :
    m ∈ nodes.flatMap (movesOff ar .new snap cfg) ↔ IsCandidate ar snap cfg m := by
  simp only [List.mem_flatMap, movesOff]
  constructor
  · intro h
    obtain ⟨src, hsrc, hm⟩ := h
    split at hm
    · cases hm
    · rename_i hloaded
      obtain ⟨vm, hvm, hm⟩ := List.mem_flatMap.mp hm
      obtain ⟨dst, hdst, hm⟩ := List.mem_filterMap.mp hm
      obtain ⟨⟨rfl, rfl, rfl⟩, hother, hfits, hgains, hscore, henough⟩ :=
        considerMove_eq_some.mp hm
      exact ⟨hnodes.mem_iff.mp hsrc, hloaded, hvm, hdst, hother, hfits, hgains, hscore, henough⟩
  · intro h
    refine ⟨m.src, hnodes.mem_iff.mpr h.src_mem, ?_⟩
    rw [if_neg h.loaded]
    refine List.mem_flatMap.mpr ⟨m.vm, h.vm_mem, List.mem_filterMap.mpr ⟨m.dst, h.dst_mem, ?_⟩⟩
    exact considerMove_eq_some.mpr
      ⟨⟨rfl, rfl, rfl⟩, h.other, h.fits, h.gains, h.score_eq, h.enough⟩

theorem plannedMoves_eq_some (h : plannedMoves ar snap cfg = some moves) :
    ∃ ranked, moves = choose ranked ∧ ∀ m, m ∈ ranked ↔ IsCandidate ar snap cfg m := by
  unfold plannedMoves at h
  obtain ⟨nodes, hnodes, h⟩ := Option.bind_eq_some_iff.mp h
  obtain ⟨ranked, hranked, rfl⟩ := Option.map_eq_some_iff.mp h
  refine ⟨ranked, rfl, ?_⟩
  intro m
  rw [(sortBy_perm hranked).mem_iff]
  exact mem_candidates (sortBy_perm hnodes)

theorem isCandidate_of_planned (h : plannedMoves ar snap cfg = some moves) (hm : m ∈ moves) :
    IsCandidate ar snap cfg m := by
  obtain ⟨ranked, rfl, hranked⟩ := plannedMoves_eq_some h
  exact (hranked m).mp (mem_of_mem_firstOfEach (List.mem_of_mem_take hm)).1

theorem planned_nodup (h : plannedMoves ar snap cfg = some moves) :
    (moves.map fun m => m.vm.vmId).Nodup := by
  obtain ⟨ranked, rfl, -⟩ := plannedMoves_eq_some h
  rw [choose, List.map_take]
  exact (List.take_sublist _ _).nodup (nodup_firstOfEach _ _ _)

theorem planned_length (h : plannedMoves ar snap cfg = some moves) : moves.length ≤ 5 := by
  obtain ⟨ranked, rfl, -⟩ := plannedMoves_eq_some h
  exact List.length_take_le _ _

/-- A plan of less than five moves has one of every VM that has a candidate. -/
theorem planned_full_or_all (h : plannedMoves ar snap cfg = some moves) :
    moves.length = 5 ∨
      ∀ m, IsCandidate ar snap cfg m → ∃ m' ∈ moves, m'.vm.vmId = m.vm.vmId := by
  obtain ⟨ranked, rfl, hranked⟩ := plannedMoves_eq_some h
  rcases Nat.le_total (firstOfEach (fun m => m.vm.vmId) [] ranked).length 5 with hle | hge
  · refine Or.inr ?_
    intro m hm
    rw [choose, List.take_of_length_le hle]
    exact exists_firstOfEach ((hranked m).mpr hm) List.not_mem_nil
  · exact Or.inl (List.length_take_of_le hge)

theorem exists_planned (h : plannedMoves ar snap cfg = some moves) {ids : List UInt32}
    (hlen : ids.length ≤ 5) (hids : ∀ m, IsCandidate ar snap cfg m → m.vm.vmId ∈ ids)
    (hm : IsCandidate ar snap cfg m) : ∃ m' ∈ moves, m'.vm.vmId = m.vm.vmId := by
  rcases planned_full_or_all h with hfull | hall
  · have hsub : (moves.map fun m => m.vm.vmId) ⊆ ids := by
      intro id hid
      obtain ⟨m', hm', rfl⟩ := List.mem_map.mp hid
      exact hids m' (isCandidate_of_planned h hm')
    have hperm := (List.subperm_of_subset (planned_nodup h) hsub).perm_of_length_le (by
      rw [List.length_map, hfull]
      exact hlen)
    exact List.mem_map.mp (hperm.mem_iff.mpr (hids m hm))
  · exact hall m hm

def Movable (ar : Arith F) (snap : ClusterSnapshot F) (cfg : DrsConfig F) (id : UInt32) : Prop :=
  ∃ m, IsCandidate ar snap cfg m ∧ m.vm.vmId = id

theorem movable_of_plan {plan : MigrationPlan F} (h : computePlan ar snap cfg = some plan) :
    ∀ c ∈ plan.migrations, Movable ar snap cfg c.vmId := by
  obtain ⟨moves, hmoves, rfl⟩ := Option.map_eq_some_iff.mp h
  intro c hc
  obtain ⟨m, hm, rfl⟩ := List.mem_map.mp hc
  exact ⟨m, isCandidate_of_planned hmoves hm, rfl⟩

end Caiman.Drs
