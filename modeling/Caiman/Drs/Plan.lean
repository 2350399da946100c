import Caiman.Drs.Gain

/-!
# Selection of a plan

Among the moves that are feasible and gain, a plan has the best one of every VM, and of the
VMs those with the best moves, five at most.
-/

namespace Caiman.Drs

open Lib.Select Lib.Spread

variable {K : Type} [Field K] [LinearOrder K] [IsStrictOrderedRing K] {root : Root K}
  {snap : ClusterSnapshot K} {cfg : DrsConfig K} {m : Move K} {moves : List (Move K)}

def Move.varianceAfter (m : Move K) (root : Root K) (snap : ClusterSnapshot K)
    (cfg : DrsConfig K) : K :=
  variance (snap.after root.arith cfg.weights m.vm m.src.hostname m.dst.hostname).loads

/-- The VM leaves the loaded node it is on for another one, which may take it and has room for
it, and the loads become more even, by enough for what the move costs. -/
structure Admissible (root : Root K) (snap : ClusterSnapshot K) (cfg : DrsConfig K) (m : Move K) :
    Prop where
  src_mem : m.src ∈ snap.nodes
  vm_mem : m.vm ∈ m.src.vms
  loaded : 6 / 10 ≤ m.src.loadScore
  dst_mem : m.dst ∈ snap.nodes
  other : m.dst.hostname ≠ m.src.hostname
  allowed : AffinityChecker.new.migrationAllowed m.vm m.dst.hostname snap = true
  fits : fitsOnNode root.arith m.vm m.dst = true
  improves : m.varianceAfter root snap cfg < variance snap.loads
  score_eq : m.score = (root.fn (variance snap.loads) - root.fn (m.varianceAfter root snap cfg)) /
    (1 + m.vm.memMib.toNat / 1024 * (5 / 100))
  enough : cfg.minMigrationScore ≤ m.score

theorem costFactor_eq (root : Root K) (vm : VmMetrics K) :
    costFactor root.arith vm = 1 + vm.memMib.toNat / 1024 * (5 / 100) := by
  show ((1 : Nat) : K) + ((vm.memMib.toNat : K) / ((1024 : Nat) : K)) *
    (((5 : Nat) : K) / ((100 : Nat) : K)) = _
  push_cast
  rfl

theorem loaded_iff_le {n : NodeMetrics K} :
    ¬ root.arith.Lt n.loadScore (root.arith.lit 6 10) ↔ 6 / 10 ≤ n.loadScore := by
  have hlit : root.arith.lit 6 10 = (6 / 10 : K) := by
    show ((6 : Nat) : K) / ((10 : Nat) : K) = _
    push_cast
    rfl
  rw [root.lt_iff, hlit, not_lt]

theorem isCandidate_iff : IsCandidate root.arith snap cfg m ↔ Admissible root snap cfg m := by
  constructor
  · intro h
    have hlen := h.one_lt_length
    refine ⟨h.src_mem, h.vm_mem, loaded_iff_le.mp h.loaded, h.dst_mem, h.other, rfl, h.fits,
      (gains_iff root hlen).mp h.gains, ?_, root.le_iff.mp h.enough⟩
    rw [h.score_eq, deltaSigma_eq root hlen, costFactor_eq]
    rfl
  · intro h
    have hlen : 1 < snap.nodes.length :=
      one_lt_length_of_ne h.dst_mem h.src_mem fun heq => h.other (congrArg NodeMetrics.hostname heq)
    refine ⟨h.src_mem, loaded_iff_le.mpr h.loaded, h.vm_mem, h.dst_mem, h.other, h.fits,
      (gains_iff root hlen).mpr h.improves, ?_, root.le_iff.mpr h.enough⟩
    rw [deltaSigma_eq root hlen, costFactor_eq]
    exact h.score_eq

theorem plannedMoves_ranked (h : plannedMoves root.arith snap cfg = some moves) :
    ∃ ranked : List (Move K), moves = choose ranked ∧
      (∀ m, m ∈ ranked ↔ Admissible root snap cfg m) ∧
      ranked.Pairwise fun m m' => m'.score ≤ m.score := by
  unfold plannedMoves at h
  obtain ⟨nodes, hnodes, h⟩ := Option.bind_eq_some_iff.mp h
  obtain ⟨ranked, hranked, rfl⟩ := Option.map_eq_some_iff.mp h
  refine ⟨ranked, rfl, ?_, ?_⟩
  · intro m
    rw [(sortBy_perm hranked).mem_iff, mem_candidates (sortBy_perm hnodes)]
    exact isCandidate_iff
  · refine sortBy_pairwise ?_ ?_ ?_ hranked
    · intro m m'
      change some (compare m'.score m.score) ≠ some .gt ↔ _
      rw [ne_eq, Option.some.injEq, compare_gt_iff_gt, not_lt]
    · exact fun m m' => le_total m'.score m.score
    · exact fun m m' m'' h h' => h'.trans h

/-- There is a plan for every snapshot and configuration. It moves at most five VMs, each once,
with the best moves first. Each of its moves is admissible and has the best score of those of
its VM; and of a VM that is not moved no admissible move has a better score than any that is
made, with no such VM when less than five are moved. -/
theorem plan_optimal (root : Root K) (snap : ClusterSnapshot K) (cfg : DrsConfig K) :
    ∃ moves : List (Move K), computePlan root.arith snap cfg = some ⟨moves.map Move.candidate⟩ ∧
      moves.length ≤ 5 ∧
      (moves.Pairwise fun m m' => m'.score ≤ m.score) ∧
      (moves.map fun m => m.vm.vmId).Nodup ∧
      (∀ m ∈ moves, Admissible root snap cfg m ∧
        ∀ m', Admissible root snap cfg m' → m'.vm.vmId = m.vm.vmId → m'.score ≤ m.score) ∧
      ∀ m', Admissible root snap cfg m' → m'.vm.vmId ∉ moves.map (fun m => m.vm.vmId) →
        moves.length = 5 ∧ ∀ m ∈ moves, m'.score ≤ m.score := by
  obtain ⟨moves, hmoves⟩ := exists_plannedMoves root snap cfg
  obtain ⟨ranked, rfl, hranked, hsorted⟩ := plannedMoves_ranked hmoves
  have hbest : (firstOfEach (fun m : Move K => m.vm.vmId) [] ranked).Pairwise
      fun m m' => m'.score ≤ m.score := hsorted.sublist (firstOfEach_sublist _ _ _)
  refine ⟨choose ranked, by rw [computePlan, hmoves]; rfl, planned_length hmoves,
    hbest.sublist (List.take_sublist _ _), planned_nodup hmoves, ?_, ?_⟩
  · intro m hm
    have hfirst := List.mem_of_mem_take hm
    refine ⟨(hranked m).mp (mem_of_mem_firstOfEach hfirst).1, ?_⟩
    intro m' hm' hid
    exact firstOfEach_before (fun m => le_refl m.score) hsorted hfirst ((hranked m').mpr hm') hid
  · intro m' hm' hout
    have hfirst : ∃ b ∈ firstOfEach (fun m : Move K => m.vm.vmId) [] ranked,
        b.vm.vmId = m'.vm.vmId := exists_firstOfEach ((hranked m').mpr hm') List.not_mem_nil
    obtain ⟨b, hb, hid⟩ := hfirst
    -- the best move of the VM was cut off, and it is at least as good
    have hcut : b ∉ choose ranked := fun hmem => hout (hid ▸ List.mem_map_of_mem hmem)
    have hbetter : m'.score ≤ b.score := firstOfEach_before (fun m => le_refl m.score) hsorted hb
      ((hranked m').mpr hm') hid.symm
    constructor
    · rcases Nat.le_total (firstOfEach (fun m : Move K => m.vm.vmId) [] ranked).length 5 with
        hall | hfull
      · exact absurd (by rwa [choose, List.take_of_length_le hall]) hcut
      · exact List.length_take_of_le hfull
    · intro m hm
      exact hbetter.trans (take_before hbest hm hb hcut)

/-- A loaded node with one VM, and a node with none. -/
def busyAndIdle : ClusterSnapshot ℚ :=
  ⟨[⟨"busy", 4, 90, 8192, 1024, 7168, 0, 0, 0, 0, [⟨7, "", "busy", 1, 50, 512⟩], 9 / 10⟩,
    ⟨"idle", 4, 10, 8192, 0, 8192, 0, 0, 0, 0, [], 1 / 10⟩]⟩

/-- Its one VM is moved. -/
theorem plan_optimal_sample :
    ∃ moves : List (Move ℚ), computePlan Root.identity.arith busyAndIdle ⟨0, ⟨1, 0, 0, 0⟩⟩ =
        some ⟨moves.map Move.candidate⟩ ∧
      moves.length = 1 ∧ ∀ m ∈ moves, m.vm ∈ m.src.vms ∧ m.dst.hostname ≠ m.src.hostname := by
  obtain ⟨moves, hplan, -, -, -, hmoves, -⟩ :=
    plan_optimal (Root.identity (K := ℚ)) busyAndIdle ⟨0, ⟨1, 0, 0, 0⟩⟩
  have hone : (computePlan (Root.identity (K := ℚ)).arith busyAndIdle ⟨0, ⟨1, 0, 0, 0⟩⟩).map
      (fun plan => plan.migrations.length) = some 1 := by decide +kernel
  rw [hplan, Option.map_some, Option.some.injEq, List.length_map] at hone
  exact ⟨moves, hplan, hone, fun m hm => ⟨(hmoves m hm).1.vm_mem, (hmoves m hm).1.other⟩⟩

end Caiman.Drs
