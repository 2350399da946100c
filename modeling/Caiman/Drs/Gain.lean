import Caiman.Drs.Exact
import Caiman.Drs.Balancer

/-!
# When a move gains

In exact arithmetic a gain is a smaller variance of the loads.
-/

namespace Caiman.Drs

open Lib.Spread

variable {K : Type} [Field K] [LinearOrder K] [IsStrictOrderedRing K] (root : Root K)
  {snap : ClusterSnapshot K} {cfg : DrsConfig K}

theorem deltaSigma_eq (hlen : 1 < snap.nodes.length) (vm : VmMetrics K) (src dst : NodeMetrics K) :
    deltaSigma root.arith snap cfg vm src dst = root.fn (variance snap.loads) -
      root.fn (variance (snap.after root.arith cfg.weights vm src.hostname dst.hostname).loads) := by
  have hbefore : ¬ snap.nodes.length < 2 := by omega
  have hafter :
      ¬ (snap.after root.arith cfg.weights vm src.hostname dst.hostname).nodes.length < 2 := by
    simpa [ClusterSnapshot.after, shift] using hbefore
  unfold deltaSigma simulateMigration ClusterSnapshot.balanceScore
  rw [if_neg hbefore, if_neg hafter, Root.stddev_eq, Root.stddev_eq]
  rfl

/-- A move gains exactly when it makes the variance smaller. -/
theorem gains_iff {vm : VmMetrics K} {src dst : NodeMetrics K} (hlen : 1 < snap.nodes.length) :
    ¬ root.arith.Le (deltaSigma root.arith snap cfg vm src dst) (root.arith.ofNat 0) ↔
      variance (snap.after root.arith cfg.weights vm src.hostname dst.hostname).loads <
        variance snap.loads := by
  have hzero : root.arith.ofNat 0 = (0 : K) := Nat.cast_zero
  rw [root.le_iff, deltaSigma_eq root hlen, hzero, not_le, sub_pos]
  exact root.strictMono.lt_iff_lt (variance_nonneg _) (variance_nonneg _)

theorem costFactor_pos (vm : VmMetrics K) : 0 < costFactor root.arith vm := by
  show (0 : K) < ((1 : Nat) : K) + ((vm.memMib.toNat : K) / ((1024 : Nat) : K)) *
    (((5 : Nat) : K) / ((100 : Nat) : K))
  positivity

theorem isCandidate_of_gain {m : Move K} (hmin : cfg.minMigrationScore = 0)
    (hsrc : m.src ∈ snap.nodes) (hloaded : ¬ root.arith.Lt m.src.loadScore (root.arith.lit 6 10))
    (hvm : m.vm ∈ m.src.vms) (hdst : m.dst ∈ snap.nodes) (hother : m.dst.hostname ≠ m.src.hostname)
    (hfits : fitsOnNode root.arith m.vm m.dst = true)
    (hgain : ¬ root.arith.Le (deltaSigma root.arith snap cfg m.vm m.src m.dst) (root.arith.ofNat 0))
    (hscore : m.score = root.arith.div (deltaSigma root.arith snap cfg m.vm m.src m.dst)
      (costFactor root.arith m.vm)) : IsCandidate root.arith snap cfg m := by
  refine ⟨hsrc, hloaded, hvm, hdst, hother, hfits, hgain, hscore, ?_⟩
  have hzero : root.arith.ofNat 0 = (0 : K) := Nat.cast_zero
  rw [root.le_iff, hzero, not_le] at hgain
  rw [root.le_iff, hmin, hscore]
  exact div_nonneg hgain.le (costFactor_pos root m.vm).le

theorem exists_plannedMoves (snap : ClusterSnapshot K) (cfg : DrsConfig K) :
    ∃ moves, plannedMoves root.arith snap cfg = some moves := by
  have hcmp (a b : K) : (root.arith.cmp a b).isSome = true := rfl
  obtain ⟨nodes, hnodes⟩ := Lib.Select.exists_sortBy
    (fun a b : NodeMetrics K => hcmp b.loadScore a.loadScore) snap.nodes
  obtain ⟨ranked, hranked⟩ := Lib.Select.exists_sortBy
    (fun a b : Move K => hcmp b.score a.score)
    (nodes.flatMap (movesOff root.arith .new snap cfg))
  refine ⟨choose ranked, ?_⟩
  unfold plannedMoves
  simp only [hnodes, Option.bind_some, hranked, Option.map_some]

end Caiman.Drs
