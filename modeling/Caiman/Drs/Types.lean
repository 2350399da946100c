import Mathlib.Data.List.Basic

/-!
# Metrics of a cluster

What the balancer knows of the VMs and the nodes. It computes in floating point; the
arithmetic is a parameter, so that a result may hold of it or of exact numbers.
-/

namespace Caiman.Drs

/-- The operations on `f64` that are used. -/
structure Arith (F : Type) where
  add : F → F → F
  sub : F → F → F
  mul : F → F → F
  div : F → F → F
  min : F → F → F
  sqrt : F → F
  ofNat : Nat → F
  /-- `partial_cmp` -/
  cmp : F → F → Option Ordering

namespace Arith

variable {F : Type} (ar : Arith F)

/-- A decimal literal, as the quotient of two whole numbers. -/
def lit (n d : Nat) : F := ar.div (ar.ofNat n) (ar.ofNat d)

def sum (xs : List F) : F := xs.foldl ar.add (ar.ofNat 0)

def Lt (a b : F) : Prop := ar.cmp a b = some .lt

def Le (a b : F) : Prop := ar.cmp a b = some .lt ∨ ar.cmp a b = some .eq

instance (a b : F) : Decidable (ar.Lt a b) := inferInstanceAs (Decidable (_ = _))

instance (a b : F) : Decidable (ar.Le a b) := inferInstanceAs (Decidable (_ ∨ _))

/-- The square root of the variance, over a list that is not empty. -/
def stddev (loads : List F) : F :=
  let n := ar.ofNat loads.length
  let mean := ar.div (ar.sum loads) n
  let variance := ar.div (ar.sum (loads.map fun l => ar.mul (ar.sub l mean) (ar.sub l mean))) n
  ar.sqrt variance

end Arith

structure ResourceWeights (F : Type) where
  cpu : F
  memory : F
  storage : F
  network : F

structure DrsConfig (F : Type) where
  minMigrationScore : F
  weights : ResourceWeights F

structure VmMetrics (F : Type) where
  vmId : UInt32
  name : String
  node : String
  cpuCores : UInt32
  cpuUsagePct : F
  memMib : UInt64

structure NodeMetrics (F : Type) where
  hostname : String
  cpuCores : UInt32
  cpuUsagePct : F
  memTotalMib : UInt64
  memUsedMib : UInt64
  memFreeMib : UInt64
  diskReadIops : F
  diskWriteIops : F
  netRxMbps : F
  netTxMbps : F
  vms : List (VmMetrics F)
  loadScore : F

variable {F : Type} (ar : Arith F)

namespace NodeMetrics

/-- The load that `compute_load` stores. -/
def load (weights : ResourceWeights F) (n : NodeMetrics F) : F :=
  let one := ar.ofNat 1
  let cpuNorm := ar.min (ar.div n.cpuUsagePct (ar.ofNat 100)) one
  let memNorm := ar.min
    (ar.div (ar.ofNat n.memUsedMib.toNat) (ar.ofNat (max n.memTotalMib 1).toNat)) one
  let diskNorm := ar.min (ar.div (ar.add n.diskReadIops n.diskWriteIops) (ar.ofNat 100000)) one
  let netNorm := ar.min (ar.div (ar.add n.netRxMbps n.netTxMbps) (ar.ofNat 40000)) one
  ar.add (ar.add (ar.add (ar.mul cpuNorm weights.cpu) (ar.mul memNorm weights.memory))
    (ar.mul diskNorm weights.storage)) (ar.mul netNorm weights.network)

def computeLoad (weights : ResourceWeights F) (n : NodeMetrics F) : NodeMetrics F :=
  { n with loadScore := n.load ar weights }

end NodeMetrics

structure ClusterSnapshot (F : Type) where
  nodes : List (NodeMetrics F)

namespace ClusterSnapshot

def loads (snap : ClusterSnapshot F) : List F := snap.nodes.map NodeMetrics.loadScore

/-- Standard deviation of the node load scores. -/
def balanceScore (snap : ClusterSnapshot F) : F :=
  if snap.nodes.length < 2 then ar.ofNat 0 else ar.stddev snap.loads

def placement (snap : ClusterSnapshot F) : List (UInt32 × String) :=
  snap.nodes.flatMap fun n => n.vms.map fun v => (v.vmId, n.hostname)

/-- No two nodes of a name, no two VMs of an id. -/
def Unique (snap : ClusterSnapshot F) : Prop :=
  (snap.nodes.map NodeMetrics.hostname).Nodup ∧ (snap.placement.map Prod.fst).Nodup

end ClusterSnapshot

end Caiman.Drs
