import Mathlib.Data.List.Nodup
import Caiman.Drs.Types

/-!
# Affinity rules

Which VMs have to be on one node, and which on different ones, and the check of a
migration against the rules.
-/

namespace Caiman.Drs

inductive AffinityType
  | affinity | antiAffinity
  deriving DecidableEq

inductive AffinityScope
  | hard | soft
  deriving DecidableEq

structure AffinityRule where
  name : String
  ruleType : AffinityType
  scope : AffinityScope
  vmIds : List UInt32

structure AffinityChecker where
  rules : List AffinityRule

namespace AffinityChecker

/-- No rules: they would be loaded later. -/
def new : AffinityChecker := ⟨[]⟩

def loadFromK8s (rules : List AffinityRule) : AffinityChecker := ⟨rules⟩

variable {F : Type}

def vmInRule (vmId : UInt32) (rule : AffinityRule) : Bool := rule.vmIds.contains vmId

def vmOnNode (vmId : UInt32) (node : String) (snap : ClusterSnapshot F) : Bool :=
  ((snap.nodes.find? fun n => n.hostname == node).map fun n =>
    n.vms.any fun v => v.vmId == vmId).getD false

def ruleAllows (vm : VmMetrics F) (targetNode : String) (snap : ClusterSnapshot F)
    (rule : AffinityRule) : Bool :=
  let others := rule.vmIds.filter (· != vm.vmId)
  let anyOnTarget := others.any fun id => vmOnNode id targetNode snap
  if !vmInRule vm.vmId rule then true
  else
    match rule.ruleType, rule.scope with
    | .antiAffinity, .hard => !anyOnTarget
    | .affinity, .hard => anyOnTarget || rule.vmIds.isEmpty
    | _, .soft => true

def migrationAllowed (checker : AffinityChecker) (vm : VmMetrics F) (targetNode : String)
    (snap : ClusterSnapshot F) : Bool :=
  checker.rules.all (ruleAllows vm targetNode snap)

/-! ## What the check says -/

variable {snap : ClusterSnapshot F} {vm : VmMetrics F} {node : String} {rule : AffinityRule}

theorem vmOnNode_iff (hunique : snap.Unique) {id : UInt32} :
    vmOnNode id node snap = true ↔ (id, node) ∈ snap.placement := by
  simp only [ClusterSnapshot.placement, List.mem_flatMap, List.mem_map, Prod.mk.injEq]
  constructor
  · intro h
    unfold vmOnNode at h
    cases hfind : snap.nodes.find? fun n => n.hostname == node with
    | none =>
        rw [hfind] at h
        cases h
    | some n =>
        rw [hfind, Option.map_some, Option.getD_some, List.any_eq_true] at h
        obtain ⟨v, hv, hid⟩ := h
        have hname : n.hostname = node := by
          simpa using List.find?_some (p := fun x : NodeMetrics F => x.hostname == node) hfind
        exact ⟨n, List.mem_of_find?_eq_some hfind, v, hv, beq_iff_eq.mp hid, hname⟩
  · intro h
    obtain ⟨n, hn, v, hv, hid, hname⟩ := h
    have hsome : (snap.nodes.find? fun x => x.hostname == node).isSome = true :=
      List.find?_isSome.mpr ⟨n, hn, beq_iff_eq.mpr hname⟩
    obtain ⟨first, hfind⟩ := Option.isSome_iff_exists.mp hsome
    have hfirst : first.hostname = node := by
      simpa using List.find?_some (p := fun x : NodeMetrics F => x.hostname == node) hfind
    have hsame : first = n := List.inj_on_of_nodup_map hunique.1 (List.mem_of_find?_eq_some hfind)
      hn (hfirst.trans hname.symm)
    rw [vmOnNode, hfind, Option.map_some, Option.getD_some, hsame, List.any_eq_true]
    exact ⟨v, hv, beq_iff_eq.mpr hid⟩

/-- A hard rule about the VM keeps it off the others, or has it join one of them. -/
theorem ruleAllows_iff (hunique : snap.Unique) (hvm : vm.vmId ∈ rule.vmIds)
    (hhard : rule.scope = .hard) :
    ruleAllows vm node snap rule = true ↔
      (rule.ruleType = .affinity → ∃ id ∈ rule.vmIds, id ≠ vm.vmId ∧ (id, node) ∈ snap.placement) ∧
      (rule.ruleType = .antiAffinity →
        ∀ id ∈ rule.vmIds, id ≠ vm.vmId → (id, node) ∉ snap.placement) := by
  have hin : vmInRule vm.vmId rule = true := List.contains_iff_mem.mpr hvm
  have hne : rule.vmIds.isEmpty = false :=
    List.isEmpty_eq_false_iff.mpr (List.ne_nil_of_mem hvm)
  have hothers : ((rule.vmIds.filter (· != vm.vmId)).any fun id => vmOnNode id node snap) = true ↔
      ∃ id ∈ rule.vmIds, id ≠ vm.vmId ∧ (id, node) ∈ snap.placement := by
    simp only [List.any_eq_true, List.mem_filter, bne_iff_ne, vmOnNode_iff hunique, and_assoc]
  unfold ruleAllows
  rw [hin, if_neg (by decide), hhard]
  cases rule.ruleType with
  | affinity =>
      simp only [hne, Bool.or_false, hothers, forall_const, reduceCtorEq, false_implies, and_true]
  | antiAffinity =>
      simp only [Bool.not_eq_true', ← Bool.not_eq_true, hothers, not_exists, not_and,
        reduceCtorEq, false_implies, forall_const, true_and]

end AffinityChecker

end Caiman.Drs
