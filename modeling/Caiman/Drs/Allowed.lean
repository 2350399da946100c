import Caiman.Drs.Rules

/-!
# Moves that the checker allows

A snapshot that meets the hard rules still meets them when one VM is moved to a node that
the checker, given the rules, allows for it.
-/

namespace Caiman.Drs

variable {F : Type}

/-- The snapshot with the VM taken from its node and put on the node of the name. -/
def ClusterSnapshot.moved (snap : ClusterSnapshot F) (vm : VmMetrics F) (target : String) :
    ClusterSnapshot F :=
  ⟨snap.nodes.map fun n =>
    { n with
      vms := n.vms.filter (fun v => v.vmId ≠ vm.vmId) ++
        if n.hostname = target then [{ vm with node := target }] else [] }⟩

/-- All VMs of an affinity rule run on one node, and no two of an anti-affinity rule do. -/
def AffinityRule.Holds (r : AffinityRule) (snap : ClusterSnapshot F) : Prop :=
  (r.ruleType = .affinity → ∃ node, ∀ id ∈ r.vmIds, (id, node) ∈ snap.placement) ∧
    (r.ruleType = .antiAffinity → ∀ id ∈ r.vmIds, ∀ id' ∈ r.vmIds, id ≠ id' →
      ∀ node, (id, node) ∈ snap.placement → (id', node) ∉ snap.placement)

def HardRulesHold (rules : List AffinityRule) (snap : ClusterSnapshot F) : Prop :=
  ∀ r ∈ rules, r.scope = .hard → r.Holds snap

variable {rules : List AffinityRule} {snap : ClusterSnapshot F} {n : NodeMetrics F}
  {vm : VmMetrics F} {target node : String} {id : UInt32}

theorem mem_placement : (id, node) ∈ snap.placement ↔
    ∃ n ∈ snap.nodes, n.hostname = node ∧ ∃ v ∈ n.vms, v.vmId = id := by
  simp only [ClusterSnapshot.placement, List.mem_flatMap, List.mem_map, Prod.mk.injEq]
  constructor
  · intro h
    obtain ⟨n, hn, v, hv, hid, hnode⟩ := h
    exact ⟨n, hn, hnode, v, hv, hid⟩
  · intro h
    obtain ⟨n, hn, hnode, v, hv, hid⟩ := h
    exact ⟨n, hn, v, hv, hid, hnode⟩

theorem ClusterSnapshot.Unique.node_eq (h : snap.Unique) {node' : String}
    (hx : (id, node) ∈ snap.placement) (hy : (id, node') ∈ snap.placement) : node = node' :=
  congrArg Prod.snd (List.inj_on_of_nodup_map h.2 hx hy rfl)

theorem mem_placement_moved : (id, node) ∈ (snap.moved vm target).placement ↔
    id ≠ vm.vmId ∧ (id, node) ∈ snap.placement ∨
      id = vm.vmId ∧ node = target ∧ ∃ n ∈ snap.nodes, n.hostname = target := by
  rw [mem_placement, mem_placement]
  simp only [ClusterSnapshot.moved, List.mem_map, exists_exists_and_eq_and, List.mem_append,
    List.mem_filter, decide_eq_true_eq]
  constructor
  · intro h
    obtain ⟨n, hn, hnode, v, ⟨hv, hother⟩ | hv, hid⟩ := h
    · exact Or.inl ⟨hid ▸ hother, n, hn, hnode, v, hv, hid⟩
    · split at hv
      · rename_i htarget
        rw [List.mem_singleton.mp hv] at hid
        exact Or.inr ⟨hid.symm, hnode.symm.trans htarget, n, hn, htarget⟩
      · cases hv
  · intro h
    rcases h with ⟨hother, n, hn, hnode, v, hv, hid⟩ | ⟨hid, hnode, n, hn, htarget⟩
    · exact ⟨n, hn, hnode, v, Or.inl ⟨hv, hid ▸ hother⟩, hid⟩
    · refine ⟨n, hn, htarget.trans hnode.symm, { vm with node := target }, Or.inr ?_, hid.symm⟩
      rw [if_pos htarget]
      exact List.mem_singleton_self _

theorem Satisfies.subset {p p' : Placement} (h : Satisfies rules p) (hsub : p' ⊆ p) :
    Satisfies rules p' :=
  fun r hr hhard x hx y hy => h r hr hhard x (hsub hx) y (hsub hy)

theorem placed (hn : n ∈ snap.nodes) (hvm : vm ∈ n.vms) :
    (vm.vmId, n.hostname) ∈ snap.placement :=
  mem_placement.mpr ⟨n, hn, rfl, vm, hvm, rfl⟩

theorem mem_placement_moved_self (hunique : snap.Unique) (hn : n ∈ snap.nodes) (hvm : vm ∈ n.vms) :
    (id, node) ∈ (snap.moved vm n.hostname).placement ↔ (id, node) ∈ snap.placement := by
  have hplaced := placed hn hvm
  rw [mem_placement_moved]
  constructor
  · intro h
    rcases h with ⟨-, h⟩ | ⟨rfl, rfl, -⟩
    · exact h
    · exact hplaced
  · intro h
    by_cases hid : id = vm.vmId
    · subst hid
      exact Or.inr ⟨rfl, hunique.node_eq h hplaced, n, hn, rfl⟩
    · exact Or.inl ⟨hid, h⟩

theorem moved_subset (hn : n ∈ snap.nodes) (hvm : vm ∈ n.vms) :
    (snap.moved vm target).placement ⊆ Placement.move snap.placement vm.vmId target := by
  rintro ⟨id, node⟩ hx
  rcases mem_placement_moved.mp hx with ⟨hother, h⟩ | ⟨rfl, rfl, -⟩
  · exact List.mem_map.mpr ⟨(id, node), h, by rw [if_neg hother]⟩
  · exact List.mem_map.mpr ⟨(vm.vmId, n.hostname), placed hn hvm, by rw [if_pos rfl]⟩

theorem AffinityRule.Holds.congr {r : AffinityRule} {snap' : ClusterSnapshot F} (h : r.Holds snap)
    (hsame : ∀ id node, (id, node) ∈ snap'.placement ↔ (id, node) ∈ snap.placement) :
    r.Holds snap' := by
  simpa only [AffinityRule.Holds, hsame] using h

theorem AffinityRule.Holds.moved {r : AffinityRule} (hunique : snap.Unique) (hn : n ∈ snap.nodes)
    (hvm : vm ∈ n.vms) (hother : target ≠ n.hostname) (hhard : r.scope = .hard)
    (hallows : AffinityChecker.ruleAllows vm target snap r = true) (h : r.Holds snap) :
    r.Holds (snap.moved vm target) := by
  obtain ⟨htogether, hapart⟩ := h
  have hrule : vm.vmId ∈ r.vmIds → _ := fun hvmr =>
    (AffinityChecker.ruleAllows_iff hunique hvmr hhard).mp hallows
  constructor
  · intro htype
    obtain ⟨host, hhost⟩ := htogether htype
    -- a VM of the rule would have to leave the node that all of it is on
    have hout : vm.vmId ∉ r.vmIds := by
      intro hvmr
      obtain ⟨id, hid, -, hon⟩ := (hrule hvmr).1 htype
      have htarget : host = target := hunique.node_eq (hhost id hid) hon
      exact hother (htarget.symm.trans (hunique.node_eq (hhost _ hvmr) (placed hn hvm)))
    refine ⟨host, ?_⟩
    intro id hid
    have hne : id ≠ vm.vmId := fun heq => hout (heq ▸ hid)
    exact mem_placement_moved.mpr (Or.inl ⟨hne, hhost id hid⟩)
  · intro htype id hid id' hid' hne host hx hy
    rcases mem_placement_moved.mp hx with ⟨-, hxold⟩ | ⟨rfl, rfl, -⟩
    · rcases mem_placement_moved.mp hy with ⟨-, hyold⟩ | ⟨rfl, rfl, -⟩
      · exact hapart htype id hid id' hid' hne host hxold hyold
      · exact (hrule hid').2 htype id hid hne hxold
    · rcases mem_placement_moved.mp hy with ⟨hnot, hyold⟩ | ⟨hsame, -⟩
      · exact (hrule hid).2 htype id' hid' hnot hyold
      · exact hne hsame.symm

/-- One move that the checker allows keeps the hard rules, whether a rule is about all of its
VMs or about those of them that run. -/
theorem allowed_move_keeps_rules (rules : List AffinityRule) (snap : ClusterSnapshot F)
    (hunique : snap.Unique) (n : NodeMetrics F) (hn : n ∈ snap.nodes) (vm : VmMetrics F)
    (hvm : vm ∈ n.vms) (target : String)
    (hallowed : (AffinityChecker.loadFromK8s rules).migrationAllowed vm target snap = true) :
    (HardRulesHold rules snap → HardRulesHold rules (snap.moved vm target)) ∧
      (Satisfies rules snap.placement → Satisfies rules (snap.moved vm target).placement) := by
  by_cases hsame : target = n.hostname
  · subst hsame
    have hmem : ∀ id node, (id, node) ∈ (snap.moved vm n.hostname).placement ↔
        (id, node) ∈ snap.placement := fun _ _ => mem_placement_moved_self hunique hn hvm
    constructor
    · exact fun h r hr hhard => (h r hr hhard).congr hmem
    · exact fun h => h.subset fun x hx => (hmem x.1 x.2).mp hx
  · constructor
    · exact fun h r hr hhard => (h r hr hhard).moved hunique hn hvm hsame hhard
        (List.all_eq_true.mp hallowed r hr)
    · exact fun h => (satisfies_of_allowed hunique (placed hn hvm) hsame hallowed h).subset
        (moved_subset hn hvm)

def idleNode (hostname : String) (ids : List UInt32) : NodeMetrics ℚ :=
  ⟨hostname, 4, 10, 8192, 1024, 7168, 0, 0, 0, 0, ids.map (⟨·, "", hostname, 1, 0, 512⟩), 0⟩

/-- VM 1 has to be apart from VM 5, which does not run, and may join VM 4. -/
theorem allowed_move_keeps_rules_sample :
    let rules : List AffinityRule :=
      [⟨"apart", .antiAffinity, .hard, [1, 5]⟩, ⟨"together", .affinity, .hard, [2, 3]⟩]
    let snap : ClusterSnapshot ℚ := ⟨[idleNode "a" [1, 2, 3], idleNode "b" [4]]⟩
    Satisfies rules (snap.moved ⟨1, "", "a", 1, 0, 512⟩ "b").placement := by
  intro rules snap
  have hunique : snap.Unique := ⟨by decide, by decide⟩
  exact (allowed_move_keeps_rules rules snap hunique _ List.mem_cons_self _ List.mem_cons_self "b"
    (by decide)).2 (by decide)

end Caiman.Drs
