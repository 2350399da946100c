import Caiman.Drs.Gain

/-!
# Skewed clusters

One light host, and all other nodes loaded; only the processors count, and only the chosen
VMs use them. The plan moves just these, and to the light host. Where the VMs are and how
much memory there is can be anything.
-/

namespace Caiman.Drs

open Lib.Select Lib.Spread

/-- The memory of a node, and the ids and the memory of its VMs. -/
structure NodeMemory where
  hostname : String
  totalMib : UInt64
  usedMib : UInt64
  freeMib : UInt64
  vms : List (UInt32 × UInt64)
  deriving DecidableEq

def NodeMemory.Fits (n : NodeMemory) (mib : UInt64) : Prop :=
  mib ≤ saturatingSub n.freeMib (n.totalMib / 10)

theorem NodeMemory.fits_zero (n : NodeMemory) : n.Fits 0 := UInt64.zero_le

def NodeMetrics.memory {F : Type} (n : NodeMetrics F) : NodeMemory :=
  ⟨n.hostname, n.memTotalMib, n.memUsedMib, n.memFreeMib, n.vms.map fun v => (v.vmId, v.memMib)⟩

theorem memFits_iff {F : Type} {vm : VmMetrics F} {n : NodeMetrics F} :
    memFits vm n = true ↔ n.memory.Fits vm.memMib := decide_eq_true_iff

/-- A light host, the VMs that use its processors, and how much they do. -/
structure Skew (K : Type) where
  host : String
  hot : List (UInt32 × UInt64)
  usage : K

variable {K : Type} [Field K]

namespace Skew

variable (sk : Skew K)

def vmUsage (v : UInt32 × UInt64) : K := if v ∈ sk.hot then sk.usage else 0

def nodeUsage (hostname : String) : K := if hostname = sk.host then 5 else 95

def vm (hostname : String) (v : UInt32 × UInt64) : VmMetrics K where
  vmId := v.1
  name := ""
  node := hostname
  cpuCores := 1
  cpuUsagePct := sk.vmUsage v
  memMib := v.2

def node (n : NodeMemory) : NodeMetrics K where
  hostname := n.hostname
  cpuCores := 1
  cpuUsagePct := sk.nodeUsage n.hostname
  memTotalMib := n.totalMib
  memUsedMib := n.usedMib
  memFreeMib := n.freeMib
  diskReadIops := 0
  diskWriteIops := 0
  netRxMbps := 0
  netTxMbps := 0
  vms := n.vms.map (sk.vm n.hostname)
  loadScore := sk.nodeUsage n.hostname / 100

def cluster (layout : List NodeMemory) : ClusterSnapshot K := ⟨layout.map sk.node⟩

theorem memory_node (n : NodeMemory) : (sk.node n).memory = n := by
  have hvms : (n.vms.map (sk.vm n.hostname)).map (fun v => (v.vmId, v.memMib)) = n.vms := by
    rw [List.map_map]
    exact List.map_id _
  simp only [NodeMetrics.memory, node, hvms]

theorem memory_cluster (layout : List NodeMemory) :
    (sk.cluster layout).nodes.map NodeMetrics.memory = layout := by
  rw [cluster, List.map_map]
  nth_rewrite 2 [← List.map_id layout]
  exact List.map_congr_left fun n _ => sk.memory_node n

theorem find_node {layout : List NodeMemory} {n : NodeMemory} (h : n ∈ layout) :
    ∃ first ∈ layout, first.hostname = n.hostname ∧
      (sk.cluster layout).nodes.find? (fun x => x.hostname == n.hostname) =
        some (sk.node first) := by
  have hsome : (layout.find? fun x => x.hostname == n.hostname).isSome = true :=
    List.find?_isSome.mpr ⟨n, h, beq_self_eq_true _⟩
  obtain ⟨first, hfirst⟩ := Option.isSome_iff_exists.mp hsome
  refine ⟨first, List.mem_of_find?_eq_some hfirst, ?_, ?_⟩
  · exact eq_of_beq (List.find?_some (p := fun x : NodeMemory => x.hostname == n.hostname) hfirst)
  · rw [cluster, List.find?_map]
    exact Option.map_eq_some_iff.mpr ⟨first, hfirst, rfl⟩

end Skew

/-- A loaded node and a light one, with their VMs and no memory. -/
def pairOfNodes (loaded light : List (UInt32 × UInt64)) : List NodeMemory :=
  [⟨"loaded", 0, 0, 0, loaded⟩, ⟨"light", 0, 0, 0, light⟩]

theorem loaded_ne_light : "loaded" ≠ "light" := by decide

theorem placement_cluster (sk : Skew K) (loaded light : List (UInt32 × UInt64)) :
    (sk.cluster (pairOfNodes loaded light)).placement =
      loaded.map (fun v => (v.1, "loaded")) ++ light.map fun v => (v.1, "light") := by
  simp [ClusterSnapshot.placement, Skew.cluster, pairOfNodes, Skew.node, Skew.vm,
    Function.comp_def]

/-- Only the processors count, and every gain is enough. -/
def cpuOnly : DrsConfig K := ⟨0, ⟨1, 0, 0, 0⟩⟩

variable [LinearOrder K] [IsStrictOrderedRing K] (root : Root K)

/-- The load of a node of which only the processors count. -/
def cpuLoad (usage : K) : K := min (usage / 100) 1

theorem cpuLoad_of_le {usage : K} (h : usage ≤ 100) : cpuLoad usage = usage / 100 := by
  apply min_eq_left
  rwa [div_le_one (by norm_num)]

theorem load_cpuOnly (n : NodeMetrics K) :
    n.load root.arith cpuOnly.weights = cpuLoad n.cpuUsagePct := by
  simp [NodeMetrics.load, Root.arith, cpuOnly, cpuLoad]

namespace Skew

variable (sk : Skew K)

theorem node_load (n : NodeMemory) :
    (sk.node n).load root.arith cpuOnly.weights = (sk.node n).loadScore := by
  have hle : sk.nodeUsage n.hostname ≤ 100 := by
    unfold nodeUsage
    split <;> norm_num
  rw [load_cpuOnly]
  exact cpuLoad_of_le hle

variable {sk} {layout : List NodeMemory} {vm : VmMetrics K} {n : NodeMemory}

theorem without_loadScore (hvm : 0 ≤ vm.cpuUsagePct) (hn : n.hostname ≠ sk.host) :
    ((sk.node n).without root.arith cpuOnly.weights vm).loadScore =
      (95 - vm.cpuUsagePct) / 100 := by
  have hload : ((sk.node n).without root.arith cpuOnly.weights vm).loadScore =
      cpuLoad (sk.nodeUsage n.hostname - vm.cpuUsagePct / ((1 : Nat) : K)) :=
    load_cpuOnly root _
  rw [hload, nodeUsage, if_neg hn, Nat.cast_one, div_one]
  exact cpuLoad_of_le (by linarith)

theorem withVm_loadScore (hvm : vm.cpuUsagePct ≤ 95) (hn : n.hostname = sk.host) :
    ((sk.node n).withVm root.arith cpuOnly.weights vm).loadScore =
      (5 + vm.cpuUsagePct) / 100 := by
  have hload : ((sk.node n).withVm root.arith cpuOnly.weights vm).loadScore =
      cpuLoad (sk.nodeUsage n.hostname + vm.cpuUsagePct / ((1 : Nat) : K)) :=
    load_cpuOnly root _
  rw [hload, nodeUsage, if_pos hn, Nat.cast_one, div_one]
  exact cpuLoad_of_le (by linarith)

theorem sum_after (g : K → K) (hpos : 0 ≤ vm.cpuUsagePct) (hle : vm.cpuUsagePct ≤ 95)
    {src dst : NodeMemory} (hsrc : src ∈ layout) (hdst : dst ∈ layout)
    (hloaded : src.hostname ≠ sk.host) (hlight : dst.hostname = sk.host) :
    ((((sk.cluster layout).after root.arith cpuOnly.weights vm src.hostname
        dst.hostname).loads).map g).sum =
      (((sk.cluster layout).loads).map g).sum +
        (g ((95 - vm.cpuUsagePct) / 100) - g (95 / 100)) +
        (g ((5 + vm.cpuUsagePct) / 100) - g (5 / 100)) := by
  obtain ⟨a, ha, haname, hfindA⟩ := sk.find_node hsrc
  obtain ⟨b, hb, hbname, hfindB⟩ := sk.find_node hdst
  have hahost : a.hostname ≠ sk.host := haname ▸ hloaded
  have hbhost : b.hostname = sk.host := hbname.trans hlight
  have hnames : src.hostname ≠ dst.hostname := hlight ▸ hloaded
  have hfind : (updateFirst (fun n => n.hostname == src.hostname)
      (NodeMetrics.without root.arith cpuOnly.weights vm) (sk.cluster layout).nodes).find?
        (fun n => n.hostname == dst.hostname) = some (sk.node b) := by
    rw [find?_updateFirst, hfindB]
    intro x hx
    rw [beq_iff_eq] at hx
    have hne : (x.hostname == dst.hostname) = false := by
      rw [beq_eq_false_iff_ne, hx]
      exact hnames
    exact ⟨hne, hne⟩
  have hloadA : (sk.node a).loadScore = 95 / 100 := by
    show sk.nodeUsage a.hostname / 100 = _
    rw [nodeUsage, if_neg hahost]
  have hloadB : (sk.node b).loadScore = 5 / 100 := by
    show sk.nodeUsage b.hostname / 100 = _
    rw [nodeUsage, if_pos hbhost]
  simp only [ClusterSnapshot.loads, ClusterSnapshot.after, shift, List.map_map]
  rw [sum_map_updateFirst hfind, sum_map_updateFirst hfindA]
  simp only [Function.comp, without_loadScore root hpos hahost,
    withVm_loadScore root hle hbhost, hloadA, hloadB]

theorem variance_after (hpos : 0 ≤ vm.cpuUsagePct) (hle : vm.cpuUsagePct ≤ 95)
    {src dst : NodeMemory} (hsrc : src ∈ layout) (hdst : dst ∈ layout)
    (hloaded : src.hostname ≠ sk.host) (hlight : dst.hostname = sk.host) :
    variance ((sk.cluster layout).after root.arith cpuOnly.weights vm src.hostname
        dst.hostname).loads =
      variance (sk.cluster layout).loads +
        vm.cpuUsagePct * (vm.cpuUsagePct - 90) / 5000 / layout.length := by
  have hsum := sum_after root id hpos hle hsrc hdst hloaded hlight
  have hsq := sum_after root (fun x => x * x) hpos hle hsrc hdst hloaded hlight
  have hne : (sk.cluster layout).loads ≠ [] := by
    simp [ClusterSnapshot.loads, cluster, List.ne_nil_of_mem hsrc]
  have hlen : ((sk.cluster layout).after root.arith cpuOnly.weights vm src.hostname
      dst.hostname).loads.length = (sk.cluster layout).loads.length := by
    simp [ClusterSnapshot.loads, ClusterSnapshot.after, shift]
  have hnodes : (sk.cluster layout).loads.length = layout.length := by
    simp [ClusterSnapshot.loads, cluster]
  have hne' : ((sk.cluster layout).after root.arith cpuOnly.weights vm src.hostname
      dst.hostname).loads ≠ [] := by
    rw [ne_eq, ← List.length_eq_zero_iff, hlen, List.length_eq_zero_iff]
    exact hne
  have hsame : ((sk.cluster layout).after root.arith cpuOnly.weights vm src.hostname
      dst.hostname).loads.sum = (sk.cluster layout).loads.sum := by
    simp only [List.map_id, id] at hsum
    rw [hsum]
    ring
  rw [variance_eq _ hne', variance_eq _ hne, mean, mean, hsame, hsq, hlen, hnodes]
  ring

theorem gain_iff (vm : VmMetrics K) (hpos : 0 ≤ vm.cpuUsagePct) (hle : vm.cpuUsagePct ≤ 85)
    {src dst : NodeMemory} (hsrc : src ∈ layout) (hdst : dst ∈ layout)
    (hloaded : src.hostname ≠ sk.host) (hlight : dst.hostname = sk.host) :
    ¬ root.arith.Le (deltaSigma root.arith (sk.cluster layout) cpuOnly vm (sk.node src)
        (sk.node dst)) (root.arith.ofNat 0) ↔ 0 < vm.cpuUsagePct := by
  have hne : sk.node src ≠ sk.node dst := by
    intro h
    exact hloaded ((congrArg NodeMetrics.hostname h).trans hlight)
  have hlen : 1 < (sk.cluster layout).nodes.length :=
    one_lt_length_of_ne (List.mem_map_of_mem hsrc) (List.mem_map_of_mem hdst) hne
  have hcount : (0 : K) < layout.length := by
    rw [Nat.cast_pos]
    exact List.length_pos_of_mem hsrc
  rw [gains_iff root hlen]
  show variance ((sk.cluster layout).after root.arith cpuOnly.weights vm src.hostname
    dst.hostname).loads < _ ↔ _
  rw [variance_after root hpos (by linarith) hsrc hdst hloaded hlight, add_lt_iff_neg_left]
  constructor
  · intro hneg
    by_contra hzero
    have hu : vm.cpuUsagePct = 0 := le_antisymm (not_lt.mp hzero) hpos
    rw [hu] at hneg
    simp at hneg
  · intro hu
    apply div_neg_of_neg_of_pos _ hcount
    nlinarith

/-! ## Plan of a skewed cluster -/

theorem vmUsage_bounds (hpos : 0 < sk.usage) (hle : sk.usage ≤ 85) (v : UInt32 × UInt64) :
    0 ≤ sk.vmUsage v ∧ sk.vmUsage v ≤ 85 ∧ (0 < sk.vmUsage v ↔ v ∈ sk.hot) := by
  unfold vmUsage
  split
  · rename_i hhot
    exact ⟨hpos.le, hle, iff_of_true hpos hhot⟩
  · rename_i hhot
    exact ⟨le_refl 0, by norm_num, iff_of_false (lt_irrefl 0) hhot⟩

theorem cpuFits_iff (vm : VmMetrics K) (hpos : 0 ≤ vm.cpuUsagePct) (hle : vm.cpuUsagePct ≤ 85) :
    cpuFits root.arith vm (sk.node n) = true ↔ n.hostname = sk.host := by
  have hfits : cpuFits root.arith vm (sk.node n) = true ↔
      vm.cpuUsagePct ≤ 90 - sk.nodeUsage n.hostname := by
    rw [cpuFits, Bool.not_eq_true', decide_eq_false_iff_not, root.lt_iff, not_lt]
    show vm.cpuUsagePct / ((1 : Nat) : K) ≤
      ((100 : Nat) : K) - sk.nodeUsage n.hostname - ((10 : Nat) : K) ↔ _
    rw [Nat.cast_one, div_one]
    push_cast
    constructor <;> intro h <;> linarith
  rw [hfits, nodeUsage]
  split
  · rename_i hlight
    exact iff_of_true (by linarith) hlight
  · rename_i hloaded
    exact iff_of_false (by linarith) hloaded

theorem loaded_iff : ¬ root.arith.Lt (sk.node n).loadScore (root.arith.lit 6 10) ↔
    n.hostname ≠ sk.host := by
  rw [root.lt_iff, not_lt]
  show ((6 : Nat) : K) / ((10 : Nat) : K) ≤ sk.nodeUsage n.hostname / 100 ↔ _
  unfold nodeUsage
  split
  · rename_i hlight
    exact iff_of_false (by norm_num) (not_not_intro hlight)
  · rename_i hloaded
    exact iff_of_true (by norm_num) hloaded

theorem of_isCandidate (hpos : 0 < sk.usage) (hle : sk.usage ≤ 85) {m : Move K}
    (h : IsCandidate root.arith (sk.cluster layout) cpuOnly m) :
    m.dst.hostname = sk.host ∧ m.src.hostname ≠ sk.host ∧
      (m.vm.vmId, m.vm.memMib) ∈ sk.hot ∧ m.vm.cpuUsagePct = sk.usage := by
  obtain ⟨vm, src, dst, score⟩ := m
  obtain ⟨hsrc, hloaded, hvm, hdst, -, hfits, hgain, -, -⟩ := h
  obtain ⟨s, hs, rfl⟩ := List.mem_map.mp hsrc
  obtain ⟨d, hd, rfl⟩ := List.mem_map.mp hdst
  obtain ⟨v, hv, rfl⟩ := List.mem_map.mp hvm
  obtain ⟨hlow, hhigh, hhot⟩ := sk.vmUsage_bounds hpos hle v
  have hsource : s.hostname ≠ sk.host := (loaded_iff root).mp hloaded
  rw [fitsOnNode, Bool.and_eq_true] at hfits
  have htarget : d.hostname = sk.host :=
    (cpuFits_iff root (sk.vm s.hostname v) hlow hhigh).mp hfits.2
  have hchosen : v ∈ sk.hot :=
    hhot.mp ((gain_iff root (sk.vm s.hostname v) hlow hhigh hs hd hsource htarget).mp hgain)
  exact ⟨htarget, hsource, hchosen, if_pos hchosen⟩

theorem exists_isCandidate (hpos : 0 < sk.usage) (hle : sk.usage ≤ 85) {src dst : NodeMemory}
    {v : UInt32 × UInt64} (hsrc : src ∈ layout) (hdst : dst ∈ layout) (hv : v ∈ src.vms)
    (hhot : v ∈ sk.hot) (hloaded : src.hostname ≠ sk.host) (hlight : dst.hostname = sk.host)
    (hfits : dst.Fits v.2) :
    ∃ m : Move K, IsCandidate root.arith (sk.cluster layout) cpuOnly m ∧ m.vm.vmId = v.1 := by
  obtain ⟨hlow, hhigh, huse⟩ := sk.vmUsage_bounds hpos hle v
  let vm := sk.vm src.hostname v
  let delta := deltaSigma root.arith (sk.cluster layout) cpuOnly vm (sk.node src) (sk.node dst)
  refine ⟨⟨vm, sk.node src, sk.node dst, root.arith.div delta (costFactor root.arith vm)⟩, ?_, rfl⟩
  have hgain := (gain_iff root vm hlow hhigh hsrc hdst hloaded hlight).mpr
    (huse.mpr hhot)
  have hroom : fitsOnNode root.arith vm (sk.node dst) = true := by
    rw [fitsOnNode, Bool.and_eq_true, memFits_iff, memory_node]
    exact ⟨hfits, (cpuFits_iff root vm hlow hhigh).mpr hlight⟩
  exact isCandidate_of_gain root rfl (List.mem_map_of_mem hsrc) ((loaded_iff root).mpr hloaded)
    (List.mem_map_of_mem hv) (List.mem_map_of_mem hdst) (fun h => hloaded (h.symm.trans hlight))
    hroom hgain rfl

def Available (sk : Skew K) (layout : List NodeMemory) : Prop :=
  ∀ v ∈ sk.hot, ∃ src ∈ layout, ∃ dst ∈ layout, v ∈ src.vms ∧ src.hostname ≠ sk.host ∧
    dst.hostname = sk.host ∧ dst.Fits v.2

/-- Up to five chosen VMs are all moved, and nothing else. -/
theorem exists_plan (hpos : 0 < sk.usage) (hle : sk.usage ≤ 85)
    (hlen : sk.hot.length ≤ 5) (hids : (sk.hot.map Prod.fst).Nodup) (hall : sk.Available layout) :
    ∃ moves, plannedMoves root.arith (sk.cluster layout) cpuOnly = some moves ∧
      (moves.map fun m => (m.vm.vmId, m.vm.memMib)).Perm sk.hot ∧
      ∀ m ∈ moves, m.dst.hostname = sk.host ∧ m.src.hostname ≠ sk.host := by
  obtain ⟨moves, hmoves⟩ := exists_plannedMoves root (sk.cluster layout) cpuOnly
  have hfacts (m : Move K) (hm : m ∈ moves) := of_isCandidate root hpos hle
    (isCandidate_of_planned hmoves hm)
  refine ⟨moves, hmoves, ?_, fun m hm => ⟨(hfacts m hm).1, (hfacts m hm).2.1⟩⟩
  have hpairs : (moves.map fun m => (m.vm.vmId, m.vm.memMib)).Nodup := by
    apply List.Nodup.of_map Prod.fst
    rw [List.map_map]
    exact planned_nodup hmoves
  rw [List.perm_ext_iff_of_nodup hpairs (List.Nodup.of_map _ hids)]
  intro v
  constructor
  · intro hv
    obtain ⟨m, hm, rfl⟩ := List.mem_map.mp hv
    exact (hfacts m hm).2.2.1
  · intro hv
    obtain ⟨src, hsrc, dst, hdst, hvm, hloaded, hlight, hfits⟩ := hall v hv
    obtain ⟨m, hm, hid⟩ :=
      exists_isCandidate root hpos hle hsrc hdst hvm hv hloaded hlight hfits
    have hfew : (sk.hot.map Prod.fst).length ≤ 5 := by
      rw [List.length_map]
      exact hlen
    obtain ⟨m', hm', hid'⟩ := exists_planned hmoves hfew
      (fun c hc => List.mem_map_of_mem (of_isCandidate root hpos hle hc).2.2.1) hm
    have hpair : (m'.vm.vmId, m'.vm.memMib) = v :=
      List.inj_on_of_nodup_map hids (hfacts m' hm').2.2.1 hv (hid'.trans hid)
    exact List.mem_map.mpr ⟨m', hm', hpair⟩

end Skew

end Caiman.Drs
