import Caiman.Drs.Skewed

/-!
# Balance after a plan

Every candidate makes the variance of the loads smaller, on its own. A plan carries out up
to five that were each simulated on the snapshot it starts from.
-/

namespace Caiman.Drs

open Lib.Select Lib.Spread

variable {F : Type}

/-- The moves are carried out, each with the accounting of the simulation. -/
def carryOut (ar : Arith F) (weights : ResourceWeights F) (snap : ClusterSnapshot F)
    (moves : List (Move F)) : ClusterSnapshot F :=
  moves.foldl (fun s m => s.after ar weights m.vm m.src.hostname m.dst.hostname) snap

def AtMostOneMovable (ar : Arith F) (snap : ClusterSnapshot F) (cfg : DrsConfig F) : Prop :=
  ∀ id id', Movable ar snap cfg id → Movable ar snap cfg id' → id = id'

/-- The loads are those that `compute_load` stores, of nodes that have processors. -/
def Computed (ar : Arith F) (snap : ClusterSnapshot F) (cfg : DrsConfig F) : Prop :=
  snap.Unique ∧ ∀ n ∈ snap.nodes, 0 < n.cpuCores ∧ n.loadScore = n.load ar cfg.weights

/-- Such a plan has one move, and a plan of one move is for such a snapshot. -/
theorem length_le_one_iff {ar : Arith F} {snap : ClusterSnapshot F} {cfg : DrsConfig F}
    {moves : List (Move F)} (h : plannedMoves ar snap cfg = some moves) :
    moves.length ≤ 1 ↔ AtMostOneMovable ar snap cfg := by
  constructor
  · intro hlen id id' hid hid'
    obtain ⟨m, hm, rfl⟩ := hid
    obtain ⟨m', hm', rfl⟩ := hid'
    rcases planned_full_or_all h with hfull | hall
    · omega
    · obtain ⟨p, hp, hpid⟩ := hall m hm
      obtain ⟨p', hp', hpid'⟩ := hall m' hm'
      match moves, hlen with
      | [q], _ =>
          rw [List.mem_singleton.mp hp] at hpid
          rw [List.mem_singleton.mp hp'] at hpid'
          exact hpid.symm.trans hpid'
  · intro hone
    have hnodup := planned_nodup h
    match moves with
    | [] => exact Nat.zero_le 1
    | [m] => exact le_refl 1
    | m :: m' :: rest =>
        have hsame : m.vm.vmId = m'.vm.vmId :=
          hone _ _ ⟨m, isCandidate_of_planned h (by simp), rfl⟩
            ⟨m', isCandidate_of_planned h (by simp), rfl⟩
        simp [hsame] at hnodup

variable {K : Type} [Field K] [LinearOrder K] [IsStrictOrderedRing K] {root : Root K}
  {snap : ClusterSnapshot K} {cfg : DrsConfig K} {moves : List (Move K)}

/-- The plan lowers the variance, in whatever order its moves are carried out. -/
def LowersVariance (root : Root K) (snap : ClusterSnapshot K) (cfg : DrsConfig K)
    (moves : List (Move K)) : Prop :=
  ∀ order : List (Move K), order.Perm moves →
    variance (carryOut root.arith cfg.weights snap order).loads ≤ variance snap.loads ∧
      (moves ≠ [] →
        variance (carryOut root.arith cfg.weights snap order).loads < variance snap.loads)

theorem variance_lt_of_isCandidate {m : Move K} (h : IsCandidate root.arith snap cfg m) :
    variance (snap.after root.arith cfg.weights m.vm m.src.hostname m.dst.hostname).loads <
      variance snap.loads :=
  (gains_iff root h.one_lt_length).mp h.gains

theorem lowersVariance_of_one (h : plannedMoves root.arith snap cfg = some moves)
    (hone : AtMostOneMovable root.arith snap cfg) : LowersVariance root snap cfg moves := by
  intro order horder
  match moves, (length_le_one_iff h).mpr hone with
  | [], _ =>
      rw [List.perm_nil.mp horder]
      exact ⟨le_refl _, fun hne => absurd rfl hne⟩
  | [m], _ =>
      rw [List.perm_singleton.mp horder]
      have hlt := variance_lt_of_isCandidate (isCandidate_of_planned h List.mem_cons_self)
      exact ⟨hlt.le, fun _ => hlt⟩

/-! ## More than one move -/

def Uses (n : NodeMetrics K) (hostname : String) (x : K) : Prop :=
  n.hostname = hostname ∧ n.cpuCores = 1 ∧ n.cpuUsagePct = x ∧ n.loadScore = cpuLoad x

theorem uses_computeLoad (root : Root K) {n : NodeMetrics K} {hostname : String} {x : K}
    (hhost : n.hostname = hostname) (hcores : n.cpuCores = 1) (hx : n.cpuUsagePct = x) :
    Uses (n.computeLoad root.arith cpuOnly.weights) hostname x := by
  refine ⟨hhost, hcores, hx, ?_⟩
  rw [← hx]
  exact load_cpuOnly root n

theorem Uses.without (root : Root K) {n : NodeMetrics K} {hostname : String} {x : K}
    (h : Uses n hostname x) (vm : VmMetrics K) :
    Uses (n.without root.arith cpuOnly.weights vm) hostname (x - vm.cpuUsagePct) := by
  obtain ⟨hhost, hcores, hx, -⟩ := h
  unfold NodeMetrics.without
  refine uses_computeLoad root hhost hcores ?_
  show n.cpuUsagePct - vm.cpuUsagePct / ((n.cpuCores.toNat : Nat) : K) = _
  rw [hx, hcores]
  simp

theorem Uses.withVm (root : Root K) {n : NodeMetrics K} {hostname : String} {x : K}
    (h : Uses n hostname x) (vm : VmMetrics K) :
    Uses (n.withVm root.arith cpuOnly.weights vm) hostname (x + vm.cpuUsagePct) := by
  obtain ⟨hhost, hcores, hx, -⟩ := h
  unfold NodeMetrics.withVm
  refine uses_computeLoad root hhost hcores ?_
  show n.cpuUsagePct + vm.cpuUsagePct / ((n.cpuCores.toNat : Nat) : K) = _
  rw [hx, hcores]
  simp

def TwoNodes (snap : ClusterSnapshot K) (x y : K) : Prop :=
  ∃ a b, snap.nodes = [a, b] ∧ Uses a "loaded" x ∧ Uses b "light" y

theorem TwoNodes.after (root : Root K) {x y : K} (h : TwoNodes snap x y) (vm : VmMetrics K) :
    TwoNodes (snap.after root.arith cpuOnly.weights vm "loaded" "light")
      (x - vm.cpuUsagePct) (y + vm.cpuUsagePct) := by
  obtain ⟨a, b, hnodes, ha, hb⟩ := h
  have hloaded := ha.without root vm
  refine ⟨_, _, ?_, hloaded, hb.withVm root vm⟩
  have hsrc : (a.hostname == "loaded") = true := beq_iff_eq.mpr ha.1
  have hskip : ((a.without root.arith cpuOnly.weights vm).hostname == "light") = false := by
    rw [hloaded.1]
    decide
  have hdst : (b.hostname == "light") = true := beq_iff_eq.mpr hb.1
  simp [ClusterSnapshot.after, shift, hnodes, updateFirst, hsrc, hskip, hdst]

theorem TwoNodes.carryOut (root : Root K) {x y u : K} (h : TwoNodes snap x y)
    (hmoves : ∀ m ∈ moves, m.src.hostname = "loaded" ∧ m.dst.hostname = "light" ∧
      m.vm.cpuUsagePct = u) :
    TwoNodes (carryOut root.arith cpuOnly.weights snap moves)
      (x - moves.length * u) (y + moves.length * u) := by
  induction moves generalizing snap x y with
  | nil => simpa [Drs.carryOut] using h
  | cons m moves ih =>
      obtain ⟨hsrc, hdst, hu⟩ := hmoves m List.mem_cons_self
      have hfirst := h.after root m.vm
      rw [hu] at hfirst
      have hrest := ih hfirst fun m' hm' => hmoves m' (List.mem_cons_of_mem m hm')
      have hx : x - u - moves.length * u = x - (m :: moves).length * u := by
        rw [List.length_cons, Nat.cast_succ]
        ring
      have hy : y + u + moves.length * u = y + (m :: moves).length * u := by
        rw [List.length_cons, Nat.cast_succ]
        ring
      rw [hx, hy] at hrest
      rw [Drs.carryOut, List.foldl_cons, hsrc, hdst]
      exact hrest

theorem TwoNodes.variance {x y : K} (h : TwoNodes snap x y) :
    variance snap.loads = ((cpuLoad x - cpuLoad y) / 2) * ((cpuLoad x - cpuLoad y) / 2) := by
  obtain ⟨a, b, hnodes, ⟨-, -, -, ha⟩, -, -, -, hb⟩ := h
  rw [ClusterSnapshot.loads, hnodes, List.map_cons, List.map_cons, List.map_nil, ha, hb]
  exact variance_pair _ _

/-- Two moves of this size or more turn the imbalance round and make it larger. -/
theorem variance_lt_of_two_moves {k : Nat} (hk : 2 ≤ k) {after : ClusterSnapshot K}
    (hbefore : TwoNodes snap 95 5) (hafter : TwoNodes after (95 - k * 47) (5 + k * 47)) :
    Lib.Spread.variance snap.loads < Lib.Spread.variance after.loads := by
  have hcount : (2 : K) ≤ k := by exact_mod_cast hk
  have hlow : cpuLoad (95 - (k : K) * 47) ≤ 1 / 100 := by
    apply (min_le_left _ _).trans
    rw [div_le_div_iff_of_pos_right (by norm_num)]
    linarith
  have hhigh : 99 / 100 ≤ cpuLoad (5 + (k : K) * 47) := by
    apply le_min _ (by norm_num)
    rw [div_le_div_iff_of_pos_right (by norm_num)]
    linarith
  rw [hbefore.variance, hafter.variance, cpuLoad_of_le (by norm_num), cpuLoad_of_le (by norm_num)]
  nlinarith

/-- VMs on the loaded node that each use half of what the nodes are apart, and a little more. -/
def hotVms (ids : List UInt32) : Skew K := ⟨"light", ids.map fun id => (id, 0), 47⟩

def manyHot (ids : List UInt32) : ClusterSnapshot K :=
  (hotVms ids).cluster (pairOfNodes (ids.map fun id => (id, 0)) [])

section

variable {ids : List UInt32}

theorem twoNodes_manyHot (ids : List UInt32) : TwoNodes (manyHot (K := K) ids) 95 5 := by
  have hloaded : (95 : K) / 100 = cpuLoad 95 := (cpuLoad_of_le (by norm_num)).symm
  have hlight : (5 : K) / 100 = cpuLoad 5 := (cpuLoad_of_le (by norm_num)).symm
  exact ⟨_, _, rfl, ⟨rfl, rfl, rfl, hloaded⟩, rfl, rfl, rfl, hlight⟩

theorem computed_manyHot (root : Root K) (h : ids.Nodup) :
    Computed root.arith (manyHot ids) cpuOnly := by
  have hnames : ["loaded", "light"].Nodup := by decide
  have hcores : (0 : UInt32) < 1 := by decide
  refine ⟨⟨hnames, ?_⟩, ?_⟩
  · rw [manyHot, placement_cluster, List.map_map, List.map_nil, List.append_nil, List.map_map]
    exact (List.map_id' ids).symm ▸ h
  · intro n hn
    obtain ⟨mem, -, rfl⟩ := List.mem_map.mp hn
    exact ⟨hcores, ((hotVms ids).node_load root mem).symm⟩

theorem hotVms_usage (ids : List UInt32) :
    0 < (hotVms (K := K) ids).usage ∧ (hotVms (K := K) ids).usage ≤ 85 := by
  constructor <;> norm_num [hotVms]

theorem movable_manyHot (root : Root K) (id : UInt32) :
    Movable root.arith (manyHot ids) cpuOnly id ↔ id ∈ ids := by
  obtain ⟨hpos, hle⟩ := hotVms_usage (K := K) ids
  constructor
  · intro h
    obtain ⟨m, hm, rfl⟩ := h
    obtain ⟨id, hid, heq⟩ := List.mem_map.mp (Skew.of_isCandidate root hpos hle hm).2.2.1
    have hsame : id = m.vm.vmId := congrArg Prod.fst heq
    exact hsame ▸ hid
  · intro h
    have hhot : (id, 0) ∈ ids.map fun id => (id, (0 : UInt64)) := List.mem_map_of_mem h
    exact Skew.exists_isCandidate root hpos hle List.mem_cons_self
      (List.mem_cons_of_mem _ List.mem_cons_self) hhot hhot loaded_ne_light rfl
      (NodeMemory.fits_zero _)

theorem not_lowersVariance_manyHot (h : plannedMoves root.arith (manyHot ids) cpuOnly = some moves)
    {a b : UInt32} (ha : a ∈ ids) (hb : b ∈ ids) (hab : a ≠ b) :
    ¬ LowersVariance root (manyHot ids) cpuOnly moves := by
  obtain ⟨hpos, hle⟩ := hotVms_usage (K := K) ids
  have htwo : 2 ≤ moves.length := by
    by_contra hfew
    have hone := (length_le_one_iff h).mp (by omega)
    exact hab (hone a b ((movable_manyHot root a).mpr ha) ((movable_manyHot root b).mpr hb))
  have hmoves : ∀ m ∈ moves, m.src.hostname = "loaded" ∧ m.dst.hostname = "light" ∧
      m.vm.cpuUsagePct = 47 := by
    intro m hm
    have hc := isCandidate_of_planned h hm
    obtain ⟨hdst, hsrc, -, huse⟩ := Skew.of_isCandidate root hpos hle hc
    refine ⟨?_, hdst, huse⟩
    obtain ⟨mem, hmem, hnode⟩ := List.mem_map.mp hc.src_mem
    rcases List.mem_pair.mp hmem with rfl | rfl
    · rw [← hnode]
      rfl
    · rw [← hnode] at hsrc
      exact absurd rfl hsrc
  intro hlowers
  have hafter := (twoNodes_manyHot (K := K) ids).carryOut root hmoves
  have hworse := variance_lt_of_two_moves htwo (twoNodes_manyHot ids) hafter
  exact absurd (hlowers moves (List.Perm.refl _)).1 (not_le.mpr hworse)

end

/-- Every candidate lowers the variance on its own. A plan that has at most one move, which
is when all candidates are of one VM, lowers it; and that is the only bound on the VMs with
candidates under which all plans do. -/
theorem plans_lower_variance_iff (root : Root K) :
    (∀ (snap : ClusterSnapshot K) (cfg : DrsConfig K) (m : Move K),
      IsCandidate root.arith snap cfg m →
        variance (snap.after root.arith cfg.weights m.vm m.src.hostname m.dst.hostname).loads <
          variance snap.loads) ∧
    (∀ (snap : ClusterSnapshot K) (cfg : DrsConfig K) (moves : List (Move K)),
      plannedMoves root.arith snap cfg = some moves →
        (moves.length ≤ 1 ↔ AtMostOneMovable root.arith snap cfg) ∧
        (AtMostOneMovable root.arith snap cfg → LowersVariance root snap cfg moves)) ∧
    ∀ ids : List UInt32,
      (∀ (snap : ClusterSnapshot K) (cfg : DrsConfig K) (moves : List (Move K)),
        Computed root.arith snap cfg → (∀ id, Movable root.arith snap cfg id ↔ id ∈ ids) →
          plannedMoves root.arith snap cfg = some moves → LowersVariance root snap cfg moves) ↔
      ∀ a ∈ ids, ∀ b ∈ ids, a = b := by
  refine ⟨fun snap cfg m => variance_lt_of_isCandidate, ?_, ?_⟩
  · intro snap cfg moves h
    exact ⟨length_le_one_iff h, lowersVariance_of_one h⟩
  · intro ids
    constructor
    · intro hall a ha b hb
      by_contra hab
      obtain ⟨moves, hmoves⟩ := exists_plannedMoves root (manyHot ids.dedup) cpuOnly
      have hmovable (id : UInt32) :
          Movable root.arith (manyHot (K := K) ids.dedup) cpuOnly id ↔ id ∈ ids := by
        rw [movable_manyHot, List.mem_dedup]
      exact not_lowersVariance_manyHot hmoves (List.mem_dedup.mpr ha) (List.mem_dedup.mpr hb) hab
        (hall _ _ moves (computed_manyHot root ids.nodup_dedup) hmovable hmoves)
    · intro hone snap cfg moves _ hmovable hmoves
      apply lowersVariance_of_one hmoves
      intro id id' hid hid'
      exact hone id ((hmovable id).mp hid) id' ((hmovable id').mp hid')

theorem one_move_lowers_variance :
    ∃ moves, plannedMoves Root.identity.arith (manyHot (K := ℚ) [7]) cpuOnly = some moves ∧
      LowersVariance Root.identity (manyHot [7]) cpuOnly moves := by
  have hone : AtMostOneMovable Root.identity.arith (manyHot (K := ℚ) [7]) cpuOnly := by
    intro id id' hid hid'
    rw [movable_manyHot, List.mem_singleton] at hid hid'
    exact hid.trans hid'.symm
  obtain ⟨moves, hmoves⟩ := exists_plannedMoves Root.identity (manyHot (K := ℚ) [7]) cpuOnly
  exact ⟨moves, hmoves, ((plans_lower_variance_iff Root.identity).2.1 _ _ _ hmoves).2 hone⟩

/-- Two VMs are moved to the light node, which is then more loaded than the other one was. -/
theorem two_moves_raise_variance :
    let snap : ClusterSnapshot ℚ := manyHot [1, 2]
    let plan := plannedMoves Root.identity.arith snap cpuOnly
    let after := fun moves => carryOut Root.identity.arith cpuOnly.weights snap moves
    Computed Root.identity.arith snap cpuOnly ∧
      plan.map (List.map fun m => (m.vm.vmId, m.dst.hostname)) =
        some [(1, "light"), (2, "light")] ∧
      snap.loads = [95 / 100, 5 / 100] ∧
      plan.map (fun moves => (after moves).loads) = some [1 / 100, 99 / 100] ∧
      plan.map (fun moves => decide (variance (after moves).loads ≤ variance snap.loads)) =
        some false := by
  exact ⟨computed_manyHot _ (by decide), by decide +kernel, by decide +kernel, by decide +kernel,
    by decide +kernel⟩

end Caiman.Drs
