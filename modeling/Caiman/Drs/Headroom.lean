import Caiman.Lib.Stable
import Caiman.Drs.Skewed

/-!
# Memory headroom

Every candidate leaves a tenth of the destination's memory free, as the snapshot has it.
Whether the moves of a plan do so together is not checked. Which moves these are is told here
by rank, from the candidates in the order of the snapshot.
-/

namespace Caiman.Drs

open Lib.Select

variable {F : Type}

/-- The memory that the moves bring to the nodes of a name, and that they take away. -/
def arriving (moves : List (Move F)) (hostname : String) : Nat :=
  ((moves.filter fun m => m.dst.hostname = hostname).map fun m => m.vm.memMib.toNat).sum

def leaving (moves : List (Move F)) (hostname : String) : Nat :=
  ((moves.filter fun m => m.src.hostname = hostname).map fun m => m.vm.memMib.toNat).sum

/-- After the moves every destination still has a tenth of its memory free. -/
def KeepsHeadroom (nodes : List (NodeMetrics F)) (moves : List (Move F)) : Prop :=
  ∀ n ∈ nodes, (∃ m ∈ moves, m.dst.hostname = n.hostname) →
    n.memTotalMib.toNat / 10 + arriving moves n.hostname ≤
      n.memFreeMib.toNat + leaving moves n.hostname

instance (nodes : List (NodeMetrics F)) (moves : List (Move F)) :
    Decidable (KeepsHeadroom nodes moves) :=
  inferInstanceAs (Decidable (∀ n ∈ nodes, _ → _))

/-- Any five VMs of other nodes that each fit on a node fit on it together. -/
def RoomForAll (layout : List NodeMemory) : Prop :=
  ∀ n ∈ layout, ∀ vms : List (UInt32 × UInt64), vms ≠ [] → vms.length ≤ 5 →
    (vms.map Prod.fst).Nodup →
    (∀ v ∈ vms, ∃ src ∈ layout, ∃ dst ∈ layout, v ∈ src.vms ∧ src.hostname ≠ n.hostname ∧
      dst.hostname = n.hostname ∧ dst.Fits v.2) →
    n.totalMib.toNat / 10 + (vms.map fun v => v.2.toNat).sum ≤ n.freeMib.toNat

theorem memory_mem {nodes : List (NodeMetrics F)} {n : NodeMetrics F} (h : n ∈ nodes) :
    n.memory ∈ nodes.map NodeMetrics.memory := List.mem_map_of_mem h

/-- Any five candidates for a node, of different VMs, fit on it together. -/
def CandidatesFit (ar : Arith F) (snap : ClusterSnapshot F) (cfg : DrsConfig F) : Prop :=
  ∀ n ∈ snap.nodes, ∀ ms : List (Move F), ms ≠ [] → ms.length ≤ 5 →
    (ms.map fun m => m.vm.vmId).Nodup →
    (∀ m ∈ ms, IsCandidate ar snap cfg m ∧ m.dst.hostname = n.hostname) →
    n.memTotalMib.toNat / 10 + (ms.map fun m => m.vm.memMib.toNat).sum ≤ n.memFreeMib.toNat

variable {ar : Arith F} {snap : ClusterSnapshot F} {cfg : DrsConfig F} {moves : List (Move F)}

theorem keepsHeadroom_of_candidates (h : plannedMoves ar snap cfg = some moves)
    (hfit : CandidatesFit ar snap cfg) : KeepsHeadroom snap.nodes moves := by
  intro n hn hdest
  let incoming := moves.filter fun m => m.dst.hostname = n.hostname
  have hincoming : ∀ m ∈ incoming, m ∈ moves ∧ m.dst.hostname = n.hostname := by
    intro m hm
    simpa [incoming] using hm
  have hne : incoming ≠ [] := by
    obtain ⟨m, hm, hdst⟩ := hdest
    have hmem : m ∈ incoming := by simp [incoming, hm, hdst]
    exact List.ne_nil_of_mem hmem
  have hlen : incoming.length ≤ 5 := (List.length_filter_le _ _).trans (planned_length h)
  have hnodup : (incoming.map fun m => m.vm.vmId).Nodup :=
    (List.filter_sublist.map _).nodup (planned_nodup h)
  have hfree := hfit n hn incoming hne hlen hnodup fun m hm =>
    ⟨isCandidate_of_planned h (hincoming m hm).1, (hincoming m hm).2⟩
  exact hfree.trans (Nat.le_add_right _ _)

theorem candidatesFit_of_room (hroom : RoomForAll (snap.nodes.map NodeMetrics.memory)) :
    CandidatesFit ar snap cfg := by
  intro n hn ms hne hlen hnodup hms
  have hvms : ∀ v ∈ ms.map fun m => (m.vm.vmId, m.vm.memMib),
      ∃ src ∈ snap.nodes.map NodeMetrics.memory, ∃ dst ∈ snap.nodes.map NodeMetrics.memory,
        v ∈ src.vms ∧ src.hostname ≠ n.memory.hostname ∧ dst.hostname = n.memory.hostname ∧
          dst.Fits v.2 := by
    intro v hv
    obtain ⟨m, hm, rfl⟩ := List.mem_map.mp hv
    obtain ⟨hc, hdst⟩ := hms m hm
    have hmem := hc.fits
    rw [fitsOnNode, Bool.and_eq_true] at hmem
    refine ⟨_, memory_mem hc.src_mem, _, memory_mem hc.dst_mem, List.mem_map_of_mem hc.vm_mem, ?_,
      hdst, memFits_iff.mp hmem.1⟩
    intro hsame
    exact hc.other (hdst.trans hsame.symm)
  have hfree := hroom n.memory (memory_mem hn) (ms.map fun m => (m.vm.vmId, m.vm.memMib))
    (by rwa [ne_eq, List.map_eq_nil_iff]) (by rwa [List.length_map])
    (by rw [List.map_map]; exact hnodup) hvms
  rw [List.map_map] at hfree
  exact hfree

/-! ## The picks of a snapshot -/

section Picks

variable (ar : Arith F) (snap : ClusterSnapshot F) (cfg : DrsConfig F)

/-- The candidates as the snapshot lists their sources, VMs and destinations, by number. -/
def numbered : List (Move F × Nat) := (snap.nodes.flatMap (movesOff ar .new snap cfg)).zipIdx

/-- Off a more loaded node, or off no less loaded a one and listed first. -/
def Earlier (a b : Move F × Nat) : Prop :=
  ar.cmp b.1.src.loadScore a.1.src.loadScore = some .lt ∨
    ar.cmp b.1.src.loadScore a.1.src.loadScore ≠ some .gt ∧ a.2 < b.2

instance : DecidableRel (Earlier ar) := fun _ _ => inferInstanceAs (Decidable (_ ∨ _))

def Outranks (a b : Move F × Nat) : Prop :=
  Ahead (fun a b : Move F × Nat => ar.cmp b.1.score a.1.score) (Earlier ar) a b

instance : DecidableRel (Outranks ar) := fun _ _ => inferInstanceAs (Decidable (Ahead _ _ _ _))

/-- No candidate of the VM outranks this one, and those of less than five VMs do. -/
def Picked (a : Move F × Nat) : Prop :=
  (∀ b ∈ numbered ar snap cfg, Outranks ar b a → b.1.vm.vmId ≠ a.1.vm.vmId) ∧
    (keysAhead (fun b => b.1.vm.vmId) (Outranks ar) (numbered ar snap cfg) a).card < 5

instance : DecidablePred (Picked ar snap cfg) := fun _ => inferInstanceAs (Decidable (_ ∧ _))

def picks : List (Move F) := ((numbered ar snap cfg).filter (Picked ar snap cfg ·)).map Prod.fst

def picksTo (hostname : String) : List (Move F) :=
  (picks ar snap cfg).filter fun m => m.dst.hostname = hostname

def picksOff (hostname : String) : List (Move F) :=
  (picks ar snap cfg).filter fun m => m.src.hostname = hostname

/-- What is picked for a node fits beside the buffer, with what is picked off it gone. -/
def PicksFit : Prop :=
  ∀ n ∈ snap.nodes, picksTo ar snap cfg n.hostname ≠ [] →
    n.memTotalMib.toNat / 10 +
        ((picksTo ar snap cfg n.hostname).map fun m => m.vm.memMib.toNat).sum ≤
      n.memFreeMib.toNat +
        ((picksOff ar snap cfg n.hostname).map fun m => m.vm.memMib.toNat).sum

instance : Decidable (PicksFit ar snap cfg) :=
  decidable_of_iff (∀ n ∈ snap.nodes, (picksTo ar snap cfg n.hostname).isEmpty = false →
    n.memTotalMib.toNat / 10 +
        ((picksTo ar snap cfg n.hostname).map fun m => m.vm.memMib.toNat).sum ≤
      n.memFreeMib.toNat +
        ((picksOff ar snap cfg n.hostname).map fun m => m.vm.memMib.toNat).sum) <| by
    simp only [PicksFit, ne_eq, List.isEmpty_eq_false_iff]

end Picks

section

variable (hcmp : Lawful ar.cmp)

theorem src_of_mem_movesOff {checker : AffinityChecker} {n : NodeMetrics F} {m : Move F}
    (h : m ∈ movesOff ar checker snap cfg n) : m.src = n := by
  unfold movesOff at h
  split at h
  · cases h
  · obtain ⟨vm, -, hm⟩ := List.mem_flatMap.mp h
    obtain ⟨dst, -, hm⟩ := List.mem_filterMap.mp hm
    unfold considerMove at hm
    split at hm
    · cases hm
    split at hm
    · cases hm
    split at hm
    · cases hm
    dsimp only at hm
    split at hm
    · cases hm
    split at hm
    · cases hm
      rfl
    · cases hm

include hcmp in
theorem outranks_asymm (a b : Move F × Nat) (h : Outranks ar a b) : ¬ Outranks ar b a := by
  have hload := hcmp.comap fun x : Move F × Nat => x.1.src.loadScore
  refine Ahead.asymm (hcmp.flip.comap fun x : Move F × Nat => x.1.score) ?_ h
  rintro (hlt | ⟨hnot, hnum⟩) (hlt' | ⟨hnot', hnum'⟩)
  · have hgt := hload.gt_iff.mpr hlt'
    rw [hlt] at hgt
    cases hgt
  · exact hnot' (hload.gt_iff.mpr hlt)
  · exact hnot (hload.gt_iff.mpr hlt')
  · omega

include hcmp in
theorem planned_perm (h : plannedMoves ar snap cfg = some moves) :
    moves.Perm (picks ar snap cfg) := by
  unfold plannedMoves at h
  obtain ⟨nodes, hnodes, h⟩ := Option.bind_eq_some_iff.mp h
  obtain ⟨ranked, hranked, rfl⟩ := Option.map_eq_some_iff.mp h
  have hsrc : ∀ n, ∀ m ∈ movesOff ar .new snap cfg n, m.src = n := fun n m => src_of_mem_movesOff
  obtain ⟨listed, hlisted, hperm, hearlier⟩ :=
    exists_numbered (hcmp.flip.comap NodeMetrics.loadScore) hnodes hsrc
  rw [← hlisted, sortBy_map] at hranked
  obtain ⟨best, hbest, rfl⟩ := Option.map_eq_some_iff.mp hranked
  have hsorted : best.Pairwise (Outranks ar) :=
    sortBy_stable (hcmp.flip.comap fun x : Move F × Nat => x.1.score) hearlier hbest
  have hall : best.Perm (numbered ar snap cfg) := (sortBy_perm hbest).trans hperm
  have hnodup : (numbered ar snap cfg).Nodup :=
    List.Nodup.of_map Prod.snd (by rw [numbered, List.zipIdx_map_snd]; exact List.nodup_range' _)
  rw [choose, firstOfEach_map, ← List.map_take, picks]
  apply List.Perm.map
  rw [List.perm_ext_iff_of_nodup]
  · intro a
    rw [mem_take_firstOfEach_iff (outranks_asymm hcmp) hsorted, List.mem_filter,
      decide_eq_true_eq, keysAhead_perm hall, List.toFinset_nil, Finset.sdiff_empty]
    simp only [Picked, hall.mem_iff, List.not_mem_nil, not_false_eq_true, true_and]
  · exact (List.take_sublist _ _).nodup (List.Nodup.of_map _ (nodup_firstOfEach _ _ _))
  · exact hnodup.filter _

end

/-- Of two VMs only the first has room on `b`. Each has on `c`, but not both. -/
def twoLight : ClusterSnapshot ℚ :=
  let sk : Skew ℚ := ⟨"b", [(1, 600), (2, 900)], 10⟩
  ⟨[sk.node ⟨"a", 4000, 3000, 1000, [(1, 600), (2, 900)]⟩, sk.node ⟨"b", 1000, 200, 800, []⟩,
    { sk.node ⟨"c", 2000, 800, 1200, []⟩ with cpuUsagePct := 10, loadScore := 1 / 10 }]⟩

variable {K : Type} [Field K] [LinearOrder K] [IsStrictOrderedRing K]

theorem exists_plan_without_room (root : Root K) {layout : List NodeMemory}
    (h : ¬ RoomForAll layout) : ∃ snap : ClusterSnapshot K,
      snap.nodes.map NodeMetrics.memory = layout ∧
      ∃ moves, plannedMoves root.arith snap cpuOnly = some moves ∧
        ¬ KeepsHeadroom snap.nodes moves := by
  unfold RoomForAll at h
  push Not at h
  obtain ⟨n, hn, vms, hne, hlen, hids, hall, hover⟩ := h
  let sk : Skew K := ⟨n.hostname, vms, 1⟩
  obtain ⟨moves, hmoves, hperm, hhosts⟩ := sk.exists_plan root (by norm_num [sk])
    (by norm_num [sk]) hlen hids hall
  refine ⟨sk.cluster layout, sk.memory_cluster layout, moves, hmoves, ?_⟩
  have hin : arriving moves n.hostname = (vms.map fun v => v.2.toNat).sum := by
    have hfilter : (moves.filter fun m => m.dst.hostname = n.hostname) = moves := by
      rw [List.filter_eq_self]
      intro m hm
      exact decide_eq_true (hhosts m hm).1
    rw [arriving, hfilter, ← (hperm.map fun v => v.2.toNat).sum_eq, List.map_map]
    rfl
  have hout : leaving moves n.hostname = 0 := by
    have hfilter : (moves.filter fun m => m.src.hostname = n.hostname) = [] := by
      rw [List.filter_eq_nil_iff]
      intro m hm
      simpa using (hhosts m hm).2
    rw [leaving, hfilter]
    rfl
  intro hkeeps
  have hmove : ∃ m ∈ moves, m.dst.hostname = (sk.node n).hostname := by
    obtain ⟨v, hv⟩ := List.exists_mem_of_ne_nil vms hne
    obtain ⟨m, hm, -⟩ := List.mem_map.mp (hperm.mem_iff.mpr hv)
    exact ⟨m, hm, (hhosts m hm).1⟩
  have hfree := hkeeps (sk.node n) (List.mem_map_of_mem hn) hmove
  have hgoal : n.totalMib.toNat / 10 + arriving moves n.hostname ≤
      n.freeMib.toNat + leaving moves n.hostname := hfree
  rw [hin, hout, Nat.add_zero] at hgoal
  exact absurd hgoal (not_le.mpr hover)

/-- All plans for nodes and VMs with this memory keep the headroom, whatever the use of the
processors and the configuration, exactly when there is room for all. -/
theorem layout_keeps_headroom_iff (root : Root K) (layout : List NodeMemory) :
    (∀ (snap : ClusterSnapshot K) (cfg : DrsConfig K) (moves : List (Move K)),
      snap.nodes.map NodeMetrics.memory = layout →
        plannedMoves root.arith snap cfg = some moves → KeepsHeadroom snap.nodes moves) ↔
      RoomForAll layout := by
  constructor
  · intro hkeeps
    by_contra hroom
    obtain ⟨snap, hmem, moves, hmoves, hbad⟩ := exists_plan_without_room root hroom
    exact hbad (hkeeps snap cpuOnly moves hmem hmoves)
  · intro hroom snap cfg moves hmem hmoves
    exact keepsHeadroom_of_candidates hmoves (candidatesFit_of_room (hmem.symm ▸ hroom))

/-- A node with two VMs of 600 MiB, and one with 800 MiB of 1000 free. -/
def crowded : List NodeMemory :=
  [⟨"a", 4000, 3000, 1000, [(1, 600), (2, 600)]⟩, ⟨"b", 1000, 200, 800, []⟩]

end Caiman.Drs
