import Caiman.Drs.Skewed

/-!
# Hard rules

The plan is made with a checker that has no rules. Whether the hard rules of a cluster
still hold after a plan is left to chance; a checker that has them allows no migration
that breaks one.
-/

namespace Caiman.Drs

abbrev Placement := List (UInt32 × String)

variable {F : Type}

def MigrationPlan.execute (plan : MigrationPlan F) (p : Placement) : Placement :=
  p.map fun x =>
    (x.1, ((plan.migrations.find? fun c => c.vmId == x.1).map MigrationCandidate.toNode).getD x.2)

/-- All VMs of an affinity rule on one node, no two of an anti-affinity rule. -/
def Satisfies (rules : List AffinityRule) (p : Placement) : Prop :=
  ∀ r ∈ rules, r.scope = .hard → ∀ x ∈ p, ∀ y ∈ p, x.1 ∈ r.vmIds → y.1 ∈ r.vmIds →
    (r.ruleType = .affinity → x.2 = y.2) ∧ (r.ruleType = .antiAffinity → x.1 ≠ y.1 → x.2 ≠ y.2)

instance (rules : List AffinityRule) (p : Placement) : Decidable (Satisfies rules p) :=
  inferInstanceAs (Decidable (∀ r ∈ rules, _ → ∀ x ∈ p, ∀ y ∈ p, _ → _ → _))

/-- A hard rule of the type is about both VMs. -/
def Names (rules : List AffinityRule) (type : AffinityType) (a b : UInt32) : Prop :=
  ∃ r ∈ rules, r.scope = .hard ∧ r.ruleType = type ∧ a ∈ r.vmIds ∧ b ∈ r.vmIds

/-- Two VMs that have to be together also have to be apart, and the other way round. -/
def Contradictory (rules : List AffinityRule) : Prop :=
  ∀ a b, a ≠ b → (Names rules .affinity a b ↔ Names rules .antiAffinity a b)

theorem satisfies_iff {rules : List AffinityRule} {p : Placement} :
    Satisfies rules p ↔ ∀ x ∈ p, ∀ y ∈ p, (Names rules .affinity x.1 y.1 → x.2 = y.2) ∧
      (Names rules .antiAffinity x.1 y.1 → x.1 ≠ y.1 → x.2 ≠ y.2) := by
  constructor
  · intro h x hx y hy
    constructor
    · intro hnames
      obtain ⟨r, hr, hhard, htype, hxr, hyr⟩ := hnames
      exact (h r hr hhard x hx y hy hxr hyr).1 htype
    · intro hnames
      obtain ⟨r, hr, hhard, htype, hxr, hyr⟩ := hnames
      exact (h r hr hhard x hx y hy hxr hyr).2 htype
  · intro h r hr hhard x hx y hy hxr hyr
    exact ⟨fun htype => (h x hx y hy).1 ⟨r, hr, hhard, htype, hxr, hyr⟩,
      fun htype => (h x hx y hy).2 ⟨r, hr, hhard, htype, hxr, hyr⟩⟩

theorem Names.symm {rules : List AffinityRule} {type : AffinityType} {a b : UInt32}
    (h : Names rules type a b) : Names rules type b a := by
  obtain ⟨r, hr, hhard, htype, ha, hb⟩ := h
  exact ⟨r, hr, hhard, htype, hb, ha⟩

theorem satisfies_pair {rules : List AffinityRule} {a b : UInt32} (hab : a ≠ b) {x y : String} :
    Satisfies rules [(a, x), (b, y)] ↔
      (Names rules .affinity a b → x = y) ∧ (Names rules .antiAffinity a b → x ≠ y) := by
  rw [satisfies_iff]
  simp only [List.forall_mem_cons, List.not_mem_nil, false_implies, implies_true, and_true]
  constructor
  · intro h
    exact ⟨h.1.2.1, fun hnames => h.1.2.2 hnames hab⟩
  · intro h
    obtain ⟨htogether, hapart⟩ := h
    refine ⟨⟨⟨trivial, fun _ hne => absurd rfl hne⟩, htogether, fun hnames _ => hapart hnames⟩,
      ⟨fun hnames => (htogether hnames.symm).symm, fun hnames _ => (hapart hnames.symm).symm⟩,
      trivial, fun _ hne => absurd rfl hne⟩

/-- Rules about a VM that may be moved, and another one, cannot be met. -/
def Untouched (rules : List AffinityRule) (p : Placement) (movable : UInt32 → Prop) : Prop :=
  ∀ x ∈ p, ∀ y ∈ p, x.1 ≠ y.1 → movable x.1 ∨ movable y.1 →
    (Names rules .affinity x.1 y.1 ↔ Names rules .antiAffinity x.1 y.1)

theorem execute_of_not_mem {plan : MigrationPlan F} {x : UInt32 × String}
    (h : ∀ c ∈ plan.migrations, c.vmId ≠ x.1) : (x.1, ((plan.migrations.find? fun c =>
      c.vmId == x.1).map MigrationCandidate.toNode).getD x.2) = x := by
  have hnone : plan.migrations.find? (fun c => c.vmId == x.1) = none := by
    rw [List.find?_eq_none]
    intro c hc
    rw [beq_iff_eq]
    exact h c hc
  rw [hnone]
  rfl

/-- When the rules of the VMs that a plan moves cannot be met, none is broken. -/
theorem satisfies_execute {rules : List AffinityRule} {snap : ClusterSnapshot F}
    {plan : MigrationPlan F} {movable : UInt32 → Prop}
    (hmovable : ∀ c ∈ plan.migrations, movable c.vmId)
    (hrules : Untouched rules snap.placement movable) (hunique : snap.Unique)
    (h : Satisfies rules snap.placement) : Satisfies rules (plan.execute snap.placement) := by
  rw [satisfies_iff] at h ⊢
  intro x' hx' y' hy'
  obtain ⟨x, hx, rfl⟩ := List.mem_map.mp hx'
  obtain ⟨y, hy, rfl⟩ := List.mem_map.mp hy'
  obtain ⟨htogether, hapart⟩ := h x hx y hy
  by_cases hid : x.1 = y.1
  · have hsame : x = y := List.inj_on_of_nodup_map hunique.2 hx hy hid
    subst hsame
    exact ⟨fun _ => rfl, fun _ hne => absurd rfl hne⟩
  · by_cases hmoved : movable x.1 ∨ movable y.1
    · have hboth := hrules x hx y hy hid hmoved
      constructor
      · intro hnames
        exact absurd (htogether hnames) (hapart (hboth.mp hnames) hid)
      · intro hnames
        exact absurd (htogether (hboth.mpr hnames)) (hapart hnames hid)
    · -- neither is in the plan
      rw [not_or] at hmoved
      rw [execute_of_not_mem fun c hc hcx => hmoved.1 (hcx ▸ hmovable c hc),
        execute_of_not_mem fun c hc hcy => hmoved.2 (hcy ▸ hmovable c hc)]
      exact ⟨htogether, hapart⟩

/-! ## A checker that has the rules -/

def Placement.move (p : Placement) (id : UInt32) (node : String) : Placement :=
  p.map fun x => (x.1, if x.1 = id then node else x.2)

/-- One migration that the checker allows breaks no hard rule. -/
theorem satisfies_of_allowed {rules : List AffinityRule} {snap : ClusterSnapshot F}
    {vm : VmMetrics F} {src target : String} (hunique : snap.Unique)
    (hvm : (vm.vmId, src) ∈ snap.placement) (hother : target ≠ src)
    (hallowed : (AffinityChecker.loadFromK8s rules).migrationAllowed vm target snap = true)
    (h : Satisfies rules snap.placement) :
    Satisfies rules (Placement.move snap.placement vm.vmId target) := by
  intro r hr hhard x' hx' y' hy' hxr hyr
  obtain ⟨x, hx, rfl⟩ := List.mem_map.mp hx'
  obtain ⟨y, hy, rfl⟩ := List.mem_map.mp hy'
  dsimp only at hxr hyr ⊢
  have hrule : vm.vmId ∈ r.vmIds → _ := fun hvmr =>
    (AffinityChecker.ruleAllows_iff hunique hvmr hhard).mp (List.all_eq_true.mp hallowed r hr)
  -- a VM of an affinity rule has nowhere to go
  have hstays : r.ruleType = .affinity → vm.vmId ∉ r.vmIds := by
    intro htype hvmr
    obtain ⟨id, hid, -, hon⟩ := (hrule hvmr).1 htype
    exact hother ((h r hr hhard _ hon _ hvm hid hvmr).1 htype)
  constructor
  · intro htype
    have hxvm : x.1 ≠ vm.vmId := fun heq => hstays htype (heq ▸ hxr)
    have hyvm : y.1 ≠ vm.vmId := fun heq => hstays htype (heq ▸ hyr)
    rw [if_neg hxvm, if_neg hyvm]
    exact (h r hr hhard x hx y hy hxr hyr).1 htype
  · intro htype hne
    by_cases hxvm : x.1 = vm.vmId
    · have hyvm : y.1 ≠ vm.vmId := fun heq => hne (hxvm.trans heq.symm)
      rw [if_pos hxvm, if_neg hyvm]
      intro heq
      exact (hrule (hxvm ▸ hxr)).2 htype y.1 hyr hyvm (heq ▸ hy)
    · rw [if_neg hxvm]
      by_cases hyvm : y.1 = vm.vmId
      · rw [if_pos hyvm]
        intro heq
        exact (hrule (hyvm ▸ hyr)).2 htype x.1 hxr hxvm (heq ▸ hx)
      · rw [if_neg hyvm]
        exact (h r hr hhard x hx y hy hxr hyr).2 htype hne

/-! ## One VM is moved -/

variable {K : Type} [Field K]

def oneHot (a : UInt32) : Skew K := ⟨"light", [(a, 0)], 1⟩

variable [LinearOrder K] [IsStrictOrderedRing K]

theorem exists_plan_of_one (root : Root K) (a : UInt32) (loaded light : List (UInt32 × UInt64))
    (ha : (a, 0) ∈ loaded) : ∃ plan,
      computePlan root.arith ((oneHot a).cluster (pairOfNodes loaded light)) cpuOnly = some plan ∧
      ∀ id host, ((plan.migrations.find? fun c => c.vmId == id).map
        MigrationCandidate.toNode).getD host = if id = a then "light" else host := by
  have hall : (oneHot (K := K) a).Available (pairOfNodes loaded light) := by
    intro v hv
    rw [List.mem_singleton.mp hv]
    exact ⟨_, List.mem_cons_self, _, List.mem_cons_of_mem _ List.mem_cons_self, ha,
      loaded_ne_light, rfl, NodeMemory.fits_zero _⟩
  obtain ⟨moves, hmoves, hperm, hhosts⟩ := (oneHot (K := K) a).exists_plan root
    (by norm_num [oneHot]) (by norm_num [oneHot]) (by simp [oneHot]) (by simp [oneHot]) hall
  obtain ⟨m, rfl, hm⟩ := List.map_eq_singleton_iff.mp (List.perm_singleton.mp hperm)
  have hid : m.vm.vmId = a := congrArg Prod.fst hm
  have hto : m.dst.hostname = "light" := (hhosts m List.mem_cons_self).1
  refine ⟨⟨[m.candidate]⟩, by rw [computePlan, hmoves]; rfl, ?_⟩
  intro id host
  by_cases heq : id = a
  · have hfind : [m.candidate].find? (fun c => c.vmId == id) = some m.candidate :=
      List.find?_cons_of_pos (beq_iff_eq.mpr (hid.trans heq.symm))
    rw [hfind, if_pos heq]
    exact hto
  · have hfind : [m.candidate].find? (fun c => c.vmId == id) = none := by
      rw [List.find?_eq_none]
      intro c hc
      rw [List.mem_singleton.mp hc, beq_iff_eq]
      exact fun h => heq (h.symm.trans hid)
    rw [hfind, if_neg heq]
    rfl

/-- The hard rules hold after every plan for VMs that meet them. -/
def RulesSurvive (root : Root K) (rules : List AffinityRule) : Prop :=
  ∀ (snap : ClusterSnapshot K) (cfg : DrsConfig K) (plan : MigrationPlan K), snap.Unique →
    Satisfies rules snap.placement → computePlan root.arith snap cfg = some plan →
      Satisfies rules (plan.execute snap.placement)

theorem RulesSurvive.move {root : Root K} {rules : List AffinityRule}
    (h : RulesSurvive root rules) (a : UInt32) (loaded light : List (UInt32 × UInt64))
    (ha : (a, 0) ∈ loaded) (hids : ((loaded ++ light).map Prod.fst).Nodup)
    (hrules : Satisfies rules
      (loaded.map (fun v => (v.1, "loaded")) ++ light.map fun v => (v.1, "light"))) :
    Satisfies rules (loaded.map (fun v => (v.1, if v.1 = a then "light" else "loaded")) ++
      light.map fun v => (v.1, "light")) := by
  have hnames : ["loaded", "light"].Nodup := by decide
  obtain ⟨plan, hplan, hto⟩ := exists_plan_of_one root a loaded light ha
  have hplacement := placement_cluster (oneHot (K := K) a) loaded light
  have hunique : ((oneHot (K := K) a).cluster (pairOfNodes loaded light)).Unique := by
    refine ⟨hnames, ?_⟩
    rw [hplacement]
    simpa [Function.comp_def] using hids
  have hafter := h _ _ plan hunique (by rw [hplacement]; exact hrules) hplan
  rw [hplacement] at hafter
  simpa [MigrationPlan.execute, hto, Function.comp_def] using hafter

theorem RulesSurvive.pair {root : Root K} {rules : List AffinityRule}
    (h : RulesSurvive root rules) {a b : UInt32} (hab : a ≠ b) {host : String}
    (hhost : host = "loaded" ∨ host = "light")
    (hrules : Satisfies rules [(a, "loaded"), (b, host)]) :
    Satisfies rules [(a, "light"), (b, host)] := by
  have hids : [a, b].Nodup := by simpa using hab
  rcases hhost with rfl | rfl
  · have hafter := h.move a [(a, 0), (b, 0)] [] List.mem_cons_self hids hrules
    simpa [Ne.symm hab] using hafter
  · have hafter := h.move a [(a, 0)] [(b, 0)] List.mem_cons_self hids hrules
    simpa using hafter

/-- Hard rules survive every plan exactly when they cannot be met: every two VMs that a hard
rule puts together are kept apart by another, and the other way round. In any arithmetic
they survive the plan of a snapshot when this is so of the VMs that have a candidate. -/
theorem rules_survive_iff (root : Root K) (rules : List AffinityRule) :
    (RulesSurvive root rules ↔ Contradictory rules) ∧
    ∀ (F : Type) (ar : Arith F) (snap : ClusterSnapshot F) (cfg : DrsConfig F),
      (Contradictory rules → Untouched rules snap.placement (Movable ar snap cfg)) ∧
      (Untouched rules snap.placement (Movable ar snap cfg) → ∀ plan, snap.Unique →
        Satisfies rules snap.placement → computePlan ar snap cfg = some plan →
          Satisfies rules (plan.execute snap.placement)) := by
  have huntouched (hrules : Contradictory rules) (p : Placement) (movable : UInt32 → Prop) :
      Untouched rules p movable := fun x _ y _ hne _ => hrules x.1 y.1 hne
  refine ⟨⟨?_, ?_⟩, ?_⟩
  · intro h a b hab
    constructor
    · intro htogether
      by_contra hapart
      have hbefore : Satisfies rules [(a, "loaded"), (b, "loaded")] :=
        (satisfies_pair hab).mpr ⟨fun _ => rfl, fun hnames => absurd hnames hapart⟩
      have hafter := (satisfies_pair hab).mp (h.pair hab (Or.inl rfl) hbefore)
      exact loaded_ne_light (hafter.1 htogether).symm
    · intro hapart
      by_contra htogether
      have hbefore : Satisfies rules [(a, "loaded"), (b, "light")] :=
        (satisfies_pair hab).mpr ⟨fun hnames => absurd hnames htogether, fun _ => loaded_ne_light⟩
      have hafter := (satisfies_pair hab).mp (h.pair hab (Or.inr rfl) hbefore)
      exact hafter.2 hapart rfl
  · intro hrules snap cfg plan hunique h hplan
    exact satisfies_execute (movable_of_plan hplan) (huntouched hrules _ _) hunique h
  · intro F ar snap cfg
    refine ⟨fun hrules => huntouched hrules _ _, ?_⟩
    intro hrules plan hunique h hplan
    exact satisfies_execute (movable_of_plan hplan) hrules hunique h

def together : List AffinityRule := [⟨"web", .affinity, .hard, [1, 2]⟩]

theorem together_does_not_survive : ¬ RulesSurvive (Root.identity (K := ℚ)) together := by
  intro h
  have hcontra := (rules_survive_iff Root.identity together).1.mp h 1 2 (by decide)
  obtain ⟨r, hr, -, htype, -⟩ := hcontra.mp ⟨_, List.mem_cons_self, rfl, rfl, by decide, by decide⟩
  rw [List.mem_singleton.mp hr] at htype
  cases htype

/-- The plan takes one of the two VMs away from the other. -/
theorem plan_breaks_rule :
    let snap : ClusterSnapshot ℚ := (oneHot 1).cluster (pairOfNodes [(1, 0), (2, 0)] [])
    Satisfies together snap.placement ∧ snap.Unique ∧
      (computePlan Root.identity.arith snap cpuOnly).map (fun plan =>
        (plan.execute snap.placement, decide (Satisfies together (plan.execute snap.placement)))) =
        some ([(1, "light"), (2, "loaded")], false) := by
  intro snap
  exact ⟨by decide, ⟨by decide, by decide⟩, by decide +kernel⟩

end Caiman.Drs
