import Caiman.Lib.History
import Caiman.Lib.Permits
import Caiman.Api.Migrate
import Caiman.Drs.Exact
import Caiman.Drs.Balancer

/-!
# The daemon

The monitor puts up a new snapshot at any time. The balancer wakes, plans on the snapshot it
finds, starts a task for each migration of the plan and waits for all of them; a semaphore says
how many run at once. Requests for recommendations are answered meanwhile, each with a plan of its
own that goes nowhere else.
-/

namespace Caiman.Drs

open Lib

inductive DrsMode
  | manual
  | semiAutomated
  | fullyAutomated
  deriving DecidableEq, Repr

structure DaemonConfig (F : Type) extends DrsConfig F where
  mode : DrsMode
  imbalanceThreshold : F
  maxConcurrentMigrations : UInt8
  livemigBinary : String

namespace Daemon

variable {F : Type} (ar : Arith F)

/-! ## The monitor -/

/-- The nodes that the Kubernetes API reports: a stub. -/
def collectK8sNodes : List (NodeMetrics F) := []

/-- The local node replaces what is reported of it. -/
def collectSnapshot (cfg : DaemonConfig F) (localNode : NodeMetrics F)
    (k8sNodes : List (NodeMetrics F)) : ClusterSnapshot F where
  nodes := (k8sNodes.filter (fun n => n.hostname ≠ localNode.hostname) ++ [localNode]).map
    (NodeMetrics.computeLoad ar cfg.weights)

/-! ## The balancer -/

def isImbalanced (snap : ClusterSnapshot F) (threshold : F) : Prop :=
  ar.Lt threshold (snap.balanceScore ar)

instance (snap : ClusterSnapshot F) (threshold : F) : Decidable (isImbalanced ar snap threshold) :=
  inferInstanceAs (Decidable (ar.Lt _ _))

/-- What `execute_migration` runs. -/
def migrationCommand (binary : String) (m : MigrationCandidate F) : List String :=
  [binary, "--vm-id", toString m.vmId.toNat, "--destination", m.toNode]

inductive Balancer (F : Type)
  /-- in `sleep` -/
  | asleep
  /-- in `execute_plan`, at the handles -/
  | executing (pool : Pool (MigrationCandidate F))
  /-- in `partial_cmp(..).unwrap()` -/
  | panicked

structure State (F : Type) where
  cluster : ClusterSnapshot F
  balancer : Balancer F

def State.new : State F := ⟨⟨[]⟩, .asleep⟩

inductive Action (F : Type)
  /-- A cycle of the monitor, with the local node if it could be read. -/
  | monitor (localNode : Option (NodeMetrics F)) (k8sNodes : List (NodeMetrics F))
  | wake
  | acquire (i : Nat)
  /-- The command of a task is over, however it ends. -/
  | exit (i : Nat)
  | join
  | recommendations

inductive Event (F : Type)
  | planned (snap : ClusterSnapshot F) (plan : MigrationPlan F)
  | started (m : MigrationCandidate F) (argv : List String)
  | ended (m : MigrationCandidate F)
  | recommended (snap : ClusterSnapshot F) (plan : MigrationPlan F)

/-- One turn of the loop up to `execute_plan`. -/
def wake (cfg : DaemonConfig F) (s : State F) : State F × List (Event F) :=
  if s.cluster.nodes = [] then (s, [])
  else if isImbalanced ar s.cluster cfg.imbalanceThreshold then
    match computePlan ar s.cluster cfg.toDrsConfig with
    | none => ({ s with balancer := .panicked }, [])
    | some plan =>
        if plan.migrations = [] then (s, [])
        else if cfg.mode = .fullyAutomated then
          ({ s with
              balancer := .executing
                (.spawn cfg.maxConcurrentMigrations.toNat plan.migrations) },
            [.planned s.cluster plan])
        else (s, [.planned s.cluster plan])
  else (s, [])

/-- The threshold and the mode are not asked about. A panic ends the request. -/
def recommendationsHandler (cfg : DaemonConfig F) (s : State F) : State F × List (Event F) :=
  match computePlan ar s.cluster cfg.toDrsConfig with
  | none => (s, [])
  | some plan => (s, [.recommended s.cluster plan])

def step (cfg : DaemonConfig F) (s : State F) : Action F → State F × List (Event F)
  | .monitor (some localNode) k8sNodes =>
      ({ s with cluster := collectSnapshot ar cfg localNode k8sNodes }, [])
  | .monitor none _ => (s, [])
  | .wake =>
      match s.balancer with
      | .asleep => wake ar cfg s
      | _ => (s, [])
  | .acquire i =>
      match s.balancer with
      | .executing pool =>
          match pool.acquire i with
          | some (m, pool) =>
              ({ s with balancer := .executing pool },
                [.started m (migrationCommand cfg.livemigBinary m)])
          | none => (s, [])
      | _ => (s, [])
  | .exit i =>
      match s.balancer with
      | .executing pool =>
          match pool.release i with
          | some (m, pool) => ({ s with balancer := .executing pool }, [.ended m])
          | none => (s, [])
      | _ => (s, [])
  | .join =>
      match s.balancer with
      | .executing pool => if pool.Done then ({ s with balancer := .asleep }, []) else (s, [])
      | _ => (s, [])
  | .recommendations => recommendationsHandler ar cfg s

def daemon (cfg : DaemonConfig F) : Machine (State F) (Action F) (Event F) where
  step := step ar cfg

/-! ## How many at once -/

def State.running (s : State F) : List (MigrationCandidate F) :=
  match s.balancer with
  | .executing pool => pool.running
  | _ => []

/-- The permits are those of the configuration, and no VM is migrated twice. -/
structure Bounded (cfg : DaemonConfig F) (pool : Pool (MigrationCandidate F)) : Prop where
  mode : cfg.mode = .fullyAutomated
  total : pool.total = cfg.maxConcurrentMigrations.toNat
  vms : (pool.items.map fun m => m.vmId).Nodup
  few : pool.items.length ≤ 5

def AllBounded (cfg : DaemonConfig F) (s : State F) : Prop :=
  ∀ pool, s.balancer = .executing pool → Bounded cfg pool

section Step

variable {ar} {cfg : DaemonConfig F} {s : State F}

theorem Bounded.acquire {pool pool' : Pool (MigrationCandidate F)} {m : MigrationCandidate F}
    {i : Nat} (h : Bounded cfg pool) (hstep : pool.acquire i = some (m, pool')) :
    Bounded cfg pool' where
  mode := h.mode
  total := (Pool.acquire_total hstep).trans h.total
  vms := by
    rw [Pool.acquire_items hstep]
    exact h.vms
  few := by
    rw [Pool.acquire_items hstep]
    exact h.few

theorem Bounded.release {pool pool' : Pool (MigrationCandidate F)} {m : MigrationCandidate F}
    {i : Nat} (h : Bounded cfg pool) (hstep : pool.release i = some (m, pool')) :
    Bounded cfg pool' where
  mode := h.mode
  total := (Pool.release_total hstep).trans h.total
  vms := by
    rw [Pool.release_items hstep]
    exact h.vms
  few := by
    rw [Pool.release_items hstep]
    exact h.few

theorem Bounded.spawn {snap : ClusterSnapshot F} {plan : MigrationPlan F}
    (hmode : cfg.mode = .fullyAutomated)
    (hplan : computePlan ar snap cfg.toDrsConfig = some plan) :
    Bounded cfg (.spawn cfg.maxConcurrentMigrations.toNat plan.migrations) := by
  obtain ⟨moves, hmoves, rfl⟩ := Option.map_eq_some_iff.mp hplan
  constructor
  · exact hmode
  · exact Pool.spawn_total _ _
  · rw [Pool.spawn_items, List.map_map]
    exact planned_nodup hmoves
  · rw [Pool.spawn_items, List.length_map]
    exact planned_length hmoves

theorem wake_cases (ar : Arith F) (cfg : DaemonConfig F) (s : State F) :
    (∃ balancer, (balancer = s.balancer ∨ balancer = .panicked) ∧
      wake ar cfg s = ({ s with balancer := balancer }, [])) ∨
      ∃ plan, isImbalanced ar s.cluster cfg.imbalanceThreshold ∧
        computePlan ar s.cluster cfg.toDrsConfig = some plan ∧ plan.migrations ≠ [] ∧
        ((cfg.mode ≠ .fullyAutomated ∧ wake ar cfg s = (s, [.planned s.cluster plan])) ∨
          (cfg.mode = .fullyAutomated ∧ wake ar cfg s =
            ({ s with
                balancer := .executing
                  (.spawn cfg.maxConcurrentMigrations.toNat plan.migrations) },
              [.planned s.cluster plan]))) := by
  unfold wake
  split
  · exact Or.inl ⟨_, Or.inl rfl, rfl⟩
  split
  · rename_i himbalanced
    split
    · exact Or.inl ⟨_, Or.inr rfl, rfl⟩
    · rename_i plan hplan
      split
      · exact Or.inl ⟨_, Or.inl rfl, rfl⟩
      · rename_i hsome
        refine Or.inr ⟨plan, himbalanced, hplan, hsome, ?_⟩
        split
        · rename_i hmode
          exact Or.inr ⟨hmode, rfl⟩
        · rename_i hmode
          exact Or.inl ⟨hmode, rfl⟩
  · exact Or.inl ⟨_, Or.inl rfl, rfl⟩

theorem recommendationsHandler_cases (ar : Arith F) (cfg : DaemonConfig F) (s : State F) :
    recommendationsHandler ar cfg s = (s, []) ∨
      ∃ plan, computePlan ar s.cluster cfg.toDrsConfig = some plan ∧
        recommendationsHandler ar cfg s = (s, [.recommended s.cluster plan]) := by
  unfold recommendationsHandler
  split
  · exact Or.inl rfl
  · rename_i plan hplan
    exact Or.inr ⟨plan, hplan, rfl⟩

theorem step_allBounded (s : State F) (a : Action F) (h : AllBounded cfg s) :
    AllBounded cfg ((daemon ar cfg).step s a).1 := by
  cases a with
  | monitor localNode k8sNodes =>
      cases localNode with
      | none => exact h
      | some localNode => exact h
  | wake =>
      simp only [daemon, step]
      split
      · rename_i hasleep
        rcases wake_cases ar cfg s with
          ⟨balancer, hbalancer, hwake⟩ | ⟨plan, -, hplan, -, ⟨hmode, hwake⟩ | ⟨hmode, hwake⟩⟩
        · rw [hwake]
          intro pool hpool
          rcases hbalancer with rfl | rfl
          · exact h pool hpool
          · cases hpool
        · rw [hwake]
          exact h
        · rw [hwake]
          intro pool hpool
          cases hpool
          exact Bounded.spawn hmode hplan
      · exact h
  | acquire i =>
      simp only [daemon, step]
      split
      · rename_i pool hpool
        split
        · rename_i m pool' hstep
          intro next hnext
          cases hnext
          exact (h pool hpool).acquire hstep
        · exact h
      · exact h
  | exit i =>
      simp only [daemon, step]
      split
      · rename_i pool hpool
        split
        · rename_i m pool' hstep
          intro next hnext
          cases hnext
          exact (h pool hpool).release hstep
        · exact h
      · exact h
  | join =>
      simp only [daemon, step]
      split
      · split
        · intro next hnext
          cases hnext
        · exact h
      · exact h
  | recommendations =>
      rcases recommendationsHandler_cases ar cfg s with hstep | ⟨plan, -, hstep⟩
      all_goals
        simp only [daemon, step, hstep]
        exact h

end Step

/-- Whatever the order of the cycles and the tasks, there run at most as many migrations in the
whole cluster as the configuration says, never more than five, and no two of one VM. -/
theorem migrations_bounded (cfg : DaemonConfig F) (as : List (Action F)) :
    ((daemon ar cfg).run .new as).1.running.length ≤
        min cfg.maxConcurrentMigrations.toNat 5 ∧
      (((daemon ar cfg).run .new as).1.running.map fun m => m.vmId).Nodup := by
  have hnew : AllBounded cfg (.new : State F) := by
    intro pool hpool
    cases hpool
  have hall := (daemon ar cfg).run_inductive (I := AllBounded cfg) step_allBounded hnew as
  generalize ((daemon ar cfg).run .new as).1 = s at hall
  cases hbalancer : s.balancer with
  | asleep => simp [State.running, hbalancer]
  | panicked => simp [State.running, hbalancer]
  | executing pool =>
      have h := hall pool hbalancer
      have htotal := h.total
      have hfew := h.few
      have hsub := pool.running_sublist
      have hlen := hsub.length_le
      simp only [State.running, hbalancer]
      constructor
      · unfold Pool.total at htotal
        omega
      · exact (hsub.map _).nodup h.vms

/-! ## What a migration is preceded by -/

def Event.isStarted : Event F → Bool
  | .started .. => true
  | _ => false

def Event.isEnded : Event F → Bool
  | .ended .. => true
  | _ => false

def Event.isPlanned : Event F → Bool
  | .planned .. => true
  | _ => false

/-- The snapshot was out of balance, and this is what came of it. -/
def PlannedOn (cfg : DaemonConfig F) (snap : ClusterSnapshot F) (plan : MigrationPlan F) : Prop :=
  isImbalanced ar snap cfg.imbalanceThreshold ∧ computePlan ar snap cfg.toDrsConfig = some plan

/-- None of these events is a plan, or starts a migration of the VM. -/
def NotSince (post : List (Event F)) (vmId : UInt32) : Prop :=
  ∀ e ∈ post, e.isPlanned = false ∧ ∀ m argv, e = .started m argv → m.vmId ≠ vmId

/-- The balancer makes a plan when every migration that was started has ended. A migration that is
started is one of its last plan that has not been started since, and the migrator accepts its
command for this VM and this node. What is recommended is what `compute_plan` gives. -/
def Warrants (cfg : DaemonConfig F) (past : List (Event F)) : Event F → Prop
  | .planned snap plan =>
      PlannedOn ar cfg snap plan ∧ past.countP Event.isStarted = past.countP Event.isEnded
  | .started m argv =>
      cfg.mode = .fullyAutomated ∧
        (∃ pre snap plan post, past = pre ++ .planned snap plan :: post ∧
          PlannedOn ar cfg snap plan ∧ m ∈ plan.migrations ∧ NotSince post m.vmId) ∧
        (Api.hyphened m.toNode.toList = false →
          Api.parseArgs argv.tail = some ⟨m.vmId, m.toNode, 4000, 50, 300⟩)
  | .ended _ => True
  | .recommended snap plan => computePlan ar snap cfg.toDrsConfig = some plan

/-- The tasks are those of the last plan, and what waits has not been started. -/
structure Follows (cfg : DaemonConfig F) (past : List (Event F))
    (pool : Pool (MigrationCandidate F)) : Prop where
  bounded : Bounded cfg pool
  last : ∃ pre snap plan post, past = pre ++ .planned snap plan :: post ∧
    PlannedOn ar cfg snap plan ∧ pool.items = plan.migrations ∧
    (∀ e ∈ post, e.isPlanned = false) ∧
    ∀ (i : Nat) (m : MigrationCandidate F), pool.tasks[i]? = some (m, .waiting) →
      NotSince post m.vmId

structure Traces (cfg : DaemonConfig F) (past : List (Event F)) (s : State F) : Prop where
  follows : ∀ pool, s.balancer = .executing pool → Follows ar cfg past pool
  counts : past.countP Event.isStarted = past.countP Event.isEnded + s.running.length

theorem decimal_toDigits (n : Nat) : Vmm.decimal (Nat.toDigits 10 n) = n :=
  Nat.ofDigitChars_ten_toDigits

theorem parseU32_toString (n : UInt32) : Vmm.parseU32 (toString n.toNat).toList = some n := by
  have hlist : (toString n.toNat).toList = Nat.toDigits 10 n.toNat := Nat.toList_repr
  have hdigits : ∀ c ∈ Nat.toDigits 10 n.toNat, c.isDigit = true := by
    intro c hc
    exact Nat.isDigit_of_mem_toDigits (by decide) (by decide) hc
  have hplus : (Nat.toDigits 10 n.toNat).head? ≠ some '+' := by
    intro hhead
    exact absurd (hdigits '+' (List.mem_of_mem_head? hhead)) (by decide)
  have hsome : ¬ (Nat.toDigits 10 n.toNat = [] ∨
      (Nat.toDigits 10 n.toNat).all Char.isDigit = false) := by
    rw [not_or, Bool.not_eq_false, List.all_eq_true]
    exact ⟨Nat.toDigits_ne_nil, hdigits⟩
  rw [hlist, Vmm.parseU32]
  simp only [if_neg hplus, if_neg hsome, decimal_toDigits]
  rw [if_pos n.toNat_lt, UInt32.ofNat_toNat]

theorem parseArgs_migrationCommand (binary : String) {m : MigrationCandidate F}
    (hnode : Api.hyphened m.toNode.toList = false) :
    Api.parseArgs (migrationCommand binary m).tail = some ⟨m.vmId, m.toNode, 4000, 50, 300⟩ := by
  have hid : Api.hyphened (toString m.vmId.toNat).toList = false := by
    have hlist : (toString m.vmId.toNat).toList = Nat.toDigits 10 m.vmId.toNat := Nat.toList_repr
    rw [hlist, Api.hyphened]
    cases hhead : (Nat.toDigits 10 m.vmId.toNat).head? with
    | none => rfl
    | some c =>
        have hdigit := Nat.isDigit_of_mem_toDigits (b := 10) (by decide) (by decide)
          (List.mem_of_mem_head? hhead)
        have hne : c ≠ '-' := by
          rintro rfl
          exact absurd hdigit (by decide)
        simp [hne]
  rw [migrationCommand, List.tail_cons, Api.parseArgs_migrate, hid, hnode, if_neg (by decide),
    parseU32_toString]
  rfl

section Step

variable {ar} {cfg : DaemonConfig F} {past : List (Event F)} {s : State F}

theorem Traces.quiet (h : Traces ar cfg past s) {s' : State F}
    (hbalancer : s'.balancer = s.balancer) : Traces ar cfg (past ++ []) s' := by
  rw [List.append_nil]
  refine ⟨?_, ?_⟩
  · intro pool hpool
    exact h.follows pool (hbalancer ▸ hpool)
  · rw [h.counts, State.running, State.running, hbalancer]

theorem Traces.idle (h : Traces ar cfg past s) (hidle : s.running = []) {s' : State F}
    (hidle' : s'.running = []) (hnone : ∀ pool, s'.balancer ≠ .executing pool) :
    Traces ar cfg (past ++ []) s' := by
  rw [List.append_nil]
  refine ⟨?_, ?_⟩
  · intro pool hpool
    exact absurd hpool (hnone pool)
  · rw [h.counts, hidle, hidle']

theorem NotSince.append {post : List (Event F)} {vmId : UInt32} (h : NotSince post vmId)
    {e : Event F} (hplanned : e.isPlanned = false)
    (hstarted : ∀ m argv, e = .started m argv → m.vmId ≠ vmId) : NotSince (post ++ [e]) vmId := by
  intro e' he'
  rcases List.mem_append.mp he' with hold | hlast
  · exact h e' hold
  · cases List.mem_singleton.mp hlast
    exact ⟨hplanned, hstarted⟩

theorem Bounded.ne {pool : Pool (MigrationCandidate F)} (h : Bounded cfg pool) {i j : Nat}
    {m m' : MigrationCandidate F} {stage stage' : Stage} (hi : pool.tasks[i]? = some (m, stage))
    (hj : pool.tasks[j]? = some (m', stage')) (hij : i ≠ j) : m.vmId ≠ m'.vmId := by
  intro hsame
  have hids := h.vms
  have hget : ∀ (k : Nat) (t : MigrationCandidate F × Stage), pool.tasks[k]? = some t →
      (pool.items.map fun m => m.vmId)[k]? = some t.1.vmId := by
    intro k t hk
    rw [Pool.items, List.map_map, List.getElem?_map, hk]
    rfl
  have hlt : i < (pool.items.map fun m => m.vmId).length :=
    (List.getElem?_eq_some_iff.mp (hget i _ hi)).1
  apply hij
  apply (List.getElem?_inj hlt hids).mp
  rw [hget i _ hi, hget j _ hj]
  exact congrArg some hsame

theorem Follows.acquire {pool pool' : Pool (MigrationCandidate F)} {m : MigrationCandidate F}
    {i : Nat} {argv : List String} (h : Follows ar cfg past pool)
    (hstep : pool.acquire i = some (m, pool')) :
    Follows ar cfg (past ++ [.started m argv]) pool' := by
  obtain ⟨htask, htasks, -⟩ := Pool.acquire_eq_some hstep
  obtain ⟨pre, snap, plan, post, hpast, hplan, hitems, hnone, hwaits⟩ := h.last
  refine ⟨h.bounded.acquire hstep, pre, snap, plan, post ++ [.started m argv], ?_, hplan, ?_, ?_, ?_⟩
  · rw [hpast, List.append_assoc, List.cons_append]
  · rw [Pool.acquire_items hstep, hitems]
  · intro e he
    rcases List.mem_append.mp he with hold | hlast
    · exact hnone e hold
    · cases List.mem_singleton.mp hlast
      rfl
  · intro j m' hj
    rw [htasks, List.getElem?_set] at hj
    by_cases hij : i = j
    · rw [if_pos hij] at hj
      split at hj
      · cases hj
      · cases hj
    · rw [if_neg hij] at hj
      apply (hwaits j m' hj).append rfl
      intro m'' argv' heq
      cases heq
      exact h.bounded.ne htask hj hij

theorem Follows.release {pool pool' : Pool (MigrationCandidate F)} {m : MigrationCandidate F}
    {i : Nat} (h : Follows ar cfg past pool) (hstep : pool.release i = some (m, pool')) :
    Follows ar cfg (past ++ [.ended m]) pool' := by
  obtain ⟨htask, htasks, -⟩ := Pool.release_eq_some hstep
  obtain ⟨pre, snap, plan, post, hpast, hplan, hitems, hnone, hwaits⟩ := h.last
  refine ⟨h.bounded.release hstep, pre, snap, plan, post ++ [.ended m], ?_, hplan, ?_, ?_, ?_⟩
  · rw [hpast, List.append_assoc, List.cons_append]
  · rw [Pool.release_items hstep, hitems]
  · intro e he
    rcases List.mem_append.mp he with hold | hlast
    · exact hnone e hold
    · cases List.mem_singleton.mp hlast
      rfl
  · intro j m' hj
    rw [htasks, List.getElem?_set] at hj
    by_cases hij : i = j
    · rw [if_pos hij] at hj
      split at hj
      · cases hj
      · cases hj
    · rw [if_neg hij] at hj
      apply (hwaits j m' hj).append rfl
      intro m'' argv' heq
      cases heq

theorem Follows.recommended {pool : Pool (MigrationCandidate F)} (h : Follows ar cfg past pool)
    (snap : ClusterSnapshot F) (plan : MigrationPlan F) :
    Follows ar cfg (past ++ [.recommended snap plan]) pool := by
  obtain ⟨pre, snap', plan', post, hpast, hplan, hitems, hnone, hwaits⟩ := h.last
  refine ⟨h.bounded, pre, snap', plan', post ++ [.recommended snap plan], ?_, hplan, hitems, ?_, ?_⟩
  · rw [hpast, List.append_assoc, List.cons_append]
  · intro e he
    rcases List.mem_append.mp he with hold | hlast
    · exact hnone e hold
    · cases List.mem_singleton.mp hlast
      rfl
  · intro i m hi
    apply (hwaits i m hi).append rfl
    intro m' argv heq
    cases heq

theorem Follows.spawn {plan : MigrationPlan F} (hmode : cfg.mode = .fullyAutomated)
    {snap : ClusterSnapshot F} (hplan : PlannedOn ar cfg snap plan) :
    Follows ar cfg (past ++ [.planned snap plan])
      (.spawn cfg.maxConcurrentMigrations.toNat plan.migrations) := by
  refine ⟨Bounded.spawn hmode hplan.2, past, snap, plan, [], rfl, hplan, Pool.spawn_items _ _, ?_, ?_⟩
  · intro e he
    cases he
  · intro i m _ e he
    cases he

theorem wake_traces (h : Traces ar cfg past s) (hasleep : s.balancer = .asleep) :
    Warranted (Warrants ar cfg) past (wake ar cfg s).2 ∧
      Traces ar cfg (past ++ (wake ar cfg s).2) (wake ar cfg s).1 := by
  have hidle : s.running = [] := by rw [State.running, hasleep]
  have hcounts := h.counts
  rw [hidle, List.length_nil, Nat.add_zero] at hcounts
  have hevents : ∀ plan, (past ++ [Event.planned s.cluster plan]).countP Event.isStarted =
      (past ++ [Event.planned s.cluster plan]).countP Event.isEnded := by
    intro plan
    simp [List.countP_append, hcounts, Event.isStarted, Event.isEnded]
  rcases wake_cases ar cfg s with
    ⟨balancer, hbalancer, hwake⟩ | ⟨plan, himbalanced, hplan, -, ⟨-, hwake⟩ | ⟨hmode, hwake⟩⟩
  · rw [hwake]
    refine ⟨trivial, ?_⟩
    cases hbalancer with
    | inl hsame => exact h.quiet hsame
    | inr hpanicked =>
        apply h.idle hidle
        · rw [State.running, hpanicked]
        · intro pool
          rw [hpanicked]
          intro hbad
          cases hbad
  · rw [hwake]
    refine ⟨⟨⟨⟨himbalanced, hplan⟩, hcounts⟩, trivial⟩, ?_, ?_⟩
    · intro pool hpool
      rw [hasleep] at hpool
      cases hpool
    · rw [hevents, hidle, List.length_nil, Nat.add_zero]
  · rw [hwake]
    refine ⟨⟨⟨⟨himbalanced, hplan⟩, hcounts⟩, trivial⟩, ?_, ?_⟩
    · intro pool hpool
      cases hpool
      exact Follows.spawn hmode ⟨himbalanced, hplan⟩
    · simp only [State.running, Pool.spawn_running, List.length_nil, Nat.add_zero]
      exact hevents plan

theorem acquire_traces (h : Traces ar cfg past s) {pool pool' : Pool (MigrationCandidate F)}
    {m : MigrationCandidate F} {i : Nat} (hpool : s.balancer = .executing pool)
    (hstep : pool.acquire i = some (m, pool')) :
    Warrants ar cfg past (.started m (migrationCommand cfg.livemigBinary m)) ∧
      Traces ar cfg (past ++ [.started m (migrationCommand cfg.livemigBinary m)])
        { s with balancer := .executing pool' } := by
  have hfollows := h.follows pool hpool
  obtain ⟨htask, -, -⟩ := Pool.acquire_eq_some hstep
  obtain ⟨pre, snap, plan, post, hpast, hplan, hitems, -, hwaits⟩ := hfollows.last
  have hmem : m ∈ plan.migrations := by
    rw [← hitems]
    exact List.mem_map_of_mem (f := Prod.fst) (List.mem_of_getElem? htask)
  refine ⟨⟨hfollows.bounded.mode, ⟨pre, snap, plan, post, hpast, hplan, hmem, hwaits i m htask⟩,
    parseArgs_migrationCommand _⟩, ?_, ?_⟩
  · intro next hnext
    cases hnext
    exact hfollows.acquire hstep
  · have hcounts := h.counts
    have hrunning := Pool.acquire_running hstep
    simp only [State.running, hpool] at hcounts
    simp only [List.countP_append, List.countP_singleton, Event.isStarted, Event.isEnded,
      State.running, if_true]
    rw [hrunning, hcounts]
    simp
    omega

theorem exit_traces (h : Traces ar cfg past s) {pool pool' : Pool (MigrationCandidate F)}
    {m : MigrationCandidate F} {i : Nat} (hpool : s.balancer = .executing pool)
    (hstep : pool.release i = some (m, pool')) :
    Traces ar cfg (past ++ [.ended m]) { s with balancer := .executing pool' } := by
  constructor
  · intro next hnext
    cases hnext
    exact (h.follows pool hpool).release hstep
  · have hcounts := h.counts
    have hrunning := Pool.release_running hstep
    simp only [State.running, hpool] at hcounts
    simp only [List.countP_append, List.countP_singleton, Event.isStarted, Event.isEnded,
      State.running, if_true]
    rw [hcounts, ← hrunning]
    simp
    omega

theorem recommendationsHandler_traces (h : Traces ar cfg past s) :
    Warranted (Warrants ar cfg) past (recommendationsHandler ar cfg s).2 ∧
      Traces ar cfg (past ++ (recommendationsHandler ar cfg s).2)
        (recommendationsHandler ar cfg s).1 := by
  rcases recommendationsHandler_cases ar cfg s with hstep | ⟨plan, hplan, hstep⟩
  · rw [hstep]
    exact ⟨trivial, h.quiet rfl⟩
  · rw [hstep]
    refine ⟨⟨hplan, trivial⟩, ?_, ?_⟩
    · intro pool hpool
      exact (h.follows pool hpool).recommended s.cluster plan
    · simpa [List.countP_append, Event.isStarted, Event.isEnded] using h.counts

theorem step_traces (h : Traces ar cfg past s) (a : Action F) :
    Warranted (Warrants ar cfg) past ((daemon ar cfg).step s a).2 ∧
      Traces ar cfg (past ++ ((daemon ar cfg).step s a).2) ((daemon ar cfg).step s a).1 := by
  cases a with
  | monitor localNode k8sNodes =>
      cases localNode with
      | none => exact ⟨trivial, h.quiet rfl⟩
      | some localNode => exact ⟨trivial, h.quiet rfl⟩
  | wake =>
      simp only [daemon, step]
      split
      · rename_i hasleep
        exact wake_traces h hasleep
      · exact ⟨trivial, h.quiet rfl⟩
  | acquire i =>
      simp only [daemon, step]
      split
      · rename_i pool hpool
        split
        · rename_i m pool' hstep
          obtain ⟨hwarrants, htraces⟩ := acquire_traces h hpool hstep
          exact ⟨⟨hwarrants, trivial⟩, htraces⟩
        · exact ⟨trivial, h.quiet rfl⟩
      · exact ⟨trivial, h.quiet rfl⟩
  | exit i =>
      simp only [daemon, step]
      split
      · rename_i pool hpool
        split
        · rename_i m pool' hstep
          exact ⟨⟨trivial, trivial⟩, exit_traces h hpool hstep⟩
        · exact ⟨trivial, h.quiet rfl⟩
      · exact ⟨trivial, h.quiet rfl⟩
  | join =>
      simp only [daemon, step]
      split
      · rename_i pool hpool
        split
        · rename_i hdone
          refine ⟨trivial, h.idle ?_ rfl ?_⟩
          · rw [State.running, hpool]
            exact hdone.running_eq_nil
          · intro next hnext
            cases hnext
        · exact ⟨trivial, h.quiet rfl⟩
      · exact ⟨trivial, h.quiet rfl⟩
  | recommendations => exact recommendationsHandler_traces h

end Step

/-- Along every run, each plan of the balancer comes when no migration is under way, and each
migration that is started is one of its last plan, not started before, in the mode that allows it,
whatever is recommended meanwhile. -/
theorem migrations_warranted (cfg : DaemonConfig F) (as : List (Action F)) :
    Warranted (Warrants ar cfg) [] ((daemon ar cfg).run .new as).2 := by
  have hnew : Traces ar cfg [] (.new : State F) := by
    refine ⟨?_, rfl⟩
    intro pool hpool
    cases hpool
  exact ((daemon ar cfg).run_warranted (R := Traces ar cfg) (P := fun _ _ => True)
    (fun _ _ a h _ => step_traces h a) hnew
    ((daemon ar cfg).allSteps_of (fun _ _ => trivial) _ as)).1

/-! ## Without permits -/

/-- Nothing is started, and the first plan is the last. -/
structure Stuck (past : List (Event F)) (s : State F) : Prop where
  started : past.countP Event.isStarted = 0
  planned : past.countP Event.isPlanned = 0 ∧ (∀ pool, s.balancer ≠ .executing pool) ∨
    past.countP Event.isPlanned = 1 ∧ ∃ migrations, migrations ≠ [] ∧
      s.balancer = .executing (.spawn 0 migrations)

theorem Stuck.quiet {past : List (Event F)} {s s' : State F} (h : Stuck past s)
    (hbalancer : s'.balancer = s.balancer) : Stuck (past ++ []) s' := by
  rw [List.append_nil]
  exact ⟨h.started, by rw [hbalancer]; exact h.planned⟩

section Stuck

variable {ar} {cfg : DaemonConfig F} {past : List (Event F)} {s : State F}

theorem wake_stuck (hmax : cfg.maxConcurrentMigrations = 0) (hmode : cfg.mode = .fullyAutomated)
    (h : Stuck past s) (hasleep : s.balancer = .asleep) :
    Stuck (past ++ (wake ar cfg s).2) (wake ar cfg s).1 := by
  have hnone : past.countP Event.isPlanned = 0 := by
    rcases h.planned with ⟨hzero, -⟩ | ⟨-, migrations, -, hpool⟩
    · exact hzero
    · rw [hasleep] at hpool
      cases hpool
  rcases wake_cases ar cfg s with
    ⟨balancer, hbalancer, hwake⟩ | ⟨plan, -, -, hsome, ⟨hother, -⟩ | ⟨-, hwake⟩⟩
  · rw [hwake, List.append_nil]
    refine ⟨h.started, Or.inl ⟨hnone, ?_⟩⟩
    intro pool hpool
    rcases hbalancer with rfl | rfl
    · rw [hasleep] at hpool
      cases hpool
    · cases hpool
  · exact absurd hmode hother
  · rw [hwake]
    constructor
    · simp [List.countP_append, h.started, Event.isStarted]
    · refine Or.inr ⟨?_, plan.migrations, hsome, ?_⟩
      · simp [List.countP_append, hnone, Event.isPlanned]
      · rw [hmax]
        rfl

theorem step_stuck (hmax : cfg.maxConcurrentMigrations = 0) (hmode : cfg.mode = .fullyAutomated)
    (h : Stuck past s) (a : Action F) :
    Stuck (past ++ ((daemon ar cfg).step s a).2) ((daemon ar cfg).step s a).1 := by
  -- in a pool without permits no task moves, and it is never done
  have hpool : ∀ pool, s.balancer = .executing pool →
      ∃ migrations, migrations ≠ [] ∧ pool = .spawn 0 migrations := by
    intro pool hexecuting
    rcases h.planned with ⟨-, hnone⟩ | ⟨-, migrations, hsome, hspawned⟩
    · exact absurd hexecuting (hnone pool)
    · rw [hspawned] at hexecuting
      cases hexecuting
      exact ⟨migrations, hsome, rfl⟩
  cases a with
  | monitor localNode k8sNodes =>
      cases localNode with
      | none => exact h.quiet rfl
      | some localNode => exact h.quiet rfl
  | wake =>
      simp only [daemon, step]
      split
      · rename_i hasleep
        exact wake_stuck hmax hmode h hasleep
      · exact h.quiet rfl
  | acquire i =>
      simp only [daemon, step]
      split
      · rename_i pool hexecuting
        obtain ⟨migrations, -, rfl⟩ := hpool pool hexecuting
        rw [Pool.spawn_zero_acquire]
        exact h.quiet rfl
      · exact h.quiet rfl
  | exit i =>
      simp only [daemon, step]
      split
      · rename_i pool hexecuting
        obtain ⟨migrations, -, rfl⟩ := hpool pool hexecuting
        rw [Pool.spawn_release]
        exact h.quiet rfl
      · exact h.quiet rfl
  | join =>
      simp only [daemon, step]
      split
      · rename_i pool hexecuting
        obtain ⟨migrations, hsome, rfl⟩ := hpool pool hexecuting
        rw [if_neg (Pool.not_done_spawn 0 hsome)]
        exact h.quiet rfl
      · exact h.quiet rfl
  | recommendations =>
      rcases recommendationsHandler_cases ar cfg s with hstep | ⟨plan, -, hstep⟩
      · simp only [daemon, step, hstep]
        exact h.quiet rfl
      · simp only [daemon, step, hstep]
        constructor
        · simp [List.countP_append, h.started, Event.isStarted]
        · simpa [List.countP_append, Event.isPlanned] using h.planned

end Stuck

/-- With a limit of zero no migration is ever started, and the balancer does not come back from
its first plan with migrations. -/
theorem no_permits_no_more_plans (cfg : DaemonConfig F) (hmax : cfg.maxConcurrentMigrations = 0)
    (hmode : cfg.mode = .fullyAutomated) (as : List (Action F)) :
    ((daemon ar cfg).run .new as).2.countP Event.isStarted = 0 ∧
      ((daemon ar cfg).run .new as).2.countP Event.isPlanned ≤ 1 := by
  have hnew : Stuck [] (.new : State F) := by
    refine ⟨rfl, Or.inl ⟨rfl, ?_⟩⟩
    intro pool hpool
    cases hpool
  have hrun := (daemon ar cfg).run_related (R := Stuck) (P := fun _ _ => True)
    (fun _ _ a h _ => step_stuck hmax hmode h a) hnew
    ((daemon ar cfg).allSteps_of (fun _ _ => trivial) _ as)
  refine ⟨hrun.started, ?_⟩
  rcases hrun.planned with ⟨hzero, -⟩ | ⟨hone, -⟩
  · omega
  · omega

def noPermits : DaemonConfig ℚ := ⟨⟨0, ⟨1, 0, 0, 0⟩⟩, .fullyAutomated, 1 / 10, 0, "kvm-livemig"⟩

/-- A loaded node beside the local one, and the balancer woken twice. -/
def twoCycles : List (Action ℚ) :=
  [.monitor (some ⟨"idle", 4, 10, 8192, 0, 8192, 0, 0, 0, 0, [], 0⟩)
      [⟨"busy", 4, 90, 8192, 1024, 7168, 0, 0, 0, 0, [⟨7, "", "busy", 1, 50, 512⟩], 0⟩],
    .wake, .acquire 0, .join, .wake]

theorem no_permits_no_more_plans_twice :
    ((daemon Root.identity.arith noPermits).run .new twoCycles).2.countP Event.isStarted = 0 ∧
      ((daemon Root.identity.arith noPermits).run .new twoCycles).2.countP Event.isPlanned ≤ 1 :=
  no_permits_no_more_plans Root.identity.arith noPermits rfl rfl twoCycles

example : ((daemon Root.identity.arith noPermits).run .new twoCycles).2.map Event.isPlanned =
    [true] := by decide +kernel

/-! ## Without other nodes -/

/-- The Kubernetes API reports what `collect_k8s_nodes` does. -/
def Stubbed (_ : State F) : Action F → Prop
  | .monitor _ k8sNodes => k8sNodes = collectK8sNodes
  | _ => True

/-- The balancer sees one node and is asleep. -/
structure Alone (s : State F) : Prop where
  nodes : s.cluster.nodes.length ≤ 1
  asleep : s.balancer = .asleep

section Alone

variable {ar} {cfg : DaemonConfig F} {s : State F}

theorem wake_alone (hthreshold : ¬ ar.Lt cfg.imbalanceThreshold (ar.ofNat 0)) (h : Alone s) :
    wake ar cfg s = (s, []) := by
  have hnodes := h.nodes
  have hscore : s.cluster.balanceScore ar = ar.ofNat 0 := by
    rw [ClusterSnapshot.balanceScore, if_pos (by omega)]
  have hbalanced : ¬ isImbalanced ar s.cluster cfg.imbalanceThreshold := by
    rw [isImbalanced, hscore]
    exact hthreshold
  rw [wake, if_neg hbalanced, ite_self]

/-- There is nowhere to migrate to. -/
theorem recommendationsHandler_alone (h : Alone s) : ∀ e ∈ (recommendationsHandler ar cfg s).2,
    e = .recommended s.cluster ⟨[]⟩ := by
  rcases recommendationsHandler_cases ar cfg s with hstep | ⟨plan, hplan, hstep⟩
  · rw [hstep]
    exact fun _ he => nomatch he
  · obtain ⟨moves, hmoves, rfl⟩ := Option.map_eq_some_iff.mp hplan
    have hnone : moves = [] := by
      refine List.eq_nil_iff_forall_not_mem.mpr fun m hm => ?_
      exact absurd h.nodes (not_le.mpr (isCandidate_of_planned hmoves hm).one_lt_length)
    rw [hstep, hnone]
    exact fun _ he => List.mem_singleton.mp he

theorem collectSnapshot_stub (localNode : NodeMetrics F) :
    (collectSnapshot ar cfg localNode collectK8sNodes).nodes.length = 1 := rfl

theorem step_alone (hthreshold : ¬ ar.Lt cfg.imbalanceThreshold (ar.ofNat 0)) (s : State F)
    (a : Action F) (h : Alone s) (hstub : Stubbed s a) :
    Alone ((daemon ar cfg).step s a).1 ∧
      ∀ e ∈ ((daemon ar cfg).step s a).2, e = .recommended s.cluster ⟨[]⟩ := by
  have hasleep := h.asleep
  have hquiet : ∀ e ∈ ([] : List (Event F)), e = .recommended s.cluster ⟨[]⟩ :=
    fun _ he => nomatch he
  cases a with
  | monitor localNode k8sNodes =>
      cases localNode with
      | none => exact ⟨h, hquiet⟩
      | some localNode =>
          cases hstub
          exact ⟨⟨(collectSnapshot_stub localNode).le, hasleep⟩, hquiet⟩
  | wake =>
      have hwake : (daemon ar cfg).step s .wake = (s, []) := by
        simp only [daemon, step, hasleep]
        exact wake_alone hthreshold h
      rw [hwake]
      exact ⟨h, hquiet⟩
  | acquire i =>
      simp only [daemon, step, hasleep]
      exact ⟨h, hquiet⟩
  | exit i =>
      simp only [daemon, step, hasleep]
      exact ⟨h, hquiet⟩
  | join =>
      simp only [daemon, step, hasleep]
      exact ⟨h, hquiet⟩
  | recommendations =>
      refine ⟨?_, recommendationsHandler_alone h⟩
      rcases recommendationsHandler_cases ar cfg s with hstep | ⟨plan, -, hstep⟩
      all_goals
        simp only [daemon, step, hstep]
        exact h

end Alone

/-- As long as the Kubernetes API is a stub, the daemon plans nothing and starts nothing, and has
nothing to recommend when it is asked. -/
theorem stub_never_migrates (cfg : DaemonConfig F)
    (hthreshold : ¬ ar.Lt cfg.imbalanceThreshold (ar.ofNat 0)) (as : List (Action F))
    (hstub : (daemon ar cfg).AllSteps Stubbed .new as) :
    ∀ e ∈ ((daemon ar cfg).run .new as).2, ∃ snap, e = .recommended snap ⟨[]⟩ := by
  let empty : List (Event F) → Prop := fun past => ∀ e ∈ past, ∃ snap, e = .recommended snap ⟨[]⟩
  have hnew : empty [] ∧ Alone (.new : State F) :=
    ⟨fun _ he => (nomatch he), by simp [State.new], rfl⟩
  have hstep : ∀ past s a, empty past ∧ Alone s → Stubbed s a →
      empty (past ++ ((daemon ar cfg).step s a).2) ∧ Alone ((daemon ar cfg).step s a).1 := by
    intro past s a h hs
    obtain ⟨halone, hquiet⟩ := step_alone hthreshold s a h.2 hs
    refine ⟨fun e he => ?_, halone⟩
    exact (List.mem_append.mp he).elim (h.1 e) fun hlast => ⟨_, hquiet e hlast⟩
  exact ((daemon ar cfg).run_related (R := fun past s => empty past ∧ Alone s) hstep hnew hstub).1

def aloneCycles : List (Action ℚ) :=
  [.monitor (some ⟨"busy", 4, 90, 8192, 1024, 7168, 0, 0, 0, 0, [⟨7, "", "busy", 1, 50, 512⟩], 0⟩)
      collectK8sNodes,
    .wake, .recommendations, .monitor none collectK8sNodes, .wake]

theorem stub_never_migrates_busy :
    ∃ snap, ((daemon Root.identity.arith { noPermits with maxConcurrentMigrations := 2 }).run
      .new aloneCycles).2 = [.recommended snap ⟨[]⟩] := by
  have hevents := stub_never_migrates Root.identity.arith
    { noPermits with maxConcurrentMigrations := 2 } (by decide +kernel) aloneCycles
    ⟨rfl, trivial, trivial, rfl, trivial, trivial⟩
  have hone : ((daemon Root.identity.arith { noPermits with maxConcurrentMigrations := 2 }).run
      .new aloneCycles).2.length = 1 := by
    decide +kernel
  obtain ⟨e, he⟩ := List.length_eq_one_iff.mp hone
  rw [he] at hevents ⊢
  obtain ⟨snap, rfl⟩ := hevents e (List.mem_singleton_self e)
  exact ⟨snap, rfl⟩

end Daemon

end Caiman.Drs
