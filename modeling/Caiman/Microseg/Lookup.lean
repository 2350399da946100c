import Caiman.Microseg.Selectors
import Mathlib.Logic.Function.Basic

/-!
# Policy lookup

The policy map as the XDP program reads it. A flow is looked up under its own
protocol and port, then under its protocol with port 0, then under 0 and 0, then
by the default of its destination. A compilation puts the same value under every
key of its policy, so what it does to the map is said key by key.
-/

namespace Caiman.Microseg

/-- `struct policy_val`, in which a verdict is any byte. -/
structure PolicyEntry where
  verdict : UInt8
  priority : UInt8
  flags : UInt16
  ruleId : UInt32
  deriving DecidableEq, Repr

/-- `VERDICT_ALLOW`, `VERDICT_DENY` and `VERDICT_LOG`. -/
def Verdict.code : Verdict → UInt8
  | .allow => 0
  | .deny => 1
  | .log => 2

def PolicyVal.entry (v : PolicyVal) : PolicyEntry := ⟨v.verdict.code, v.priority, 0, v.ruleId⟩

abbrev PolicyMap := PolicyKey → Option PolicyEntry

abbrev DefaultPolicyMap := UInt32 → Option UInt8

def lookupVerdict (policyMap : PolicyMap) (defaultPolicyMap : DefaultPolicyMap)
    (srcId dstId : UInt32) (proto : UInt8) (dstPort : UInt16) : UInt8 :=
  match policyMap ⟨srcId, dstId, proto, dstPort⟩ with
  | some v => v.verdict
  | none =>
      match policyMap ⟨srcId, dstId, proto, 0⟩ with
      | some v => v.verdict
      | none =>
          match policyMap ⟨srcId, dstId, 0, 0⟩ with
          | some v => v.verdict
          | none => (defaultPolicyMap dstId).getD Verdict.deny.code

/-! ## Compilation into the map -/

def updatePolicyEntry (k : PolicyKey) (v : PolicyVal) : EStateM Empty PolicyMap Unit :=
  modify fun m => Function.update m k (some v.entry)

def clearPolicyMap : EStateM Empty PolicyMap Unit := set (fun _ => none : PolicyMap)

/-- An error is logged; what has been done to the map stays. -/
def settled {ε Map : Type} (x : EStateM ε Map Unit) (m : Map) : Map :=
  match x.run m with
  | .ok _ m => m
  | .error _ m => m

def PolicySpec.val (spec : PolicySpec) : PolicyVal := ⟨spec.action.verdict, spec.priority, 0⟩

def PolicySpec.keys (spec : PolicySpec) : List PolicyKey := (compiledEntries spec).map Prod.fst

theorem val_of_mem_compiledEntries {spec : PolicySpec} {entry : PolicyKey × PolicyVal}
    (h : entry ∈ compiledEntries spec) : entry.2 = spec.val := by
  obtain ⟨src, -, hrest⟩ := List.mem_flatMap.mp h
  obtain ⟨dst, -, hports⟩ := List.mem_flatMap.mp hrest
  unfold portEntries at hports
  dsimp only at hports
  split at hports
  · rw [List.mem_singleton] at hports
    rw [hports]
    rfl
  · obtain ⟨rule, -, rfl⟩ := List.mem_map.mp hports
    rfl

theorem forM_updatePolicyEntry {v : PolicyVal} (entries : List (PolicyKey × PolicyVal))
    (hval : ∀ entry ∈ entries, entry.2 = v) (m : PolicyMap) :
    (forM entries fun entry => updatePolicyEntry entry.1 entry.2).run m =
      .ok () fun k => if k ∈ entries.map Prod.fst then some v.entry else m k := by
  induction entries generalizing m with
  | nil => simp [EStateM.run, pure, EStateM.pure]
  | cons entry rest ih =>
      have hfirst : (updatePolicyEntry entry.1 entry.2).run m =
          .ok () (Function.update m entry.1 (some v.entry)) := by
        rw [← hval entry List.mem_cons_self]
        rfl
      rw [List.forM_cons, EStateM.run_bind, hfirst]
      dsimp only
      rw [ih (fun e he => hval e (List.mem_cons_of_mem _ he))]
      congr 1
      funext k
      by_cases hrest : k ∈ rest.map Prod.fst
      · simp [hrest]
      · by_cases hkey : k = entry.1
        · simp [hkey]
        · simp [hrest, hkey]

theorem run_compilePolicy (spec : PolicySpec) (m : PolicyMap) :
    (compilePolicy updatePolicyEntry spec).run m =
      .ok () fun k => if k ∈ spec.keys then some spec.val.entry else m k :=
  forM_updatePolicyEntry _ (fun _ h => val_of_mem_compiledEntries h) m

theorem settled_compilePolicy (spec : PolicySpec) (m : PolicyMap) (k : PolicyKey) :
    settled (compilePolicy updatePolicyEntry spec) m k =
      if k ∈ spec.keys then some spec.val.entry else m k := by
  unfold settled
  rw [run_compilePolicy]

/-! ## Flows -/

/-- What a packet is judged by. -/
structure Flow where
  srcId : UInt32
  dstId : UInt32
  proto : UInt8
  dstPort : UInt16
  deriving DecidableEq, Repr

namespace Flow

/-- The keys a flow is looked up under, the most specific one first. -/
def lookupKeys (f : Flow) : List PolicyKey :=
  [⟨f.srcId, f.dstId, f.proto, f.dstPort⟩, ⟨f.srcId, f.dstId, f.proto, 0⟩, ⟨f.srcId, f.dstId, 0, 0⟩]

def verdict (policyMap : PolicyMap) (defaultPolicyMap : DefaultPolicyMap) (f : Flow) : UInt8 :=
  lookupVerdict policyMap defaultPolicyMap f.srcId f.dstId f.proto f.dstPort

end Flow

theorem verdict_eq (policyMap : PolicyMap) (defaultPolicyMap : DefaultPolicyMap) (f : Flow) :
    f.verdict policyMap defaultPolicyMap =
      ((f.lookupKeys.findSome? policyMap).map PolicyEntry.verdict).getD
        ((defaultPolicyMap f.dstId).getD Verdict.deny.code) := by
  unfold Flow.verdict lookupVerdict Flow.lookupKeys
  cases hexact : policyMap ⟨f.srcId, f.dstId, f.proto, f.dstPort⟩ with
  | some v => simp [hexact]
  | none =>
      cases hproto : policyMap ⟨f.srcId, f.dstId, f.proto, 0⟩ with
      | some v => simp [hexact, hproto]
      | none =>
          cases hany : policyMap ⟨f.srcId, f.dstId, 0, 0⟩ with
          | some v => simp [hexact, hproto, hany]
          | none => simp [hexact, hproto, hany]

/-! ## What a rule is meant to match -/

/-- The protocol numbers of IP, for the names that a policy may use. -/
def ipProtocol (name : String) : Option UInt8 :=
  if name = "TCP" ∨ name = "tcp" then some 6
  else if name = "UDP" ∨ name = "udp" then some 17
  else if name = "ICMP" ∨ name = "icmp" then some 1
  else none

/-- An omitted protocol matches every one, a name the one it stands for. Another name
matches none. -/
def protocolMatches (protocol : Option String) (proto : UInt8) : Bool :=
  match protocol with
  | none => true
  | some name => ipProtocol name == some proto

/-- The compiler knows the same names, and takes 0 for another one. -/
theorem protoNum_some (name : String) : protoNum (some name) = (ipProtocol name).getD 0 := by
  unfold protoNum ipProtocol
  split
  all_goals simp_all

theorem protocolMatches_some (name : String) (proto : UInt8) :
    protocolMatches (some name) proto =
      (protoNum (some name) != 0 && protoNum (some name) == proto) := by
  rw [protoNum_some]
  unfold protocolMatches ipProtocol
  split_ifs
  all_goals simp
  all_goals grind

def portMatches (port : Option UInt16) (dstPort : UInt16) : Bool :=
  match port with
  | none => true
  | some p => p == dstPort

namespace PortRule

def Matches (rule : PortRule) (proto : UInt8) (dstPort : UInt16) : Prop :=
  protocolMatches rule.protocol proto = true ∧ portMatches rule.port dstPort = true

instance (rule : PortRule) (proto : UInt8) (dstPort : UInt16) :
    Decidable (rule.Matches proto dstPort) :=
  inferInstanceAs (Decidable (_ ∧ _))

end PortRule

namespace PolicySpec

/-- No port rules, or one that matches. -/
def PortsMatch (spec : PolicySpec) (proto : UInt8) (dstPort : UInt16) : Prop :=
  spec.ports.getD [] = [] ∨ ∃ rule ∈ spec.ports.getD [], rule.Matches proto dstPort

instance (spec : PolicySpec) (proto : UInt8) (dstPort : UInt16) :
    Decidable (spec.PortsMatch proto dstPort) :=
  inferInstanceAs (Decidable (_ ∨ _))

/-- The identities of the flow are among the policy's and its ports match. -/
def Matches (spec : PolicySpec) (f : Flow) : Prop :=
  f.srcId ∈ resolveIdentities spec.sources ∧ f.dstId ∈ resolveIdentities spec.destinations ∧
    spec.PortsMatch f.proto f.dstPort

instance (spec : PolicySpec) (f : Flow) : Decidable (spec.Matches f) :=
  inferInstanceAs (Decidable (_ ∧ _ ∧ _))

end PolicySpec

end Caiman.Microseg
