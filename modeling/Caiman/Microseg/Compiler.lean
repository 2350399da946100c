import Mathlib.Data.List.Sort
import Mathlib.Data.String.Basic

/-!
# Policy compiler

`compile_policy` from a policy with its label selectors to entries of the BPF
policy map. A label set is hashed whole: FNV-32 over its sorted `key=value` pairs,
the two reserved identities apart, and a selector goes through the same function
as the labels of a VM.
-/

namespace Caiman.Microseg

/-- A map from label keys to values, in the order an iteration visits it. -/
structure Labels where
  pairs : List (String × String)
  nodup : (pairs.map Prod.fst).Nodup

structure LabelSelector where
  matchLabels : Labels

inductive PolicyAction
  | allow
  | deny
  | log
  deriving DecidableEq, Repr

structure PortRule where
  protocol : Option String
  port : Option UInt16
  deriving DecidableEq, Repr

structure PolicySpec where
  priority : UInt8
  action : PolicyAction
  sources : List LabelSelector
  destinations : List LabelSelector
  ports : Option (List PortRule)

inductive Verdict
  | allow
  | deny
  | log
  deriving DecidableEq, Repr

structure PolicyKey where
  srcId : UInt32
  dstId : UInt32
  proto : UInt8
  dstPort : UInt16
  deriving DecidableEq, Repr

structure PolicyVal where
  verdict : Verdict
  priority : UInt8
  ruleId : UInt32
  deriving DecidableEq, Repr

/-! ## Identities -/

/-- The sorted `key=value` pairs, joined by commas. Strings are compared byte by
byte, which on UTF-8 is the order by code points. -/
def Labels.combined (labels : Labels) : String :=
  ",".intercalate ((labels.pairs.map fun p => p.1 ++ "=" ++ p.2).insertionSort (· ≤ ·))

def fnv32 (bytes : List UInt8) : UInt32 :=
  bytes.foldl (fun hash b => (hash ^^^ b.toUInt32) * 0x01000193) 0x811c9dc5

/-- 0 is the unknown identity and 1 the host. -/
def reserve (hash : UInt32) : UInt32 := if hash < 2 then hash + 2 else hash

def labelsToIdentity (labels : Labels) : UInt32 :=
  reserve (fnv32 labels.combined.toUTF8.data.toList)

def resolveIdentities (selectors : List LabelSelector) : List UInt32 :=
  selectors.map fun sel => labelsToIdentity sel.matchLabels

/-! ## Entries -/

def protoNum : Option String → UInt8
  | some "TCP" | some "tcp" => 6
  | some "UDP" | some "udp" => 17
  | some "ICMP" | some "icmp" => 1
  | _ => 0

def PolicyAction.verdict : PolicyAction → Verdict
  | .allow => .allow
  | .deny => .deny
  | .log => .log

def portEntries (spec : PolicySpec) (srcId dstId : UInt32) : List (PolicyKey × PolicyVal) :=
  let val : PolicyVal := ⟨spec.action.verdict, spec.priority, 0⟩
  let ports := spec.ports.getD []
  if ports.isEmpty then [(⟨srcId, dstId, 0, 0⟩, val)]
  else ports.map fun rule => (⟨srcId, dstId, protoNum rule.protocol, rule.port.getD 0⟩, val)

/-- What the three loops hand to the map, in order. -/
def compiledEntries (spec : PolicySpec) : List (PolicyKey × PolicyVal) :=
  (resolveIdentities spec.sources).flatMap fun srcId =>
    (resolveIdentities spec.destinations).flatMap fun dstId => portEntries spec srcId dstId

def compilePolicy {ε Map : Type} (updatePolicyEntry : PolicyKey → PolicyVal → EStateM ε Map Unit)
    (spec : PolicySpec) : EStateM ε Map Unit :=
  forM (compiledEntries spec) fun entry => updatePolicyEntry entry.1 entry.2

end Caiman.Microseg
