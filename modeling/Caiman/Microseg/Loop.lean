import Mathlib.Data.List.AList
import Caiman.Lib.Run
import Caiman.Microseg.Ports

/-!
# Policy loop

`policy_loop` over a stream of events. A policy that is added or modified is
compiled on top of what the map holds; a deletion empties the map and compiles
the policies that are left, in the order in which the hash table is iterated.
-/

namespace Caiman.Microseg

open Lib

structure PolicyMeta where
  name : String
  nspace : String
  deriving DecidableEq, Repr

structure MicroSegPolicy where
  metadata : PolicyMeta
  spec : PolicySpec

/-- `namespace/name` -/
def MicroSegPolicy.key (p : MicroSegPolicy) : String :=
  p.metadata.nspace ++ "/" ++ p.metadata.name

inductive PolicyEvent
  | added (p : MicroSegPolicy)
  | modified (p : MicroSegPolicy)
  | deleted (name : String)

abbrev PolicyTable := AList fun _ : String => MicroSegPolicy

def Holds (t : PolicyTable) (p : MicroSegPolicy) : Prop := ∃ name, t.lookup name = some p

theorem not_holds_empty (p : MicroSegPolicy) : ¬ Holds ∅ p := by
  intro h
  obtain ⟨name, hp⟩ := h
  cases hp

theorem holds_erase {t : PolicyTable} {name : String} {p : MicroSegPolicy} :
    Holds (t.erase name) p ↔ ∃ n, n ≠ name ∧ t.lookup n = some p := by
  constructor
  · intro h
    obtain ⟨n, hn⟩ := h
    by_cases hname : n = name
    · rw [hname, AList.lookup_erase] at hn
      cases hn
    · exact ⟨n, hname, AList.lookup_erase_ne hname ▸ hn⟩
  · intro h
    obtain ⟨n, hname, hn⟩ := h
    exact ⟨n, (AList.lookup_erase_ne hname).trans hn⟩

theorem holds_insert {t : PolicyTable} {name : String} {p q : MicroSegPolicy} :
    Holds (t.insert name p) q ↔ q = p ∨ Holds (t.erase name) q := by
  rw [holds_erase]
  constructor
  · intro h
    obtain ⟨n, hn⟩ := h
    by_cases hname : n = name
    · rw [hname, AList.lookup_insert] at hn
      exact Or.inl (Option.some.inj hn).symm
    · exact Or.inr ⟨n, hname, AList.lookup_insert_ne hname ▸ hn⟩
  · intro h
    rcases h with rfl | ⟨n, hname, hn⟩
    · exact ⟨name, AList.lookup_insert t⟩
    · exact ⟨n, (AList.lookup_insert_ne hname).trans hn⟩

/-- The order in which a hash table is iterated: every entry once. -/
structure IterOrder where
  visit : List (Σ _ : String, MicroSegPolicy) → List (Σ _ : String, MicroSegPolicy)
  perm : ∀ l, (visit l).Perm l

def IterOrder.forward : IterOrder := ⟨id, List.Perm.refl⟩

section

variable {ε Map : Type} (update : PolicyKey → PolicyVal → EStateM ε Map Unit)
  (clear : EStateM ε Map Unit)

def recompileAll (order : IterOrder) (policies : PolicyTable) (m : Map) : Map :=
  (order.visit policies.entries).foldl
    (fun m entry => settled (compilePolicy update entry.2.spec) m) (settled clear m)

structure PolicyLoop (Map : Type) where
  policies : PolicyTable
  map : Map

/-- One event, with the iteration order a recompilation would see. -/
def policyLoop : Machine (PolicyLoop Map) (PolicyEvent × IterOrder) Empty where
  step s
    | (.added p, _) =>
        (⟨s.policies.insert p.key p, settled (compilePolicy update p.spec) s.map⟩, [])
    | (.modified p, _) =>
        (⟨s.policies.insert p.key p, settled (compilePolicy update p.spec) s.map⟩, [])
    | (.deleted name, order) =>
        (⟨s.policies.erase name, recompileAll update clear order (s.policies.erase name) s.map⟩,
          [])

end

/-! ## On the hash map -/

abbrev enforcer : Machine (PolicyLoop PolicyMap) (PolicyEvent × IterOrder) Empty :=
  policyLoop updatePolicyEntry clearPolicyMap

def PolicyLoop.new : PolicyLoop PolicyMap := ⟨∅, fun _ => none⟩

/-- The value of the last policy written under the key, the newest first. -/
def lastWritten (journal : List PolicySpec) (k : PolicyKey) : Option PolicyEntry :=
  (journal.find? fun spec => decide (k ∈ spec.keys)).map fun spec => spec.val.entry

theorem foldl_settled (entries : List (Σ _ : String, MicroSegPolicy)) (journal : List PolicySpec)
    (m : PolicyMap) (hm : m = lastWritten journal) :
    entries.foldl (fun m entry => settled (compilePolicy updatePolicyEntry entry.2.spec) m) m =
      lastWritten ((entries.map fun e => e.2.spec).reverse ++ journal) := by
  induction entries generalizing m journal with
  | nil => simpa using hm
  | cons entry rest ih =>
      have hfirst : settled (compilePolicy updatePolicyEntry entry.2.spec) m =
          lastWritten (entry.2.spec :: journal) := by
        funext k
        rw [settled_compilePolicy, hm]
        by_cases hk : k ∈ entry.2.spec.keys <;> simp [lastWritten, hk]
      rw [List.foldl_cons, ih _ _ hfirst]
      simp

theorem recompileAll_eq (order : IterOrder) (policies : PolicyTable) (m : PolicyMap) :
    recompileAll updatePolicyEntry clearPolicyMap order policies m =
      lastWritten ((order.visit policies.entries).map fun e => e.2.spec).reverse := by
  have hclear : settled clearPolicyMap m = lastWritten [] := rfl
  unfold recompileAll
  rw [foldl_settled _ [] _ hclear, List.append_nil]

theorem lastWritten_isSome_iff {journal : List PolicySpec} {k : PolicyKey} :
    (lastWritten journal k).isSome = true ↔ ∃ spec ∈ journal, k ∈ spec.keys := by
  simp [lastWritten]

theorem mem_visit_iff {order : IterOrder} {t : PolicyTable} {spec : PolicySpec} :
    spec ∈ (((order.visit t.entries).map fun e => e.2.spec).reverse) ↔
      ∃ p, Holds t p ∧ p.spec = spec := by
  rw [List.mem_reverse, ((order.perm t.entries).map _).mem_iff, List.mem_map]
  constructor
  · intro h
    obtain ⟨e, he, hspec⟩ := h
    exact ⟨e.2, ⟨e.1, AList.mem_lookup_iff.mpr he⟩, hspec⟩
  · intro h
    obtain ⟨p, ⟨name, hp⟩, hspec⟩ := h
    exact ⟨⟨name, p⟩, AList.mem_lookup_iff.mp hp, hspec⟩

def webToDbOn (port : UInt16) : MicroSegPolicy :=
  ⟨⟨"web-to-db", "production"⟩, { webToDb with ports := some [⟨some "TCP", some port⟩] }⟩

end Caiman.Microseg
