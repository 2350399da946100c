import Caiman.Microseg.Loop

/-!
# Stale entries

The keys of the map against the keys of the policies held. A deletion rebuilds
the map and the two agree; a policy that comes in under a name that is taken is
compiled on top, and the keys of the one it replaces stay unless they are written
again.
-/

namespace Caiman.Microseg

open Lib

/-- The map has the keys of the policies held, and no others. -/
def PolicyLoop.Exact (s : PolicyLoop PolicyMap) : Prop :=
  ∀ k, (s.map k).isSome = true ↔ ∃ p, Holds s.policies p ∧ k ∈ p.spec.keys

/-- Each key of a policy that is replaced belongs to the new one or to another
policy held. -/
def KeysCovered (s : PolicyLoop PolicyMap) : PolicyEvent × IterOrder → Prop
  | (.added p, _) | (.modified p, _) =>
      ∀ old, s.policies.lookup p.key = some old → ∀ k ∈ old.spec.keys,
        k ∈ p.spec.keys ∨ ∃ q, Holds (s.policies.erase p.key) q ∧ k ∈ q.spec.keys
  | (.deleted _, _) => True

theorem new_exact : PolicyLoop.new.Exact := by
  intro k
  simp [PolicyLoop.new, not_holds_empty]

theorem compiled_exact_iff {s : PolicyLoop PolicyMap} (hs : s.Exact) (p : MicroSegPolicy) :
    (PolicyLoop.mk (s.policies.insert p.key p)
        (settled (compilePolicy updatePolicyEntry p.spec) s.map)).Exact ↔
      ∀ old, s.policies.lookup p.key = some old → ∀ k ∈ old.spec.keys,
        k ∈ p.spec.keys ∨ ∃ q, Holds (s.policies.erase p.key) q ∧ k ∈ q.spec.keys := by
  have hmap : ∀ k, (settled (compilePolicy updatePolicyEntry p.spec) s.map k).isSome = true ↔
      k ∈ p.spec.keys ∨ ∃ q, Holds s.policies q ∧ k ∈ q.spec.keys := by
    intro k
    rw [settled_compilePolicy, ← hs k]
    by_cases hk : k ∈ p.spec.keys <;> simp [hk]
  have hheld : ∀ k, (∃ q, Holds (s.policies.insert p.key p) q ∧ k ∈ q.spec.keys) ↔
      k ∈ p.spec.keys ∨ ∃ q, Holds (s.policies.erase p.key) q ∧ k ∈ q.spec.keys := by
    intro k
    simp only [holds_insert, or_and_right, exists_or, exists_eq_left]
  unfold PolicyLoop.Exact
  simp only [hmap, hheld]
  constructor
  · intro h old hold k hk
    exact (h k).mp (Or.inr ⟨old, ⟨_, hold⟩, hk⟩)
  · intro h k
    constructor
    · rintro (hk | ⟨q, ⟨name, hq⟩, hk⟩)
      · exact Or.inl hk
      · by_cases hname : name = p.key
        · rw [hname] at hq
          exact h q hq k hk
        · exact Or.inr ⟨q, holds_erase.mpr ⟨name, hname, hq⟩, hk⟩
    · rintro (hk | ⟨q, hq, hk⟩)
      · exact Or.inl hk
      · obtain ⟨name, -, hname⟩ := holds_erase.mp hq
        exact Or.inr ⟨q, ⟨name, hname⟩, hk⟩

theorem recompiled_exact (order : IterOrder) (policies : PolicyTable) (m : PolicyMap) :
    (PolicyLoop.mk policies
      (recompileAll updatePolicyEntry clearPolicyMap order policies m)).Exact := by
  intro k
  dsimp only
  rw [recompileAll_eq, lastWritten_isSome_iff]
  constructor
  · rintro ⟨spec, hspec, hk⟩
    obtain ⟨p, hp, rfl⟩ := mem_visit_iff.mp hspec
    exact ⟨p, hp, hk⟩
  · rintro ⟨p, hp, hk⟩
    exact ⟨p.spec, mem_visit_iff.mpr ⟨p, hp, rfl⟩, hk⟩

theorem step_exact_iff (s : PolicyLoop PolicyMap) (a : PolicyEvent × IterOrder) (hs : s.Exact) :
    (enforcer.step s a).1.Exact ↔ KeysCovered s a := by
  obtain ⟨event, order⟩ := a
  cases event with
  | added p => exact compiled_exact_iff hs p
  | modified p => exact compiled_exact_iff hs p
  | deleted name => exact iff_of_true (recompiled_exact order _ _) trivial

/-- For every sequence of events: after each of them the map has the keys of the
policies held and no others, exactly when no event replaces a policy one of whose
keys then belongs to no policy held. -/
theorem no_stale_entries_iff (events : List (PolicyEvent × IterOrder)) :
    (∀ pre, pre <+: events → (enforcer.run .new pre).1.Exact) ↔
      enforcer.AllSteps KeysCovered .new events :=
  enforcer.prefixes_iff_allSteps step_exact_iff new_exact events

/-- The key of port 5432 is still there, and the policy held has another. -/
theorem modified_leaves_old_key :
    ¬ (enforcer.run .new
      [(.added (webToDbOn 5432), .forward), (.modified (webToDbOn 5433), .forward)]).1.Exact := by
  intro hs
  have hfirst : (enforcer.step .new (.added (webToDbOn 5432), .forward)).1.Exact :=
    (step_exact_iff _ _ new_exact).mpr fun old hold => by cases hold
  have hcovered := (step_exact_iff _ (.modified (webToDbOn 5433), .forward) hfirst).mp hs
  have hheld : (enforcer.step .new (.added (webToDbOn 5432), .forward)).1.policies.lookup
      (webToDbOn 5433).key = some (webToDbOn 5432) := AList.lookup_insert _
  let k : PolicyKey := ⟨labelsToIdentity ⟨[("app", "web")], by decide⟩,
    labelsToIdentity ⟨[("app", "db")], by decide⟩, 6, 5432⟩
  have hold : k ∈ (webToDbOn 5432).spec.keys := by decide +kernel
  have hnew : k ∉ (webToDbOn 5433).spec.keys := by decide +kernel
  rcases hcovered _ hheld k hold with hk | ⟨q, hq, -⟩
  · exact hnew hk
  · -- nothing is held under another name
    obtain ⟨name, hne, hname⟩ := holds_erase.mp hq
    have hother : (∅ : PolicyTable).lookup name = some q :=
      (AList.lookup_insert_ne hne).symm.trans hname
    cases hother

end Caiman.Microseg
