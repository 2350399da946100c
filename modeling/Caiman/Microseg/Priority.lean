import Caiman.Microseg.Loop

/-!
# Priority

Which policy decides a flow. The loop stores the priority of a policy and never
looks at it: a flow is decided by the most specific key that has been written for
it, and there by the policy written last. The journal below is the list of the
policies written since the map was last rebuilt, the newest first; replaced
policies are in it too.
-/

namespace Caiman.Microseg

open Lib

/-! ## The journal -/

def journalAfter (s : PolicyLoop PolicyMap) (journal : List PolicySpec) :
    PolicyEvent × IterOrder → List PolicySpec
  | (.added p, _) | (.modified p, _) => p.spec :: journal
  | (.deleted name, order) =>
      ((order.visit (s.policies.erase name).entries).map fun e => e.2.spec).reverse

def journal (events : List (PolicyEvent × IterOrder)) : List PolicySpec :=
  enforcer.track journalAfter .new [] events

theorem step_map {s : PolicyLoop PolicyMap} {specs : List PolicySpec}
    (a : PolicyEvent × IterOrder) (h : s.map = lastWritten specs) :
    (enforcer.step s a).1.map = lastWritten (journalAfter s specs a) := by
  have hcompile : ∀ spec : PolicySpec, settled (compilePolicy updatePolicyEntry spec) s.map =
      lastWritten (spec :: specs) := by
    intro spec
    funext k
    rw [settled_compilePolicy, h]
    by_cases hk : k ∈ spec.keys <;> simp [lastWritten, hk]
  obtain ⟨event, order⟩ := a
  cases event with
  | added p => exact hcompile p.spec
  | modified p => exact hcompile p.spec
  | deleted name => exact recompileAll_eq order _ _

/-- The map is what the journal wrote, the newest entry of a key winning. -/
theorem run_map (events : List (PolicyEvent × IterOrder)) :
    (enforcer.run .new events).1.map = lastWritten (journal events) :=
  enforcer.run_tracked (R := fun s specs => s.map = lastWritten specs) (P := fun _ _ => True)
    (fun _ _ a hs _ => step_map a hs) rfl (enforcer.allSteps_of (fun _ _ => trivial) _ _)

/-! ## The deciding key -/

/-- The most specific key of the flow that has been written. -/
def frontKey (specs : List PolicySpec) (f : Flow) : Option PolicyKey :=
  f.lookupKeys.find? fun k => specs.any fun spec => decide (k ∈ spec.keys)

theorem frontKey_congr {specs specs' : List PolicySpec} (h : ∀ spec, spec ∈ specs ↔ spec ∈ specs')
    (f : Flow) : frontKey specs f = frontKey specs' f := by
  unfold frontKey
  congr 1
  funext k
  rw [Bool.eq_iff_iff]
  simp only [List.any_eq_true, h]

theorem exists_of_frontKey {specs : List PolicySpec} {f : Flow} {k : PolicyKey}
    (h : frontKey specs f = some k) : ∃ spec ∈ specs, k ∈ spec.keys := by
  have hany := List.find?_some h
  simpa using hany

/-- The verdict is the action of the policy written last under the deciding key,
and the default of the destination if there is no such key. -/
theorem verdict_lastWritten (specs : List PolicySpec) (defaults : DefaultPolicyMap) (f : Flow) :
    f.verdict (lastWritten specs) defaults =
      match frontKey specs f with
      | some k => ((lastWritten specs k).map PolicyEntry.verdict).getD Verdict.deny.code
      | none => (defaults f.dstId).getD Verdict.deny.code := by
  have hwritten : ∀ k, (specs.any fun spec => decide (k ∈ spec.keys)) =
      (lastWritten specs k).isSome := by
    intro k
    rw [Bool.eq_iff_iff, lastWritten_isSome_iff]
    simp
  rw [verdict_eq]
  unfold frontKey
  simp only [hwritten]
  generalize f.lookupKeys = ks
  induction ks with
  | nil => rfl
  | cons k ks ih =>
      cases hk : lastWritten specs k with
      | some v => simp [hk]
      | none => simpa [hk] using ih

theorem lastWritten_cons_of_mem {spec : PolicySpec} {specs : List PolicySpec} {k : PolicyKey}
    (h : k ∈ spec.keys) : lastWritten (spec :: specs) k = some spec.val.entry := by
  simp [lastWritten, h]

theorem exists_of_lastWritten {specs : List PolicySpec} {k : PolicyKey}
    (h : ∃ spec ∈ specs, k ∈ spec.keys) :
    ∃ spec ∈ specs, k ∈ spec.keys ∧ lastWritten specs k = some spec.val.entry := by
  obtain ⟨spec, hspec, hk⟩ := h
  cases hfind : specs.find? fun spec => decide (k ∈ spec.keys) with
  | none =>
      have hnot := List.find?_eq_none.mp hfind spec hspec
      simp [hk] at hnot
  | some w =>
      refine ⟨w, List.mem_of_find?_eq_some hfind, ?_, by simp [lastWritten, hfind]⟩
      simpa using List.find?_some hfind

/-! ## Priority -/

/-- A policy that matches the flow with the smallest priority number of all that
do. -/
structure Best (held : MicroSegPolicy → Prop) (f : Flow) (p : MicroSegPolicy) : Prop where
  among : held p
  fits : p.spec.Matches f
  least : ∀ q, held q → q.spec.Matches f → p.spec.priority ≤ q.spec.priority

/-- A flow that some policy matches gets the action of a matching policy of highest
priority. -/
def Decided (held : MicroSegPolicy → Prop) (policyMap : PolicyMap) (defaults : DefaultPolicyMap)
    (f : Flow) : Prop :=
  (∃ p, held p ∧ p.spec.Matches f) →
    ∃ p, Best held f p ∧ f.verdict policyMap defaults = p.spec.action.verdict.code

/-- Whoever has been written under the deciding key of the flow has the action of a
matching policy of highest priority, in whatever order they were written. -/
def Unopposed (held : MicroSegPolicy → Prop) (specs : List PolicySpec)
    (defaults : DefaultPolicyMap) (f : Flow) : Prop :=
  (∃ p, held p ∧ p.spec.Matches f) →
    match frontKey specs f with
    | some k =>
        ∀ spec ∈ specs, k ∈ spec.keys → ∃ p, Best held f p ∧ spec.action = p.spec.action
    | none =>
        ∃ p, Best held f p ∧
          (defaults f.dstId).getD Verdict.deny.code = p.spec.action.verdict.code

theorem verdict_code_injective {a b : PolicyAction} (h : a.verdict.code = b.verdict.code) :
    a = b := by
  cases a <;> cases b <;> first | rfl | exact absurd h (by decide)

variable {held : MicroSegPolicy → Prop} {defaults : DefaultPolicyMap} {f : Flow}

theorem Unopposed.decided {specs : List PolicySpec} (h : Unopposed held specs defaults f) :
    Decided held (lastWritten specs) defaults f := by
  intro hmatch
  have hfront := h hmatch
  rw [verdict_lastWritten]
  cases hkey : frontKey specs f with
  | none => simpa [hkey] using hfront
  | some k =>
      rw [hkey] at hfront
      obtain ⟨spec, hspec, hk, hlast⟩ := exists_of_lastWritten (exists_of_frontKey hkey)
      obtain ⟨p, hp, haction⟩ := hfront spec hspec hk
      refine ⟨p, hp, ?_⟩
      simp [hlast, PolicySpec.val, PolicyVal.entry, haction]

theorem unopposed_of_orders {α : Type} {g : α → PolicySpec} {items : List α}
    (h : ∀ order : List α, order.Perm items →
      Decided held (lastWritten (order.map g)) defaults f) :
    Unopposed held (items.map g) defaults f := by
  intro hmatch
  cases hkey : frontKey (items.map g) f with
  | none =>
      have hdecided := h items (List.Perm.refl _) hmatch
      rw [verdict_lastWritten, hkey] at hdecided
      exact hdecided
  | some k =>
      intro spec hspec hk
      obtain ⟨item, hitem, rfl⟩ := List.mem_map.mp hspec
      -- the order in which `item` is the newest
      obtain ⟨before, after, rfl⟩ := List.append_of_mem hitem
      have hperm : (item :: (before ++ after)).Perm (before ++ item :: after) :=
        List.perm_middle.symm
      obtain ⟨p, hp, hverdict⟩ := h _ hperm hmatch
      refine ⟨p, hp, ?_⟩
      rw [verdict_lastWritten, frontKey_congr (fun _ => (hperm.map g).mem_iff), hkey] at hverdict
      dsimp only at hverdict
      rw [List.map_cons, lastWritten_cons_of_mem hk] at hverdict
      exact verdict_code_injective hverdict

theorem unopposed_congr {specs specs' : List PolicySpec}
    (h : ∀ spec, spec ∈ specs ↔ spec ∈ specs') :
    Unopposed held specs defaults f ↔ Unopposed held specs' defaults f := by
  unfold Unopposed
  rw [frontKey_congr h]
  simp only [h]

/-- Exactly the unopposed sets of policies decide the flow by priority in every
order. -/
theorem orders_decided_iff {α : Type} {g : α → PolicySpec} {items : List α} :
    (∀ order : List α, order.Perm items → Decided held (lastWritten (order.map g)) defaults f) ↔
      Unopposed held (items.map g) defaults f := by
  refine ⟨unopposed_of_orders, fun h order horder => ?_⟩
  exact ((unopposed_congr fun _ => (horder.map g).mem_iff).mpr h).decided

/-! ## Orders of events and of iteration -/

theorem run_added (ps : List MicroSegPolicy) (order : IterOrder)
    (hnames : (ps.map MicroSegPolicy.key).Nodup) (s : PolicyLoop PolicyMap)
    (hnew : ∀ p ∈ ps, s.policies.lookup p.key = none) :
    (∀ q, Holds (enforcer.run s (ps.map fun p => (.added p, order))).1.policies q ↔
        q ∈ ps ∨ Holds s.policies q) ∧
      ∀ specs, enforcer.track journalAfter s specs (ps.map fun p => (.added p, order)) =
        (ps.map MicroSegPolicy.spec).reverse ++ specs := by
  induction ps generalizing s with
  | nil => simp [Machine.track]
  | cons p ps ih =>
      rw [List.map_cons, List.nodup_cons] at hnames
      have hremove : ∀ q, Holds (s.policies.erase p.key) q ↔ Holds s.policies q := by
        intro q
        rw [holds_erase]
        constructor
        · intro h
          obtain ⟨name, -, hq⟩ := h
          exact ⟨name, hq⟩
        · intro h
          obtain ⟨name, hq⟩ := h
          refine ⟨name, ?_, hq⟩
          intro hname
          rw [hname, hnew p List.mem_cons_self] at hq
          cases hq
      have hnext : ∀ p' ∈ ps,
          (enforcer.step s (.added p, order)).1.policies.lookup p'.key = none := by
        intro p' hp'
        have hne : p'.key ≠ p.key := fun heq => hnames.1 (List.mem_map.mpr ⟨p', hp', heq⟩)
        exact (AList.lookup_insert_ne hne).trans (hnew p' (List.mem_cons_of_mem _ hp'))
      obtain ⟨hholds, htrack⟩ := ih hnames.2 _ hnext
      constructor
      · intro q
        rw [List.map_cons, Machine.run_cons]
        dsimp only
        rw [hholds q]
        have hstep : Holds (enforcer.step s (.added p, order)).1.policies q ↔
            q = p ∨ Holds s.policies q := by
          rw [← hremove q]
          exact holds_insert
        rw [hstep, List.mem_cons]
        tauto
      · intro specs
        rw [List.map_cons, Machine.track, htrack]
        simp [journalAfter]

theorem added_new (ps : List MicroSegPolicy) (order : IterOrder)
    (hnames : (ps.map MicroSegPolicy.key).Nodup) :
    (∀ q, Holds (enforcer.run .new (ps.map fun p => (.added p, order))).1.policies q ↔ q ∈ ps) ∧
      journal (ps.map fun p => (.added p, order)) = (ps.map MicroSegPolicy.spec).reverse := by
  obtain ⟨hholds, htrack⟩ := run_added ps order hnames .new fun _ _ => rfl
  refine ⟨fun q => ?_, by rw [journal, htrack, List.append_nil]⟩
  rw [hholds q]
  simp [PolicyLoop.new, not_holds_empty]

theorem exists_iterOrder {l l' : List (Σ _ : String, MicroSegPolicy)} (h : l'.Perm l) :
    ∃ order : IterOrder, order.visit l = l' := by
  classical
  refine ⟨⟨fun x => if x = l then l' else x, ?_⟩, if_pos rfl⟩
  intro x
  split
  · rename_i hx
    rw [hx]
    exact h
  · exact List.Perm.refl _

/-- For every flow. In every run: if whoever wrote the deciding key has the action of
a matching policy of highest priority, so has the verdict. For policies that are
added in any order, and for those a deletion leaves, iterated in any order, that
condition is also necessary. -/
theorem policy_priority_iff (defaults : DefaultPolicyMap) (f : Flow) :
    (∀ events,
      Unopposed (Holds (enforcer.run .new events).1.policies) (journal events) defaults f →
        Decided (Holds (enforcer.run .new events).1.policies) (enforcer.run .new events).1.map
          defaults f) ∧
    (∀ ps : List MicroSegPolicy, (ps.map MicroSegPolicy.key).Nodup →
      ((∀ arrival : List MicroSegPolicy, arrival.Perm ps → ∀ order,
          Decided (· ∈ ps) (enforcer.run .new (arrival.map fun p => (.added p, order))).1.map
            defaults f) ↔
        Unopposed (· ∈ ps) (ps.map MicroSegPolicy.spec) defaults f)) ∧
    ∀ events name,
      let left := (enforcer.run .new events).1.policies.erase name
      (∀ order, Decided (Holds left)
          (enforcer.run .new (events ++ [(.deleted name, order)])).1.map defaults f) ↔
        Unopposed (Holds left) (left.entries.map fun e => e.2.spec) defaults f := by
  refine ⟨fun events h => ?_, fun ps hnames => ?_, fun events name => ?_⟩
  · rw [run_map]
    exact h.decided
  · rw [← orders_decided_iff]
    constructor
    · intro h order horder
      have hrev : order.reverse.Perm ps := (List.reverse_perm order).trans horder
      have hnames' : (order.reverse.map MicroSegPolicy.key).Nodup :=
        (hrev.map _).nodup_iff.mpr hnames
      have hdecided := h order.reverse hrev .forward
      rw [run_map, (added_new _ _ hnames').2] at hdecided
      simpa using hdecided
    · intro h arrival harrival order
      have hnames' : (arrival.map MicroSegPolicy.key).Nodup :=
        (harrival.map _).nodup_iff.mpr hnames
      rw [run_map, (added_new _ _ hnames').2]
      have hrev : arrival.reverse.Perm ps := (List.reverse_perm arrival).trans harrival
      simpa using h _ hrev
  · intro left
    have hmap : ∀ order, (enforcer.run .new (events ++ [(.deleted name, order)])).1.map =
        lastWritten ((order.visit left.entries).reverse.map fun e => e.2.spec) := by
      intro order
      rw [Machine.run_append, Machine.run_cons, Machine.run_nil]
      exact (recompileAll_eq order left _).trans (by rw [List.map_reverse])
    rw [← orders_decided_iff]
    constructor
    · intro h order horder
      obtain ⟨iter, hiter⟩ := exists_iterOrder ((List.reverse_perm order).trans horder)
      have hdecided := h iter
      rw [hmap, hiter, List.reverse_reverse] at hdecided
      exact hdecided
    · intro h order
      rw [hmap]
      exact h _ ((List.reverse_perm _).trans (order.perm _))

def webToDbFlow : Flow :=
  ⟨labelsToIdentity ⟨[("app", "web")], List.nodup_singleton "app"⟩,
    labelsToIdentity ⟨[("app", "db")], List.nodup_singleton "app"⟩, 6, 5432⟩

/-- Everything from web servers to databases. -/
def webToDbAll (name : String) (priority : UInt8) (action : PolicyAction) : MicroSegPolicy :=
  ⟨⟨name, "production"⟩, { webToDb with priority := priority, action := action, ports := none }⟩

/-- An allowance of priority 100 for one port, and a denial of priority 200. -/
def portAllowed : List MicroSegPolicy := [webToDbOn 5432, webToDbAll "block" 200 .deny]

/-- The port makes the difference, in either order. -/
theorem policy_priority_iff_webToDb :
    ∀ arrival : List MicroSegPolicy, arrival.Perm portAllowed → ∀ order,
      Decided (· ∈ portAllowed)
        (enforcer.run .new (arrival.map fun p => (.added p, order))).1.map (fun _ => none)
        webToDbFlow := by
  refine ((policy_priority_iff _ _).2.1 _ (by decide)).mpr ?_
  intro _
  have hmatch : (webToDbOn 5432).spec.Matches webToDbFlow := by decide +kernel
  have hfront : (frontKey (portAllowed.map MicroSegPolicy.spec) webToDbFlow).any (fun k =>
      (portAllowed.map MicroSegPolicy.spec).all fun spec =>
        decide (k ∈ spec.keys → spec.action = .allow)) = true := by
    decide +kernel
  obtain ⟨k, hk, hallow⟩ := (Option.any_eq_true _ _).mp hfront
  rw [hk]
  intro spec hspec hkey
  have hbest : Best (· ∈ portAllowed) webToDbFlow (webToDbOn 5432) := by
    refine ⟨List.mem_cons_self, hmatch, ?_⟩
    intro q hq _
    have hleast : ∀ q ∈ portAllowed, (webToDbOn 5432).spec.priority ≤ q.spec.priority := by decide
    exact hleast q hq
  exact ⟨webToDbOn 5432, hbest, of_decide_eq_true (List.all_eq_true.mp hallow spec hspec) hkey⟩

/-- A denial of priority 5 and an allowance of priority 10: the one that comes last
wins. -/
theorem last_added_wins :
    let block := webToDbAll "block" 5 .deny
    let permit := webToDbAll "permit" 10 .allow
    let s := (enforcer.run .new [(.added block, .forward), (.added permit, .forward)]).1
    ¬ Decided (Holds s.policies) s.map (fun _ => none) webToDbFlow := by
  intro block permit s hdecided
  have hblock : block.spec.Matches webToDbFlow := by decide +kernel
  have hheld : Holds s.policies block := ⟨block.key, rfl⟩
  have hverdict : webToDbFlow.verdict s.map (fun _ => none) = Verdict.allow.code := by
    decide +kernel
  obtain ⟨p, hp, haction⟩ := hdecided ⟨block, hheld, hblock⟩
  have hleast := hp.least block hheld hblock
  rw [hverdict] at haction
  obtain ⟨name, hname⟩ := hp.among
  rcases List.mem_cons.mp (AList.mem_lookup_iff.mp hname) with hfirst | hrest
  · -- the allowance is not the best match
    cases hfirst
    exact absurd hleast (by decide)
  · cases List.mem_singleton.mp hrest
    exact absurd haction (by decide)

end Caiman.Microseg
