import Caiman.Microseg.Compiler

/-!
# Selector semantics

When the entries of a policy speak about a pair of VMs. Each VM is known by the
identity of its full label set, and a selector by the identity of its own labels:
an entry is there when the two texts are the same, whereas a selector is meant to
match every VM that carries its labels among others.
-/

namespace Caiman.Microseg

/-! ## What the entries cover -/

def record (k : PolicyKey) (v : PolicyVal) :
    EStateM Empty (List (PolicyKey × PolicyVal)) Unit :=
  modify fun entries => entries ++ [(k, v)]

theorem compilePolicy_record (spec : PolicySpec) (entries : List (PolicyKey × PolicyVal)) :
    (compilePolicy record spec).run entries = .ok () (entries ++ compiledEntries spec) := by
  unfold compilePolicy
  induction compiledEntries spec generalizing entries with
  | nil => simp [EStateM.run, pure, EStateM.pure]
  | cons e rest ih =>
      rw [List.forM_cons, EStateM.run_bind]
      have hfirst : (record e.1 e.2).run entries = .ok () (entries ++ [e]) := rfl
      rw [hfirst]
      dsimp only
      rw [ih, List.append_assoc, List.singleton_append]

def Covers (spec : PolicySpec) (srcId dstId : UInt32) : Prop :=
  ∃ entry ∈ compiledEntries spec, entry.1.srcId = srcId ∧ entry.1.dstId = dstId

theorem portEntries_ids {spec : PolicySpec} {srcId dstId : UInt32}
    {entry : PolicyKey × PolicyVal} (h : entry ∈ portEntries spec srcId dstId) :
    entry.1.srcId = srcId ∧ entry.1.dstId = dstId := by
  unfold portEntries at h
  dsimp only at h
  split at h
  · rw [List.mem_singleton] at h
    rw [h]
    exact ⟨rfl, rfl⟩
  · obtain ⟨rule, -, rfl⟩ := List.mem_map.mp h
    exact ⟨rfl, rfl⟩

theorem portEntries_ne_nil (spec : PolicySpec) (srcId dstId : UInt32) :
    portEntries spec srcId dstId ≠ [] := by
  unfold portEntries
  dsimp only
  split
  · simp
  · rename_i hports
    simpa using hports

theorem covers_iff {spec : PolicySpec} {srcId dstId : UInt32} :
    Covers spec srcId dstId ↔
      srcId ∈ resolveIdentities spec.sources ∧
        dstId ∈ resolveIdentities spec.destinations := by
  unfold Covers compiledEntries
  constructor
  · rintro ⟨entry, hentry, hids⟩
    obtain ⟨src, hsrc, hrest⟩ := List.mem_flatMap.mp hentry
    obtain ⟨dst, hdst, hports⟩ := List.mem_flatMap.mp hrest
    obtain ⟨hs, hd⟩ := portEntries_ids hports
    rw [← hids.1, ← hids.2, hs, hd]
    exact ⟨hsrc, hdst⟩
  · rintro ⟨hsrc, hdst⟩
    obtain ⟨entry, hports⟩ := List.exists_mem_of_ne_nil _ (portEntries_ne_nil spec srcId dstId)
    refine ⟨entry, ?_, portEntries_ids hports⟩
    exact List.mem_flatMap.mpr ⟨srcId, hsrc, List.mem_flatMap.mpr ⟨dstId, hdst, hports⟩⟩

/-! ## Matching -/

/-- `matchLabels` as in Kubernetes: every label of the selector is one of the VM's. -/
def LabelSelector.Matches (sel : LabelSelector) (labels : Labels) : Prop :=
  ∀ p ∈ sel.matchLabels.pairs, p ∈ labels.pairs

instance (sel : LabelSelector) (labels : Labels) : Decidable (sel.Matches labels) :=
  inferInstanceAs (Decidable (∀ p ∈ sel.matchLabels.pairs, p ∈ labels.pairs))

/-- Some selector matches the source and some selector the destination. -/
def Selects (spec : PolicySpec) (src dst : Labels) : Prop :=
  (∃ sel ∈ spec.sources, sel.Matches src) ∧ ∃ sel ∈ spec.destinations, sel.Matches dst

/-- Some selector has the text of the whole label set. -/
def Spells (selectors : List LabelSelector) (labels : Labels) : Prop :=
  ∃ sel ∈ selectors, sel.matchLabels.combined = labels.combined

def involved (spec : PolicySpec) (src dst : Labels) : List Labels :=
  src :: dst :: (spec.sources ++ spec.destinations).map LabelSelector.matchLabels

/-- Equal identities come from equal texts. -/
def NoCollision (sets : List Labels) : Prop :=
  ∀ a ∈ sets, ∀ b ∈ sets, labelsToIdentity a = labelsToIdentity b → a.combined = b.combined

instance (sets : List Labels) : Decidable (NoCollision sets) :=
  inferInstanceAs (Decidable (∀ a ∈ sets, ∀ b ∈ sets,
    labelsToIdentity a = labelsToIdentity b → a.combined = b.combined))

theorem mem_resolveIdentities_iff {selectors : List LabelSelector} {labels : Labels}
    {sets : List Labels} (hno : NoCollision sets) (hlabels : labels ∈ sets)
    (hsets : ∀ sel ∈ selectors, sel.matchLabels ∈ sets) :
    labelsToIdentity labels ∈ resolveIdentities selectors ↔ Spells selectors labels := by
  unfold resolveIdentities Spells
  rw [List.mem_map]
  constructor
  · rintro ⟨sel, hsel, hid⟩
    exact ⟨sel, hsel, hno _ (hsets sel hsel) _ hlabels hid⟩
  · rintro ⟨sel, hsel, htext⟩
    refine ⟨sel, hsel, ?_⟩
    unfold labelsToIdentity
    rw [htext]

/-- For every policy and pair of VMs, without collisions: the entries cover the pair
exactly when the selectors match it, just when matching and spelling out the whole
label sets come to the same. -/
theorem selector_semantics_iff (spec : PolicySpec) (src dst : Labels)
    (hno : NoCollision (involved spec src dst)) :
    (Covers spec (labelsToIdentity src) (labelsToIdentity dst) ↔ Selects spec src dst) ↔
      ((Spells spec.sources src ∧ Spells spec.destinations dst) ↔ Selects spec src dst) := by
  have hsrc : labelsToIdentity src ∈ resolveIdentities spec.sources ↔
      Spells spec.sources src := by
    apply mem_resolveIdentities_iff hno
    · simp [involved]
    · intro sel hsel
      simp only [involved, List.mem_cons, List.mem_map, List.mem_append]
      exact Or.inr (Or.inr ⟨sel, Or.inl hsel, rfl⟩)
  have hdst : labelsToIdentity dst ∈ resolveIdentities spec.destinations ↔
      Spells spec.destinations dst := by
    apply mem_resolveIdentities_iff hno
    · simp [involved]
    · intro sel hsel
      simp only [involved, List.mem_cons, List.mem_map, List.mem_append]
      exact Or.inr (Or.inr ⟨sel, Or.inr hsel, rfl⟩)
  rw [covers_iff, hsrc, hdst]

def webToDb : PolicySpec where
  priority := 100
  action := .allow
  sources := [⟨⟨[("app", "web")], by decide⟩⟩]
  destinations := [⟨⟨[("app", "db")], by decide⟩⟩]
  ports := some [⟨some "TCP", some 5432⟩]

theorem selector_semantics_iff_webToDb :
    let web : Labels := ⟨[("app", "web")], by decide⟩
    let db : Labels := ⟨[("app", "db")], by decide⟩
    (Covers webToDb (labelsToIdentity web) (labelsToIdentity db) ↔ Selects webToDb web db) ↔
      ((Spells webToDb.sources web ∧ Spells webToDb.destinations db) ↔
        Selects webToDb web db) :=
  selector_semantics_iff webToDb _ _ (by decide +kernel)

/-- The VMs carry a label more than the selectors name. -/
theorem extra_label_not_covered :
    let web : Labels := ⟨[("env", "prod"), ("app", "web")], by decide⟩
    let db : Labels := ⟨[("app", "db"), ("env", "prod")], by decide⟩
    NoCollision (involved webToDb web db) ∧ Selects webToDb web db ∧
      ¬ Covers webToDb (labelsToIdentity web) (labelsToIdentity db) := by
  intro web db
  refine ⟨by decide +kernel, ⟨⟨_, List.mem_cons_self, by decide⟩,
    ⟨_, List.mem_cons_self, by decide⟩⟩, ?_⟩
  rw [covers_iff]
  decide +kernel

end Caiman.Microseg
