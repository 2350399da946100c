import Mathlib.Data.List.Basic
import Mathlib.Logic.Function.Basic

/-!
# Runs of event-emitting machines

A machine takes one action at a time, moves to a new state and emits a list of
events. Runs are taken over arbitrary action lists, so a statement about every
run covers every interleaving of the actors whose steps the actions name. The
two rules at the end carry an invariant, and the state of a trace monitor,
along a whole run from what a single step does.
-/

namespace Caiman.Lib

structure Machine (State Action Event : Type) where
  step : State → Action → State × List Event

namespace Machine

variable {State Action Event : Type} (m : Machine State Action Event)

def run : State → List Action → State × List Event
  | s, [] => (s, [])
  | s, a :: as =>
      let first := m.step s a
      let rest := run first.1 as
      (rest.1, first.2 ++ rest.2)

/-- Every step of the run satisfies `P`, judged in the state it starts from. -/
def AllSteps (P : State → Action → Prop) : State → List Action → Prop
  | _, [] => True
  | s, a :: as => P s a ∧ AllSteps P (m.step s a).1 as

instance decidableAllSteps (P : State → Action → Prop) [∀ s a, Decidable (P s a)] :
    ∀ (s : State) (as : List Action), Decidable (m.AllSteps P s as)
  | _, [] => isTrue trivial
  | s, a :: as =>
      have := decidableAllSteps P (m.step s a).1 as
      inferInstanceAs (Decidable (_ ∧ _))

@[simp] theorem run_nil (s : State) : m.run s [] = (s, []) := rfl

@[simp] theorem run_cons (s : State) (a : Action) (as : List Action) :
    m.run s (a :: as) =
      ((m.run (m.step s a).1 as).1, (m.step s a).2 ++ (m.run (m.step s a).1 as).2) := rfl

theorem run_append (s : State) (as bs : List Action) :
    m.run s (as ++ bs) =
      ((m.run (m.run s as).1 bs).1, (m.run s as).2 ++ (m.run (m.run s as).1 bs).2) := by
  induction as generalizing s with
  | nil => simp
  | cons a as ih => simp [ih, List.append_assoc]

/-- A property of states that each admitted step keeps holds along the run. -/
theorem run_invariant {I : State → Prop} {P : State → Action → Prop}
    (hstep : ∀ s a, I s → P s a → I (m.step s a).1) {s : State} {as : List Action}
    (hs : I s) (hall : m.AllSteps P s as) : I (m.run s as).1 := by
  induction as generalizing s with
  | nil => exact hs
  | cons a as ih => exact ih (hstep s a hs hall.1) hall.2

/-- A property that every step keeps, whatever the action. -/
theorem run_inductive {I : State → Prop} (hstep : ∀ s a, I s → I (m.step s a).1) {s : State}
    (hs : I s) (as : List Action) : I (m.run s as).1 := by
  induction as generalizing s with
  | nil => exact hs
  | cons a as ih => exact ih (hstep s a hs)

/-- Two states in a relation that every step keeps, emitting the same events, are
told apart by no run. -/
theorem run_simulation {R : State → State → Prop}
    (hstep : ∀ s s' a, R s s' →
      (m.step s' a).2 = (m.step s a).2 ∧ R (m.step s a).1 (m.step s' a).1)
    {s s' : State} (h : R s s') (as : List Action) :
    (m.run s' as).2 = (m.run s as).2 ∧ R (m.run s as).1 (m.run s' as).1 := by
  induction as generalizing s s' with
  | nil => exact ⟨rfl, h⟩
  | cons a as ih =>
      obtain ⟨hevents, hnext⟩ := hstep s s' a h
      obtain ⟨hrest, hlast⟩ := ih hnext
      exact ⟨by rw [run_cons, run_cons, hevents, hrest], hlast⟩

/-- Every step of a run satisfies `P` exactly when each step does in the state the
run before it leads to. -/
theorem allSteps_iff_split {P : State → Action → Prop} {s : State} {as : List Action} :
    m.AllSteps P s as ↔ ∀ pre a post, as = pre ++ a :: post → P (m.run s pre).1 a := by
  induction as generalizing s with
  | nil =>
      refine iff_of_true trivial ?_
      intro pre a post h
      cases pre <;> cases h
  | cons b as ih =>
      constructor
      · rintro ⟨hfirst, hrest⟩ pre a post h
        cases pre with
        | nil =>
            cases h
            exact hfirst
        | cons c pre =>
            cases h
            exact ih.mp hrest pre a post rfl
      · intro h
        refine ⟨h [] b as rfl, ih.mpr ?_⟩
        intro pre a post has
        exact h (b :: pre) a post (by rw [has, List.cons_append])

theorem allSteps_of {P : State → Action → Prop} (h : ∀ s a, P s a) (s : State)
    (as : List Action) : m.AllSteps P s as :=
  m.allSteps_iff_split.mpr fun _ _ _ _ => h _ _

theorem allSteps_and {P Q : State → Action → Prop} {s : State} {as : List Action} :
    m.AllSteps (fun s a => P s a ∧ Q s a) s as ↔ m.AllSteps P s as ∧ m.AllSteps Q s as := by
  induction as generalizing s with
  | nil => exact (and_iff_left trivial).symm
  | cons a as ih =>
      simp only [AllSteps, ih]
      exact and_and_and_comm

theorem allSteps_append {P : State → Action → Prop} {s : State} {as bs : List Action} :
    m.AllSteps P s (as ++ bs) ↔ m.AllSteps P s as ∧ m.AllSteps P (m.run s as).1 bs := by
  induction as generalizing s with
  | nil => simp [AllSteps]
  | cons a as ih => simp [AllSteps, ih, and_assoc]

theorem prefixes_invariant {I : State → Prop} {P : State → Action → Prop}
    (hstep : ∀ s a, I s → P s a → I (m.step s a).1) {s : State} {as pre : List Action}
    (hs : I s) (hall : m.AllSteps P s as) (hpre : pre <+: as) : I (m.run s pre).1 := by
  obtain ⟨post, rfl⟩ := hpre
  exact m.run_invariant hstep hs (m.allSteps_append.mp hall).1

/-- Of a step that starts well, the state after it and `G` of the step are as they should
be exactly when it is admitted; then the same is so of a run and all its steps. -/
theorem prefixes_and_allSteps_iff {I : State → Prop} {G P : State → Action → Prop}
    (hstep : ∀ s a, I s → (I (m.step s a).1 ∧ G s a ↔ P s a)) {s : State} (hs : I s)
    (as : List Action) :
    (∀ pre, pre <+: as → I (m.run s pre).1) ∧ m.AllSteps G s as ↔ m.AllSteps P s as := by
  induction as generalizing s with
  | nil => simp [AllSteps, hs]
  | cons a as ih =>
      constructor
      · intro h
        obtain ⟨hprefixes, hfirst, hrest⟩ := h
        have hnext : I (m.step s a).1 := hprefixes [a] ⟨as, rfl⟩
        refine ⟨(hstep s a hs).mp ⟨hnext, hfirst⟩, (ih hnext).mp ⟨?_, hrest⟩⟩
        intro pre hpre
        exact hprefixes (a :: pre) (List.cons_prefix_cons.mpr ⟨rfl, hpre⟩)
      · intro h
        obtain ⟨hfirst, hrest⟩ := h
        obtain ⟨hnext, hgood⟩ := (hstep s a hs).mpr hfirst
        obtain ⟨hprefixes, htail⟩ := (ih hnext).mpr hrest
        refine ⟨?_, hgood, htail⟩
        intro pre hpre
        cases pre with
        | nil => exact hs
        | cons b pre =>
            obtain ⟨rfl, hshort⟩ := List.cons_prefix_cons.mp hpre
            exact hprefixes pre hshort

/-- A property that each step keeps exactly when it is admitted holds in every
state of a run exactly when every step of the run is admitted. -/
theorem prefixes_iff_allSteps {I : State → Prop} {P : State → Action → Prop}
    (hstep : ∀ s a, I s → (I (m.step s a).1 ↔ P s a)) {s : State} (hs : I s)
    (as : List Action) :
    (∀ pre, pre <+: as → I (m.run s pre).1) ↔ m.AllSteps P s as := by
  have hboth := m.prefixes_and_allSteps_iff (G := fun _ _ => True)
    (fun s a h => (iff_of_eq (and_true _)).trans (hstep s a h)) hs as
  rw [← hboth]
  exact (and_iff_left (m.allSteps_of (fun _ _ => trivial) s as)).symm

/-- A property that an invariant gives, where admitted steps keep the invariant and no other
step leads to the property, holds in every state of a run exactly when every step is admitted. -/
theorem prefixes_iff_of_invariant {I Q : State → Prop} {A P : State → Action → Prop}
    (hgives : ∀ s, I s → Q s) (hstep : ∀ s a, I s → A s a → P s a → I (m.step s a).1)
    (hneeds : ∀ s a, I s → A s a → Q (m.step s a).1 → P s a) {s : State} {as : List Action}
    (hs : I s) (hall : m.AllSteps A s as) :
    (∀ pre, pre <+: as → Q (m.run s pre).1) ↔ m.AllSteps P s as := by
  constructor
  · intro h
    induction as generalizing s with
    | nil => trivial
    | cons a as ih =>
        have hfirst : P s a := hneeds s a hs hall.1 (h [a] ⟨as, rfl⟩)
        refine ⟨hfirst, ih (hstep s a hs hall.1 hfirst) hall.2 ?_⟩
        intro pre hpre
        exact h (a :: pre) (List.cons_prefix_cons.mpr ⟨rfl, hpre⟩)
  · intro h pre hpre
    exact hgives _ (m.prefixes_invariant (fun s a hs ha => hstep s a hs ha.1 ha.2) hs
      (m.allSteps_and.mpr ⟨hall, h⟩) hpre)

theorem mem_run_iff {e : Event} {s : State} {as : List Action} :
    e ∈ (m.run s as).2 ↔
      ∃ pre a post, as = pre ++ a :: post ∧ e ∈ (m.step (m.run s pre).1 a).2 := by
  constructor
  · intro h
    induction as generalizing s with
    | nil => cases h
    | cons b as ih =>
        rw [run_cons] at h
        rcases List.mem_append.mp h with hfirst | hrest
        · exact ⟨[], b, as, rfl, hfirst⟩
        · obtain ⟨pre, a, post, rfl, he⟩ := ih hrest
          exact ⟨b :: pre, a, post, rfl, he⟩
  · rintro ⟨pre, a, post, rfl, he⟩
    rw [run_append, run_cons]
    exact List.mem_append_right _ (List.mem_append_left _ he)

theorem forall_mem_run_iff {P : Event → Prop} {s : State} {as : List Action} :
    (∀ e ∈ (m.run s as).2, P e) ↔ m.AllSteps (fun s a => ∀ e ∈ (m.step s a).2, P e) s as := by
  induction as generalizing s with
  | nil => simp [AllSteps]
  | cons a as ih => simp only [run_cons, List.forall_mem_append, ih, AllSteps]

theorem allSteps_congr {I : State → Prop} {P Q : State → Action → Prop}
    (hkeeps : ∀ s a, I s → I (m.step s a).1) (hiff : ∀ s a, I s → (P s a ↔ Q s a)) {s : State}
    (hs : I s) (as : List Action) : m.AllSteps P s as ↔ m.AllSteps Q s as := by
  induction as generalizing s with
  | nil => exact Iff.rfl
  | cons a as ih => exact and_congr (hiff s a hs) (ih (hkeeps s a hs))

theorem forall_prefix_cons {α : Type} {Q : List α → Prop} {x : α} {l : List α} :
    (∀ pre, pre <+: x :: l → Q pre) ↔ Q [] ∧ ∀ pre, pre <+: l → Q (x :: pre) := by
  constructor
  · intro h
    refine ⟨h [] List.nil_prefix, ?_⟩
    intro pre hpre
    exact h (x :: pre) (List.cons_prefix_cons.mpr ⟨rfl, hpre⟩)
  · intro h pre hpre
    rcases List.prefix_cons_iff.mp hpre with rfl | ⟨rest, rfl, hrest⟩
    · exact h.1
    · exact h.2 rest hrest

/-- Along a run, as much is taken as is dropped or held, when that is so of every step. -/
theorem run_account (taken dropped : Event → Bool) (held : State → Nat)
    (hstep : ∀ s a, (m.step s a).2.countP taken + held s =
      (m.step s a).2.countP dropped + held (m.step s a).1) (s : State) (as : List Action) :
    (m.run s as).2.countP taken + held s = (m.run s as).2.countP dropped + held (m.run s as).1 := by
  induction as generalizing s with
  | nil => rfl
  | cons a as ih =>
      have hfirst := hstep s a
      have hrest := ih (m.step s a).1
      rw [run_cons]
      simp only [List.countP_append]
      omega

/-- Nothing is dropped that is not held or taken before, when that is so in every step. -/
theorem run_covered (taken dropped : Event → Bool) (held : State → Nat)
    (hstep : ∀ s a, (m.step s a).2.countP taken + held s =
      (m.step s a).2.countP dropped + held (m.step s a).1)
    (hcover : ∀ s a pre, pre <+: (m.step s a).2 → pre.countP dropped ≤ pre.countP taken + held s)
    (s : State) (as : List Action) {pre : List Event} (hpre : pre <+: (m.run s as).2) :
    pre.countP dropped ≤ pre.countP taken + held s := by
  induction as generalizing s pre with
  | nil =>
      rw [List.prefix_nil.mp hpre]
      exact Nat.zero_le _
  | cons a as ih =>
      rw [run_cons] at hpre
      rcases List.prefix_or_prefix_of_prefix hpre (List.prefix_append _ _) with hfirst | ⟨rest, rfl⟩
      · exact hcover s a pre hfirst
      · have hone := hstep s a
        have hmany := ih (m.step s a).1 ((List.prefix_append_right_inj _).mp hpre)
        simp only [List.countP_append]
        omega

/-- Items come in with the events of `given`, leave with those of `taken` and are held in
between. When a good step passes them on in order and any other step loses some, then
nothing is lost exactly when every step is good. -/
theorem run_conserves {α : Type} (given taken : Event → List α) (held : State → List α)
    {P G : State → Action → Prop}
    (hgood : ∀ s a, P s a → G s a →
      held s ++ (m.step s a).2.flatMap given = (m.step s a).2.flatMap taken ++ held (m.step s a).1)
    (hbad : ∀ s a, P s a → ¬ G s a →
      ((m.step s a).2.flatMap taken ++ held (m.step s a).1).length <
        (held s ++ (m.step s a).2.flatMap given).length)
    {s : State} {as : List Action} (hall : m.AllSteps P s as) :
    held s ++ (m.run s as).2.flatMap given = (m.run s as).2.flatMap taken ++ held (m.run s as).1 ↔
      m.AllSteps G s as := by
  have hrun : (m.AllSteps G s as → held s ++ (m.run s as).2.flatMap given =
        (m.run s as).2.flatMap taken ++ held (m.run s as).1) ∧
      (¬ m.AllSteps G s as → ((m.run s as).2.flatMap taken ++ held (m.run s as).1).length <
        (held s ++ (m.run s as).2.flatMap given).length) := by
    induction as generalizing s with
    | nil => exact ⟨fun _ => List.append_nil _, fun h => absurd trivial h⟩
    | cons a as ih =>
        obtain ⟨hkept, hlost⟩ := ih hall.2
        have hfirst := hgood s a hall.1
        have hshort := hbad s a hall.1
        rw [run_cons, List.flatMap_append, List.flatMap_append]
        constructor
        · intro h
          rw [← List.append_assoc, hfirst h.1, List.append_assoc, hkept h.2, List.append_assoc]
        · intro h
          have hone : ((m.step s a).2.flatMap taken ++ held (m.step s a).1).length ≤
              (held s ++ (m.step s a).2.flatMap given).length := by
            by_cases hg : G s a
            · exact Nat.le_of_eq (congrArg List.length (hfirst hg).symm)
            · exact Nat.le_of_lt (hshort hg)
          have hmany : ((m.run (m.step s a).1 as).2.flatMap taken ++
                held (m.run (m.step s a).1 as).1).length ≤
              (held (m.step s a).1 ++ (m.run (m.step s a).1 as).2.flatMap given).length := by
            by_cases hg : m.AllSteps G (m.step s a).1 as
            · exact Nat.le_of_eq (congrArg List.length (hkept hg).symm)
            · exact Nat.le_of_lt (hlost hg)
          simp only [List.length_append] at hshort hlost hone hmany ⊢
          by_cases hg : G s a
          · have := hlost fun hr => h ⟨hg, hr⟩
            omega
          · have := hshort hg
            omega
  constructor
  · intro heq
    by_contra h
    exact absurd (congrArg List.length heq) (Nat.ne_of_gt (hrun.2 h))
  · exact hrun.1

/-- A value kept beside a run, updated from each action and the state it meets. -/
def track {H : Type} (upd : State → H → Action → H) : State → H → List Action → H
  | _, h, [] => h
  | s, h, a :: as => track upd (m.step s a).1 (upd s h a) as

/-- A relation between the state and a tracked value that each admitted step
keeps. -/
theorem run_tracked {H : Type} {upd : State → H → Action → H} {R : State → H → Prop}
    {P : State → Action → Prop} (hstep : ∀ s h a, R s h → P s a → R (m.step s a).1 (upd s h a))
    {s : State} {h : H} {as : List Action} (hs : R s h) (hall : m.AllSteps P s as) :
    R (m.run s as).1 (m.track upd s h as) := by
  induction as generalizing s h with
  | nil => exact hs
  | cons a as ih => exact ih (hstep s h a hs hall.1) hall.2

/-! ## Families -/

section

variable {ι : Type} [DecidableEq ι] (ms : ι → Machine State Action Event)

/-- Machines side by side, each action and event marked with the one it is of. -/
def family : Machine (ι → State) (ι × Action) (ι × Event) where
  step s a :=
    let next := (ms a.1).step (s a.1) a.2
    (Function.update s a.1 next.1, next.2.map fun e => (a.1, e))

/-- A property of each member that its own admitted steps keep holds along a run of
the family. -/
theorem family_invariant {I : ι → State → Prop} {P : ι → State → Action → Prop}
    (hstep : ∀ i s a, I i s → P i s a → I i ((ms i).step s a).1) {s : ι → State}
    {as : List (ι × Action)} (hs : ∀ i, I i (s i))
    (hall : (family ms).AllSteps (fun s a => P a.1 (s a.1) a.2) s as) (i : ι) :
    I i (((family ms).run s as).1 i) := by
  have hfamily : ∀ (s : ι → State) (a : ι × Action), (∀ i, I i (s i)) → P a.1 (s a.1) a.2 →
      ∀ i, I i (((family ms).step s a).1 i) := by
    intro s a hs ha i
    by_cases hi : i = a.1
    · subst hi
      simp only [family, Function.update_self]
      exact hstep a.1 (s a.1) a.2 (hs a.1) ha
    · simp only [family, Function.update_of_ne hi]
      exact hs i
  exact (family ms).run_invariant (I := fun s => ∀ i, I i (s i)) hfamily hs hall i

end

end Machine

/-- A property that every step either keeps or breaks, depending on the action
alone, holds in every state of a fold exactly when no action breaks it. -/
theorem foldl_prefixes_iff {State Action : Type} {f : State → Action → State} {P : State → Prop}
    {ok : Action → Prop} (hstep : ∀ s a, P s → (P (f s a) ↔ ok a)) {s : State} (hs : P s)
    (as : List Action) : (∀ pre, pre <+: as → P (pre.foldl f s)) ↔ ∀ a ∈ as, ok a := by
  induction as generalizing s with
  | nil => simp [hs]
  | cons a as ih =>
      constructor
      · intro h
        have ha : P (f s a) := h [a] (by simp)
        have hrest := (ih ha).mp fun pre hpre => h (a :: pre) (by simpa using hpre)
        simpa using ⟨(hstep s a hs).mp ha, hrest⟩
      · intro h pre hpre
        cases pre with
        | nil => exact hs
        | cons b pre =>
            obtain ⟨rfl, htail⟩ := List.cons_prefix_cons.mp hpre
            have ha : P (f s b) := (hstep s b hs).mpr (h b (by simp))
            exact (ih ha).mpr (fun c hc => h c (by simp [hc])) pre htail

/-- A trace monitor rejects by returning `none`. -/
def feed {Mon Event : Type} (check : Mon → Event → Option Mon) : Mon → List Event → Option Mon
  | mon, [] => some mon
  | mon, e :: es => (check mon e).bind fun mon' => feed check mon' es

theorem feed_append {Mon Event : Type} (check : Mon → Event → Option Mon) (mon : Mon)
    (es fs : List Event) :
    feed check mon (es ++ fs) = (feed check mon es).bind fun mon' => feed check mon' fs := by
  induction es generalizing mon with
  | nil => simp [feed]
  | cons e es ih =>
      cases h : check mon e with
      | none => simp [feed, h]
      | some mon' => simp [feed, h, ih]

/-- A monitor related to the machine's state step by step accepts the trace of
the whole run, and ends related to the final state. -/
theorem Machine.run_monitored {State Action Event Mon : Type} (m : Machine State Action Event)
    {check : Mon → Event → Option Mon} {R : State → Mon → Prop} {P : State → Action → Prop}
    (hstep : ∀ s a mon, R s mon → P s a →
      ∃ mon', feed check mon (m.step s a).2 = some mon' ∧ R (m.step s a).1 mon')
    {s : State} {mon : Mon} {as : List Action} (hs : R s mon) (hall : m.AllSteps P s as) :
    ∃ mon', feed check mon (m.run s as).2 = some mon' ∧ R (m.run s as).1 mon' := by
  induction as generalizing s mon with
  | nil => exact ⟨mon, rfl, hs⟩
  | cons a as ih =>
      obtain ⟨mid, hfeed, hmid⟩ := hstep s a mon hs hall.1
      obtain ⟨last, hrest, hlast⟩ := ih hmid hall.2
      refine ⟨last, ?_, hlast⟩
      rw [Machine.run_cons, feed_append, hfeed]
      exact hrest

end Caiman.Lib
