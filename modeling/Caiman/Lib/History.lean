import Caiman.Lib.Run
import Mathlib.Data.List.Forall2

/-!
# What every event is preceded by

A trace is warranted when each of its events is, by the events before it. A machine whose state
agrees with what has happened so far, and whose every step emits events that this warrants, has
warranted traces only.
-/

namespace Caiman.Lib

variable {State Action Event : Type}

/-- Each event is warranted by the past and the events before it. -/
def Warranted (good : List Event → Event → Prop) : List Event → List Event → Prop
  | _, [] => True
  | past, e :: es => good past e ∧ Warranted good (past ++ [e]) es

theorem warranted_append {good : List Event → Event → Prop} {past es fs : List Event} :
    Warranted good past (es ++ fs) ↔ Warranted good past es ∧ Warranted good (past ++ es) fs := by
  induction es generalizing past with
  | nil => simp [Warranted]
  | cons e es ih => simp [Warranted, ih, and_assoc]

theorem warranted_iff {good : List Event → Event → Prop} {past es : List Event} :
    Warranted good past es ↔ ∀ pre e post, es = pre ++ e :: post → good (past ++ pre) e := by
  induction es generalizing past with
  | nil =>
      refine iff_of_true trivial ?_
      intro pre e post h
      cases pre <;> cases h
  | cons f es ih =>
      constructor
      · intro h pre e post hsplit
        cases pre with
        | nil =>
            cases hsplit
            simpa using h.1
        | cons c pre =>
            cases hsplit
            simpa using ih.mp h.2 pre e post rfl
      · intro h
        refine ⟨by simpa using h [] f es rfl, ih.mpr ?_⟩
        intro pre e post hsplit
        simpa using h (f :: pre) e post (by rw [hsplit, List.cons_append])

theorem warranted_of_forall {good : List Event → Event → Prop} {es : List Event}
    (h : ∀ past, ∀ e ∈ es, good past e) (past : List Event) : Warranted good past es := by
  induction es generalizing past with
  | nil => trivial
  | cons e es ih =>
      refine ⟨h past e List.mem_cons_self, ih ?_ _⟩
      intro past' f hf
      exact h past' f (List.mem_cons_of_mem e hf)

namespace Machine

variable (m : Machine State Action Event)

/-- A relation of the past to the state that each admitted step keeps and that warrants its
events: the trace of a run is warranted, and the relation holds at its end. -/
theorem run_warranted {good : List Event → Event → Prop} {R : List Event → State → Prop}
    {P : State → Action → Prop}
    (hstep : ∀ past s a, R past s → P s a →
      Warranted good past (m.step s a).2 ∧ R (past ++ (m.step s a).2) (m.step s a).1)
    {past : List Event} {s : State} {as : List Action} (hs : R past s) (hall : m.AllSteps P s as) :
    Warranted good past (m.run s as).2 ∧ R (past ++ (m.run s as).2) (m.run s as).1 := by
  induction as generalizing past s with
  | nil => exact ⟨trivial, by simpa using hs⟩
  | cons a as ih =>
      obtain ⟨hfirst, hnext⟩ := hstep past s a hs hall.1
      obtain ⟨hrest, hlast⟩ := ih hnext hall.2
      refine ⟨warranted_append.mpr ⟨hfirst, hrest⟩, ?_⟩
      rw [run_cons, ← List.append_assoc]
      exact hlast

theorem forall_run_warranted {good : List Event → Event → Prop} {R : List Event → State → Prop}
    {P : State → Action → Prop}
    (hstep : ∀ past s a, R past s → P s a →
      Warranted good past (m.step s a).2 ∧ R (past ++ (m.step s a).2) (m.step s a).1)
    {s : State} {as : List Action} (hs : R [] s) (hall : m.AllSteps P s as)
    {pre post : List Event} {e : Event} (htrace : (m.run s as).2 = pre ++ e :: post) :
    good pre e :=
  warranted_iff.mp (m.run_warranted hstep hs hall).1 pre e post htrace

/-- A relation of the past to the state, kept by every admitted step. -/
theorem run_related {R : List Event → State → Prop} {P : State → Action → Prop}
    (hstep : ∀ past s a, R past s → P s a → R (past ++ (m.step s a).2) (m.step s a).1)
    {s : State} {as : List Action} (hs : R [] s) (hall : m.AllSteps P s as) :
    R (m.run s as).2 (m.run s as).1 := by
  have hwarranted (past : List Event) (s : State) (a : Action) (h : R past s) (ha : P s a) :
      Warranted (fun _ _ => True) past (m.step s a).2 ∧
        R (past ++ (m.step s a).2) (m.step s a).1 :=
    ⟨warranted_of_forall (fun _ _ _ => trivial) past, hstep past s a h ha⟩
  exact (m.run_warranted hwarranted hs hall).2

/-- Two machines on the same actions, in states that stay in a relation, emit events that pair
up. -/
theorem run_forall₂ {State' Action' Event' : Type} (m' : Machine State' Action' Event')
    {f : Action → Action'} {R : State → State' → Prop} {Q : Event → Event' → Prop}
    (hstep : ∀ s s' a, R s s' →
      List.Forall₂ Q (m.step s a).2 (m'.step s' (f a)).2 ∧ R (m.step s a).1 (m'.step s' (f a)).1)
    {s : State} {s' : State'} (h : R s s') (as : List Action) :
    List.Forall₂ Q (m.run s as).2 (m'.run s' (as.map f)).2 := by
  induction as generalizing s s' with
  | nil => exact List.Forall₂.nil
  | cons a as ih =>
      obtain ⟨hfirst, hnext⟩ := hstep s s' a h
      exact List.rel_append hfirst (ih hnext)

/-- What is taken in goes through in order: where each step gives out the front of what it held and
took, what a run gave out and what is held at its end are what was held at first and taken since. -/
theorem run_fifo {α : Type} {held : State → List α} {took gave : Event → List α}
    (hstep : ∀ s a, held s ++ (m.step s a).2.flatMap took =
      (m.step s a).2.flatMap gave ++ held (m.step s a).1) (s : State) (as : List Action) :
    held s ++ (m.run s as).2.flatMap took =
      (m.run s as).2.flatMap gave ++ held (m.run s as).1 := by
  induction as generalizing s with
  | nil => simp
  | cons a as ih =>
      rw [run_cons, List.flatMap_append, List.flatMap_append, ← List.append_assoc, hstep,
        List.append_assoc, ih, List.append_assoc]

end Machine

end Caiman.Lib
