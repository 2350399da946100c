import Mathlib.Data.List.Basic

/-!
# Pre- and postconditions for fallible stateful code

Rules for computations that carry a state and may stop with an error, the state
reached by then being kept. A triple speaks about both ends: what holds when a
value is returned and what holds when the computation stops.
-/

namespace Caiman.Lib

variable {ε ε' σ τ α β : Type}

/-- From a state with `P`, a value returned satisfies `Q` and an error satisfies
`E`, each with the state it leaves. -/
def Triple (P : σ → Prop) (x : EStateM ε σ α) (Q : α → σ → Prop) (E : ε → σ → Prop) : Prop :=
  ∀ s, P s →
    match x.run s with
    | .ok a s' => Q a s'
    | .error e s' => E e s'

namespace Triple

variable {P P' : σ → Prop} {Q Q' : α → σ → Prop} {E E' : ε → σ → Prop} {x y : EStateM ε σ α}

theorem ok {s s' : σ} {a : α} (h : Triple P x Q E) (hs : P s) (hrun : x.run s = .ok a s') :
    Q a s' := by
  have hpost := h s hs
  rwa [hrun] at hpost

theorem error {s s' : σ} {e : ε} (h : Triple P x Q E) (hs : P s) (hrun : x.run s = .error e s') :
    E e s' := by
  have hpost := h s hs
  rwa [hrun] at hpost

theorem conseq (h : Triple P x Q E) (hpre : ∀ s, P' s → P s) (hok : ∀ a s, Q a s → Q' a s)
    (herr : ∀ e s, E e s → E' e s) : Triple P' x Q' E' := by
  intro s hs
  have hpost := h s (hpre s hs)
  cases hrun : x.run s with
  | ok a s' =>
      rw [hrun] at hpost
      exact hok a s' hpost
  | error e s' =>
      rw [hrun] at hpost
      exact herr e s' hpost

theorem imp_ok (h : Triple P x Q E) (hok : ∀ a s, Q a s → Q' a s) : Triple P x Q' E :=
  h.conseq (fun _ hs => hs) hok fun _ _ he => he

theorem imp_error (h : Triple P x Q E) (herr : ∀ e s, E e s → E' e s) : Triple P x Q E' :=
  h.conseq (fun _ hs => hs) (fun _ _ hs => hs) herr

theorem pure {a : α} (h : ∀ s, P s → Q a s) : Triple P (pure a : EStateM ε σ α) Q E :=
  fun s hs => h s hs

theorem throw {e : ε} (h : ∀ s, P s → E e s) : Triple P (throw e : EStateM ε σ α) Q E :=
  fun s hs => h s hs

theorem bind {f : α → EStateM ε σ β} {R : β → σ → Prop} (hx : Triple P x Q E)
    (hf : ∀ a, Triple (Q a) (f a) R E) : Triple P (x >>= f) R E := by
  intro s hs
  have hfirst := hx s hs
  rw [EStateM.run_bind]
  cases hrun : x.run s with
  | ok a s' =>
      rw [hrun] at hfirst
      exact hf a s' hfirst
  | error e s' =>
      rw [hrun] at hfirst
      exact hfirst

theorem ite {c : Prop} [Decidable c] (hpos : c → Triple P x Q E) (hneg : ¬ c → Triple P y Q E) :
    Triple P (if c then x else y) Q E := by
  by_cases hc : c
  · rw [if_pos hc]
    exact hpos hc
  · rw [if_neg hc]
    exact hneg hc

/-- A fact about no state in particular moves out of the precondition. -/
theorem assume {p : Prop} (h : p → Triple P x Q E) : Triple (fun s => P s ∧ p) x Q E :=
  fun s hs => h hs.2 s hs.1

/-- A step that returns a value with a fact about it and no state in particular. -/
theorem step {R : σ → Prop} {p : α → Prop} {f : α → EStateM ε σ β} {Q : β → σ → Prop}
    (hx : Triple P x (fun a s => R s ∧ p a) E) (hf : ∀ a, p a → Triple R (f a) Q E) :
    Triple P (x >>= f) Q E :=
  bind hx fun a => assume (hf a)

/-- The state read and what is done with it. -/
theorem get {f : σ → EStateM ε σ α} (h : ∀ s, P s → Triple (fun t => t = s) (f s) Q E) :
    Triple P (get >>= f) Q E := fun s hs => h s hs s rfl

theorem modify {f : σ → σ} {Q : Unit → σ → Prop} (h : ∀ s, P s → Q () (f s)) :
    Triple P (modify f : EStateM ε σ Unit) Q E := fun s hs => h s hs

/-- What each turn of a loop over a list carries on, the whole loop does. A turn may use where
in the list it is. -/
theorem foldlM {f : β → α → EStateM ε σ β} {I : List α → β → σ → Prop} {E : ε → σ → Prop}
    {l : List α} (hturn : ∀ seen a rest, l = seen ++ a :: rest → ∀ b,
      Triple (I seen b) (f b a) (I (seen ++ [a])) E) (b : β) :
    Triple (I [] b) (l.foldlM f b) (I l) E := by
  have hloop : ∀ rest seen b, l = seen ++ rest →
      Triple (I seen b) (rest.foldlM f b) (I l) E := by
    intro rest
    induction rest with
    | nil =>
        intro seen b hl
        rw [hl, List.append_nil]
        exact pure fun _ hs => hs
    | cons a rest ih =>
        intro seen b hl
        rw [List.foldlM_cons]
        apply bind (hturn seen a rest hl b)
        exact fun b' => ih (seen ++ [a]) b' (by rw [hl, List.append_assoc]; rfl)
  exact hloop l [] b rfl

end Triple

/-- A computation on a part of the state, its errors translated. -/
def zoom (get : σ → τ) (set : τ → σ → σ) (err : ε → ε') (x : EStateM ε τ α) :
    EStateM ε' σ α := fun s =>
  match x.run (get s) with
  | .ok a t => .ok a (set t s)
  | .error e t => .error (err e) (set t s)

theorem run_zoom (get : σ → τ) (set : τ → σ → σ) (err : ε → ε') (x : EStateM ε τ α) (s : σ) :
    (zoom get set err x).run s =
      match x.run (get s) with
      | .ok a t => .ok a (set t s)
      | .error e t => .error (err e) (set t s) := rfl

theorem Triple.zoom {get : σ → τ} {set : τ → σ → σ} {err : ε → ε'} {x : EStateM ε τ α}
    {P : σ → Prop} {Q : α → σ → Prop} {E : ε' → σ → Prop}
    (h : ∀ s, P s → Triple (fun t => t = get s) x (fun a t => Q a (set t s))
      (fun e t => E (err e) (set t s))) : Triple P (Lib.zoom get set err x) Q E := by
  intro s hs
  have hpart := h s hs (get s) rfl
  rw [run_zoom]
  cases hrun : x.run (get s) with
  | ok a t =>
      rw [hrun] at hpart
      exact hpart
  | error e t =>
      rw [hrun] at hpart
      exact hpart

end Caiman.Lib
