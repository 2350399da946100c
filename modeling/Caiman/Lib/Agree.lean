import Caiman.Lib.Triple

/-!
# Runs that cannot be told apart

Rules for two computations run from related states. They agree when both return the same value
or both stop with the same error, so that nothing told from the outside depends on which of the
two states a run starts from. How the states are related after a value may depend on the value;
after an error it is left open.
-/

namespace Caiman.Lib

variable {ε ε' σ σ' τ τ' α β : Type}

def Agree (R : σ → τ → Prop) (x : EStateM ε σ α) (y : EStateM ε τ α) (S : α → σ → τ → Prop) :
    Prop :=
  ∀ s t, R s t →
    match x.run s, y.run t with
    | .ok a s', .ok b t' => a = b ∧ S a s' t'
    | .error e _, .error f _ => e = f
    | _, _ => False

namespace Agree

variable {R : σ → τ → Prop} {S S' : α → σ → τ → Prop} {T : β → σ → τ → Prop}
  {x : EStateM ε σ α} {y : EStateM ε τ α}

theorem pure {a : α} (h : ∀ s t, R s t → S a s t) :
    Agree R (pure a : EStateM ε σ α) (pure a : EStateM ε τ α) S :=
  fun s t hR => ⟨rfl, h s t hR⟩

theorem throw {e : ε} : Agree R (throw e : EStateM ε σ α) (throw e : EStateM ε τ α) S :=
  fun _ _ _ => rfl

theorem bind {f : α → EStateM ε σ β} {g : α → EStateM ε τ β} (h : Agree R x y S)
    (hrest : ∀ a, Agree (S a) (f a) (g a) T) : Agree R (x >>= f) (y >>= g) T := by
  intro s t hR
  have hfirst := h s t hR
  rw [EStateM.run_bind, EStateM.run_bind]
  cases hx : x.run s with
  | ok a s' =>
      cases hy : y.run t with
      | ok b t' =>
          rw [hx, hy] at hfirst
          obtain ⟨rfl, hS⟩ := hfirst
          exact hrest a s' t' hS
      | error f t' =>
          rw [hx, hy] at hfirst
          exact hfirst.elim
  | error e s' =>
      cases hy : y.run t with
      | ok b t' =>
          rw [hx, hy] at hfirst
          exact hfirst.elim
      | error f t' =>
          rw [hx, hy] at hfirst
          exact hfirst

theorem get {f : σ → EStateM ε σ α} {g : τ → EStateM ε τ α}
    (h : ∀ s t, R s t → Agree R (f s) (g t) S) : Agree R (get >>= f) (get >>= g) S :=
  fun s t hR => h s t hR s t hR

theorem modify {f : σ → σ} {g : τ → τ} {S : Unit → σ → τ → Prop}
    (h : ∀ s t, R s t → S () (f s) (g t)) :
    Agree R (modify f : EStateM ε σ Unit) (modify g : EStateM ε τ Unit) S :=
  fun s t hR => ⟨rfl, h s t hR⟩

theorem ite {c : Prop} [Decidable c] {x' : EStateM ε σ α} {y' : EStateM ε τ α}
    (hpos : c → Agree R x y S) (hneg : ¬ c → Agree R x' y' S) :
    Agree R (if c then x else x') (if c then y else y') S := by
  by_cases hc : c
  · rw [if_pos hc, if_pos hc]
    exact hpos hc
  · rw [if_neg hc, if_neg hc]
    exact hneg hc

/-- A fact about neither state moves out of the relation. -/
theorem assume {p : Prop} (h : p → Agree R x y S) : Agree (fun s t => R s t ∧ p) x y S :=
  fun s t hR => h hR.2 s t hR.1

theorem imp_ok (h : Agree R x y S) (hok : ∀ a s t, S a s t → S' a s t) : Agree R x y S' := by
  intro s t hR
  have hboth := h s t hR
  cases hx : x.run s <;> cases hy : y.run t <;> rw [hx, hy] at hboth
  · exact ⟨hboth.1, hok _ _ _ hboth.2⟩
  · exact hboth
  · exact hboth
  · exact hboth

theorem of_outcome {P : σ → Prop} {P' : τ → Prop} {Q : α → σ → Prop} {Q' : α → τ → Prop}
    {outcome : Except ε α}
    (hx : Triple P x (fun a s => Q a s ∧ outcome = .ok a) (fun e _ => outcome = .error e))
    (hy : Triple P' y (fun a t => Q' a t ∧ outcome = .ok a) (fun e _ => outcome = .error e)) :
    Agree (fun s t => P s ∧ P' t) x y (fun a s t => Q a s ∧ Q' a t) := by
  intro s t hR
  have hfirst := hx s hR.1
  have hsecond := hy t hR.2
  cases hrunx : x.run s <;> cases hruny : y.run t <;>
    rw [hrunx] at hfirst <;> rw [hruny] at hsecond
  · obtain ⟨hQ, hout⟩ := hfirst
    obtain ⟨hQ', hout'⟩ := hsecond
    obtain rfl := Except.ok.inj (hout.symm.trans hout')
    exact ⟨rfl, hQ, hQ'⟩
  · cases hfirst.2.symm.trans hsecond
  · cases hfirst.symm.trans hsecond.2
  · exact Except.error.inj (hfirst.symm.trans hsecond)

/-- One computation on equal parts of the two states. -/
theorem zoom_eq {part : Type} {x : EStateM ε part α} {get : σ → part} {set : part → σ → σ}
    {get' : τ → part} {set' : part → τ → τ} {err : ε → ε'}
    (heq : ∀ s t, R s t → get s = get' t)
    (hset : ∀ a s t p, R s t → S a (set p s) (set' p t)) :
    Agree R (zoom get set err x) (zoom get' set' err x) S := by
  intro s t hR
  rw [run_zoom, run_zoom, heq s t hR]
  cases hx : x.run (get' t) with
  | ok a p => exact ⟨rfl, hset a s t p hR⟩
  | error e p => rfl

theorem zoom {part part' : Type} {R₀ : part → part' → Prop} {S₀ : α → part → part' → Prop}
    {x : EStateM ε part α} {y : EStateM ε part' α} {get : σ → part} {set : part → σ → σ}
    {get' : τ → part'} {set' : part' → τ → τ} {err : ε → ε'} (h : Agree R₀ x y S₀)
    (hget : ∀ s t, R s t → R₀ (get s) (get' t))
    (hset : ∀ a s t p q, R s t → S₀ a p q → S a (set p s) (set' q t)) :
    Agree R (Lib.zoom get set err x) (Lib.zoom get' set' err y) S := by
  intro s t hR
  have hboth := h (get s) (get' t) (hget s t hR)
  rw [run_zoom, run_zoom]
  cases hx : x.run (get s) <;> cases hy : y.run (get' t) <;> rw [hx, hy] at hboth
  · exact ⟨hboth.1, hset _ _ _ _ _ hR hboth.2⟩
  · exact hboth
  · exact hboth
  · exact congrArg err hboth

end Agree

end Caiman.Lib
