import Mathlib.Data.Finset.Card
import Caiman.Lib.Select

/-!
# Ranks in a stable sort

A sort that is stable puts an element ahead of another when it compares less, or equal and it
came first. What is chosen of the sorted list, the first of every key and of these the first
few, is then told by what is ahead of an element, with no list in order at hand.
-/

namespace Caiman.Lib.Select

variable {α β γ κ : Type}

/-- A comparison of an order on some of the elements; the others have no answer. -/
structure Lawful (cmp : α → α → Option Ordering) : Prop where
  swap : ∀ a b, cmp b a = (cmp a b).map Ordering.swap
  trans : ∀ a b c, (cmp a b = some .lt ∨ cmp a b = some .eq) →
    (cmp b c = some .lt ∨ cmp b c = some .eq) → cmp a c = some .lt ∨ cmp a c = some .eq

/-- Less, or equal and before. -/
def Ahead (cmp : α → α → Option Ordering) (before : α → α → Prop) (a b : α) : Prop :=
  cmp a b = some .lt ∨ cmp a b = some .eq ∧ before a b

instance (cmp : α → α → Option Ordering) (before : α → α → Prop) [DecidableRel before] :
    DecidableRel (Ahead cmp before) := fun _ _ => inferInstanceAs (Decidable (_ ∨ _))

variable {cmp : α → α → Option Ordering} {before : α → α → Prop} {a b : α}

theorem Lawful.gt_iff (h : Lawful cmp) : cmp a b = some .gt ↔ cmp b a = some .lt := by
  rw [h.swap a b]
  cases cmp a b with
  | none => simp
  | some o => cases o <;> simp

theorem Lawful.not_gt_self (h : Lawful cmp) (a : α) : cmp a a ≠ some .gt := by
  intro hgt
  have hlt := h.gt_iff.mp hgt
  rw [hgt] at hlt
  cases hlt

theorem Lawful.comap (h : Lawful cmp) (f : β → α) : Lawful fun x y => cmp (f x) (f y) where
  swap x y := h.swap (f x) (f y)
  trans x y z := h.trans (f x) (f y) (f z)

theorem Lawful.flip (h : Lawful cmp) : Lawful fun a b => cmp b a where
  swap a b := h.swap b a
  trans a b c hab hbc := h.trans c b a hbc hab

theorem Ahead.asymm (h : Lawful cmp) (hbefore : before a b → ¬ before b a)
    (hab : Ahead cmp before a b) : ¬ Ahead cmp before b a := by
  unfold Ahead
  rw [h.swap a b]
  rcases hab with hlt | ⟨heq, hfirst⟩
  · simp [hlt]
  · simp [heq, hbefore hfirst]

theorem le_of_not_gt (hsome : (cmp a b).isSome = true) (hnot : cmp a b ≠ some .gt) :
    cmp a b = some .lt ∨ cmp a b = some .eq := by
  obtain ⟨o, ho⟩ := Option.isSome_iff_exists.mp hsome
  cases o with
  | lt => exact Or.inl ho
  | eq => exact Or.inr ho
  | gt => exact absurd ho hnot

theorem Ahead.of_le (hle : cmp a b = some .lt ∨ cmp a b = some .eq) (hfirst : before a b) :
    Ahead cmp before a b := hle.imp_right fun heq => ⟨heq, hfirst⟩

theorem Ahead.le (h : Ahead cmp before a b) : cmp a b = some .lt ∨ cmp a b = some .eq :=
  h.imp_right And.left

/-! ## Stability -/

/-- An element that came before all of a sorted list goes to its place in it. -/
theorem pairwise_orderedInsert (h : Lawful cmp) {l : List α}
    (hsome : ∀ b ∈ l, (cmp a b).isSome = true) (hfirst : ∀ b ∈ l, before a b)
    (hl : l.Pairwise (Ahead cmp before)) :
    (l.orderedInsert (fun a b => cmp a b ≠ some .gt) a).Pairwise (Ahead cmp before) := by
  induction l with
  | nil => simp
  | cons b l ih =>
      obtain ⟨hb, hl⟩ := List.pairwise_cons.mp hl
      by_cases hab : cmp a b ≠ some .gt
      · rw [List.orderedInsert_cons_of_le (fun a b => cmp a b ≠ some .gt) l hab]
        have hle := le_of_not_gt (hsome b List.mem_cons_self) hab
        refine List.pairwise_cons.mpr ⟨fun c hc => ?_, List.pairwise_cons.mpr ⟨hb, hl⟩⟩
        rcases List.mem_cons.mp hc with rfl | hc
        · exact Ahead.of_le hle (hfirst c List.mem_cons_self)
        · exact Ahead.of_le (h.trans a b c hle (hb c hc).le)
            (hfirst c (List.mem_cons_of_mem b hc))
      · rw [List.orderedInsert_of_not_le (fun a b => cmp a b ≠ some .gt) l hab]
        refine List.pairwise_cons.mpr ⟨fun c hc => ?_, ?_⟩
        · rcases (List.mem_orderedInsert _).mp hc with rfl | hc
          · exact Or.inl (h.gt_iff.mp (not_not.mp hab))
          · exact hb c hc
        · exact ih (fun c hc => hsome c (List.mem_cons_of_mem b hc))
            (fun c hc => hfirst c (List.mem_cons_of_mem b hc)) hl

/-- Equal elements stay in their order. -/
theorem sortBy_stable (h : Lawful cmp) {l sorted : List α} (hl : l.Pairwise before)
    (hsort : sortBy cmp l = some sorted) : sorted.Pairwise (Ahead cmp before) := by
  unfold sortBy at hsort
  split at hsort
  · rename_i hsome
    cases hsort
    induction l with
    | nil => exact List.Pairwise.nil
    | cons a l ih =>
        obtain ⟨ha, hl⟩ := List.pairwise_cons.mp hl
        obtain ⟨hcmp, hsome⟩ := List.pairwise_cons.mp hsome
        rw [List.insertionSort_cons]
        apply pairwise_orderedInsert h
        · exact fun b hb => hcmp b ((List.mem_insertionSort _).mp hb)
        · exact fun b hb => ha b ((List.mem_insertionSort _).mp hb)
        · exact ih hl hsome
  · cases hsort

/-- What is carried along by the elements does not change where they go. -/
theorem sortBy_map (f : β → α) (l : List β) :
    sortBy cmp (l.map f) = (sortBy (fun x y => cmp (f x) (f y)) l).map (List.map f) := by
  unfold sortBy
  simp only [List.pairwise_map]
  split
  · rw [Option.map_some, List.map_insertionSort (fun x y => cmp (f x) (f y) ≠ some .gt)
      (fun a b => cmp a b ≠ some .gt) f l fun _ _ _ _ => Iff.rfl]
  · rfl

/-! ### Numbers of what is expanded -/

/-- The elements with what each is expanded to, numbered throughout. -/
def blocks (f : α → List γ) : Nat → List α → List (α × List (γ × Nat))
  | _, [] => []
  | start, a :: as => (a, (f a).zipIdx start) :: blocks f (start + (f a).length) as

variable {f : α → List γ}

theorem blocks_map_fst (start : Nat) (l : List α) : (blocks f start l).map Prod.fst = l := by
  induction l generalizing start with
  | nil => rfl
  | cons a l ih => rw [blocks, List.map_cons, ih]

theorem blocks_flatMap_snd (start : Nat) (l : List α) :
    (blocks f start l).flatMap Prod.snd = (l.flatMap f).zipIdx start := by
  induction l generalizing start with
  | nil => rfl
  | cons a l ih => rw [blocks, List.flatMap_cons, ih, List.flatMap_cons, List.zipIdx_append]

theorem snd_of_mem_blocks {start : Nat} {l : List α} {p : α × List (γ × Nat)}
    (h : p ∈ blocks f start l) : ∃ first, start ≤ first ∧ p.2 = (f p.1).zipIdx first := by
  induction l generalizing start with
  | nil => cases h
  | cons a l ih =>
      rcases List.mem_cons.mp h with rfl | h
      · exact ⟨start, le_refl start, rfl⟩
      · obtain ⟨first, hle, hp⟩ := ih h
        exact ⟨first, (Nat.le_add_right _ _).trans hle, hp⟩

theorem pairwise_blocks (start : Nat) (l : List α) :
    (blocks f start l).Pairwise fun p q => ∀ x ∈ p.2, ∀ y ∈ q.2, x.2 < y.2 := by
  induction l generalizing start with
  | nil => exact List.Pairwise.nil
  | cons a l ih =>
      refine List.pairwise_cons.mpr ⟨?_, ih _⟩
      intro q hq x hx y hy
      obtain ⟨first, hle, hsnd⟩ := snd_of_mem_blocks hq
      rw [hsnd] at hy
      exact (List.snd_lt_add_of_mem_zipIdx hx).trans_le
        (hle.trans (List.le_snd_of_mem_zipIdx hy))

/-- A sort of elements that are then expanded: the numbers that the expansion has without the
sort tell the order, where the elements do not. -/
theorem exists_numbered (h : Lawful cmp) {l sorted : List α} (hsort : sortBy cmp l = some sorted)
    {src : γ → α} (hsrc : ∀ a, ∀ c ∈ f a, src c = a) :
    ∃ numbered : List (γ × Nat), numbered.map Prod.fst = sorted.flatMap f ∧
      numbered.Perm (l.flatMap f).zipIdx ∧
      numbered.Pairwise fun x y => cmp (src x.1) (src y.1) = some .lt ∨
        cmp (src x.1) (src y.1) ≠ some .gt ∧ x.2 < y.2 := by
  rw [← blocks_map_fst (f := f) 0 l, sortBy_map] at hsort
  obtain ⟨bs, hbs, rfl⟩ := Option.map_eq_some_iff.mp hsort
  have hperm := sortBy_perm hbs
  have hmem : ∀ p ∈ bs, ∃ first, p.2 = (f p.1).zipIdx first := by
    intro p hp
    obtain ⟨first, -, hsnd⟩ := snd_of_mem_blocks (hperm.mem_iff.mp hp)
    exact ⟨first, hsnd⟩
  have hof : ∀ p ∈ bs, ∀ x ∈ p.2, src x.1 = p.1 := by
    intro p hp x hx
    obtain ⟨first, hsnd⟩ := hmem p hp
    have hfst : x.1 ∈ (p.2).map Prod.fst := List.mem_map_of_mem hx
    rw [hsnd, List.zipIdx_map_fst] at hfst
    exact hsrc p.1 x.1 hfst
  refine ⟨bs.flatMap Prod.snd, ?_, ?_, ?_⟩
  · rw [List.map_flatMap, List.flatMap_map]
    apply List.flatMap_congr
    intro p hp
    obtain ⟨first, hsnd⟩ := hmem p hp
    rw [hsnd, List.zipIdx_map_fst]
  · rw [← blocks_flatMap_snd]
    exact hperm.flatMap_right _
  · refine List.pairwise_flatMap.mpr ⟨?_, ?_⟩
    · intro p hp
      obtain ⟨first, hsnd⟩ := hmem p hp
      have hnumbers : p.2.Pairwise fun x y => x.2 < y.2 := by
        rw [hsnd, ← List.pairwise_map (f := Prod.snd) (R := (· < ·)), List.zipIdx_map_snd]
        exact List.pairwise_lt_range'
      refine hnumbers.imp_of_mem fun hx hy hlt => Or.inr ⟨?_, hlt⟩
      rw [hof p hp _ hx, hof p hp _ hy]
      exact h.not_gt_self p.1
    · have hsorted := sortBy_stable (h.comap Prod.fst) (pairwise_blocks (f := f) 0 l) hbs
      refine hsorted.imp_of_mem fun hp hq hahead x hx y hy => ?_
      rw [hof _ hp x hx, hof _ hq y hy]
      refine hahead.imp_right fun ⟨heq, hlt⟩ => ⟨?_, hlt x hx y hy⟩
      exact fun hgt => absurd (heq.symm.trans hgt) (by simp)

/-! ## What is chosen -/

variable [DecidableEq κ]

theorem firstOfEach_map (key : α → κ) (g : β → α) (seen : List κ) (l : List β) :
    firstOfEach key seen (l.map g) = (firstOfEach (fun x => key (g x)) seen l).map g := by
  induction l generalizing seen with
  | nil => rfl
  | cons b l ih =>
      rw [List.map_cons, firstOfEach, firstOfEach]
      split
      · exact ih seen
      · rw [ih, List.map_cons]

variable {key : α → κ} {seen : List κ} {l : List α} {k : Nat} {ahead : α → α → Prop}
  [DecidableRel ahead]

/-- The keys of what is ahead. -/
def keysAhead (key : α → κ) (ahead : α → α → Prop) [DecidableRel ahead] (l : List α) (a : α) :
    Finset κ := ((l.filter (ahead · a)).map key).toFinset

theorem mem_keysAhead {x : κ} :
    x ∈ keysAhead key ahead l a ↔ ∃ b ∈ l, ahead b a ∧ key b = x := by
  simp [keysAhead, and_assoc]

theorem keysAhead_perm {l' : List α} (h : l.Perm l') :
    keysAhead key ahead l a = keysAhead key ahead l' a := by
  ext x
  simp only [mem_keysAhead, h.mem_iff]

theorem card_insert_sdiff (x : κ) (s t : Finset κ) :
    (insert x (s \ t)).card = (s \ insert x t).card + 1 := by
  have hsame : insert x (s \ t) = insert x (s \ insert x t) := by
    ext y
    simp only [Finset.mem_insert, Finset.mem_sdiff]
    tauto
  rw [hsame, Finset.card_insert_of_notMem]
  simp

/-- The first of every key and of these the first `k`: no element of the key is ahead, and
elements of less than `k` keys are. -/
theorem mem_take_firstOfEach_iff (hasymm : ∀ a b, ahead a b → ¬ ahead b a)
    (hl : l.Pairwise ahead) :
    a ∈ (firstOfEach key seen l).take k ↔
      a ∈ l ∧ key a ∉ seen ∧ (∀ b ∈ l, ahead b a → key b ≠ key a) ∧
        (keysAhead key ahead l a \ seen.toFinset).card < k := by
  induction l generalizing seen k with
  | nil => simp [firstOfEach]
  | cons c l ih =>
      obtain ⟨hc, hl⟩ := List.pairwise_cons.mp hl
      have hself : ¬ ahead c c := fun h => hasymm c c h h
      have hnone : ∀ b ∈ c :: l, ¬ ahead b c := by
        intro b hb
        rcases List.mem_cons.mp hb with rfl | hb
        · exact hself
        · exact hasymm c b (hc b hb)
      have hkeys (ha : a ∈ l) :
          keysAhead key ahead (c :: l) a = insert (key c) (keysAhead key ahead l a) := by
        simp [keysAhead, hc a ha]
      unfold firstOfEach
      split
      · rename_i hseen
        rw [ih hl]
        constructor
        · rintro ⟨ha, hnew, hfirst, hcard⟩
          refine ⟨List.mem_cons_of_mem c ha, hnew, ?_, ?_⟩
          · intro b hb hahead
            rcases List.mem_cons.mp hb with rfl | hb
            · exact fun hkey => hnew (hkey ▸ hseen)
            · exact hfirst b hb hahead
          · rwa [hkeys ha, Finset.insert_sdiff_of_mem _ (List.mem_toFinset.mpr hseen)]
        · rintro ⟨ha, hnew, hfirst, hcard⟩
          rcases List.mem_cons.mp ha with rfl | ha
          · exact absurd hseen hnew
          · rw [hkeys ha, Finset.insert_sdiff_of_mem _ (List.mem_toFinset.mpr hseen)] at hcard
            exact ⟨ha, hnew, fun b hb => hfirst b (List.mem_cons_of_mem c hb), hcard⟩
      · rename_i hseen
        cases k with
        | zero => simp
        | succ k =>
            rw [List.take_succ_cons, List.mem_cons, ih hl]
            have hcount (ha : a ∈ l) :
                (keysAhead key ahead (c :: l) a \ seen.toFinset).card =
                  (keysAhead key ahead l a \ (key c :: seen).toFinset).card + 1 := by
              rw [hkeys ha, Finset.insert_sdiff_of_notMem _ (by simpa using hseen),
                List.toFinset_cons, card_insert_sdiff]
            constructor
            · rintro (rfl | ⟨ha, hnew, hfirst, hcard⟩)
              · have hempty : keysAhead key ahead (a :: l) a = ∅ := by
                  refine Finset.eq_empty_of_forall_notMem fun x hx => ?_
                  obtain ⟨b, hb, hahead, -⟩ := mem_keysAhead.mp hx
                  exact hnone b hb hahead
                refine ⟨List.mem_cons_self, hseen, ?_, ?_⟩
                · exact fun b hb hahead => absurd hahead (hnone b hb)
                · rw [hempty, Finset.empty_sdiff]
                  exact Nat.succ_pos k
              · obtain ⟨hne, hnew⟩ := not_or.mp (mt List.mem_cons.mpr hnew)
                refine ⟨List.mem_cons_of_mem c ha, hnew, ?_, ?_⟩
                · intro b hb hahead
                  rcases List.mem_cons.mp hb with rfl | hb
                  · exact Ne.symm hne
                  · exact hfirst b hb hahead
                · rw [hcount ha]
                  exact Nat.succ_lt_succ hcard
            · rintro ⟨ha, hnew, hfirst, hcard⟩
              rcases List.mem_cons.mp ha with rfl | ha
              · exact Or.inl rfl
              · have hne := hfirst c List.mem_cons_self (hc a ha)
                rw [hcount ha] at hcard
                refine Or.inr ⟨ha, ?_, fun b hb => hfirst b (List.mem_cons_of_mem c hb),
                  Nat.lt_of_succ_lt_succ hcard⟩
                exact mt List.mem_cons.mp (not_or.mpr ⟨Ne.symm hne, hnew⟩)

end Caiman.Lib.Select
