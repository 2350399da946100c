import Mathlib.Data.List.Basic
import Mathlib.Data.List.Infix

/-!
# Streams of self-delimiting messages

A decoder takes one message off the front of a stream or fails. Repeating it
until it fails reads a whole stream. For a decoder that undoes an encoding and
refuses every proper prefix of an encoded message, what is read from any prefix
of a stream of encoded messages is exactly the messages that end inside it.
-/

namespace Caiman.Lib

/-- A message taken off the front leaves a shorter stream. -/
structure Decoder (α β ε : Type) where
  decode : List β → Except ε (α × List β)
  progress : ∀ {stream a rest}, decode stream = .ok (a, rest) → rest.length < stream.length

namespace Decoder

variable {α β ε : Type} (d : Decoder α β ε)

/-- Decode until the first failure: the messages read and the failure. -/
def all (stream : List β) : List α × ε :=
  match _h : d.decode stream with
  | .error e => ([], e)
  | .ok (a, rest) => (a :: (all rest).1, (all rest).2)
termination_by stream.length
decreasing_by all_goals exact d.progress _h

theorem all_error {stream : List β} {e : ε} (h : d.decode stream = .error e) :
    d.all stream = ([], e) := by
  rw [all]
  split
  · rename_i e' h'
    cases h.symm.trans h'
    rfl
  · rename_i a rest h'
    cases h.symm.trans h'

theorem all_ok {stream rest : List β} {a : α} (h : d.decode stream = .ok (a, rest)) :
    d.all stream = (a :: (d.all rest).1, (d.all rest).2) := by
  rw [all]
  split
  · rename_i e h'
    cases h.symm.trans h'
  · rename_i a' rest' h'
    cases h.symm.trans h'
    rfl

/-- The decoder undoes the encoding of the valid messages, whatever follows, and
fails with `E` on every proper prefix of one. -/
structure Undoes (encode : α → List β) (valid : α → Prop) (E : ε → Prop) : Prop where
  whole : ∀ {a}, valid a → ∀ rest, d.decode (encode a ++ rest) = .ok (a, rest)
  cut : ∀ {a}, valid a → ∀ {front}, front <+: encode a → front ≠ encode a →
    ∃ e, d.decode front = .error e ∧ E e
  empty : ∃ e, d.decode [] = .error e ∧ E e

/-- The messages of `sent` that are complete in `front`: an initial stretch of
`sent` whose encoding lies in `front` while one message more does not. -/
structure Complete (encode : α → List β) (sent : List α) (front : List β) (got : List α) :
    Prop where
  initial : got <+: sent
  inside : got.flatMap encode <+: front
  last : ∀ a, got ++ [a] <+: sent → ¬ (got ++ [a]).flatMap encode <+: front

variable {d} {encode : α → List β} {valid : α → Prop} {E : ε → Prop}

theorem Undoes.all_encoded (h : d.Undoes encode valid E) {sent : List α}
    (hv : ∀ a ∈ sent, valid a) : (d.all (sent.flatMap encode)).1 = sent := by
  induction sent with
  | nil =>
      obtain ⟨e, he, -⟩ := h.empty
      rw [List.flatMap_nil, d.all_error he]
  | cons a sent ih =>
      have hrest : ∀ b ∈ sent, valid b := fun b hb => hv b (List.mem_cons_of_mem a hb)
      rw [List.flatMap_cons, d.all_ok (h.whole (hv a List.mem_cons_self) _), ih hrest]

/-- What is read from a prefix of the stream, and how reading ends. -/
theorem Undoes.all_prefix (h : d.Undoes encode valid E) {sent : List α} {front : List β}
    (hv : ∀ a ∈ sent, valid a) (hfront : front <+: sent.flatMap encode) :
    Complete encode sent front (d.all front).1 ∧ E (d.all front).2 := by
  induction sent generalizing front with
  | nil =>
      obtain rfl : front = [] := List.prefix_nil.mp hfront
      obtain ⟨e, he, hE⟩ := h.empty
      rw [d.all_error he]
      refine ⟨⟨List.nil_prefix, List.nil_prefix, ?_⟩, hE⟩
      intro a ha
      cases List.prefix_nil.mp ha
  | cons a sent ih =>
      have ha : valid a := hv a List.mem_cons_self
      have hrest : ∀ b ∈ sent, valid b := fun b hb => hv b (List.mem_cons_of_mem a hb)
      rw [List.flatMap_cons] at hfront
      by_cases hcut : encode a <+: front
      · -- the first message is complete: take it off and go on
        obtain ⟨tail, rfl⟩ := hcut
        obtain ⟨hcomplete, hE⟩ := ih hrest ((List.prefix_append_right_inj _).mp hfront)
        rw [d.all_ok (h.whole ha tail)]
        refine ⟨⟨?_, ?_, ?_⟩, hE⟩
        · exact List.cons_prefix_cons.mpr ⟨rfl, hcomplete.initial⟩
        · rw [List.flatMap_cons]
          exact (List.prefix_append_right_inj _).mpr hcomplete.inside
        · intro b hb hin
          rw [List.cons_append] at hb hin
          rw [List.flatMap_cons] at hin
          exact hcomplete.last b (List.cons_prefix_cons.mp hb).2
            ((List.prefix_append_right_inj _).mp hin)
      · -- the cut falls inside the first message
        have hshort : front <+: encode a := by
          rcases List.prefix_or_prefix_of_prefix hfront (List.prefix_append _ _) with hp | hp
          · exact hp
          · exact absurd hp hcut
        have hne : front ≠ encode a := fun heq => hcut (heq ▸ List.prefix_refl _)
        obtain ⟨e, he, hE⟩ := h.cut ha hshort hne
        rw [d.all_error he]
        refine ⟨⟨List.nil_prefix, List.nil_prefix, ?_⟩, hE⟩
        intro b hb hin
        obtain ⟨rfl, -⟩ := List.cons_prefix_cons.mp hb
        simp only [List.nil_append, List.flatMap_cons, List.flatMap_nil, List.append_nil] at hin
        exact hcut hin

end Decoder

end Caiman.Lib
