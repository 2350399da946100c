import Mathlib.Data.List.Basic
import Mathlib.Data.Nat.ModEq

/-!
# Rings with free-running counters

A ring of `size` slots between one producer and one consumer. The producer has
written the entries of `log` so far and the consumer has read the first `done`
of them; both sides count without bound in principle and modulo `modulus` in
practice. As long as the producer never runs more than `size` entries ahead, no
unread entry is overwritten, and the wrapped counters still tell a full ring
from an empty one and still name the right slot, provided `size` divides
`modulus` and is smaller.
-/

namespace Caiman.Lib

/-- The unread entries of `log` stand in their slots. -/
structure Ring {α : Type} (size : Nat) (slot : Nat → α) (log : List α) (done : Nat) : Prop where
  done_le : done ≤ log.length
  room : log.length ≤ done + size
  stored : ∀ i, done ≤ i → i < log.length → log[i]? = some (slot (i % size))

namespace Ring

variable {α : Type} {size modulus : Nat} {slot slot' : Nat → α} {log : List α} {done : Nat}

theorem slot_ne {i j size : Nat} (hij : i < j) (hj : j < i + size) : i % size ≠ j % size := by
  intro h
  have hdvd : size ∣ j - i := (Nat.modEq_iff_dvd' (Nat.le_of_lt hij)).mp h
  have := Nat.le_of_dvd (by omega) hdvd
  omega

theorem empty (size : Nat) (slot : Nat → α) : Ring size slot [] 0 where
  done_le := Nat.le_refl _
  room := Nat.zero_le _
  stored := by
    intro i _ hi
    simp at hi

theorem congr (h : Ring size slot log done)
    (hslot : ∀ i, done ≤ i → i < log.length → slot' (i % size) = slot (i % size)) :
    Ring size slot' log done where
  done_le := h.done_le
  room := h.room
  stored := by
    intro i hd hi
    rw [h.stored i hd hi, hslot i hd hi]

theorem push {x : α} (h : Ring size slot log done) (hroom : log.length < done + size)
    (hx : slot (log.length % size) = x) : Ring size slot (log ++ [x]) done where
  done_le := by
    have := h.done_le
    simp only [List.length_append, List.length_singleton]
    omega
  room := by
    simp only [List.length_append, List.length_singleton]
    omega
  stored := by
    intro i hd hi
    simp only [List.length_append, List.length_singleton] at hi
    by_cases hlast : i = log.length
    · subst hlast
      simp [hx]
    · rw [List.getElem?_append_left (by omega)]
      exact h.stored i hd (by omega)

theorem pop (h : Ring size slot log done) (hmore : done < log.length) :
    Ring size slot log (done + 1) where
  done_le := hmore
  room := by
    have := h.room
    omega
  stored := fun i hd hi => h.stored i (by omega) hi

theorem front (h : Ring size slot log done) (hmore : done < log.length) :
    log[done]? = some (slot (done % size)) :=
  h.stored done (Nat.le_refl _) hmore

/-- The wrapped counters agree exactly when everything has been read. -/
theorem counters_eq_iff (h : Ring size slot log done) (hlt : size < modulus) :
    done % modulus = log.length % modulus ↔ done = log.length := by
  constructor
  · intro heq
    by_contra hne
    have hd := h.done_le
    have hr := h.room
    exact slot_ne (show done < log.length by omega) (by omega) heq
  · intro heq
    rw [heq]

end Ring

/-- A ring seen from both ends: `log` was written, `got` was read, and the two
counters are their lengths, wrapped. -/
structure Fifo {α : Type} (size modulus : Nat) (slot : Nat → α) (log got : List α)
    (producer consumer : Nat) : Prop where
  ring : Ring size slot log got.length
  got_eq : got = log.take got.length
  producer_eq : producer = log.length % modulus
  consumer_eq : consumer = got.length % modulus

namespace Fifo

variable {α : Type} {size modulus : Nat} {slot slot' : Nat → α} {log got : List α}
  {producer consumer : Nat}

theorem empty (size modulus : Nat) (slot : Nat → α) : Fifo size modulus slot [] [] 0 0 where
  ring := Ring.empty size slot
  got_eq := rfl
  producer_eq := (Nat.zero_mod _).symm
  consumer_eq := (Nat.zero_mod _).symm

theorem got_prefix (h : Fifo size modulus slot log got producer consumer) : got <+: log := by
  rw [h.got_eq]
  exact List.take_prefix _ _

/-- The slot a wrapped counter names is the slot of the entry it counts. -/
theorem producer_mod (h : Fifo size modulus slot log got producer consumer)
    (hdvd : size ∣ modulus) : producer % size = log.length % size := by
  rw [h.producer_eq, Nat.mod_mod_of_dvd _ hdvd]

theorem consumer_mod (h : Fifo size modulus slot log got producer consumer)
    (hdvd : size ∣ modulus) : consumer % size = got.length % size := by
  rw [h.consumer_eq, Nat.mod_mod_of_dvd _ hdvd]

theorem congr (h : Fifo size modulus slot log got producer consumer) (hpos : 0 < size)
    (hslot : ∀ j, j < size → slot' j = slot j) :
    Fifo size modulus slot' log got producer consumer :=
  { h with ring := h.ring.congr fun _ _ _ => hslot _ (Nat.mod_lt _ hpos) }

/-- With room left, the producer may write the slot its counter names. -/
theorem write (h : Fifo size modulus slot log got producer consumer) (hdvd : size ∣ modulus)
    (hpos : 0 < size) (hroom : log.length < got.length + size)
    (hother : ∀ j, j < size → j ≠ producer % size → slot' j = slot j) :
    Fifo size modulus slot' log got producer consumer := by
  refine { h with ring := h.ring.congr fun i _ hi => hother _ (Nat.mod_lt _ hpos) ?_ }
  rw [h.producer_mod hdvd]
  exact Ring.slot_ne hi (by omega)

theorem push {x : α} (h : Fifo size modulus slot log got producer consumer)
    (hdvd : size ∣ modulus) (hroom : log.length < got.length + size)
    (hx : slot (producer % size) = x) :
    Fifo size modulus slot (log ++ [x]) got ((producer + 1) % modulus) consumer where
  ring := h.ring.push hroom (by rw [← h.producer_mod hdvd, hx])
  got_eq := by
    rw [List.take_append_of_le_length h.ring.done_le]
    exact h.got_eq
  producer_eq := by simp [h.producer_eq]
  consumer_eq := h.consumer_eq

/-- What the consumer finds: nothing exactly when its counter has caught up,
else the oldest unread entry. -/
theorem next (h : Fifo size modulus slot log got producer consumer) (hdvd : size ∣ modulus)
    (hlt : size < modulus) :
    log[got.length]? = if consumer = producer then none else some (slot (consumer % size)) := by
  have hle := h.ring.done_le
  have hiff := h.ring.counters_eq_iff hlt
  rw [← h.producer_eq, ← h.consumer_eq] at hiff
  by_cases heq : consumer = producer
  · rw [if_pos heq]
    exact List.getElem?_eq_none (by rw [hiff.mp heq])
  · have hmore : got.length < log.length := Nat.lt_of_le_of_ne hle fun h' => heq (hiff.mpr h')
    rw [if_neg heq, h.consumer_mod hdvd]
    exact h.ring.front hmore

theorem pop (h : Fifo size modulus slot log got producer consumer) (hdvd : size ∣ modulus)
    (hlt : size < modulus) (hne : consumer ≠ producer) :
    Fifo size modulus slot log (got ++ [slot (consumer % size)]) producer
      ((consumer + 1) % modulus) := by
  have hnext := h.next hdvd hlt
  rw [if_neg hne] at hnext
  obtain ⟨hmore, hfront⟩ := List.getElem?_eq_some_iff.mp hnext
  constructor
  · simpa using h.ring.pop hmore
  · rw [List.length_append, List.length_singleton, List.take_add_one, hnext]
    nth_rewrite 1 [h.got_eq]
    rfl
  · exact h.producer_eq
  · simp [h.consumer_eq]

end Fifo

end Caiman.Lib
