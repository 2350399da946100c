import Mathlib.Algebra.BigOperators.Group.List.Basic
import Mathlib.Data.List.AList

/-!
# Sums over a keyed store

What the values under the keys of a store come to, and what an insertion or an erasure changes
about it.
-/

namespace Caiman.Lib.Keyed

variable {Key Value M : Type} [DecidableEq Key] [AddCommMonoid M]

/-- A store with at most one value under a key. -/
abbrev Store (Key Value : Type) := AList fun _ : Key => Value

def total (weigh : Value → M) (store : Store Key Value) : M :=
  (store.entries.map fun entry => weigh entry.2).sum

def weightAt (weigh : Value → M) (store : Store Key Value) (key : Key) : M :=
  (store.lookup key).elim 0 weigh

omit [DecidableEq Key] in
@[simp] theorem total_empty (weigh : Value → M) : total weigh (∅ : Store Key Value) = 0 := rfl

theorem weightAt_of_lookup {weigh : Value → M} {store : Store Key Value} {key : Key} {v : Value}
    (h : store.lookup key = some v) : weightAt weigh store key = weigh v := by
  rw [weightAt, h]
  rfl

theorem weightAt_of_none {weigh : Value → M} {store : Store Key Value} {key : Key}
    (h : store.lookup key = none) : weightAt weigh store key = 0 := by
  rw [weightAt, h]
  rfl

/-- What is under a key, and the rest. -/
theorem perm_erase_of_lookup {store : Store Key Value} {key : Key} {v : Value}
    (h : store.lookup key = some v) :
    store.entries.Perm (⟨key, v⟩ :: (store.erase key).entries) := by
  have hkey : key ∈ store := AList.lookup_isSome.mp (by rw [h]; rfl)
  obtain ⟨w, front, back, hfront, hsplit, herase⟩ := List.exists_of_kerase hkey
  have hlookup : store.lookup key = some w := by
    rw [AList.lookup, hsplit, List.dlookup_append, List.dlookup_eq_none.mpr hfront,
      Option.none_or, List.dlookup_cons_eq]
  rw [h] at hlookup
  cases hlookup
  have hentries : (store.erase key).entries = front ++ back := herase
  rw [hentries, hsplit]
  exact List.perm_middle

theorem total_erase (weigh : Value → M) (store : Store Key Value) (key : Key) :
    weightAt weigh store key + total weigh (store.erase key) = total weigh store := by
  cases hkey : store.lookup key with
  | none =>
      have hentries : (store.erase key).entries = store.entries :=
        List.kerase_of_notMem_keys (AList.lookup_eq_none.mp hkey)
      rw [weightAt_of_none hkey, total, total, hentries, zero_add]
  | some v =>
      have hperm := (perm_erase_of_lookup hkey).map fun entry => weigh entry.2
      rw [weightAt_of_lookup hkey, total, total, hperm.sum_eq, List.map_cons, List.sum_cons]

theorem total_insert (weigh : Value → M) (store : Store Key Value) (key : Key) (v : Value) :
    weightAt weigh store key + total weigh (store.insert key v) = weigh v + total weigh store := by
  have hinsert : total weigh (store.insert key v) = weigh v + total weigh (store.erase key) := rfl
  rw [hinsert, add_left_comm, total_erase]

end Caiman.Lib.Keyed
