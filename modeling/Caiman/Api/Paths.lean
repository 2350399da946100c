import Mathlib.Data.List.Infix
import Caiman.Lib.Path
import Caiman.Api.State

/-!
# Paths of the VM files

The handlers pass the id of a request, whatever it decodes to, to `VmState::load`,
`save` and `delete` and to `delete_vm`, which join it to the state directory.
-/

namespace Caiman.Api

open Lib Lib.Path

/-- The log that `delete_vm` removes. -/
def logOf (id : String) : String := stateDir ++ "/" ++ id ++ ".log"

def stateBase : List String := ["var", "lib", "caiman", "vms"]

/-- `create_dir_all`: the directories it makes when they are missing. Those on the way to
the state directory are there. -/
def createDirAll (dir : String) : List (List String) :=
  (segments dir).inits.filter fun segs => decide (¬ resolve segs <+: stateBase)

inductive Operation
  | load | save | delete | deleteVm
  deriving DecidableEq

/-- The paths an operation hands to the file system. The library refuses one with a NUL
before that. -/
def Operation.paths (id : String) (op : Operation) : List (List String) :=
  if Char.ofNat 0 ∈ id.toList then []
  else
    match op with
    | .load => [segments (pathOf id)]
    | .save => createDirAll (dirOf id) ++ [segments (pathOf id)]
    | .delete => [segments (dirOf id)]
    | .deleteVm => [segments (dirOf id), segments (logOf id)]

def Confined (segs : List String) : Prop := ∃ name rest, resolve segs = stateBase ++ name :: rest

abbrev IsAbsolute (id : String) : Prop := id.toList.head? = some '/'

/-- Where the segments of an id are followed from: the root or the state directory. -/
def entry (id : String) : Level := if IsAbsolute id then .above stateBase.length else .above 0

/-- Level by level, the segments of the id lead down only on the way to the state
directory or inside it, and end inside. With `.log` they end inside as well, from the state
directory. -/
def StaysInside (id : String) : Prop :=
  (∀ pre, pre <+: segments id → ¬ ((entry id).scan stateBase pre).Aside) ∧
    ((entry id).scan stateBase (segments id)).Below ∧
    ((Level.above 0).scan stateBase (segments (id ++ ".log"))).Below

/-! ## Where the paths lead -/

theorem resolve_stateDir : resolve (segments stateDir) = stateBase := by decide

def entryDir (id : String) : List String := if IsAbsolute id then [] else stateBase

theorem entry_is (id : String) : (entry id).Is stateBase (entryDir id) := by
  unfold entry entryDir
  split
  · exact ⟨Nat.le_refl _, by simp⟩
  · exact ⟨Nat.zero_le _, by simp⟩

theorem stateBase_is : (Level.above 0).Is stateBase stateBase := ⟨Nat.zero_le _, by simp⟩

/-- The segments of the state directory, unless the id replaces it. -/
def lead (id : String) : List String := if IsAbsolute id then [] else segments stateDir

theorem segments_dirOf (id : String) : segments (dirOf id) = lead id ++ segments id := by
  unfold dirOf joinPath lead
  by_cases habs : IsAbsolute id
  · rw [if_pos habs, if_pos habs]
    rfl
  · have hstate : stateDir.toList.getLast? ≠ some '/' := by decide
    rw [if_neg habs, if_neg habs, if_neg hstate, segments_append]

theorem resolve_lead (id : String) : resolve (lead id) = entryDir id := by
  unfold lead entryDir
  split
  · rfl
  · exact resolve_stateDir

theorem resolve_prefix_lead {id : String} {p : List String} (hp : p <+: lead id) :
    resolve p <+: stateBase := by
  have hstate : ∀ p ∈ (segments stateDir).inits, resolve p <+: stateBase := by decide
  unfold lead at hp
  split at hp
  · rw [List.prefix_nil.mp hp]
    exact List.nil_prefix
  · exact hstate p (List.mem_inits p _ |>.mpr hp)

theorem resolve_logOf (id : String) :
    resolve (segments (logOf id)) = (segments (id ++ ".log")).foldl enter stateBase := by
  unfold logOf
  rw [String.append_assoc, segments_append, resolve_append, resolve_stateDir]

theorem resolve_pathOf (id : String) :
    resolve (segments (pathOf id)) = resolve (segments (dirOf id)) ++ ["state.json"] := by
  have hname : segments "state.json" = ["state.json"] := by decide
  have henter : ∀ dir, enter dir "state.json" = dir ++ ["state.json"] := fun dir => by
    simp [enter]
  have hjoin : ∀ dir : String, resolve (segments (dir ++ "/" ++ "state.json")) =
      resolve (segments dir) ++ ["state.json"] := by
    intro dir
    rw [segments_append, resolve_append, hname, List.foldl_cons, List.foldl_nil, henter]
  unfold pathOf joinPath
  rw [if_neg (by decide)]
  by_cases hlast : (dirOf id).toList.getLast? = some '/'
  · -- the separator is there: the last segment is empty
    rw [if_pos hlast]
    obtain ⟨front, hfront⟩ := List.getLast?_eq_some_iff.mp hlast
    have hdir : dirOf id = String.ofList front ++ "/" ++ "" := by
      apply String.toList_injective
      simp [hfront]
    have hsame : resolve (segments (dirOf id)) = resolve (segments (String.ofList front)) := by
      rw [hdir, segments_append, resolve_append]
      rfl
    rw [hsame, ← hjoin, hdir, String.append_empty]
  · rw [if_neg hlast]
    exact hjoin _

/-! ## Confinement -/

theorem confined_dirOf_iff (id : String) :
    Confined (segments (dirOf id)) ↔ ((entry id).scan stateBase (segments id)).Below := by
  unfold Confined
  rw [segments_dirOf, resolve_append, resolve_lead]
  exact ((entry_is id).scan (segments id)).below_iff.symm

theorem confined_logOf_iff (id : String) :
    Confined (segments (logOf id)) ↔
      ((Level.above 0).scan stateBase (segments (id ++ ".log"))).Below := by
  unfold Confined
  rw [resolve_logOf]
  exact (stateBase_is.scan (segments (id ++ ".log"))).below_iff.symm

theorem Confined.path {id : String} (h : Confined (segments (dirOf id))) :
    Confined (segments (pathOf id)) := by
  obtain ⟨name, rest, hdir⟩ := h
  refine ⟨name, rest ++ ["state.json"], ?_⟩
  rw [resolve_pathOf, hdir]
  simp

theorem confined_createDirAll_iff (id : String) :
    (∀ segs ∈ createDirAll (dirOf id), Confined segs) ↔
      ∀ pre, pre <+: segments id → ¬ ((entry id).scan stateBase pre).Aside := by
  have hresolve : ∀ pre, resolve (lead id ++ pre) = pre.foldl enter (entryDir id) := fun pre => by
    rw [resolve_append, resolve_lead]
  have hmem : ∀ segs, segs ∈ createDirAll (dirOf id) ↔
      segs <+: lead id ++ segments id ∧ ¬ resolve segs <+: stateBase := fun segs => by
    unfold createDirAll
    rw [List.mem_filter, List.mem_inits, segments_dirOf, decide_eq_true_iff]
  constructor
  · intro h pre hpre haside
    obtain ⟨hway, hbelow⟩ := ((entry_is id).scan pre).aside_iff.mp haside
    rw [← hresolve] at hway hbelow
    have hmade : lead id ++ pre ∈ createDirAll (dirOf id) :=
      (hmem _).mpr ⟨(List.prefix_append_right_inj _).mpr hpre, hway⟩
    exact hbelow (h _ hmade)
  · intro h segs hsegs
    obtain ⟨hinit, hway⟩ := (hmem segs).mp hsegs
    rcases List.prefix_or_prefix_of_prefix hinit (List.prefix_append _ _) with hlead | hlead
    · exact absurd (resolve_prefix_lead hlead) hway
    · obtain ⟨pre, rfl⟩ := hlead
      have hpre : pre <+: segments id := (List.prefix_append_right_inj _).mp hinit
      have hinside := h pre hpre
      rw [((entry_is id).scan pre).aside_iff, ← hresolve] at hinside
      by_contra hout
      exact hinside ⟨hway, hout⟩

/-- For every id: all the paths that the operations hand to the file system for it lie
strictly inside the state directory, exactly when the id has a NUL, so that there are none,
or stays inside. -/
theorem ids_confined_iff (id : String) :
    (∀ op, ∀ segs ∈ Operation.paths id op, Confined segs) ↔
      Char.ofNat 0 ∈ id.toList ∨ StaysInside id := by
  by_cases hnul : Char.ofNat 0 ∈ id.toList
  · refine iff_of_true ?_ (Or.inl hnul)
    intro op segs hsegs
    simp only [Operation.paths, if_pos hnul] at hsegs
    cases hsegs
  · constructor
    · intro h
      have hdelete := h .deleteVm
      have hsave := h .save
      simp only [Operation.paths, if_neg hnul, List.mem_cons, List.mem_append] at hdelete hsave
      refine Or.inr ⟨?_, ?_, ?_⟩
      · exact (confined_createDirAll_iff id).mp fun segs hsegs => hsave segs (Or.inl hsegs)
      · exact (confined_dirOf_iff id).mp (hdelete _ (Or.inl rfl))
      · exact (confined_logOf_iff id).mp (hdelete _ (Or.inr (Or.inl rfl)))
    · intro h
      obtain ⟨hway, hdir, hlog⟩ := h.resolve_left hnul
      have hconfined := (confined_dirOf_iff id).mpr hdir
      intro op segs hsegs
      simp only [Operation.paths, if_neg hnul] at hsegs
      cases op with
      | load =>
          rw [List.mem_singleton.mp hsegs]
          exact hconfined.path
      | save =>
          rcases List.mem_append.mp hsegs with hmade | hpath
          · exact (confined_createDirAll_iff id).mpr hway segs hmade
          · rw [List.mem_singleton.mp hpath]
            exact hconfined.path
      | delete =>
          rw [List.mem_singleton.mp hsegs]
          exact hconfined
      | deleteVm =>
          rcases List.mem_cons.mp hsegs with hdir | hlog'
          · rw [hdir]
            exact hconfined
          · rw [List.mem_singleton.mp hlog']
            exact (confined_logOf_iff id).mpr hlog

theorem segments_of_name {id : String} (hslash : '/' ∉ id.toList) : segments id = [id] := by
  unfold segments
  rw [List.splitOn_eq_singleton hslash, List.map_singleton, String.ofList_toList]

/-- An id that is a name, such as those `spawn_vm` gives, stays inside. -/
theorem staysInside_of_name {id : String} (hslash : '/' ∉ id.toList)
    (hname : id ≠ "" ∧ id ≠ "." ∧ id ≠ "..") : StaysInside id := by
  have hentry : entry id = .above 0 := by
    apply if_neg
    intro habs
    exact hslash (List.mem_of_mem_head? habs)
  have hlog : '/' ∉ (id ++ ".log").toList := by
    rw [String.toList_append, List.mem_append]
    exact fun h => h.elim hslash (by decide)
  have hdown : ∀ name : String, name ≠ "" ∧ name ≠ "." ∧ name ≠ ".." →
      (Level.above 0).scan stateBase [name] = .below 0 := by
    intro name hn
    show (Level.above 0).enter stateBase name = .below 0
    unfold Level.enter
    rw [if_neg (not_or.mpr ⟨hn.1, hn.2.1⟩), if_neg hn.2.2]
    rfl
  have hlength : ∀ other : String, other.length < 4 → id ++ ".log" ≠ other := by
    intro other hshort heq
    have hlen := congrArg String.length heq
    rw [String.length_append] at hlen
    have hfour : ".log".length = 4 := by decide
    omega
  refine ⟨?_, ?_, ?_⟩
  · intro pre hpre
    rw [segments_of_name hslash] at hpre
    rw [hentry]
    rcases List.prefix_cons_iff.mp hpre with rfl | ⟨rest, rfl, hrest⟩
    · intro h
      cases h
    · rw [List.prefix_nil.mp hrest, hdown id hname]
      intro h
      cases h
  · rw [hentry, segments_of_name hslash, hdown id hname]
    trivial
  · rw [segments_of_name hlog, hdown _ ⟨hlength "" (by decide), hlength "." (by decide),
      hlength ".." (by decide)⟩]
    trivial

/-- The directory that is removed for this id is `/etc`. -/
theorem delete_leaves_state_dir :
    segments (dirOf "../../../../etc") ∈ Operation.paths "../../../../etc" .deleteVm ∧
      resolve (segments (dirOf "../../../../etc")) = ["etc"] ∧
      ¬ ∀ op, ∀ segs ∈ Operation.paths "../../../../etc" op, Confined segs := by
  have hpath :
      segments (dirOf "../../../../etc") ∈ Operation.paths "../../../../etc" .deleteVm := by
    decide
  have hetc : resolve (segments (dirOf "../../../../etc")) = ["etc"] := by decide
  refine ⟨hpath, hetc, ?_⟩
  intro h
  obtain ⟨name, rest, hconfined⟩ := h .deleteVm _ hpath
  rw [hetc] at hconfined
  simp [stateBase] at hconfined

end Caiman.Api
