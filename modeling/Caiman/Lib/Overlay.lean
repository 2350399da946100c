import Mathlib.Data.List.Basic
import Mathlib.Logic.Function.Basic

/-!
# Copy-on-write images

An image holds the sectors written to it and names the file it was laid over. A
sector that no image of a backing chain holds reads as zero.
-/

namespace Caiman.Lib.Overlay

structure Image (Path Sector Data : Type) where
  backing : Option Path
  sectors : Sector → Option Data

abbrev Files (Path Sector Data : Type) := Path → Option (Image Path Sector Data)

variable {Path Sector Data : Type}

def backing (files : Files Path Sector Data) (p : Path) : Option Path :=
  (files p).bind Image.backing

def held (files : Files Path Sector Data) (p : Path) (x : Sector) : Option Data :=
  (files p).bind fun img => img.sectors x

/-- The files from an image down to the one that is laid over nothing. -/
inductive Chain (files : Files Path Sector Data) : Option Path → List Path → Prop
  | nil : Chain files none []
  | cons {p : Path} {ps : List Path} (exist : (files p).isSome)
      (below : Chain files (backing files p) ps) : Chain files (some p) (p :: ps)

/-- The files of a chain, followed as deep as the number says. -/
def resolve (files : Files Path Sector Data) : Nat → Option Path → Option (List Path)
  | _, none => some []
  | 0, some _ => none
  | depth + 1, some p =>
      match files p with
      | none => none
      | some img => (resolve files depth img.backing).map (p :: ·)

/-- What reading a chain from its top finds. -/
def content [Zero Data] (files : Files Path Sector Data) (ps : List Path) (x : Sector) : Data :=
  (ps.findSome? fun p => held files p x).getD 0

section Chains

variable {files files' : Files Path Sector Data} {p : Path} {o : Option Path} {ps qs : List Path}

theorem Chain.unique (hp : Chain files o ps) (hq : Chain files o qs) : ps = qs := by
  induction hp generalizing qs with
  | nil =>
      cases hq
      rfl
  | cons exist below ih =>
      cases hq with
      | cons exist' below' => rw [ih below']

/-- The chain of an image further down is the rest of the chain. -/
theorem Chain.suffix (h : Chain files o ps) (hp : p ∈ ps) :
    ∃ qs, Chain files (some p) (p :: qs) ∧ (p :: qs).length ≤ ps.length := by
  induction h with
  | nil => cases hp
  | @cons top rest exist below ih =>
      rcases List.mem_cons.mp hp with rfl | hrest
      · exact ⟨rest, .cons exist below, Nat.le_refl _⟩
      · obtain ⟨qs, hchain, hlen⟩ := ih hrest
        exact ⟨qs, hchain, Nat.le_succ_of_le hlen⟩

theorem Chain.drop {above below : List Path} (h : Chain files o (above ++ p :: below)) :
    Chain files (some p) (p :: below) := by
  induction above generalizing o with
  | nil =>
      cases h with
      | cons exist below => exact .cons exist below
  | cons top above ih =>
      cases h with
      | cons exist below => exact ih below

theorem Chain.next_eq {q : Path} {above below : List Path} (h : Chain files o (above ++ p :: below))
    (hp : backing files p = some q) : ∃ rest, below = q :: rest := by
  cases h.drop with
  | cons exist next =>
      rw [hp] at next
      cases next
      exact ⟨_, rfl⟩

theorem Chain.not_mem_tail (h : Chain files (some p) (p :: ps)) : p ∉ ps := by
  intro hmem
  cases h with
  | cons exist below =>
      obtain ⟨qs, hchain, hlen⟩ := below.suffix hmem
      have hsame := hchain.unique (.cons exist below)
      rw [hsame, List.length_cons] at hlen
      omega

theorem Chain.nodup (h : Chain files o ps) : ps.Nodup := by
  induction h with
  | nil => exact List.nodup_nil
  | cons exist below ih => exact List.nodup_cons.mpr ⟨(Chain.cons exist below).not_mem_tail, ih⟩

theorem Chain.not_mem_above {above below : List Path} (h : Chain files o (above ++ p :: below)) :
    p ∉ above := by
  intro hmem
  exact (List.nodup_append.mp h.nodup).2.2 p hmem p List.mem_cons_self rfl

theorem Chain.isSome (h : Chain files o ps) (hp : p ∈ ps) : (files p).isSome := by
  obtain ⟨qs, hchain, -⟩ := h.suffix hp
  cases hchain with
  | cons exist below => exact exist

theorem backing_eq_join (files : Files Path Sector Data) (p : Path) :
    backing files p = ((files p).map Image.backing).join := by
  rw [backing]
  cases files p <;> rfl

/-- A chain depends on what its own files are laid over, no more. -/
theorem Chain.of_backing (h : Chain files o ps)
    (hsame : ∀ p ∈ ps, (files' p).map Image.backing = (files p).map Image.backing) :
    Chain files' o ps := by
  induction h with
  | nil => exact .nil
  | @cons top rest exist below ih =>
      have htop := hsame top List.mem_cons_self
      have hexist : (files' top).isSome := by
        rw [← Option.isSome_map, htop, Option.isSome_map]
        exact exist
      have hbacking : backing files' top = backing files top := by
        rw [backing_eq_join, backing_eq_join, htop]
      refine .cons hexist ?_
      rw [hbacking]
      exact ih fun p hp => hsame p (List.mem_cons_of_mem _ hp)

theorem Chain.frame (h : Chain files o ps) (hsame : ∀ p ∈ ps, files' p = files p) :
    Chain files' o ps :=
  h.of_backing fun p hp => by rw [hsame p hp]

theorem Chain.of_map_backing (h : Chain files o ps)
    (hsame : ∀ p, (files' p).map Image.backing = (files p).map Image.backing) :
    Chain files' o ps :=
  h.of_backing fun p _ => hsame p

/-- A chain is broken by the loss of one of its files, the rest being laid as before. -/
theorem Chain.not_of_lost (h : Chain files o ps) (hp : p ∈ ps) (hlost : files' p = none)
    (hsame : ∀ q, q ≠ p → (files' q).map Image.backing = (files q).map Image.backing) :
    ¬ Chain files' o qs := by
  induction h generalizing qs with
  | nil => cases hp
  | @cons top rest exist below ih =>
      intro hchain
      cases hchain with
      | cons exist' below' =>
          by_cases htop : top = p
          · rw [htop, hlost] at exist'
            cases exist'
          · have hbacking : backing files' top = backing files top := by
              rw [backing_eq_join, backing_eq_join, hsame top htop]
            rw [hbacking] at below'
            exact ih ((List.mem_cons.mp hp).resolve_left fun heq => htop heq.symm) below'

theorem Chain.backing_eq {q : Path} (h : Chain files (some p) (p :: q :: ps)) :
    backing files p = some q := by
  cases h with
  | cons exist below =>
      generalize backing files p = next at below
      cases below
      rfl

theorem content_cons [Zero Data] (files : Files Path Sector Data) (p : Path) (ps : List Path)
    (x : Sector) : content files (p :: ps) x = (held files p x).getD (content files ps x) := by
  rw [content, List.findSome?_cons]
  cases held files p x <;> rfl

theorem content_congr [Zero Data] {x : Sector}
    (hsame : ∀ p ∈ ps, held files' p x = held files p x) :
    content files' ps x = content files ps x := by
  induction ps with
  | nil => rfl
  | cons top rest ih =>
      rw [content_cons, content_cons, hsame top List.mem_cons_self,
        ih fun p hp => hsame p (List.mem_cons_of_mem _ hp)]

end Chains

theorem content_append [Zero Data] (files : Files Path Sector Data) (above below : List Path)
    (x : Sector) (hnone : ∀ p ∈ above, held files p x = none) :
    content files (above ++ below) x = content files below x := by
  induction above with
  | nil => rfl
  | cons p above ih =>
      rw [List.cons_append, content_cons, hnone p List.mem_cons_self, Option.getD_none,
        ih fun q hq => hnone q (List.mem_cons_of_mem _ hq)]

/-! ## Writing -/

section Write

variable [DecidableEq Path] [DecidableEq Sector]

/-- A sector of an image that is there takes a value. -/
def write (files : Files Path Sector Data) (p : Path) (x : Sector) (v : Data) :
    Files Path Sector Data :=
  match files p with
  | none => files
  | some img =>
      Function.update files p (some { img with sectors := Function.update img.sectors x (some v) })

variable {files : Files Path Sector Data} {p : Path} {x : Sector} {v : Data}

theorem map_backing_write (q : Path) :
    (write files p x v q).map Image.backing = (files q).map Image.backing := by
  cases hp : files p with
  | none => simp only [write, hp]
  | some img =>
      simp only [write, hp]
      by_cases hq : q = p
      · rw [hq, Function.update_self, hp]
        rfl
      · rw [Function.update_of_ne hq]

theorem held_write_of_ne {q : Path} {y : Sector} (hne : q ≠ p ∨ y ≠ x) :
    held (write files p x v) q y = held files q y := by
  cases hp : files p with
  | none => simp only [write, hp]
  | some img =>
      simp only [write, hp, held]
      by_cases hq : q = p
      · subst hq
        have hy := hne.resolve_left fun h => h rfl
        rw [Function.update_self, hp, Option.bind_some, Option.bind_some]
        exact Function.update_of_ne hy _ _
      · rw [Function.update_of_ne hq]

theorem held_write_self (hp : (files p).isSome) : held (write files p x v) p x = some v := by
  obtain ⟨img, himg⟩ := Option.isSome_iff_exists.mp hp
  simp only [write, himg, held, Function.update_self, Option.bind_some]

/-- Who reads past a written sector, or finds it held further up, reads on as before; who
reads it reads the value. -/
theorem content_write [Zero Data] {above below : List Path} (hp : (files p).isSome)
    (habove : p ∉ above) :
    content (write files p x v) (above ++ p :: below) x =
      if ∃ q ∈ above, (held files q x).isSome then content files (above ++ p :: below) x
      else v := by
  induction above with
  | nil => simp [content_cons, held_write_self hp]
  | cons q above ih =>
      obtain ⟨hqp, habove⟩ := List.ne_and_not_mem_of_not_mem_cons habove
      rw [List.cons_append, content_cons, content_cons, held_write_of_ne (.inl (Ne.symm hqp)),
        ih habove]
      cases hq : held files q x with
      | some w => simp [hq]
      | none => simp [hq]

theorem content_write_other [Zero Data] {ps : List Path} {y : Sector} (hy : p ∉ ps ∨ y ≠ x) :
    content (write files p x v) ps y = content files ps y := by
  apply content_congr
  intro q hq
  apply held_write_of_ne
  refine hy.imp_left fun hp => ?_
  rintro rfl
  exact hp hq

end Write

/-! ## Commit -/

section Commit

variable [DecidableEq Path]

/-- `qemu-img commit`: the sectors of an image go to the file below it and the image is
left empty. -/
def commit (files : Files Path Sector Data) (p : Path) : Files Path Sector Data :=
  match backing files p with
  | none => files
  | some q =>
      match files p, files q with
      | some img, some base =>
          Function.update
            (Function.update files q
              (some { base with sectors := fun x => (img.sectors x).or (base.sectors x) }))
            p (some { img with sectors := fun _ => none })
      | _, _ => files

variable {files : Files Path Sector Data} {p q : Path}

theorem commit_eq {img base : Image Path Sector Data} (himg : files p = some img)
    (hq : img.backing = some q) (hbase : files q = some base) :
    commit files p = Function.update
      (Function.update files q
        (some { base with sectors := fun x => (img.sectors x).or (base.sectors x) }))
      p (some { img with sectors := fun _ => none }) := by
  have hbacking : backing files p = some q := by rw [backing, himg, Option.bind_some, hq]
  simp only [commit, hbacking, himg, hbase]

omit [DecidableEq Path] in
theorem exists_of_backing (hq : backing files p = some q) :
    ∃ img, files p = some img ∧ img.backing = some q :=
  Option.bind_eq_some_iff.mp hq

theorem held_commit (hq : backing files p = some q) (hexist : (files q).isSome)
    (r : Path) (x : Sector) :
    held (commit files p) r x =
      if r = p then none
      else if r = q then (held files p x).or (held files q x) else held files r x := by
  obtain ⟨img, himg, himgq⟩ := exists_of_backing hq
  obtain ⟨base, hbase⟩ := Option.isSome_iff_exists.mp hexist
  rw [commit_eq himg himgq hbase, held]
  by_cases hrp : r = p
  · rw [hrp, Function.update_self, if_pos rfl]
    rfl
  · rw [Function.update_of_ne hrp, if_neg hrp]
    by_cases hrq : r = q
    · rw [hrq, Function.update_self, if_pos rfl, held, held, himg, hbase]
      rfl
    · rw [Function.update_of_ne hrq, if_neg hrq, held]

theorem map_backing_commit (files : Files Path Sector Data) (p r : Path) :
    (commit files p r).map Image.backing = (files r).map Image.backing := by
  cases hq : backing files p with
  | none => simp only [commit, hq]
  | some q =>
      obtain ⟨img, himg, himgq⟩ := exists_of_backing hq
      cases hbase : files q with
      | none => simp only [commit, hq, himg, hbase]
      | some base =>
          rw [commit_eq himg himgq hbase]
          by_cases hrp : r = p
          · rw [hrp, Function.update_self, himg]
            rfl
          · rw [Function.update_of_ne hrp]
            by_cases hrq : r = q
            · rw [hrq, Function.update_self, hbase]
              rfl
            · rw [Function.update_of_ne hrq]

theorem map_backing_foldl_commit (files : Files Path Sector Data) (ps : List Path) (r : Path) :
    (ps.foldl commit files r).map Image.backing = (files r).map Image.backing := by
  induction ps generalizing files with
  | nil => rfl
  | cons p ps ih => rw [List.foldl_cons, ih, map_backing_commit]

theorem backing_foldl_commit (files : Files Path Sector Data) (ps : List Path) (r : Path) :
    backing (ps.foldl commit files) r = backing files r := by
  rw [backing_eq_join, backing_eq_join, map_backing_foldl_commit]

/-- Several images laid over one file and committed: each is empty, and a sector of the
file below comes from one of them that held it, or from none. -/
structure Merged (files files' : Files Path Sector Data) (ps : List Path) (q : Path) : Prop where
  emptied : ∀ p ∈ ps, ∀ x, held files' p x = none
  others : ∀ r, r ∉ ps → r ≠ q → ∀ x, held files' r x = held files r x
  base : ∀ x, (held files' q x = held files q x ∧ ∀ p ∈ ps, held files p x = none) ∨
    ∃ p ∈ ps, ∃ v, held files p x = some v ∧ held files' q x = some v

theorem Merged.cons {files' : Files Path Sector Data} {ps : List Path}
    (hnext : Merged (commit files p) files' ps q) (hp : p ∉ ps) (hmem : q ∉ ps) (hpq : q ≠ p)
    (hbacking : backing files p = some q) (hexist : (files q).isSome) :
    Merged files files' (p :: ps) q := by
  have hheld := held_commit hbacking hexist
  have hrest : ∀ r ∈ ps, ∀ x, held (commit files p) r x = held files r x := by
    intro r hr x
    have hrp : r ≠ p := fun h => hp (h ▸ hr)
    have hrq : r ≠ q := fun h => hmem (h ▸ hr)
    rw [hheld, if_neg hrp, if_neg hrq]
  refine ⟨?_, ?_, ?_⟩
  · intro r hr x
    rcases List.mem_cons.mp hr with rfl | hr
    · rw [hnext.others r hp (Ne.symm hpq), hheld, if_pos rfl]
    · exact hnext.emptied r hr x
  · intro r hr hrq x
    obtain ⟨hrp, hr⟩ := List.ne_and_not_mem_of_not_mem_cons hr
    rw [hnext.others r hr hrq, hheld, if_neg hrp, if_neg hrq]
  · intro x
    have hbase : held (commit files p) q x = (held files p x).or (held files q x) := by
      rw [hheld, if_neg hpq, if_pos rfl]
    rcases hnext.base x with ⟨hq, hnone⟩ | ⟨r, hr, v, hv, hq⟩
    · rw [hbase] at hq
      cases hpx : held files p x with
      | none =>
          rw [hpx, Option.none_or] at hq
          refine .inl ⟨hq, ?_⟩
          intro r hr
          rcases List.mem_cons.mp hr with rfl | hr
          · exact hpx
          · rw [← hrest r hr, hnone r hr]
      | some v =>
          rw [hpx, Option.some_or] at hq
          exact .inr ⟨p, List.mem_cons_self, v, hpx, hq⟩
    · rw [hrest r hr] at hv
      exact .inr ⟨r, List.mem_cons_of_mem _ hr, v, hv, hq⟩

theorem merged_foldl_commit {ps : List Path} (hnodup : ps.Nodup) (hmem : q ∉ ps)
    (hbacking : ∀ p ∈ ps, backing files p = some q) (hexist : (files q).isSome) :
    Merged files (ps.foldl commit files) ps q := by
  induction ps generalizing files with
  | nil =>
      refine ⟨?_, fun _ _ _ _ => rfl, fun _ => .inl ⟨rfl, ?_⟩⟩ <;>
      · intro p hp
        cases hp
  | cons p ps ih =>
      obtain ⟨hp, hnodup⟩ := List.nodup_cons.mp hnodup
      obtain ⟨hpq, hmem⟩ := List.ne_and_not_mem_of_not_mem_cons hmem
      have hnext : Merged (commit files p) (ps.foldl commit (commit files p)) ps q := by
        apply ih hnodup hmem
        · intro r hr
          have hback := backing_foldl_commit files [p] r
          exact hback.trans (hbacking r (List.mem_cons_of_mem _ hr))
        · rw [← Option.isSome_map, map_backing_commit, Option.isSome_map]
          exact hexist
      exact hnext.cons hp hmem hpq (hbacking p List.mem_cons_self) hexist

end Commit

/-! ### What is read after commits -/

section Merged

variable {files files' : Files Path Sector Data} {ps above below : List Path}
  {o : Option Path} {q : Path} {x : Sector}

theorem not_mem_below (hbacking : ∀ p ∈ ps, backing files p = some q)
    (h : Chain files (some q) (q :: below)) : ∀ p ∈ below, p ∉ ps := by
  intro p hp hmem
  obtain ⟨front, rest, rfl⟩ := List.append_of_mem hp
  have hchain : Chain files (some q) ((q :: front) ++ p :: rest) := h
  obtain ⟨rest, rfl⟩ := hchain.next_eq (hbacking p hmem)
  exact h.not_mem_tail (List.mem_append_right _ (List.mem_cons_of_mem _ List.mem_cons_self))

variable [Zero Data]

/-- Who finds a sector in an image above the commits reads it there as before. -/
theorem Merged.content_above (hm : Merged files files' ps q)
    (hbacking : ∀ p ∈ ps, backing files p = some q) (h : Chain files o (above ++ q :: below))
    (hfound : ∃ p ∈ above, p ∉ ps ∧ (held files p x).isSome) :
    content files' (above ++ q :: below) x = content files (above ++ q :: below) x := by
  induction above generalizing o with
  | nil =>
      obtain ⟨p, hp, -⟩ := hfound
      cases hp
  | cons top above ih =>
      have hnot := h.not_mem_above
      rw [List.cons_append, content_cons, content_cons]
      by_cases htop : top ∈ ps
      · -- a committed image is laid over `q`, so nothing is in between
        have hnil : above = [] := by
          cases above with
          | nil => rfl
          | cons next above =>
              have hchain : Chain files o ([] ++ top :: (next :: above ++ q :: below)) := h
              obtain ⟨rest, hrest⟩ := hchain.next_eq (hbacking top htop)
              cases hrest
              exact absurd (List.mem_cons_of_mem _ List.mem_cons_self) hnot
        obtain ⟨p, hp, hother, -⟩ := hfound
        rw [hnil] at hp
        exact absurd (List.mem_singleton.mp hp ▸ htop) hother
      · have hne : top ≠ q := fun heq => hnot (heq ▸ List.mem_cons_self)
        rw [hm.others top htop hne]
        cases hheld : held files top x with
        | some v => rfl
        | none =>
            obtain ⟨p, hp, hother, hsome⟩ := hfound
            have hrest : p ∈ above := by
              refine (List.mem_cons.mp hp).resolve_left ?_
              rintro rfl
              rw [hheld] at hsome
              cases hsome
            cases h with
            | cons exist rest =>
                rw [Option.getD_none, Option.getD_none]
                exact ih rest ⟨p, hrest, hother, hsome⟩

/-- Who finds it no further up reads it in the image that the commits go to. -/
theorem Merged.content_below (hm : Merged files files' ps q)
    (hbacking : ∀ p ∈ ps, backing files p = some q) (h : Chain files o (above ++ q :: below))
    (hnone : ∀ p ∈ above, p ∉ ps → held files p x = none) :
    content files' (above ++ q :: below) x =
      (held files' q x).getD (content files below x) := by
  have hrest : content files' below x = content files below x := by
    apply content_congr
    intro p hp
    apply hm.others p (not_mem_below hbacking h.drop p hp)
    rintro rfl
    exact h.drop.not_mem_tail hp
  rw [content_append, content_cons, hrest]
  intro p hp
  by_cases hmem : p ∈ ps
  · exact hm.emptied p hmem x
  · rw [hm.others p hmem, hnone p hp hmem]
    rintro rfl
    exact h.not_mem_above hp

/-- Who does not read through the image that the commits go to reads on as before. -/
theorem Merged.content_off (hm : Merged files files' ps q)
    (hbacking : ∀ p ∈ ps, backing files p = some q) {qs : List Path} (h : Chain files o qs)
    (hq : q ∉ qs) : content files' qs x = content files qs x := by
  apply content_congr
  intro p hp
  apply hm.others
  · intro hmem
    obtain ⟨above, below, rfl⟩ := List.append_of_mem hp
    obtain ⟨rest, rfl⟩ := h.next_eq (hbacking p hmem)
    exact hq (List.mem_append_right _ (List.mem_cons_of_mem _ List.mem_cons_self))
  · rintro rfl
    exact hq hp

end Merged

end Caiman.Lib.Overlay
