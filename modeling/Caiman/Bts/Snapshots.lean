import Mathlib.Data.List.Nodup
import Mathlib.Data.List.TakeWhile
import Caiman.Lib.Overlay

/-!
# Deleting a snapshot

A snapshot's image is laid over the image of its parent. A delete commits every
child, which merges the child into the deleted image, and then removes that image.
-/

namespace Caiman.Bts

open Lib.Overlay

structure Snapshot where
  id : String
  imagePath : String
  parentId : Option String
  sealed : Bool
  deriving DecidableEq, Repr

/-- How the database, the tool and the file system answer a delete. -/
structure Answers where
  fetchOne : Except String Unit
  fetchAll : Except String Unit
  /-- `qemu-img commit` for an image: whether it could be run, and its exit status. -/
  commit : String → Except String Bool
  removeFile : Except String Unit
  execute : Except String Unit

def Answers.succeeds (out : Answers) (child : Snapshot) : Bool :=
  match out.commit child.imagePath with
  | .ok success => success
  | .error _ => false

structure SnapshotEngine (Sector Data : Type) where
  rows : List Snapshot
  files : Files String Sector Data

namespace SnapshotEngine

variable {Sector Data : Type}

def getSnapshot (out : Answers) (s : SnapshotEngine Sector Data) (id : String) :
    Except String Snapshot :=
  match out.fetchOne, s.rows.find? (fun r => r.id = id) with
  | .ok (), some snap => .ok snap
  | _, _ => .error ("snapshot " ++ id ++ " not found")

def children (s : SnapshotEngine Sector Data) (parentId : String) : List Snapshot :=
  s.rows.filter fun r => r.parentId = some parentId

def getChildren (out : Answers) (s : SnapshotEngine Sector Data) (parentId : String) :
    Except String (List Snapshot) :=
  out.fetchAll.map fun _ => s.children parentId

/-- `commit_to_child`: the exit status is not looked at. A commit that fails leaves the
images as they are. -/
def commitToChild (out : Answers) (files : Files String Sector Data) (child : Snapshot) :
    Except String (Files String Sector Data) :=
  (out.commit child.imagePath).map fun success =>
    if success then commit files child.imagePath else files

/-- The loop over the children. What it committed before an error stays committed. -/
def commitToChildren (out : Answers) :
    Files String Sector Data → List Snapshot → Except String Unit × Files String Sector Data
  | files, [] => (.ok (), files)
  | files, child :: rest =>
      match commitToChild out files child with
      | .error e => (.error e, files)
      | .ok files => commitToChildren out files rest

/-- `ON DELETE SET NULL` -/
def unlink (id : String) (r : Snapshot) : Snapshot :=
  if r.parentId = some id then { r with parentId := none } else r

def deleteRow (rows : List Snapshot) (id : String) : List Snapshot :=
  (rows.filter fun r => r.id ≠ id).map (unlink id)

/-- `remove_file`, with its result dropped. -/
def removeImage (out : Answers) (files : Files String Sector Data) (path : String) :
    Files String Sector Data :=
  match out.removeFile with
  | .ok () => Function.update files path none
  | .error _ => files

def delete (out : Answers) (s : SnapshotEngine Sector Data) (id : String) :
    Except String Unit × SnapshotEngine Sector Data :=
  match s.getSnapshot out id with
  | .error e => (.error e, s)
  | .ok snap =>
      if snap.sealed then
        (.error ("Cannot delete sealed snapshot " ++ id ++ " — unseal first"), s)
      else
        match s.getChildren out id with
        | .error e => (.error e, s)
        | .ok children =>
            match commitToChildren out s.files children with
            | (.error e, files) => (.error e, { s with files := files })
            | (.ok (), files) =>
                let files := removeImage out files snap.imagePath
                match out.execute with
                | .error e => (.error e, { s with files := files })
                | .ok () => (.ok (), ⟨deleteRow s.rows id, files⟩)

/-! ## Snapshots and their contents -/

/-- A snapshot is laid over its parent's image, or over a disk that is no snapshot's. -/
def Linked (s : SnapshotEngine Sector Data) (r : Snapshot) : Prop :=
  match r.parentId with
  | some parentId => ∃ p ∈ s.rows, p.id = parentId ∧ backing s.files r.imagePath = some p.imagePath
  | none => ∀ ps, Chain s.files (backing s.files r.imagePath) ps →
      ∀ p ∈ s.rows, p.imagePath ∉ ps

structure Forest (s : SnapshotEngine Sector Data) : Prop where
  ids : (s.rows.map Snapshot.id).Nodup
  paths : (s.rows.map Snapshot.imagePath).Nodup
  linked : ∀ r ∈ s.rows, s.Linked r
  chained : ∀ r ∈ s.rows, ∃ ps, Chain s.files (some r.imagePath) ps

section Deleting

variable {out : Answers} {s s' : SnapshotEngine Sector Data} {snap : Snapshot}

theorem mem_children {r : Snapshot} {id : String} :
    r ∈ s.children id ↔ r ∈ s.rows ∧ r.parentId = some id := by
  rw [children, List.mem_filter, decide_eq_true_iff]

def committed (out : Answers) (s : SnapshotEngine Sector Data) (id : String) : List String :=
  ((s.children id).filter out.succeeds).map Snapshot.imagePath

/-- The images once the loop over the children is done. -/
def afterCommits (out : Answers) (s : SnapshotEngine Sector Data) (id : String) :
    Files String Sector Data :=
  (s.committed out id).foldl commit s.files

/-- The images of the children that the loop commits before it stops. -/
def commitsOf (out : Answers) (cs : List Snapshot) : List String :=
  ((cs.takeWhile fun c => (out.commit c.imagePath).isOk).filter out.succeeds).map
    Snapshot.imagePath

theorem commitToChildren_files (out : Answers) (files : Files String Sector Data)
    (cs : List Snapshot) :
    (commitToChildren out files cs).2 = (commitsOf out cs).foldl commit files := by
  induction cs generalizing files with
  | nil => rfl
  | cons c cs ih =>
      rw [commitToChildren, commitToChild, commitsOf, List.takeWhile_cons]
      cases hcommit : out.commit c.imagePath with
      | error e => rfl
      | ok success =>
          have hsucceeds : out.succeeds c = success := by rw [Answers.succeeds, hcommit]
          have hrun : (Except.ok success : Except String Bool).isOk = true := rfl
          rw [if_pos hrun]
          cases success with
          | false =>
              rw [List.filter_cons_of_neg (by rw [hsucceeds]; decide)]
              exact ih files
          | true =>
              rw [List.filter_cons_of_pos hsucceeds, List.map_cons, List.foldl_cons]
              exact ih (commit files c.imagePath)

theorem commitToChildren_ok_iff {files : Files String Sector Data} {cs : List Snapshot} :
    (commitToChildren out files cs).1 = .ok () ↔ ∀ c ∈ cs, (out.commit c.imagePath).isOk := by
  induction cs generalizing files with
  | nil => exact iff_of_true rfl fun _ h => by cases h
  | cons c cs ih =>
      rw [commitToChildren, commitToChild, List.forall_mem_cons]
      cases out.commit c.imagePath with
      | error e => exact iff_of_false (fun h => by cases h) fun h => by cases h.1
      | ok success => exact ih.trans (and_iff_right rfl).symm

theorem commitToChildren_ok {files files' : Files String Sector Data} {cs : List Snapshot}
    (h : commitToChildren out files cs = (.ok (), files')) :
    files' = ((cs.filter out.succeeds).map Snapshot.imagePath).foldl commit files := by
  have hall := commitToChildren_ok_iff.mp (congrArg Prod.fst h)
  have hfiles := commitToChildren_files out files cs
  rwa [h, commitsOf, List.takeWhile_eq_self_iff.mpr hall] at hfiles

theorem Forest.eq_of_id (hs : s.Forest) {r r' : Snapshot} (hr : r ∈ s.rows) (hr' : r' ∈ s.rows)
    (h : r.id = r'.id) : r = r' :=
  List.inj_on_of_nodup_map hs.ids hr hr' h

theorem Forest.eq_of_path (hs : s.Forest) {r r' : Snapshot} (hr : r ∈ s.rows)
    (hr' : r' ∈ s.rows) (h : r.imagePath = r'.imagePath) : r = r' :=
  List.inj_on_of_nodup_map hs.paths hr hr' h

theorem getSnapshot_ok {id : String} {r : Snapshot} (h : s.getSnapshot out id = .ok r) :
    r ∈ s.rows ∧ r.id = id := by
  rw [getSnapshot] at h
  split at h
  next hrow =>
      cases h
      have hid := List.find?_some hrow
      exact ⟨List.mem_of_find?_eq_some hrow, of_decide_eq_true hid⟩
  next => cases h

structure Finds (out : Answers) (s : SnapshotEngine Sector Data) (id : String)
    (snap : Snapshot) : Prop where
  found : s.getSnapshot out id = .ok snap
  unsealed : snap.sealed = false
  fetchAll : out.fetchAll = .ok ()

/-- The loop over the children, with the images it leaves. -/
def merge (out : Answers) (s : SnapshotEngine Sector Data) (id : String) :
    Except String Unit × Files String Sector Data :=
  commitToChildren out s.files (s.children id)

/-- `qemu-img commit` can be run for every child. -/
def CanMerge (out : Answers) (s : SnapshotEngine Sector Data) (id : String) : Prop :=
  ∀ c ∈ s.children id, (out.commit c.imagePath).isOk

instance (out : Answers) (s : SnapshotEngine Sector Data) (id : String) :
    Decidable (CanMerge out s id) :=
  inferInstanceAs (Decidable (∀ c ∈ s.children id, (out.commit c.imagePath).isOk = true))

theorem merge_ok_iff {id : String} : (merge out s id).1 = .ok () ↔ CanMerge out s id :=
  commitToChildren_ok_iff

theorem merge_ok {id : String} (h : (merge out s id).1 = .ok ()) :
    (merge out s id).2 = s.afterCommits out id :=
  commitToChildren_ok (Prod.ext h rfl)

theorem delete_cases (out : Answers) (s : SnapshotEngine Sector Data) (id : String) :
    ((∀ snap, ¬ Finds out s id snap) ∧ ∃ e, delete out s id = (.error e, s)) ∨
    ∃ snap, Finds out s id snap ∧
      ((∃ e, (merge out s id).1 = .error e ∧
          delete out s id = (.error e, { s with files := (merge out s id).2 })) ∨
        ((merge out s id).1 = .ok () ∧
          delete out s id = (out.execute,
            { rows := if out.execute = .ok () then deleteRow s.rows id else s.rows
              files := removeImage out (merge out s id).2 snap.imagePath }))) := by
  cases hfound : s.getSnapshot out id with
  | error e =>
      refine .inl ⟨?_, e, by rw [delete, hfound]⟩
      intro snap h
      cases hfound.symm.trans h.found
  | ok snap =>
      have hsame {snap' : Snapshot} (h : Finds out s id snap') : snap' = snap :=
        Except.ok.inj (h.found.symm.trans hfound)
      cases hsealed : snap.sealed with
      | true =>
          refine .inl ⟨?_, _, by rw [delete, hfound]; simp only [hsealed]; rfl⟩
          intro snap' h
          have hopen := h.unsealed
          rw [hsame h, hsealed] at hopen
          cases hopen
      | false =>
          cases hfetch : out.fetchAll with
          | error e =>
              refine .inl ⟨?_, e, ?_⟩
              · intro snap' h
                cases hfetch.symm.trans h.fetchAll
              · rw [delete, hfound]
                simp only [hsealed, getChildren, hfetch]
                rfl
          | ok _ =>
              refine .inr ⟨snap, ⟨hfound, hsealed, hfetch⟩, ?_⟩
              simp only [merge]
              rw [delete, hfound]
              simp only [hsealed, getChildren, hfetch, Except.map]
              rcases commitToChildren out s.files (s.children id) with ⟨result, files⟩
              cases result with
              | error e => exact .inl ⟨e, rfl, rfl⟩
              | ok _ =>
                  refine .inr ⟨rfl, ?_⟩
                  cases out.execute <;> rfl

theorem delete_ok (hs : s.Forest) (hsnap : snap ∈ s.rows)
    (h : delete out s snap.id = (.ok (), s')) :
    s'.rows = deleteRow s.rows snap.id ∧
      s'.files = removeImage out (s.afterCommits out snap.id) snap.imagePath := by
  rcases delete_cases out s snap.id with ⟨-, e, hfailed⟩ | ⟨snap', hfinds, hcases⟩
  · cases (Prod.mk.inj (hfailed.symm.trans h)).1
  · obtain ⟨hmem, hid⟩ := getSnapshot_ok hfinds.found
    cases hs.eq_of_id hmem hsnap hid
    rcases hcases with ⟨e, -, hfailed⟩ | ⟨hmerge, hdone⟩
    · cases (Prod.mk.inj (hfailed.symm.trans h)).1
    · obtain ⟨hexecute, rfl⟩ := Prod.mk.inj (hdone.symm.trans h)
      exact ⟨if_pos hexecute, by rw [merge_ok hmerge]⟩

theorem mem_committed {path : String} :
    path ∈ s.committed out snap.id ↔
      ∃ c ∈ s.children snap.id, out.succeeds c ∧ c.imagePath = path := by
  simp only [committed, List.mem_map, List.mem_filter, and_assoc]

theorem Forest.chain_induction (hs : s.Forest) {Q : Snapshot → List String → Prop}
    (root : ∀ r ps, r ∈ s.rows → r.id ≠ snap.id → r.parentId ≠ some snap.id →
      (∀ p ∈ s.rows, p.imagePath ∉ ps) → Q r (r.imagePath :: ps))
    (child : ∀ r ps, r ∈ s.children snap.id → Chain s.files (some r.imagePath) ps → Q r ps)
    (step : ∀ r p ps, r ∈ s.rows → r.id ≠ snap.id → r.parentId ≠ some snap.id →
      Q p ps → Q r (r.imagePath :: ps))
    {r : Snapshot} (hr : r ∈ s.rows) (hne : r.id ≠ snap.id) {ps : List String}
    (h : Chain s.files (some r.imagePath) ps) : Q r ps := by
  induction ps generalizing r with
  | nil => cases h
  | cons path ps ih =>
      by_cases hchild : r.parentId = some snap.id
      · exact child r _ (mem_children.mpr ⟨hr, hchild⟩) h
      · cases h with
        | cons exist below =>
            have hlinked := hs.linked r hr
            rw [Linked] at hlinked
            split at hlinked
            next parentId hparent =>
                obtain ⟨p, hp, hid, hbacking⟩ := hlinked
                have hpne : p.id ≠ snap.id := fun heq => hchild (by rw [hparent, ← hid, heq])
                rw [hbacking] at below
                exact step r p ps hr hne hchild (ih hp hpne below)
            next => exact root r ps hr hne hchild (hlinked ps below)

theorem Forest.backing_child (hs : s.Forest) (hsnap : snap ∈ s.rows) {r : Snapshot}
    (hr : r ∈ s.children snap.id) : backing s.files r.imagePath = some snap.imagePath := by
  obtain ⟨hrow, hparent⟩ := mem_children.mp hr
  have hlinked := hs.linked r hrow
  simp only [Linked, hparent] at hlinked
  obtain ⟨p, hp, hid, hbacking⟩ := hlinked
  rwa [hs.eq_of_id hp hsnap hid] at hbacking

theorem Forest.child_chain (hs : s.Forest) (hsnap : snap ∈ s.rows) {j : Snapshot}
    (hj : j ∈ s.children snap.id) {ps : List String} (h : Chain s.files (some j.imagePath) ps) :
    ∃ rest, ps = j.imagePath :: snap.imagePath :: rest ∧
      ∀ r ∈ s.rows, r.imagePath ∈ rest → r.id ≠ snap.id ∧ r.parentId ≠ some snap.id := by
  cases h with
  | cons exist below =>
      have hbelow := below
      rw [hs.backing_child hsnap hj] at hbelow
      cases hbelow with
      | @cons _ rest existSnap belowSnap =>
          have hsnapChain : Chain s.files (some snap.imagePath) (snap.imagePath :: rest) :=
            .cons existSnap belowSnap
          refine ⟨rest, rfl, ?_⟩
          intro r hr hmem
          constructor
          · intro hid
            rw [hs.eq_of_id hr hsnap hid] at hmem
            exact hsnapChain.not_mem_tail hmem
          · intro hparent
            have hrover := hs.backing_child hsnap (mem_children.mpr ⟨hr, hparent⟩)
            have hrchain : Chain s.files (some r.imagePath)
                (r.imagePath :: snap.imagePath :: rest) := by
              refine .cons (belowSnap.isSome hmem) ?_
              rwa [hrover]
            exact hrchain.not_mem_tail (List.mem_cons_of_mem _ hmem)

theorem held_untouched {files' : Files String Sector Data}
    (hm : Merged s.files files' (s.committed out snap.id) snap.imagePath) (hsnap : snap ∈ s.rows)
    {path : String}
    (hpath : ∀ r ∈ s.rows, r.imagePath = path → r.id ≠ snap.id ∧ r.parentId ≠ some snap.id)
    (x : Sector) : held files' path x = held s.files path x := by
  apply hm.others
  · intro hmem
    obtain ⟨c, hc, -, hcpath⟩ := mem_committed.mp hmem
    obtain ⟨hrow, hparent⟩ := mem_children.mp hc
    exact (hpath c hrow hcpath).2 hparent
  · intro heq
    exact (hpath snap hsnap heq.symm).1 rfl

theorem Forest.merged (hs : s.Forest) (hsnap : snap ∈ s.rows) (out : Answers) :
    Merged s.files (s.afterCommits out snap.id) (s.committed out snap.id) snap.imagePath := by
  apply merged_foldl_commit
  · have hsub : ((s.children snap.id).filter out.succeeds).Sublist s.rows :=
      List.filter_sublist.trans List.filter_sublist
    exact hs.paths.sublist (hsub.map _)
  · intro hmem
    obtain ⟨c, hc, -, hpath⟩ := mem_committed.mp hmem
    obtain ⟨ps, hchain⟩ := hs.chained c (mem_children.mp hc).1
    obtain ⟨rest, rfl, -⟩ := hs.child_chain hsnap hc hchain
    have hnot := hchain.not_mem_tail
    exact hnot (hpath ▸ List.mem_cons_self)
  · intro path hmem
    obtain ⟨c, hc, -, rfl⟩ := mem_committed.mp hmem
    exact hs.backing_child hsnap hc
  · obtain ⟨ps, hchain⟩ := hs.chained snap hsnap
    cases hchain with
    | cons exist below => exact exist

theorem Forest.child_ne (hs : s.Forest) (hsnap : snap ∈ s.rows) {j : Snapshot}
    (hj : j ∈ s.children snap.id) : j.id ≠ snap.id := by
  intro hid
  obtain ⟨hrow, -⟩ := mem_children.mp hj
  obtain ⟨ps, hchain⟩ := hs.chained j hrow
  obtain ⟨rest, rfl, -⟩ := hs.child_chain hsnap hj hchain
  exact hchain.not_mem_tail (hs.eq_of_id hrow hsnap hid ▸ List.mem_cons_self)

theorem chain_afterCommits {o : Option String} {ps : List String} (h : Chain s.files o ps) :
    Chain (s.afterCommits out snap.id) o ps :=
  h.of_map_backing fun _ => map_backing_foldl_commit _ _ _

theorem Forest.not_mem_chain (hs : s.Forest) (hsnap : snap ∈ s.rows)
    (hnone : s.children snap.id = []) {r : Snapshot} (hr : r ∈ s.rows) (hne : r.id ≠ snap.id)
    {ps : List String} (h : Chain s.files (some r.imagePath) ps) : snap.imagePath ∉ ps := by
  have hhead : ∀ r ∈ s.rows, r.id ≠ snap.id → ∀ ps : List String,
      snap.imagePath ∉ ps → snap.imagePath ∉ r.imagePath :: ps := by
    intro r hr hne ps htail hmem
    rcases List.mem_cons.mp hmem with heq | hmem
    · exact hne (congrArg Snapshot.id (hs.eq_of_path hr hsnap heq.symm))
    · exact htail hmem
  apply hs.chain_induction (Q := fun _ ps => snap.imagePath ∉ ps) ?_ ?_ ?_ hr hne h
  · intro r ps hr hne hparent hdisk
    exact hhead r hr hne ps (hdisk snap hsnap)
  · intro r ps hr _
    rw [hnone] at hr
    cases hr
  · intro r p ps hr hne hparent ih
    exact hhead r hr hne ps ih

end Deleting

variable [Zero Data]

/-- The backing chain of an image exists before and after, and reads the same. -/
def Same (files files' : Files String Sector Data) (path : String) : Prop :=
  ∃ ps ps', Chain files (some path) ps ∧ Chain files' (some path) ps' ∧
    ∀ x, content files' ps' x = content files ps x

/-- Every snapshot but the one deleted is still there, with the content it had. -/
def PreservesOthers (s s' : SnapshotEngine Sector Data) (id : String) : Prop :=
  ∀ r ∈ s.rows, r.id ≠ id →
    (∃ r' ∈ s'.rows, r'.id = r.id ∧ r'.imagePath = r.imagePath) ∧
      Same s.files s'.files r.imagePath

/-- What a committed child holds is what every child reads that the commit leaves to read
it from the parent. -/
def CommitsAgree (out : Answers) (s : SnapshotEngine Sector Data) (id : String) : Prop :=
  ∀ i ∈ s.children id, out.succeeds i →
    ∀ x v, held s.files i.imagePath x = some v →
      ∀ j ∈ s.children id,
        out.succeeds j ∨ held s.files j.imagePath x = none →
          ∀ ps, Chain s.files (some j.imagePath) ps → content s.files ps x = v

variable {out : Answers} {s s' : SnapshotEngine Sector Data} {snap : Snapshot}

theorem Forest.content_child (hs : s.Forest) (hsnap : snap ∈ s.rows) (out : Answers)
    {j : Snapshot}
    (hj : j ∈ s.children snap.id) {ps : List String}
    (h : Chain s.files (some j.imagePath) ps) (x : Sector) :
    ∃ below : Data,
      content s.files ps x =
        (held s.files j.imagePath x).getD ((held s.files snap.imagePath x).getD below) ∧
      content (s.afterCommits out snap.id) ps x =
        if out.succeeds j then (held (s.afterCommits out snap.id) snap.imagePath x).getD below
        else (held s.files j.imagePath x).getD
          ((held (s.afterCommits out snap.id) snap.imagePath x).getD below) := by
  obtain ⟨rest, rfl, hrest⟩ := hs.child_chain hsnap hj h
  have hm := hs.merged hsnap out
  have hbelow : content (s.afterCommits out snap.id) rest x = content s.files rest x := by
    apply content_congr
    intro path hpath
    apply held_untouched hm hsnap
    intro r hr heq
    exact hrest r hr (heq ▸ hpath)
  refine ⟨content s.files rest x, by rw [content_cons, content_cons], ?_⟩
  rw [content_cons, content_cons, hbelow]
  by_cases hsucceeds : out.succeeds j
  · have hmem : j.imagePath ∈ s.committed out snap.id := mem_committed.mpr ⟨j, hj, hsucceeds, rfl⟩
    rw [if_pos hsucceeds, hm.emptied _ hmem, Option.getD_none]
  · have hmem : j.imagePath ∉ s.committed out snap.id := by
      intro hmem
      obtain ⟨c, hc, hcs, hpath⟩ := mem_committed.mp hmem
      rw [hs.eq_of_path (mem_children.mp hc).1 (mem_children.mp hj).1 hpath] at hcs
      exact hsucceeds hcs
    have hne : j.imagePath ≠ snap.imagePath := by
      intro heq
      exact h.not_mem_tail (heq ▸ List.mem_cons_self)
    rw [if_neg hsucceeds, hm.others _ hmem hne]

theorem Forest.child_same (hs : s.Forest) (hsnap : snap ∈ s.rows)
    (hagree : CommitsAgree out s snap.id) {j : Snapshot} (hj : j ∈ s.children snap.id)
    {ps : List String} (h : Chain s.files (some j.imagePath) ps) (x : Sector) :
    content (s.afterCommits out snap.id) ps x = content s.files ps x := by
  obtain ⟨below, hbefore, hafter⟩ := hs.content_child hsnap out hj h x
  by_cases hreads : out.succeeds j ∨ held s.files j.imagePath x = none
  · have hthrough : content (s.afterCommits out snap.id) ps x =
        (held (s.afterCommits out snap.id) snap.imagePath x).getD below := by
      rw [hafter]
      rcases hreads with hsucceeds | hnone
      · rw [if_pos hsucceeds]
      · rw [hnone, Option.getD_none, ite_self]
    rw [hthrough]
    rcases (hs.merged hsnap out).base x with ⟨hbase, hnone⟩ | ⟨path, hpath, v, hv, hbase⟩
    · have hempty : held s.files j.imagePath x = none := by
        rcases hreads with hsucceeds | hempty
        · exact hnone _ (mem_committed.mpr ⟨j, hj, hsucceeds, rfl⟩)
        · exact hempty
      rw [hbefore, hbase, hempty, Option.getD_none]
    · obtain ⟨i, hi, hsucceeds, rfl⟩ := mem_committed.mp hpath
      rw [hbase, Option.getD_some, hagree i hi hsucceeds x v hv j hj hreads ps h]
  · obtain ⟨hfailed, hsome⟩ := not_or.mp hreads
    obtain ⟨v, hv⟩ := Option.ne_none_iff_exists'.mp hsome
    rw [hafter, if_neg hfailed, hbefore, hv, Option.getD_some, Option.getD_some]

/-- A committed child reads its own sectors again, and so does every child that the
commits leave to read them from the parent. -/
theorem Forest.agree_of_same (hs : s.Forest) (hsnap : snap ∈ s.rows)
    (hsame : ∀ j ∈ s.children snap.id, ∀ ps, Chain s.files (some j.imagePath) ps →
      ∀ x, content (s.afterCommits out snap.id) ps x = content s.files ps x) :
    CommitsAgree out s snap.id := by
  intro i hi hsucceeds x v hv j hj hreads ps hps
  obtain ⟨w, hw⟩ : ∃ w, held (s.afterCommits out snap.id) snap.imagePath x = some w := by
    rcases (hs.merged hsnap out).base x with ⟨-, hnone⟩ | ⟨path, -, w, -, hw⟩
    · rw [hnone _ (mem_committed.mpr ⟨i, hi, hsucceeds, rfl⟩)] at hv
      cases hv
    · exact ⟨w, hw⟩
  have hi' : v = w := by
    obtain ⟨qs, hqs⟩ := hs.chained i (mem_children.mp hi).1
    obtain ⟨below, hbefore, hafter⟩ := hs.content_child hsnap out hi hqs x
    rw [hsame i hi qs hqs, hbefore, hv, if_pos hsucceeds, hw] at hafter
    exact hafter
  obtain ⟨below, -, hafter⟩ := hs.content_child hsnap out hj hps x
  rw [hsame j hj ps hps, hw] at hafter
  rw [hafter, hi']
  rcases hreads with hj' | hnone
  · rw [if_pos hj', Option.getD_some]
  · rw [hnone, Option.getD_none, ite_self, Option.getD_some]

theorem Forest.content_afterCommits (hs : s.Forest) (hsnap : snap ∈ s.rows)
    (hagree : CommitsAgree out s snap.id) {r : Snapshot} (hr : r ∈ s.rows)
    (hne : r.id ≠ snap.id) {ps : List String} (h : Chain s.files (some r.imagePath) ps) :
    ∀ x, content (s.afterCommits out snap.id) ps x = content s.files ps x := by
  have hm := hs.merged hsnap out
  have htop : ∀ r ∈ s.rows, r.id ≠ snap.id → r.parentId ≠ some snap.id → ∀ x,
      held (s.afterCommits out snap.id) r.imagePath x = held s.files r.imagePath x := by
    intro r hr hne hparent
    apply held_untouched hm hsnap
    intro r' hr' heq
    rw [hs.eq_of_path hr' hr heq]
    exact ⟨hne, hparent⟩
  apply hs.chain_induction (Q := fun _ ps =>
    ∀ x, content (s.afterCommits out snap.id) ps x = content s.files ps x) ?_ ?_ ?_ hr hne h
  · intro r ps hr hne hparent hdisk x
    have hbelow : content (s.afterCommits out snap.id) ps x = content s.files ps x := by
      apply content_congr
      intro path hpath
      apply held_untouched hm hsnap
      intro r' hr' heq
      exact absurd (heq ▸ hpath) (hdisk r' hr')
    rw [content_cons, content_cons, htop r hr hne hparent, hbelow]
  · intro r ps hr h
    exact hs.child_same hsnap hagree hr h
  · intro r p ps hr hne hparent ih x
    rw [content_cons, content_cons, htop r hr hne hparent, ih]

theorem row_kept {rows : List Snapshot} {r : Snapshot} {id : String} (hr : r ∈ rows)
    (hne : r.id ≠ id) : ∃ r' ∈ deleteRow rows id, r'.id = r.id ∧ r'.imagePath = r.imagePath := by
  refine ⟨unlink id r, ?_, ?_⟩
  · exact List.mem_map_of_mem (List.mem_filter.mpr ⟨hr, decide_eq_true hne⟩)
  · rw [unlink]
    split <;> exact ⟨rfl, rfl⟩

theorem Forest.not_same_of_removed (hs : s.Forest) (hsnap : snap ∈ s.rows) (out : Answers)
    {j : Snapshot} (hj : j ∈ s.children snap.id) :
    ¬ Same s.files (Function.update (s.afterCommits out snap.id) snap.imagePath none)
      j.imagePath := by
  intro hsame
  obtain ⟨-, ps, -, hchain, -⟩ := hsame
  have hne : j.imagePath ≠ snap.imagePath := by
    intro heq
    exact hs.child_ne hsnap hj
      (congrArg Snapshot.id (hs.eq_of_path (mem_children.mp hj).1 hsnap heq))
  have hbacking : backing (Function.update (s.afterCommits out snap.id) snap.imagePath none)
      j.imagePath = some snap.imagePath := by
    rw [backing, Function.update_of_ne hne, ← hs.backing_child hsnap hj]
    exact backing_foldl_commit _ _ _
  cases hchain with
  | @cons _ ps _ below =>
      rw [hbacking] at below
      cases below with
      | cons exist _ =>
          rw [Function.update_self] at exist
          cases exist

theorem Forest.same_of_no_children (hs : s.Forest) (hsnap : snap ∈ s.rows)
    (hnone : s.children snap.id = []) {r : Snapshot} (hr : r ∈ s.rows) (hne : r.id ≠ snap.id) :
    Same s.files (removeImage out (s.afterCommits out snap.id) snap.imagePath) r.imagePath := by
  obtain ⟨ps, hchain⟩ := hs.chained r hr
  have hnot := hs.not_mem_chain hsnap hnone hr hne hchain
  have hsame : ∀ p ∈ ps,
      removeImage out (s.afterCommits out snap.id) snap.imagePath p = s.files p := by
    intro p hp
    have hpne : p ≠ snap.imagePath := fun heq => hnot (heq ▸ hp)
    rw [removeImage, afterCommits, committed, hnone]
    cases out.removeFile with
    | ok _ => exact Function.update_of_ne hpne _ _
    | error e => rfl
  refine ⟨ps, ps, hchain, hchain.frame hsame, ?_⟩
  intro x
  apply content_congr
  intro p hp
  rw [held, held, hsame p hp]

theorem Forest.same_of_agree (hs : s.Forest) (hsnap : snap ∈ s.rows)
    (hagree : CommitsAgree out s snap.id) {r : Snapshot} (hr : r ∈ s.rows)
    (hne : r.id ≠ snap.id) : Same s.files (s.afterCommits out snap.id) r.imagePath := by
  obtain ⟨ps, hchain⟩ := hs.chained r hr
  exact ⟨ps, ps, hchain, chain_afterCommits hchain,
    hs.content_afterCommits hsnap hagree hr hne hchain⟩

/-- When a delete that returns `Ok` preserves the other snapshots. -/
theorem delete_preserves_iff (hs : s.Forest) (hsnap : snap ∈ s.rows)
    (h : delete out s snap.id = (.ok (), s')) :
    PreservesOthers s s' snap.id ↔
      s.children snap.id = [] ∨
        out.removeFile ≠ .ok () ∧ CommitsAgree out s snap.id := by
  obtain ⟨hrows, hfiles⟩ := delete_ok hs hsnap h
  have hkept : out.removeFile ≠ .ok () → s'.files = s.afterCommits out snap.id := by
    intro hremove
    rw [hfiles, removeImage]
    cases hout : out.removeFile with
    | ok _ => exact absurd hout hremove
    | error e => rfl
  constructor
  · intro hpreserves
    have hsame : ∀ j ∈ s.children snap.id, Same s.files s'.files j.imagePath := by
      intro j hj
      exact (hpreserves j (mem_children.mp hj).1 (hs.child_ne hsnap hj)).2
    by_cases hnone : s.children snap.id = []
    · exact .inl hnone
    · have hremove : out.removeFile ≠ .ok () := by
        intro hremove
        obtain ⟨j, hj⟩ := List.exists_mem_of_ne_nil _ hnone
        have hbroken := hs.not_same_of_removed hsnap out hj
        have hremoved : s'.files =
            Function.update (s.afterCommits out snap.id) snap.imagePath none := by
          rw [hfiles, removeImage, hremove]
        rw [← hremoved] at hbroken
        exact hbroken (hsame j hj)
      refine .inr ⟨hremove, hs.agree_of_same hsnap ?_⟩
      intro j hj ps hchain x
      obtain ⟨qs, qs', hbefore, hafter, hcontent⟩ := hsame j hj
      rw [hkept hremove] at hafter hcontent
      cases hchain.unique hbefore
      cases hafter.unique (chain_afterCommits hchain)
      exact hcontent x
  · intro hcondition r hr hne
    refine ⟨hrows ▸ row_kept hr hne, ?_⟩
    rcases hcondition with hnone | ⟨hremove, hagree⟩
    · rw [hfiles]
      exact hs.same_of_no_children hsnap hnone hr hne
    · rw [hkept hremove]
      exact hs.same_of_agree hsnap hagree hr hne

/-! ## A snapshot and its child -/

def diskPath : String := "/var/run/caiman/1.img"

def monday : Snapshot := ⟨"mon", "/var/lib/caiman/snapshots/1/mon.qcow2", none, false⟩

def tuesday : Snapshot := ⟨"tue", "/var/lib/caiman/snapshots/1/tue.qcow2", some "mon", false⟩

inductive Block
  | zeros
  | old
  | new
  deriving DecidableEq, Repr

instance : Zero Block := ⟨.zeros⟩

/-- Sector 0 was written before the first snapshot, sector 1 after it. -/
def twoDays : SnapshotEngine Nat Block where
  rows := [monday, tuesday]
  files := fun path =>
    if path = diskPath then some ⟨none, fun x => if x = 0 then some .old else none⟩
    else if path = monday.imagePath then
      some ⟨some diskPath, fun x => if x = 1 then some .new else none⟩
    else if path = tuesday.imagePath then some ⟨some monday.imagePath, fun _ => none⟩
    else none

def allWell : Answers where
  fetchOne := .ok ()
  fetchAll := .ok ()
  commit _ := .ok true
  removeFile := .ok ()
  execute := .ok ()

theorem twoDays_forest : twoDays.Forest := by
  have hmonday : Chain twoDays.files (some monday.imagePath) [monday.imagePath, diskPath] :=
    .cons rfl (.cons rfl .nil)
  have htuesday : Chain twoDays.files (some tuesday.imagePath)
      [tuesday.imagePath, monday.imagePath, diskPath] :=
    .cons rfl hmonday
  have hrows : ∀ r ∈ twoDays.rows, r = monday ∨ r = tuesday := by decide
  constructor
  · decide
  · decide
  · intro r hr
    rcases hrows r hr with rfl | rfl
    · intro ps hps
      cases hps.unique (.cons rfl .nil : Chain twoDays.files (some diskPath) [diskPath])
      decide
    · exact ⟨monday, List.mem_cons_self, rfl, rfl⟩
  · intro r hr
    rcases hrows r hr with rfl | rfl
    · exact ⟨_, hmonday⟩
    · exact ⟨_, htuesday⟩

theorem twoDays_deletesLast :
    PreservesOthers twoDays (delete allWell twoDays "tue").2 "tue" := by
  have hsnap : tuesday ∈ twoDays.rows := List.mem_cons_of_mem _ List.mem_cons_self
  have hok : delete allWell twoDays tuesday.id = (.ok (), (delete allWell twoDays "tue").2) := rfl
  exact (delete_preserves_iff twoDays_forest hsnap hok).mpr (.inl rfl)

theorem twoDays_deletesFirst_loses :
    twoDays.Forest ∧ (delete allWell twoDays "mon").1 = .ok () ∧
      ¬ PreservesOthers twoDays (delete allWell twoDays "mon").2 "mon" := by
  have hsnap : monday ∈ twoDays.rows := List.mem_cons_self
  have htuesday : tuesday ∈ twoDays.rows := List.mem_cons_of_mem _ List.mem_cons_self
  have hchild : tuesday ∈ twoDays.children monday.id := mem_children.mpr ⟨htuesday, rfl⟩
  refine ⟨twoDays_forest, rfl, ?_⟩
  intro hpreserves
  obtain ⟨-, hsame⟩ := hpreserves tuesday htuesday (by decide)
  exact twoDays_forest.not_same_of_removed hsnap allWell hchild hsame

end SnapshotEngine

end Caiman.Bts
