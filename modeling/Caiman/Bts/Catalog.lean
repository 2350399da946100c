import Mathlib.Logic.Relation
import Caiman.Lib.Run
import Caiman.Bts.Take

/-!
# The catalog of snapshots

Rows refer to their parents and say how deep they are; a delete takes the reference away
from the children. What `build_chain` makes of the rows, over all that can be done to them.
-/

namespace Caiman.Bts

open Lib Lib.Overlay

structure SealAnswers where
  update : Option String
  fetchOne : Option String
  metadata : Option String
  setPermissions : Option String

namespace SnapshotHost

variable {Sector Data : Type}

/-! ## Sealing and deleting -/

def sealRow (id : String) (r : SnapshotRow) : SnapshotRow :=
  if r.id = id then { r with sealed := true } else r

def getSnapshot (fetchOne : Option String) (id : String) : Action Sector Data SnapshotRow := do
  match fetchOne, (← get).rows.find? fun r => r.id = id with
  | none, some snap => return snap
  | _, _ => throw ("snapshot " ++ id ++ " not found")

/-- `seal`. The permissions of the file are not part of the state. -/
def sealSnapshot (out : SealAnswers) (id : String) : Action Sector Data Unit := do
  attempt out.update fun s => { s with rows := s.rows.map (sealRow id) }
  let _ ← getSnapshot out.fetchOne id
  attempt out.metadata fun s => s
  attempt out.setPermissions fun s => s

/-- The columns that a delete looks at. -/
def view (s : SnapshotHost Sector Data) : SnapshotEngine Sector Data :=
  ⟨s.rows.map fun r => r.toSnapshot, s.files⟩

/-- `ON DELETE SET NULL` -/
def unlinkRow (id : String) (r : SnapshotRow) : SnapshotRow :=
  { r with toSnapshot := SnapshotEngine.unlink id r.toSnapshot }

def deleteRows (rows : List SnapshotRow) (id : String) : List SnapshotRow :=
  (rows.filter fun r => r.id ≠ id).map (unlinkRow id)

def delete (out : Answers) (s : SnapshotHost Sector Data) (id : String) :
    SnapshotHost Sector Data :=
  let answer := SnapshotEngine.delete out (view s) id
  { s with
    rows := if answer.1 = .ok () then deleteRows s.rows id else s.rows
    files := answer.2.files }

/-! ## Chains of rows -/

inductive Ancestors (rows : List SnapshotRow) : SnapshotRow → List SnapshotRow → Prop
  | root {r : SnapshotRow} (h : r.parentId = none) : Ancestors rows r []
  | step {r p : SnapshotRow} {as : List SnapshotRow} (hp : p ∈ rows)
      (h : r.parentId = some p.id) (above : Ancestors rows p as) : Ancestors rows r (p :: as)

/-- The loop, as many times round as the first number says. -/
def buildChainLoop (rows : List SnapshotRow) :
    Nat → Option String → List SnapshotRow → Option (Except String (List SnapshotRow))
  | _, none, chain => some (.ok chain.reverse)
  | 0, some _, _ => none
  | fuel + 1, some parentId, chain =>
      match rows.find? fun r => r.id = parentId with
      | none => some (.error ("snapshot " ++ parentId ++ " not found"))
      | some parent => buildChainLoop rows fuel parent.parentId (chain ++ [parent])

def buildChain (rows : List SnapshotRow) (fuel : Nat) (snap : SnapshotRow) :
    Option (Except String (List SnapshotRow)) :=
  buildChainLoop rows fuel snap.parentId [snap]

def IsParent (rows : List SnapshotRow) (p r : SnapshotRow) : Prop :=
  p ∈ rows ∧ r.parentId = some p.id

structure WellFormed (s : SnapshotHost Sector Data) : Prop where
  depth : ∀ r ∈ s.rows, ∃ as, Ancestors s.rows r as ∧ as.length = r.depth.toNat
  acyclic : ∀ r ∈ s.rows, ¬ Relation.TransGen (IsParent s.rows) r r
  builds : ∀ r ∈ s.rows, ∀ as, Ancestors s.rows r as →
    ∃ enough, ∀ fuel, enough ≤ fuel → buildChain s.rows fuel r = some (.ok (as.reverse ++ [r]))
  exist : ∀ r ∈ s.rows, ∀ as, Ancestors s.rows r as →
    ∀ p ∈ r :: as, (s.files p.imagePath).isSome
  backed : ∀ r ∈ s.rows, ∀ as, Ancestors s.rows r as →
    (r :: as).IsChain fun child parent => backing s.files child.imagePath = some parent.imagePath

/-! ## Runs -/

inductive SnapshotAction
  | take (out : TakeAnswers) (req : TakeRequest)
  | sealSnapshot (out : SealAnswers) (id : String)
  | delete (out : Answers) (id : String)

/-- The state that an action leaves, whether it fails or not. -/
def left {α : Type} (x : Action Sector Data α) (s : SnapshotHost Sector Data) :
    SnapshotHost Sector Data :=
  match x.run s with
  | .ok _ s' => s'
  | .error _ s' => s'

def catalog : Machine (SnapshotHost Sector Data) SnapshotAction Empty where
  step s
    | .take out req => (left (takeSnapshot out req) s, [])
    | .sealSnapshot out id => (left (sealSnapshot out id) s, [])
    | .delete out id => (delete out s id, [])

/-- The identifier drawn for a snapshot is new: no file bears its name. -/
def Fresh (s : SnapshotHost Sector Data) : SnapshotAction → Prop
  | .take out req => (s.files (snapPath out req)).isNone
  | _ => True

instance (s : SnapshotHost Sector Data) : (a : SnapshotAction) → Decidable (Fresh s a)
  | .take out req => inferInstanceAs (Decidable ((s.files (snapPath out req)).isNone = true))
  | .sealSnapshot .. => isTrue trivial
  | .delete .. => isTrue trivial

/-- The depth of a new snapshot fits its column; a snapshot with children is not deleted, and
the image is not removed of one of which the row stays. -/
def Keeps (s : SnapshotHost Sector Data) : SnapshotAction → Prop
  | .take out req => Completes out req s →
      ∀ p, latest s.rows req.vmId = some p → p.depth.toNat + 1 < 2 ^ 32
  | .sealSnapshot .. => True
  | .delete out id => (∃ snap, SnapshotEngine.Finds out (view s) id snap) →
      SnapshotEngine.CanMerge out (view s) id →
        if out.execute = .ok () then (view s).children id = [] else out.removeFile ≠ .ok ()

/-! ## Ancestors -/

section

variable {rows rows' : List SnapshotRow} {r p : SnapshotRow} {as bs : List SnapshotRow}

theorem eq_of_id (hids : (rows.map fun r => r.id).Nodup) (hr : r ∈ rows) (hp : p ∈ rows)
    (h : r.id = p.id) : r = p :=
  List.inj_on_of_nodup_map hids hr hp h

theorem find_of_mem (hids : (rows.map fun r => r.id).Nodup) (hp : p ∈ rows) :
    (rows.find? fun r => r.id = p.id) = some p := by
  cases hfind : rows.find? fun r => r.id = p.id with
  | none =>
      have hnone := List.find?_eq_none.mp hfind p hp
      exact absurd (decide_eq_true rfl) hnone
  | some q =>
      have hid := List.find?_some hfind
      have hid : q.id = p.id := of_decide_eq_true hid
      rw [eq_of_id hids (List.mem_of_find?_eq_some hfind) hp hid]

theorem Ancestors.mem (h : Ancestors rows r as) : ∀ p ∈ as, p ∈ rows := by
  induction h with
  | root _ =>
      intro p hp
      cases hp
  | step hq _ _ ih =>
      intro p hp
      rcases List.mem_cons.mp hp with rfl | hp
      · exact hq
      · exact ih p hp

theorem Ancestors.unique (hids : (rows.map fun r => r.id).Nodup) (h : Ancestors rows r as)
    (h' : Ancestors rows r bs) : as = bs := by
  induction h generalizing bs with
  | root hnone =>
      cases h' with
      | root _ => rfl
      | step _ hsome _ =>
          rw [hnone] at hsome
          cases hsome
  | step hp hparent _ ih =>
      cases h' with
      | root hnone =>
          rw [hnone] at hparent
          cases hparent
      | step hq hparent' above' =>
          have hid := Option.some.inj (hparent.symm.trans hparent')
          cases eq_of_id hids hp hq hid
          rw [ih above']

theorem Ancestors.above (h : Ancestors rows r as) (hp : p ∈ as) :
    ∃ bs, Ancestors rows p bs ∧ bs.length < as.length := by
  induction h with
  | root _ => cases hp
  | @step r q as hq _ above ih =>
      rcases List.mem_cons.mp hp with rfl | hp
      · exact ⟨as, above, Nat.lt_succ_self _⟩
      · obtain ⟨bs, habove, hlen⟩ := ih hp
        exact ⟨bs, habove, Nat.lt_succ_of_lt hlen⟩

theorem Ancestors.not_mem (hids : (rows.map fun r => r.id).Nodup) (h : Ancestors rows r as) :
    r ∉ as := by
  intro hmem
  obtain ⟨bs, habove, hlen⟩ := h.above hmem
  rw [h.unique hids habove] at hlen
  exact Nat.lt_irrefl _ hlen

theorem Ancestors.mem_of_transGen (hids : (rows.map fun r => r.id).Nodup)
    (hreach : Relation.TransGen (IsParent rows) p r) (h : Ancestors rows r as) : p ∈ as := by
  induction hreach generalizing as with
  | single hparent =>
      cases h with
      | root hnone => cases hnone.symm.trans hparent.2
      | step hq hid _ =>
          rw [eq_of_id hids hparent.1 hq (Option.some.inj (hparent.2.symm.trans hid))]
          exact List.mem_cons_self
  | tail _ hparent ih =>
      cases h with
      | root hnone => cases hnone.symm.trans hparent.2
      | step hq hid above =>
          cases eq_of_id hids hparent.1 hq (Option.some.inj (hparent.2.symm.trans hid))
          exact List.mem_cons_of_mem _ (ih above)

theorem Ancestors.parent_of_mem (h : Ancestors rows r as) (hr : r ∈ rows) (hp : p ∈ as) :
    ∃ c ∈ rows, c.parentId = some p.id := by
  induction h with
  | root _ => cases hp
  | step hq hparent _ ih =>
      rcases List.mem_cons.mp hp with rfl | hp
      · exact ⟨_, hr, hparent⟩
      · exact ih hq hp

theorem Ancestors.transport {f : SnapshotRow → SnapshotRow} (hid : ∀ p, (f p).id = p.id)
    (hparent : ∀ p, (f p).parentId = p.parentId) (h : Ancestors rows r as)
    (hmem : ∀ p ∈ as, f p ∈ rows') : Ancestors rows' (f r) (as.map f) := by
  induction h with
  | root hnone => exact .root ((hparent _).trans hnone)
  | step hq hsome _ ih =>
      have htail := ih fun p hp => hmem p (List.mem_cons_of_mem _ hp)
      refine .step (hmem _ List.mem_cons_self) ?_ htail
      rw [hparent, hid, hsome]

theorem Ancestors.keep (h : Ancestors rows r as) (hmem : ∀ p ∈ as, p ∈ rows') :
    Ancestors rows' r as := by
  have hsame := h.transport (f := id) (fun _ => rfl) (fun _ => rfl) hmem
  rwa [List.map_id] at hsame

/-- The loop comes to an end, and gives the ancestors. -/
theorem buildChainLoop_eq (hids : (rows.map fun r => r.id).Nodup) (h : Ancestors rows r as)
    {fuel : Nat} (hfuel : as.length ≤ fuel) (chain : List SnapshotRow) :
    buildChainLoop rows fuel r.parentId chain = some (.ok (as.reverse ++ chain.reverse)) := by
  induction h generalizing fuel chain with
  | root hnone =>
      rw [hnone]
      cases fuel <;> rfl
  | step hp hsome _ ih =>
      cases fuel with
      | zero => cases hfuel
      | succ fuel =>
          rw [hsome, buildChainLoop, find_of_mem hids hp]
          simp only
          rw [ih (Nat.le_of_succ_le_succ hfuel)]
          simp

end

/-! ## What the actions keep -/

/-- A row with a parent is laid over the parent's image. -/
def LaidOver (s : SnapshotHost Sector Data) (r : SnapshotRow) : Prop :=
  ∀ parentId, r.parentId = some parentId →
    ∃ p ∈ s.rows, p.id = parentId ∧ backing s.files r.imagePath = some p.imagePath

structure Sound (s : SnapshotHost Sector Data) : Prop where
  ids : (s.rows.map fun r => r.id).Nodup
  paths : (s.rows.map fun r => r.imagePath).Nodup
  depth : ∀ r ∈ s.rows, ∃ as, Ancestors s.rows r as ∧ as.length = r.depth.toNat
  exist : ∀ r ∈ s.rows, (s.files r.imagePath).isSome
  backed : ∀ r ∈ s.rows, ∀ p ∈ s.rows, r.parentId = some p.id →
    backing s.files r.imagePath = some p.imagePath

section

variable {s s' : SnapshotHost Sector Data}

theorem Sound.isChain (hs : Sound s) {r : SnapshotRow} {as : List SnapshotRow} (hr : r ∈ s.rows)
    (h : Ancestors s.rows r as) : (r :: as).IsChain fun child parent =>
      backing s.files child.imagePath = some parent.imagePath := by
  induction h with
  | root _ => exact .singleton _
  | step hp hparent _ ih => exact .cons_cons (hs.backed _ hr _ hp hparent) (ih hp)

theorem Sound.wellFormed (hs : Sound s) : WellFormed s := by
  refine ⟨hs.depth, ?_, ?_, ?_, fun r hr as h => hs.isChain hr h⟩
  · intro r hr hcycle
    obtain ⟨as, hancestors, -⟩ := hs.depth r hr
    exact hancestors.not_mem hs.ids (hancestors.mem_of_transGen hs.ids hcycle)
  · intro r hr as hancestors
    refine ⟨as.length, fun fuel hfuel => ?_⟩
    exact buildChainLoop_eq hs.ids hancestors hfuel [r]
  · intro r hr as hancestors p hp
    rcases List.mem_cons.mp hp with rfl | hp
    · exact hs.exist p hr
    · exact hs.exist p (hancestors.mem p hp)

theorem Sound.of_files (hs : Sound s) (hrows : s'.rows = s.rows)
    (hfiles : ∀ r ∈ s.rows, (s'.files r.imagePath).map Image.backing =
      (s.files r.imagePath).map Image.backing) : Sound s' := by
  refine ⟨hrows ▸ hs.ids, hrows ▸ hs.paths, hrows ▸ hs.depth, ?_, ?_⟩
  · intro r hr
    rw [hrows] at hr
    rw [← Option.isSome_map, hfiles r hr, Option.isSome_map]
    exact hs.exist r hr
  · intro r hr p hp hparent
    rw [hrows] at hr hp
    rw [backing_eq_join, hfiles r hr, ← backing_eq_join]
    exact hs.backed r hr p hp hparent

theorem ne_of_fresh {files : Files String Sector Data} {path path' : String}
    (hfresh : (files path').isNone) (hexist : (files path).isSome) : path ≠ path' := by
  rintro rfl
  rw [Option.isNone_iff_eq_none.mp hfresh] at hexist
  cases hexist

section Taking

variable {out : TakeAnswers} {req : TakeRequest}

theorem laid_files : (laid out req s).files =
    if created out req s then
      Function.update s.files (snapPath out req) (some ⟨some (parentPath out req s), fun _ => none⟩)
    else s.files := by
  unfold laid
  split
  · simp [layOver]
  · simp

theorem ended_files : (ended out req s).files = (laid out req s).files := by
  unfold ended
  split <;> rfl

theorem switched_files : (switched out req s).files = (laid out req s).files := ended_files

theorem laid_files_of_ne {path : String} (hne : path ≠ snapPath out req) :
    (laid out req s).files path = s.files path := by
  rw [laid_files]
  split
  · exact Function.update_of_ne hne _ _
  · rfl

theorem Stops.kept (h : Stops out req s s') :
    s'.rows = s.rows ∧ ∀ path, path ≠ snapPath out req → s'.files path = s.files path := by
  cases h with
  | unprepared _ => exact ⟨rfl, fun _ _ => rfl⟩
  | unstarted _ _ => exact ⟨begun_rows, fun _ _ => by rw [begun_files]⟩
  | unresumed _ _ _ => exact ⟨laid_rows, fun _ hne => laid_files_of_ne hne⟩
  | uncreated _ _ _ _ => exact ⟨ended_rows, fun _ hne => by rw [ended_files, laid_files_of_ne hne]⟩
  | unredirected _ _ _ _ =>
      exact ⟨ended_rows, fun _ hne => by rw [ended_files, laid_files_of_ne hne]⟩
  | unsaved _ _ _ _ _ =>
      exact ⟨switched_rows, fun _ hne => by rw [switched_files, laid_files_of_ne hne]⟩

theorem Takes.files_eq {snap : SnapshotRow} (h : Takes out req s snap s') : s'.files =
    Function.update s.files (snapPath out req)
      (some ⟨some (parentPath out req s), fun _ => none⟩) := by
  rw [h.files, switched_files, laid_files, if_pos h.created]

theorem latest_mem {rows : List SnapshotRow} {vmId : String} {p : SnapshotRow}
    (h : latest rows vmId = some p) : p ∈ rows :=
  List.mem_of_mem_filter (List.argmax_mem h)

theorem Ancestors.append {rows : List SnapshotRow} {r : SnapshotRow} {as : List SnapshotRow}
    (h : Ancestors rows r as) (snap : SnapshotRow) : Ancestors (rows ++ [snap]) r as :=
  h.keep fun p hp => List.mem_append_left _ (h.mem p hp)

theorem Takes.ancestors {snap : SnapshotRow} (hs : Sound s) (h : Takes out req s snap s') :
    ∃ as, Ancestors s'.rows snap as ∧
      ((latest s.rows req.vmId = none ∧ as = [] ∧ snap.depth = 0) ∨
        ∃ p, latest s.rows req.vmId = some p ∧ snap.depth = p.depth + 1 ∧
          as.length = p.depth.toNat + 1) := by
  obtain ⟨diskMib, checksum, hsnap⟩ := h.row
  rw [h.rows]
  cases hlatest : latest s.rows req.vmId with
  | none =>
      rw [hlatest] at hsnap
      exact ⟨[], .root (by rw [hsnap]; rfl), .inl ⟨rfl, rfl, by rw [hsnap]; rfl⟩⟩
  | some p =>
      rw [hlatest] at hsnap
      have hp := latest_mem hlatest
      obtain ⟨as, hancestors, hdepth⟩ := hs.depth p hp
      refine ⟨p :: as, .step (List.mem_append_left _ hp) (by rw [hsnap]; rfl)
        (hancestors.append snap), .inr ⟨p, rfl, by rw [hsnap]; rfl, ?_⟩⟩
      rw [List.length_cons, hdepth]

theorem nodup_map_append {α β : Type} {f : α → β} {l : List α} {x : α} (hl : (l.map f).Nodup)
    (hx : ∀ y ∈ l, f y ≠ f x) : ((l ++ [x]).map f).Nodup := by
  rw [List.map_append, List.nodup_append]
  refine ⟨hl, List.nodup_singleton _, ?_⟩
  intro _ hold _ hone
  obtain ⟨y, hy, rfl⟩ := List.mem_map.mp hold
  obtain ⟨z, hz, rfl⟩ := List.mem_map.mp hone
  rw [List.mem_singleton.mp hz]
  exact hx y hy

section

variable {snap : SnapshotRow}

theorem Takes.id_eq (h : Takes out req s snap s') : snap.id = out.snapId := by
  obtain ⟨diskMib, checksum, hsnap⟩ := h.row
  rw [hsnap]
  rfl

theorem Takes.imagePath_eq (h : Takes out req s snap s') : snap.imagePath = snapPath out req := by
  obtain ⟨diskMib, checksum, hsnap⟩ := h.row
  rw [hsnap]
  rfl

theorem Takes.parentId_eq (h : Takes out req s snap s') :
    snap.parentId = (latest s.rows req.vmId).map fun p => p.id := by
  obtain ⟨diskMib, checksum, hsnap⟩ := h.row
  rw [hsnap]
  rfl

theorem Takes.new_file (h : Takes out req s snap s') :
    s'.files snap.imagePath = some ⟨some (parentPath out req s), fun _ => none⟩ := by
  rw [h.files_eq, h.imagePath_eq, Function.update_self]

theorem Takes.mem_rows (h : Takes out req s snap s') {r : SnapshotRow} :
    r ∈ s'.rows ↔ r ∈ s.rows ∨ r = snap := by
  rw [h.rows, List.mem_append, List.mem_singleton]

theorem Takes.ids (hids : (s.rows.map fun r => r.id).Nodup) (h : Takes out req s snap s') :
    (s'.rows.map fun r => r.id).Nodup := by
  rw [h.rows]
  apply nodup_map_append hids
  intro r hr
  rw [h.id_eq]
  exact h.saved.fresh r hr

theorem Takes.paths (hpaths : (s.rows.map fun r => r.imagePath).Nodup)
    (hexist : ∀ r ∈ s.rows, (s.files r.imagePath).isSome)
    (hfresh : (s.files (snapPath out req)).isNone) (h : Takes out req s snap s') :
    (s'.rows.map fun r => r.imagePath).Nodup := by
  rw [h.rows]
  apply nodup_map_append hpaths
  intro r hr
  rw [h.imagePath_eq]
  exact ne_of_fresh hfresh (hexist r hr)

theorem Takes.laidOver (h : Takes out req s snap s') : LaidOver s' snap := by
  intro parentId hparent
  rw [h.parentId_eq] at hparent
  obtain ⟨p, hlatest, hid⟩ := Option.map_eq_some_iff.mp hparent
  refine ⟨p, h.mem_rows.mpr (.inl (latest_mem hlatest)), hid, ?_⟩
  rw [backing, h.new_file, parentPath, hlatest]
  rfl

end

theorem toNat_succ {d : UInt32} : (d + 1).toNat = d.toNat + 1 ↔ d.toNat + 1 < 2 ^ 32 := by
  rw [UInt32.toNat_add]
  have hone : (1 : UInt32).toNat = 1 := rfl
  have hlt := d.toNat_lt
  omega

theorem Takes.sound {snap : SnapshotRow} (hs : Sound s) (h : Takes out req s snap s')
    (hfresh : (s.files (snapPath out req)).isNone)
    (hfits : ∀ p, latest s.rows req.vmId = some p → p.depth.toNat + 1 < 2 ^ 32) : Sound s' := by
  obtain ⟨as, hancestors, hcases⟩ := h.ancestors hs
  have hsame (r : SnapshotRow) (hr : r ∈ s.rows) : s'.files r.imagePath = s.files r.imagePath := by
    rw [h.files_eq, Function.update_of_ne (ne_of_fresh hfresh (hs.exist r hr))]
  refine ⟨h.ids hs.ids, h.paths hs.paths hs.exist hfresh, ?_, ?_, ?_⟩
  · intro r hr
    rcases h.mem_rows.mp hr with hr | rfl
    · obtain ⟨bs, habove, hdepth⟩ := hs.depth r hr
      exact ⟨bs, h.rows ▸ habove.append snap, hdepth⟩
    · refine ⟨as, hancestors, ?_⟩
      rcases hcases with ⟨-, rfl, hdepth⟩ | ⟨p, hlatest, hdepth, hlen⟩
      · rw [hdepth]
        rfl
      · rw [hdepth, hlen, toNat_succ.mpr (hfits p hlatest)]
  · intro r hr
    rcases h.mem_rows.mp hr with hr | rfl
    · rw [hsame r hr]
      exact hs.exist r hr
    · rw [h.new_file]
      rfl
  · intro r hr p hp hparent
    rcases h.mem_rows.mp hr with hr | rfl
    · rw [backing, hsame r hr]
      rcases h.mem_rows.mp hp with hp | rfl
      · exact hs.backed r hr p hp hparent
      · obtain ⟨bs, habove, -⟩ := hs.depth r hr
        cases habove with
        | root hnone => cases hnone.symm.trans hparent
        | step hq hsome _ =>
            have heq := Option.some.inj (hsome.symm.trans hparent)
            exact absurd (heq.trans h.id_eq) (h.saved.fresh _ hq)
    · obtain ⟨q, hq, hid, hbacking⟩ := h.laidOver p.id hparent
      rwa [eq_of_id (h.ids hs.ids) hq hp hid] at hbacking

theorem Takes.depth_fits {snap : SnapshotRow} (hs : Sound s) (h : Takes out req s snap s')
    (hw : WellFormed s') (p : SnapshotRow) (hp : latest s.rows req.vmId = some p) :
    p.depth.toNat + 1 < 2 ^ 32 := by
  obtain ⟨as, hancestors, hcases⟩ := h.ancestors hs
  have hsnap : snap ∈ s'.rows := by
    rw [h.rows]
    exact List.mem_append_right _ (List.mem_singleton_self _)
  obtain ⟨bs, habove, hdepth⟩ := hw.depth snap hsnap
  rcases hcases with ⟨hnone, -⟩ | ⟨q, hq, hsucc, hlen⟩
  · cases hnone.symm.trans hp
  · cases hq.symm.trans hp
    rw [← hancestors.unique (h.ids hs.ids) habove, hsucc, hlen] at hdepth
    exact toNat_succ.mp hdepth.symm

end Taking

/-! ### Seals -/

@[simp] theorem sealRow_id (id : String) (r : SnapshotRow) : (sealRow id r).id = r.id := by
  unfold sealRow
  split <;> rfl

@[simp] theorem sealRow_imagePath (id : String) (r : SnapshotRow) :
    (sealRow id r).imagePath = r.imagePath := by
  unfold sealRow
  split <;> rfl

@[simp] theorem sealRow_parentId (id : String) (r : SnapshotRow) :
    (sealRow id r).parentId = r.parentId := by
  unfold sealRow
  split <;> rfl

@[simp] theorem sealRow_depth (id : String) (r : SnapshotRow) :
    (sealRow id r).depth = r.depth := by
  unfold sealRow
  split <;> rfl

/-- A seal marks rows or does nothing. -/
def Sealed (s : SnapshotHost Sector Data) (id : String) (s' : SnapshotHost Sector Data) : Prop :=
  s' = s ∨ s' = { s with rows := s.rows.map (sealRow id) }

theorem sealSnapshot_spec (out : SealAnswers) (id : String) :
    Triple (fun s₁ => s₁ = s) (sealSnapshot out id) (fun _ => Sealed s id)
      (fun _ => Sealed s id) := by
  have hget : Triple (Sealed s id) (getSnapshot out.fetchOne id) (fun _ => Sealed s id)
      (fun _ => Sealed s id) := by
    intro s₁ h
    simp only [getSnapshot, EStateM.run_bind, EStateM.run_get]
    cases out.fetchOne with
    | some message => exact h
    | none => cases s₁.rows.find? fun r => r.id = id <;> exact h
  have hsame (error : Option String) : Triple (Sealed s id) (attempt error fun s => s)
      (fun _ => Sealed s id) (fun _ => Sealed s id) := by
    intro s₁ h
    cases error <;> exact h
  apply Triple.bind ((attempt_spec _ _).conseq (fun _ h => h) (fun _ _ h => Or.inr h.1)
    fun _ _ h => Or.inl h.1)
  intro _
  apply Triple.bind hget
  intro _
  apply Triple.bind (hsame _)
  intro _
  exact hsame _

theorem left_of_spec {α : Type} {x : Action Sector Data α} {Q : SnapshotHost Sector Data → Prop}
    (h : Triple (fun s₁ => s₁ = s) x (fun _ => Q) (fun _ => Q)) : Q (left x s) := by
  have hpost := h s rfl
  unfold left
  cases hrun : x.run s with
  | ok a s' =>
      rw [hrun] at hpost
      exact hpost
  | error e s' =>
      rw [hrun] at hpost
      exact hpost

theorem Sound.sealed (hs : Sound s) {id : String} (h : Sealed s id s') : Sound s' := by
  rcases h with rfl | rfl
  · exact hs
  · have hrow {r : SnapshotRow} (hr : r ∈ s.rows.map (sealRow id)) :
        ∃ q ∈ s.rows, r = sealRow id q := by
      obtain ⟨q, hq, rfl⟩ := List.mem_map.mp hr
      exact ⟨q, hq, rfl⟩
    refine ⟨?_, ?_, ?_, ?_, ?_⟩
    · simpa [List.map_map, Function.comp_def] using hs.ids
    · simpa [List.map_map, Function.comp_def] using hs.paths
    · intro r hr
      obtain ⟨q, hq, rfl⟩ := hrow hr
      obtain ⟨as, hancestors, hdepth⟩ := hs.depth q hq
      refine ⟨as.map (sealRow id), ?_, by rw [List.length_map, hdepth, sealRow_depth]⟩
      exact hancestors.transport (sealRow_id id) (sealRow_parentId id)
        fun p hp => List.mem_map_of_mem (hancestors.mem p hp)
    · intro r hr
      obtain ⟨q, hq, rfl⟩ := hrow hr
      rw [sealRow_imagePath]
      exact hs.exist q hq
    · intro r hr p hp hparent
      obtain ⟨q, hq, rfl⟩ := hrow hr
      obtain ⟨o, ho, rfl⟩ := hrow hp
      rw [sealRow_imagePath, sealRow_imagePath]
      rw [sealRow_parentId, sealRow_id] at hparent
      exact hs.backed q hq o ho hparent

/-! ### Deletes -/

theorem mem_view_children {id : String} {c : Snapshot} :
    c ∈ (view s).children id ↔ ∃ r ∈ s.rows, r.parentId = some id ∧ r.toSnapshot = c := by
  rw [SnapshotEngine.mem_children, view, List.mem_map]
  constructor
  · rintro ⟨⟨r, hr, rfl⟩, hparent⟩
    exact ⟨r, hr, hparent, rfl⟩
  · rintro ⟨r, hr, hparent, rfl⟩
    exact ⟨⟨r, hr, rfl⟩, hparent⟩

theorem row_of_finds {out : Answers} {id : String} {snap : Snapshot}
    (h : SnapshotEngine.Finds out (view s) id snap) :
    ∃ r ∈ s.rows, r.id = id ∧ r.toSnapshot = snap := by
  obtain ⟨hmem, hid⟩ := SnapshotEngine.getSnapshot_ok h.found
  obtain ⟨r, hr, rfl⟩ := List.mem_map.mp hmem
  exact ⟨r, hr, hid, rfl⟩

theorem deleteRows_of_no_children {id : String} (hnone : (view s).children id = []) :
    deleteRows s.rows id = s.rows.filter fun r => r.id ≠ id := by
  have hkept : ∀ r ∈ s.rows.filter (fun r => r.id ≠ id), unlinkRow id r = r := by
    intro r hr
    have hparent : r.parentId ≠ some id := by
      intro hparent
      have hmem := mem_view_children.mpr ⟨r, List.mem_of_mem_filter hr, hparent, rfl⟩
      rw [hnone] at hmem
      cases hmem
    rw [unlinkRow, SnapshotEngine.unlink, if_neg hparent]
  rw [deleteRows]
  conv_rhs => rw [← List.map_id (s.rows.filter fun r => r.id ≠ id)]
  exact List.map_congr_left hkept

theorem Sound.drop (hs : Sound s) (gone : String) (hnone : ∀ r ∈ s.rows, r.parentId ≠ some gone)
    (hrows : s'.rows = s.rows.filter fun r => r.id ≠ gone)
    (hfiles : ∀ r ∈ s.rows, r.id ≠ gone → s'.files r.imagePath = s.files r.imagePath) :
    Sound s' := by
  have hrow {r : SnapshotRow} : r ∈ s'.rows ↔ r ∈ s.rows ∧ r.id ≠ gone := by
    rw [hrows, List.mem_filter, decide_eq_true_iff]
  refine ⟨?_, ?_, ?_, ?_, ?_⟩
  · rw [hrows]
    exact hs.ids.sublist (List.filter_sublist.map _)
  · rw [hrows]
    exact hs.paths.sublist (List.filter_sublist.map _)
  · intro r hr
    obtain ⟨as, hancestors, hdepth⟩ := hs.depth r (hrow.mp hr).1
    refine ⟨as, hancestors.keep fun p hp => ?_, hdepth⟩
    obtain ⟨c, hc, hparent⟩ := hancestors.parent_of_mem (hrow.mp hr).1 hp
    refine hrow.mpr ⟨hancestors.mem p hp, ?_⟩
    intro hid
    exact hnone c hc (hid ▸ hparent)
  · intro r hr
    rw [hfiles r (hrow.mp hr).1 (hrow.mp hr).2]
    exact hs.exist r (hrow.mp hr).1
  · intro r hr p hp hparent
    rw [backing, hfiles r (hrow.mp hr).1 (hrow.mp hr).2]
    exact hs.backed r (hrow.mp hr).1 p (hrow.mp hp).1 hparent

theorem view_delete (out : Answers) (s : SnapshotHost Sector Data) (gone : String) :
    view (SnapshotHost.delete out s gone) = (SnapshotEngine.delete out (view s) gone).2 := by
  have hrows : (deleteRows s.rows gone).map (fun r => r.toSnapshot) =
      SnapshotEngine.deleteRow (view s).rows gone := by
    simp only [deleteRows, SnapshotEngine.deleteRow, view, List.filter_map, List.map_map]
    rfl
  rcases SnapshotEngine.delete_cases out (view s) gone with ⟨-, e, heq⟩ | ⟨snap, -, hcases⟩
  · simp only [SnapshotHost.delete, heq, reduceCtorEq, if_false]
    rfl
  rcases hcases with ⟨e, -, heq⟩ | ⟨-, heq⟩
  · simp only [SnapshotHost.delete, heq, reduceCtorEq, if_false]
    rfl
  · simp only [SnapshotHost.delete, heq]
    by_cases hexecute : out.execute = .ok ()
    · simp only [view, if_pos hexecute, hrows]
    · simp only [view, if_neg hexecute]

theorem mem_deleteRows {rows : List SnapshotRow} {r : SnapshotRow} {gone : String} (hr : r ∈ rows)
    (hne : r.id ≠ gone) : unlinkRow gone r ∈ deleteRows rows gone :=
  List.mem_map_of_mem (List.mem_filter.mpr ⟨hr, decide_eq_true hne⟩)

@[simp] theorem unlinkRow_id (gone : String) (r : SnapshotRow) : (unlinkRow gone r).id = r.id := by
  unfold unlinkRow SnapshotEngine.unlink
  split <;> rfl

@[simp] theorem unlinkRow_imagePath (gone : String) (r : SnapshotRow) :
    (unlinkRow gone r).imagePath = r.imagePath := by
  unfold unlinkRow SnapshotEngine.unlink
  split <;> rfl

theorem unlinkRow_parentId {gone parentId : String} {r : SnapshotRow}
    (h : (unlinkRow gone r).parentId = some parentId) :
    r.parentId = some parentId ∧ parentId ≠ gone := by
  unfold unlinkRow SnapshotEngine.unlink at h
  split at h
  · cases h
  · next hother =>
      refine ⟨h, ?_⟩
      rintro rfl
      exact hother h

theorem merge_of_no_children {out : Answers} {gone : String}
    (hnone : (view s).children gone = []) :
    SnapshotEngine.merge out (view s) gone = (.ok (), s.files) := by
  rw [SnapshotEngine.merge, hnone]
  rfl

theorem map_backing_merge (out : Answers) (s : SnapshotHost Sector Data) (gone path : String) :
    ((SnapshotEngine.merge out (view s) gone).2 path).map Image.backing =
      (s.files path).map Image.backing := by
  rw [SnapshotEngine.merge, SnapshotEngine.commitToChildren_files]
  exact map_backing_foldl_commit _ _ _

theorem delete_cases (out : Answers) (s : SnapshotHost Sector Data) (gone : String) :
    ((∀ snap, ¬ SnapshotEngine.Finds out (view s) gone snap) ∧ delete out s gone = s) ∨
    ∃ snap, SnapshotEngine.Finds out (view s) gone snap ∧
      ((¬ SnapshotEngine.CanMerge out (view s) gone ∧
          delete out s gone = { s with files := (SnapshotEngine.merge out (view s) gone).2 }) ∨
        (SnapshotEngine.CanMerge out (view s) gone ∧
          delete out s gone =
            { s with
              rows := if out.execute = .ok () then deleteRows s.rows gone else s.rows
              files := SnapshotEngine.removeImage out
                (SnapshotEngine.merge out (view s) gone).2 snap.imagePath })) := by
  rcases SnapshotEngine.delete_cases out (view s) gone with ⟨hno, e, heq⟩ | ⟨snap, hf, hcases⟩
  · refine .inl ⟨hno, ?_⟩
    simp only [SnapshotHost.delete, heq, reduceCtorEq, if_false]
    rfl
  · refine .inr ⟨snap, hf, hcases.imp ?_ ?_⟩
    · rintro ⟨e, hfailed, heq⟩
      refine ⟨?_, ?_⟩
      · intro hmerge
        cases hfailed.symm.trans (SnapshotEngine.merge_ok_iff.mpr hmerge)
      · simp only [SnapshotHost.delete, heq, reduceCtorEq, if_false]
    · rintro ⟨hmerge, heq⟩
      refine ⟨SnapshotEngine.merge_ok_iff.mp hmerge, ?_⟩
      simp only [SnapshotHost.delete, heq]

theorem finds_unique {out : Answers} {gone : String} {snap snap' : Snapshot}
    (hf : SnapshotEngine.Finds out (view s) gone snap)
    (hf' : SnapshotEngine.Finds out (view s) gone snap') : snap' = snap :=
  Except.ok.inj (hf'.found.symm.trans hf.found)

theorem delete_of_merged {out : Answers} {gone : String} {snap : Snapshot}
    (hf : SnapshotEngine.Finds out (view s) gone snap)
    (hmerge : SnapshotEngine.CanMerge out (view s) gone) :
    delete out s gone =
      { s with
        rows := if out.execute = .ok () then deleteRows s.rows gone else s.rows
        files := SnapshotEngine.removeImage out
          (SnapshotEngine.merge out (view s) gone).2 snap.imagePath } := by
  rcases delete_cases out s gone with ⟨hno, -⟩ | ⟨snap', hf', ⟨hstops, -⟩ | ⟨-, heq⟩⟩
  · exact absurd hf (hno snap)
  · exact absurd hmerge hstops
  · rw [heq, finds_unique hf hf']

theorem delete_of_stopped {out : Answers} {gone : String} {snap : Snapshot}
    (hf : SnapshotEngine.Finds out (view s) gone snap)
    (hmerge : ¬ SnapshotEngine.CanMerge out (view s) gone) :
    delete out s gone = { s with files := (SnapshotEngine.merge out (view s) gone).2 } := by
  rcases delete_cases out s gone with ⟨hno, -⟩ | ⟨-, -, ⟨-, heq⟩ | ⟨hok, -⟩⟩
  · exact absurd hf (hno snap)
  · exact heq
  · exact absurd hok hmerge

theorem Sound.delete (hs : Sound s) {out : Answers} {gone : String}
    (hkeeps : Keeps s (.delete out gone)) : Sound (SnapshotHost.delete out s gone) := by
  rcases delete_cases out s gone with ⟨-, heq⟩ | ⟨snap, hf, ⟨-, heq⟩ | ⟨hmerge, heq⟩⟩
  · rwa [heq]
  · rw [heq]
    exact hs.of_files rfl fun r _ => map_backing_merge out s gone _
  rw [heq]
  have hkept := hkeeps ⟨snap, hf⟩ hmerge
  obtain ⟨q, hq, hid, hsnap⟩ := row_of_finds hf
  by_cases hexecute : out.execute = .ok ()
  · rw [if_pos hexecute] at hkept
    refine hs.drop gone ?_ ?_ ?_
    · intro r hr hparent
      have hmem := mem_view_children.mpr ⟨r, hr, hparent, rfl⟩
      rw [hkept] at hmem
      cases hmem
    · rw [if_pos hexecute]
      exact deleteRows_of_no_children hkept
    · intro r hr hne
      have hpath : r.imagePath ≠ snap.imagePath := by
        rw [← hsnap]
        intro hpath
        have hsame := List.inj_on_of_nodup_map hs.paths hr hq hpath
        exact hne (hsame ▸ hid)
      simp only [merge_of_no_children hkept, SnapshotEngine.removeImage]
      cases out.removeFile with
      | ok _ => exact Function.update_of_ne hpath _ _
      | error _ => rfl
  · rw [if_neg hexecute] at hkept
    refine hs.of_files (if_neg hexecute) fun r _ => ?_
    simp only [SnapshotEngine.removeImage]
    cases hfile : out.removeFile with
    | ok _ => exact absurd hfile hkept
    | error _ => exact map_backing_merge out s gone _

/-- What goes wrong otherwise: a child keeps a depth without having a parent, or a row stays
without its image. -/
theorem Sound.keeps_of_delete (hs : Sound s) {out : Answers} {gone : String}
    (hw : WellFormed (SnapshotHost.delete out s gone)) : Keeps s (.delete out gone) := by
  rintro ⟨snap, hf⟩ hmerge
  obtain ⟨q, hq, hid, hsnap⟩ := row_of_finds hf
  rw [delete_of_merged hf hmerge] at hw
  by_cases hexecute : out.execute = .ok ()
  · rw [if_pos hexecute]
    rw [List.eq_nil_iff_forall_not_mem]
    intro c hc
    obtain ⟨r, hr, hparent, -⟩ := mem_view_children.mp hc
    obtain ⟨as, hancestors, hdepth⟩ := hs.depth r hr
    have hne : r.id ≠ gone := by
      intro hself
      cases hancestors with
      | root hnone => cases hnone.symm.trans hparent
      | @step _ p as hp hsome above =>
          have hpr : p.id = r.id := (Option.some.inj (hsome.symm.trans hparent)).trans hself.symm
          cases eq_of_id hs.ids hp hr hpr
          exact (Ancestors.step hp hsome above).not_mem hs.ids List.mem_cons_self
    simp only [if_pos hexecute] at hw
    obtain ⟨bs, habove, hkept⟩ := hw.depth _ (mem_deleteRows hr hne)
    have hunlinked : (unlinkRow gone r).parentId = none := by
      simp only [unlinkRow, SnapshotEngine.unlink, if_pos hparent]
    cases habove with
    | step _ hsome _ => cases hunlinked.symm.trans hsome
    | root _ =>
        have hzero : as.length = 0 := hdepth.trans hkept.symm
        cases List.length_eq_zero_iff.mp hzero
        cases hancestors with
        | root hnone => cases hnone.symm.trans hparent
  · rw [if_neg hexecute]
    intro hfile
    simp only [if_neg hexecute] at hw
    obtain ⟨as, hancestors, -⟩ := hs.depth q hq
    have hexist := hw.exist q hq as hancestors q List.mem_cons_self
    simp only [SnapshotEngine.removeImage, hfile, ← hsnap, Function.update_self] at hexist
    cases hexist

end

/-! ## Whole runs -/

theorem taken_or_stopped (out : TakeAnswers) (req : TakeRequest) (s : SnapshotHost Sector Data) :
    (∃ snap, Takes out req s snap (left (takeSnapshot out req) s)) ∨
      ¬ Completes out req s ∧ Stops out req s (left (takeSnapshot out req) s) := by
  have hpost := takeSnapshot_spec out req s s rfl
  unfold left
  cases hrun : (takeSnapshot out req).run s with
  | ok snap s' =>
      rw [hrun] at hpost
      exact .inl ⟨snap, hpost⟩
  | error e s' =>
      rw [hrun] at hpost
      exact .inr ⟨Stops.not_completes hpost, hpost⟩

theorem Sound.step {s : SnapshotHost Sector Data} (hs : Sound s) {a : SnapshotAction}
    (hfresh : Fresh s a) (hkeeps : Keeps s a) : Sound (catalog.step s a).1 := by
  cases a with
  | take out req =>
      rcases taken_or_stopped out req s with ⟨snap, htakes⟩ | ⟨-, hstops⟩
      · exact htakes.sound hs hfresh (hkeeps htakes.toCompletes)
      · obtain ⟨hrows, hfiles⟩ := hstops.kept
        exact hs.of_files hrows fun r hr =>
          congrArg (Option.map Image.backing) (hfiles _ (ne_of_fresh hfresh (hs.exist r hr)))
  | sealSnapshot out id => exact hs.sealed (left_of_spec (sealSnapshot_spec out id))
  | delete out gone => exact hs.delete hkeeps

theorem Sound.keeps {s : SnapshotHost Sector Data} (hs : Sound s) {a : SnapshotAction}
    (hw : WellFormed (catalog.step s a).1) : Keeps s a := by
  cases a with
  | take out req =>
      intro hcompletes p hp
      rcases taken_or_stopped out req s with ⟨snap, htakes⟩ | ⟨hno, -⟩
      · exact htakes.depth_fits hs hw p hp
      · exact absurd hcompletes hno
  | sealSnapshot out id => trivial
  | delete out gone => exact hs.keeps_of_delete hw

theorem sound_of_no_rows {s : SnapshotHost Sector Data} (hs : s.rows = []) : Sound s := by
  have hnone {r : SnapshotRow} (hr : r ∈ s.rows) : False := by
    rw [hs] at hr
    cases hr
  refine ⟨by rw [hs]; exact List.nodup_nil, by rw [hs]; exact List.nodup_nil, ?_, ?_, ?_⟩
  · exact fun _ hr => (hnone hr).elim
  · exact fun _ hr => (hnone hr).elim
  · exact fun _ hr => (hnone hr).elim

/-- From an empty catalog, the catalog is a well-formed forest after every action exactly
when every action keeps the children of what is deleted out of it and the images in. -/
theorem wellFormed_iff_keeps {s : SnapshotHost Sector Data} (as : List SnapshotAction)
    (hempty : s.rows = []) (hfresh : catalog.AllSteps Fresh s as) :
    (∀ pre, pre <+: as → WellFormed (catalog.run s pre).1) ↔ catalog.AllSteps Keeps s as :=
  catalog.prefixes_iff_of_invariant (fun _ hs => hs.wellFormed)
    (fun _ _ hs hnew hkeeps => hs.step hnew hkeeps) (fun _ _ hs _ hw => hs.keeps hw)
    (sound_of_no_rows hempty) hfresh

/-! ## Samples -/

def monday : SnapshotAction := .take stepsSucceed nightlySnapshot

def tuesday : SnapshotAction :=
  .take { stepsSucceed with snapId := "tue", now := 86400 } nightlySnapshot

def tuesdayDeleted : List SnapshotAction :=
  [monday, tuesday, .delete SnapshotEngine.allWell "tue"]

theorem monday_wellFormed :
    catalog.AllSteps Fresh oneDisk tuesdayDeleted ∧
      ∀ pre, pre <+: tuesdayDeleted → WellFormed (catalog.run oneDisk pre).1 := by
  have hfresh : catalog.AllSteps Fresh oneDisk tuesdayDeleted := by decide +kernel
  refine ⟨hfresh, (wellFormed_iff_keeps tuesdayDeleted rfl hfresh).mpr ⟨?_, ?_, ?_, trivial⟩⟩
  · intro _ p hp
    cases hp
  · intro _ p hp
    have hdepth : (latest (catalog.run oneDisk [monday]).1.rows nightlySnapshot.vmId).all
        (fun p => p.depth = 0) = true := by decide +kernel
    have hzero : p.depth = 0 := of_decide_eq_true ((Option.all_eq_true _ _).mp hdepth p hp)
    rw [hzero]
    decide
  · intro _ _
    have hchildren : ((view (catalog.run oneDisk [monday, tuesday]).1).children "tue").isEmpty =
        true := by decide +kernel
    exact List.isEmpty_iff.mp hchildren

def mondayDeleted : List SnapshotAction :=
  [monday, tuesday, .delete SnapshotEngine.allWell "mon"]

theorem mondayDeleted_illFormed :
    catalog.AllSteps Fresh oneDisk mondayDeleted ∧
      ¬ ∀ pre, pre <+: mondayDeleted → WellFormed (catalog.run oneDisk pre).1 := by
  refine ⟨by decide +kernel, ?_⟩
  intro h
  obtain ⟨r, hr, hparent, hdepth⟩ : ∃ r ∈ (catalog.run oneDisk mondayDeleted).1.rows,
      r.parentId = none ∧ r.depth = 1 := by
    decide +kernel
  obtain ⟨as, hancestors, hlen⟩ := (h mondayDeleted List.prefix_rfl).depth r hr
  cases hancestors with
  | root _ =>
      rw [hdepth] at hlen
      cases hlen
  | step _ hsome _ => cases hparent.symm.trans hsome

end SnapshotHost

end Caiman.Bts
