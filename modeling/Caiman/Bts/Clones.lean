import Caiman.Lib.History
import Caiman.Bts.Templates

/-!
# Clones as copies

The overlays share the images of their templates, and each is meant to be a disk of its own.
What every order of creates, clones, deletes and writes makes of it, and of the counts.
-/

namespace Caiman.Bts.Templates

open Lib Lib.Overlay

variable {Sector Data : Type}

/-! ## What the registry is for -/

/-- Each template and each overlay by its content, with nothing shared. -/
structure Copies (Sector Data : Type) where
  /-- by the path of the image -/
  templates : String → Option (Sector → Data)
  /-- by the path of the file -/
  overlays : String → Option (Sector → Data)

/-- A host, with what its templates and overlays ought to be. -/
structure Watched (Sector Data : Type) where
  host : TemplateHost Sector Data
  copies : Copies Sector Data

def Watched.new (templateDir : Option String) (snapshots : String → Option String)
    (files : Files String Sector Data) : Watched Sector Data where
  host := ⟨templateDir, snapshots, files, [], []⟩
  copies := ⟨fun _ => none, fun _ => none⟩

inductive TemplateAction (Sector Data : Type)
  | create (out : CreateAnswers) (req : CreateTemplate)
  | clone (out : CloneAnswers) (req : CloneRequest)
  | publish (update : Option String) (id : String)
  | unpublish (update : Option String) (id : String)
  | delete (execute : Option String) (id : String)
  /-- A sector is written through an overlay, by whoever has it open. The VM that `clone` starts
  has not. -/
  | writeOverlay (disk : String) (x : Sector) (v : Data)
  /-- Snapshots are taken and deleted, other VMs write. -/
  | elsewhere (snapshots : String → Option String) (files : Files String Sector Data)

inductive Event
  | created (tmplId : String)
  | cloned (tmplId vmId : String)
  deriving DecidableEq, Repr

section

variable [Zero Data] [DecidableEq Sector]

def snapshotDisk (s : TemplateHost Sector Data) (depth : Nat) (snapId : String) :
    Option (Sector → Data) :=
  (chainOf s depth snapId).map (content s.files)

def recordCreate (out : CreateAnswers) (req : CreateTemplate) (s : Watched Sector Data) :
    Watched Sector Data × List Event :=
  match (createFromSnapshot out req).run s.host with
  | .error _ host => ({ s with host := host }, [])
  | .ok row host =>
      ({ s with
          host := host
          copies := { s.copies with
            templates := Function.update s.copies.templates row.imagePath
              (snapshotDisk s.host out.depth req.snapId) } },
        [.created row.id])

/-- The overlay of a new VM is a copy of the template that the request names. -/
def recordClone (out : CloneAnswers) (req : CloneRequest) (s : Watched Sector Data) :
    Watched Sector Data × List Event :=
  match (clone out req).run s.host, s.host.rows.find? fun r => r.id = req.sourceId with
  | .ok _ host, some tmpl =>
      ({ s with
          host := host
          copies := { s.copies with
            overlays := Function.update s.copies.overlays (diskPath out.vmId)
              (s.copies.templates tmpl.imagePath) } },
        [.cloned tmpl.id out.vmId])
  | .ok _ host, none => ({ s with host := host }, [])
  | .error _ host, _ => ({ s with host := host }, [])

def recordOverlayWrite (disk : String) (x : Sector) (v : Data) (s : Watched Sector Data) :
    Watched Sector Data :=
  { host := { s.host with files := write s.host.files disk x v }
    copies := { s.copies with
      overlays := Function.update s.copies.overlays disk
        ((s.copies.overlays disk).map fun content => Function.update content x v) } }

def left {α : Type} (x : Action Sector Data α) (s : Watched Sector Data) : Watched Sector Data :=
  match x.run s.host with
  | .ok _ host => { s with host := host }
  | .error _ host => { s with host := host }

def registry : Machine (Watched Sector Data) (TemplateAction Sector Data) Event where
  step s
    | .create out req => recordCreate out req s
    | .clone out req => recordClone out req s
    | .publish update id => (left (publish update id) s, [])
    | .unpublish update id => (left (unpublish update id) s, [])
    | .delete execute id => ({ s with host := deleteTemplate execute id s.host }, [])
    | .writeOverlay disk x v => (recordOverlayWrite disk x v s, [])
    | .elsewhere snapshots files =>
        ({ s with host := { s.host with snapshots := snapshots, files := files } }, [])

end

/-- The identifiers drawn are new, the image of a template is not written to, and what goes on
elsewhere leaves the images of the templates and the overlays of the clones alone. -/
def Apart (s : Watched Sector Data) : TemplateAction Sector Data → Prop
  | .create out _ => s.host.files (templatePath s.host.templateDir out.tmplId) = none
  | .clone out _ => s.host.files (diskPath out.vmId) = none
  | .writeOverlay disk _ _ => s.copies.templates disk = none
  | .elsewhere _ files => ∀ path,
      (s.copies.templates path).isSome ∨ (s.copies.overlays path).isSome →
        files path = s.host.files path
  | _ => True

/-- `qemu-img create` succeeds for every clone that is reported as completed. -/
def OverlayMade (s : Watched Sector Data) : TemplateAction Sector Data → Prop
  | .clone out req =>
      (∃ result host, (clone out req).run s.host = .ok result host) → out.create = .ok true
  | _ => True

def Reads [Zero Data] (files : Files String Sector Data) (path : String) (disk : Sector → Data) :
    Prop :=
  ∃ ps, Chain files (some path) ps ∧ ∀ x, content files ps x = disk x

/-- Templates and clones are as if each was a copy. -/
structure Independent [Zero Data] (s : Watched Sector Data) : Prop where
  templates : ∀ path disk, s.copies.templates path = some disk → Reads s.host.files path disk
  overlays : ∀ path disk, s.copies.overlays path = some disk → Reads s.host.files path disk

/-! ## The invariant -/

def Flat [Zero Data] (files : Files String Sector Data) (path : String) (disk : Sector → Data) :
    Prop :=
  ∃ img, files path = some img ∧ img.backing = none ∧ ∀ x, (img.sectors x).getD 0 = disk x

def Over (copies : Copies Sector Data) (files : Files String Sector Data) (path : String)
    (disk : Sector → Data) : Prop :=
  ∃ img template base, files path = some img ∧ img.backing = some template ∧
    copies.templates template = some base ∧ ∀ x, (img.sectors x).getD (base x) = disk x

structure Laid [Zero Data] (s : Watched Sector Data) : Prop where
  rows : ∀ r ∈ s.host.rows, (s.copies.templates r.imagePath).isSome
  templates : ∀ path disk, s.copies.templates path = some disk → Flat s.host.files path disk
  overlays : ∀ path disk, s.copies.overlays path = some disk → Over s.copies s.host.files path disk

section

variable [Zero Data] {files : Files String Sector Data} {copies : Copies Sector Data}
  {path : String} {disk : Sector → Data}

theorem Flat.chain (h : Flat files path disk) :
    Chain files (some path) [path] ∧ ∀ x, content files [path] x = disk x := by
  obtain ⟨img, himg, hbacking, hreads⟩ := h
  constructor
  · refine .cons (by rw [himg]; rfl) ?_
    rw [backing, himg, Option.bind_some, hbacking]
    exact .nil
  · intro x
    rw [content_cons, held, himg]
    exact hreads x

theorem Over.reads (h : Over copies files path disk)
    (hflat : ∀ p d, copies.templates p = some d → Flat files p d) : Reads files path disk := by
  obtain ⟨img, template, base, himg, hbacking, htemplate, hreads⟩ := h
  obtain ⟨hchain, hbase⟩ := (hflat template base htemplate).chain
  refine ⟨[path, template], .cons (by rw [himg]; rfl) ?_, ?_⟩
  · rw [backing, himg, Option.bind_some, hbacking]
    exact hchain
  · intro x
    rw [content_cons, held, himg, hbase]
    exact hreads x

theorem Laid.independent {s : Watched Sector Data} (h : Laid s) : Independent s where
  templates path disk hdisk := ⟨_, (h.templates path disk hdisk).chain⟩
  overlays path disk hdisk := (h.overlays path disk hdisk).reads h.templates

end

/-! ## One step -/

section

variable [Zero Data] {s : Watched Sector Data}

theorem Laid.exists (h : Laid s) {path : String}
    (hpath : (s.copies.templates path).isSome ∨ (s.copies.overlays path).isSome) :
    s.host.files path ≠ none := by
  intro hnone
  rcases hpath with htemplate | hdisk
  · obtain ⟨disk, hdisk⟩ := Option.isSome_iff_exists.mp htemplate
    obtain ⟨img, himg, -⟩ := h.templates path disk hdisk
    rw [hnone] at himg
    cases himg
  · obtain ⟨disk, hdisk⟩ := Option.isSome_iff_exists.mp hdisk
    obtain ⟨img, -, -, himg, -⟩ := h.overlays path disk hdisk
    rw [hnone] at himg
    cases himg

/-- The images of the templates and the overlays of the clones are all that matters. -/
theorem Laid.frame (h : Laid s) {host : TemplateHost Sector Data}
    (hrows : ∀ r ∈ host.rows, ∃ r₀ ∈ s.host.rows, r.imagePath = r₀.imagePath)
    (hfiles : ∀ path, (s.copies.templates path).isSome ∨ (s.copies.overlays path).isSome →
      host.files path = s.host.files path) : Laid { s with host := host } where
  rows := by
    intro r hr
    obtain ⟨r₀, hr₀, hsame⟩ := hrows r hr
    rw [hsame]
    exact h.rows r₀ hr₀
  templates := by
    intro path disk hdisk
    obtain ⟨img, himg, hrest⟩ := h.templates path disk hdisk
    exact ⟨img, (hfiles path (Or.inl (by rw [hdisk]; rfl))).trans himg, hrest⟩
  overlays := by
    intro path disk hdisk
    obtain ⟨img, template, base, himg, hrest⟩ := h.overlays path disk hdisk
    exact ⟨img, template, base, (hfiles path (Or.inr (by rw [hdisk]; rfl))).trans himg, hrest⟩

theorem Laid.spared (h : Laid s) {host : TemplateHost Sector Data} {path : String}
    (hspared : Spared path s.host host) (hnew : s.host.files path = none) :
    Laid { s with host := host } := by
  apply h.frame
  · intro r hr
    rw [hspared.rows] at hr
    exact ⟨r, hr, rfl⟩
  · intro p hp
    apply hspared.files
    intro hsame
    exact h.exists hp (hsame ▸ hnew)

theorem countClone_id (id : String) (r : VmTemplate) : (countClone id r).id = r.id := by
  unfold countClone
  split <;> rfl

theorem countClone_cloneCount (id : String) (r : VmTemplate) :
    (countClone id r).cloneCount = r.cloneCount + if r.id = id then 1 else 0 := by
  unfold countClone
  split <;> rfl

theorem countClone_imagePath (id : String) (r : VmTemplate) :
    (countClone id r).imagePath = r.imagePath := by
  unfold countClone
  split <;> rfl

theorem recordCreate_laid (h : Laid s) (out : CreateAnswers) (req : CreateTemplate)
    (hnew : s.host.files (templatePath s.host.templateDir out.tmplId) = none) :
    Laid (recordCreate out req s).1 := by
  cases hrun : (createFromSnapshot out req).run s.host with
  | error message host =>
    simp only [recordCreate, hrun]
    exact h.spared ((createFromSnapshot_spec out req).error rfl hrun).spared hnew
  | ok row host =>
    simp only [recordCreate, hrun]
    obtain ⟨⟨chain, hchain, hhost⟩, ⟨checksum, hrow⟩, -⟩ :=
      (createFromSnapshot_spec out req).ok rfl hrun
    have himage : row.imagePath = templatePath s.host.templateDir out.tmplId := by
      rw [hrow]
      rfl
    have hdisk : snapshotDisk s.host out.depth req.snapId = some (content s.host.files chain) := by
      rw [snapshotDisk, hchain]
      rfl
    have hfiles : host.files = Function.update s.host.files row.imagePath
        (some (flatten s.host.files chain)) := by
      rw [hhost, himage]
      rfl
    rw [hdisk]
    rw [← himage] at hnew
    constructor
    · intro r hr
      have hmem : r ∈ s.host.rows ++ [row] := by
        rw [hhost] at hr
        exact hr
      by_cases hsame : r.imagePath = row.imagePath
      · simp [hsame]
      · simp only [Function.update_of_ne hsame]
        rcases List.mem_append.mp hmem with hold | hlast
        · exact h.rows r hold
        · cases List.mem_singleton.mp hlast
          exact absurd rfl hsame
    · intro path disk hpath
      by_cases hsame : path = row.imagePath
      · subst hsame
        simp only [Function.update_self, Option.some.injEq] at hpath
        refine ⟨flatten s.host.files chain, ?_, rfl, fun x => congrFun hpath x⟩
        simp only [hfiles, Function.update_self]
      · simp only [Function.update_of_ne hsame] at hpath
        obtain ⟨img, himg, hrest⟩ := h.templates path disk hpath
        exact ⟨img, by simp only [hfiles, Function.update_of_ne hsame, himg], hrest⟩
    · intro path disk hpath
      obtain ⟨img, template, base, himg, hbacking, htemplate, hreads⟩ := h.overlays path disk hpath
      have hother : path ≠ row.imagePath := by
        rintro rfl
        rw [hnew] at himg
        cases himg
      have hbase : template ≠ row.imagePath := by
        rintro rfl
        exact h.exists (Or.inl (by rw [htemplate]; rfl)) hnew
      refine ⟨img, template, base, ?_, hbacking, ?_, hreads⟩
      · simp only [hfiles, Function.update_of_ne hother, himg]
      · simp only [Function.update_of_ne hbase, htemplate]

theorem recordClone_laid (h : Laid s) {out : CloneAnswers} {req : CloneRequest}
    (hnew : s.host.files (diskPath out.vmId) = none) (hmade : OverlayMade s (.clone out req)) :
    Laid (recordClone out req s).1 := by
  cases hrun : (clone out req).run s.host with
  | error message host =>
      simp only [recordClone, hrun]
      exact h.spared ((clone_spec out req).error rfl hrun) hnew
  | ok result host =>
      have hcloned : Cloned out req s.host host := (clone_spec out req).ok rfl hrun
      obtain ⟨⟨tmpl, hfind, -, hrows, hfiles⟩, -⟩ := hcloned
      simp only [recordClone, hrun, hfind]
      rw [overlaid, if_pos (hmade ⟨result, host, hrun⟩)] at hfiles
      generalize diskPath out.vmId = own at hnew hfiles ⊢
      have hother : ∀ p, p ≠ own → host.files p = s.host.files p := by
        intro p hp
        rw [hfiles, putFile_files, Function.update_of_ne hp]
      obtain ⟨base, hbase⟩ := Option.isSome_iff_exists.mp
        (h.rows tmpl (List.mem_of_find?_eq_some hfind))
      constructor
      · intro r hr
        simp only [hrows, List.mem_map] at hr
        obtain ⟨r₀, hr₀, rfl⟩ := hr
        rw [countClone_imagePath]
        exact h.rows r₀ hr₀
      · intro path disk hpath
        have hne : path ≠ own := by
          rintro rfl
          exact h.exists (Or.inl (Option.isSome_of_eq_some hpath)) hnew
        obtain ⟨img, himg, hrest⟩ := h.templates path disk hpath
        exact ⟨img, (hother path hne).trans himg, hrest⟩
      · intro path disk hpath
        by_cases hsame : path = own
        · subst hsame
          simp only [Function.update_self, hbase, Option.some.injEq] at hpath
          refine ⟨⟨some tmpl.imagePath, fun _ => none⟩, tmpl.imagePath, base, ?_, rfl, hbase, ?_⟩
          · rw [hfiles, putFile_files, Function.update_self]
          · intro x
            exact congrFun hpath x
        · simp only [Function.update_of_ne hsame] at hpath
          obtain ⟨img, template, content, himg, hrest⟩ := h.overlays path disk hpath
          exact ⟨img, template, content, (hother path hsame).trans himg, hrest⟩

theorem overlayMade_of_independent (h : Laid s) {out : CloneAnswers} {req : CloneRequest}
    (hnew : s.host.files (diskPath out.vmId) = none)
    (hafter : Independent (recordClone out req s).1) : OverlayMade s (.clone out req) := by
  rintro ⟨result, host, hrun⟩
  obtain ⟨⟨tmpl, hfind, -, -, hfiles⟩, -⟩ := (clone_spec out req).ok rfl hrun
  obtain ⟨base, hbase⟩ := Option.isSome_iff_exists.mp
    (h.rows tmpl (List.mem_of_find?_eq_some hfind))
  have hafter' := hafter.overlays (diskPath out.vmId) base
  simp only [recordClone, hrun, hfind, Function.update_self, hbase, true_implies] at hafter'
  obtain ⟨ps, hchain, -⟩ := hafter'
  by_contra hfailed
  rw [overlaid, if_neg hfailed] at hfiles
  cases hchain with
  | cons exist _ =>
      rw [hfiles, hnew] at exist
      cases exist

theorem recordOverlayWrite_laid [DecidableEq Sector] (h : Laid s) {disk : String} {x : Sector}
    {v : Data} (hdisk : s.copies.templates disk = none) : Laid (recordOverlayWrite disk x v s) := by
  have hother : ∀ p, p ≠ disk → write s.host.files disk x v p = s.host.files p := by
    intro p hp
    cases himg : s.host.files disk with
    | none => simp only [write, himg]
    | some img =>
        simp only [write, himg]
        exact Function.update_of_ne hp _ _
  constructor
  · exact h.rows
  · intro path content hpath
    have hne : path ≠ disk := by
      rintro rfl
      have hnone : (recordOverlayWrite path x v s).copies.templates path = none := hdisk
      rw [hnone] at hpath
      cases hpath
    obtain ⟨img, himg, hrest⟩ := h.templates path content hpath
    exact ⟨img, (hother path hne).trans himg, hrest⟩
  · intro path content hpath
    by_cases hsame : path = disk
    · subst hsame
      simp only [recordOverlayWrite, Function.update_self] at hpath
      obtain ⟨before, hbefore, rfl⟩ := Option.map_eq_some_iff.mp hpath
      obtain ⟨img, template, base, himg, hbacking, htemplate, hreads⟩ :=
        h.overlays path before hbefore
      refine ⟨{ img with sectors := Function.update img.sectors x (some v) }, template, base, ?_,
        hbacking, htemplate, ?_⟩
      · simp only [recordOverlayWrite, write, himg, Function.update_self]
      · intro y
        by_cases hy : y = x
        · subst hy
          simp only [Function.update_self, Option.getD_some]
        · simp only [Function.update_of_ne hy, hreads]
    · simp only [recordOverlayWrite, Function.update_of_ne hsame] at hpath
      obtain ⟨img, template, base, himg, hrest⟩ := h.overlays path content hpath
      exact ⟨img, template, base, (hother path hsame).trans himg, hrest⟩

theorem left_updateRows_laid (h : Laid s) (update : Option String) {f : VmTemplate → VmTemplate}
    (hf : ∀ r, (f r).imagePath = r.imagePath) : Laid (left (updateRows update f) s) := by
  cases update with
  | some message => exact h
  | none =>
      apply h.frame
      · intro r hr
        obtain ⟨r₀, hr₀, rfl⟩ := List.mem_map.mp hr
        exact ⟨r₀, hr₀, hf r₀⟩
      · intro path _
        rfl

theorem setPublished_imagePath (published : Bool) (id : String) (r : VmTemplate) :
    (setPublished published id r).imagePath = r.imagePath := by
  unfold setPublished
  split <;> rfl

theorem deleteTemplate_laid (h : Laid s) (execute : Option String) (id : String) :
    Laid { s with host := deleteTemplate execute id s.host } := by
  cases execute with
  | some message => exact h
  | none =>
      apply h.frame
      · intro r hr
        exact ⟨r, List.mem_of_mem_filter hr, rfl⟩
      · intro path _
        rfl

theorem step_laid [DecidableEq Sector] (s : Watched Sector Data) (a : TemplateAction Sector Data)
    (h : Laid s) (hapart : Apart s a) (hmade : OverlayMade s a) : Laid (registry.step s a).1 := by
  cases a with
  | create out req => exact recordCreate_laid h out req hapart
  | clone out req => exact recordClone_laid h hapart hmade
  | publish update id => exact left_updateRows_laid h update (setPublished_imagePath true id)
  | unpublish update id => exact left_updateRows_laid h update (setPublished_imagePath false id)
  | delete execute id => exact deleteTemplate_laid h execute id
  | writeOverlay disk x v => exact recordOverlayWrite_laid h hapart
  | elsewhere snapshots files =>
      apply h.frame
      · intro r hr
        exact ⟨r, hr, rfl⟩
      · exact hapart

theorem new_laid (templateDir : Option String) (snapshots : String → Option String)
    (files : Files String Sector Data) : Laid (.new templateDir snapshots files) where
  rows := by
    intro r hr
    cases hr
  templates := by
    intro path disk hpath
    cases hpath
  overlays := by
    intro path disk hpath
    cases hpath

end

/-! ## Runs -/

section

variable [Zero Data] [DecidableEq Sector]

/-- Templates stay what their snapshots were, whatever becomes of the snapshots and of the
templates' rows, and the overlay of each clone that is reported reads as a copy with the writes made
through it, exactly when `qemu-img` succeeds for every such clone. -/
theorem clones_are_copies_iff (templateDir : Option String) (snapshots : String → Option String)
    (files : Files String Sector Data) {as : List (TemplateAction Sector Data)}
    (hall : registry.AllSteps Apart (.new templateDir snapshots files) as) :
    (∀ pre, pre <+: as → Independent (registry.run (.new templateDir snapshots files) pre).1) ↔
      registry.AllSteps OverlayMade (.new templateDir snapshots files) as := by
  apply registry.prefixes_iff_of_invariant (I := Laid) (fun _ h => h.independent)
    (fun s a h hapart hmade => step_laid s a h hapart hmade) ?_
    (new_laid templateDir snapshots files) hall
  intro s a h hapart hafter
  cases a with
  | clone out req => exact overlayMade_of_independent h hapart hafter
  | create | publish | unpublish | delete | writeOverlay | elsewhere => trivial

end

section

variable [Zero Data] {s : Watched Sector Data}

theorem recordCreate_started (out : CreateAnswers) (req : CreateTemplate) :
    Started s.host (recordCreate out req s).1.host := by
  cases hrun : (createFromSnapshot out req).run s.host with
  | error message host =>
      simp only [recordCreate, hrun]
      exact ((createFromSnapshot_spec out req).error rfl hrun).spared.started
  | ok row host =>
      simp only [recordCreate, hrun]
      obtain ⟨⟨chain, -, rfl⟩, -⟩ := (createFromSnapshot_spec out req).ok rfl hrun
      exact fun _ hargs => Or.inl hargs

omit [Zero Data] in
theorem recordClone_started (out : CloneAnswers) (req : CloneRequest) :
    Started s.host (recordClone out req s).1.host := by
  cases hrun : (clone out req).run s.host with
  | error message host =>
      simp only [recordClone, hrun]
      exact ((clone_spec out req).error rfl hrun).started
  | ok result host =>
      have hcloned : Cloned out req s.host host := (clone_spec out req).ok rfl hrun
      obtain ⟨tmpl, hfind, -⟩ := hcloned.found
      simp only [recordClone, hrun, hfind]
      exact hcloned.started

/-- No VM of a clone is given its overlay, or any other disk. -/
theorem spawned_diskless [DecidableEq Sector] (templateDir : Option String)
    (snapshots : String → Option String) (files : Files String Sector Data)
    (as : List (TemplateAction Sector Data)) :
    ∀ args ∈ (registry.run (.new templateDir snapshots files) as).1.host.spawned,
      Diskless args := by
  have hstep : ∀ (s : Watched Sector Data) a, (∀ args ∈ s.host.spawned, Diskless args) →
      ∀ args ∈ (registry.step s a).1.host.spawned, Diskless args := by
    intro s a h
    have hstarted : Started s.host (registry.step s a).1.host := by
      cases a with
      | create out req => exact recordCreate_started out req
      | clone out req => exact recordClone_started out req
      | publish update | unpublish update =>
          cases update <;> exact fun _ hargs => Or.inl hargs
      | delete execute => cases execute <;> exact fun _ hargs => Or.inl hargs
      | writeOverlay | elsewhere => exact fun _ hargs => Or.inl hargs
    intro args hargs
    exact (hstarted args hargs).elim (h args) id
  have hnew : ∀ args ∈ (Watched.new templateDir snapshots files).host.spawned,
      Diskless args := by
    intro args hargs
    cases hargs
  exact registry.run_inductive hstep hnew as

end

def snapshotRow (id : String) : Option String := if id = "s1" then some "/snap.qcow2" else none

def snapshotFile (path : String) : Option (Image String Bool Nat) :=
  if path = "/snap.qcow2" then some ⟨none, fun _ => some 7⟩ else none

def oneSnapshot : Watched Bool Nat := .new none snapshotRow snapshotFile

def cloneRun (success : Bool) : List (TemplateAction Bool Nat) :=
  [.create ⟨"t1", 0, none, none, .ok true, 1, "", none, none, none, .ok "", none⟩
      ⟨"s1", "base", "1.0.0", none, .linux, "debian-12", ⟨512, 1, 20, "eth0"⟩, none, [], "operator"⟩,
    .publish none "t1",
    .clone ⟨"00c0ffee-0", none, none, .ok success, .ok "", none, none⟩
      ⟨"t1", "web", none, none, false⟩]

theorem cloneRun_apart (success : Bool) : registry.AllSteps Apart oneSnapshot (cloneRun success) :=
  ⟨rfl, trivial, by cases success <;> rfl, trivial⟩

theorem clones_are_copies_iff_exit_status :
    (∀ pre, pre <+: cloneRun true → Independent (registry.run oneSnapshot pre).1) ∧
      ¬ ∀ pre, pre <+: cloneRun false → Independent (registry.run oneSnapshot pre).1 := by
  constructor
  · apply (clones_are_copies_iff none snapshotRow snapshotFile (cloneRun_apart true)).mpr
    exact ⟨trivial, trivial, fun _ => rfl, trivial⟩
  · intro hall
    have hmade :=
      (clones_are_copies_iff none snapshotRow snapshotFile (cloneRun_apart false)).mp hall
    exact absurd (hmade.2.2.1 ⟨_, _, rfl⟩) (by decide)

/-! ## Counting clones -/

def Event.isCloneOf (id : String) : Event → Bool
  | .cloned tmplId _ => tmplId = id
  | .created _ => false

section

variable {s s' : Watched Sector Data} {past : List Event}

/-- A template that has been made, whether or not it is still listed. -/
def Made (s : Watched Sector Data) (id : String) : Prop :=
  (s.copies.templates (templatePath s.host.templateDir id)).isSome ∧
    s.host.files (templatePath s.host.templateDir id) ≠ none

structure Counts (past : List Event) (s : Watched Sector Data) : Prop where
  ids : (s.host.rows.map VmTemplate.id).Nodup
  counts : ∀ r ∈ s.host.rows, r.cloneCount = past.countP (Event.isCloneOf r.id)
  made : ∀ r ∈ s.host.rows, Made s r.id
  cloned : ∀ id vmId, .cloned id vmId ∈ past → Made s id

theorem Counts.quiet (h : Counts past s)
    (hrows : ∀ r ∈ s'.host.rows, ∃ r₀ ∈ s.host.rows, r.id = r₀.id ∧ r.cloneCount = r₀.cloneCount)
    (hids : (s'.host.rows.map VmTemplate.id).Sublist (s.host.rows.map VmTemplate.id))
    (hmade : ∀ id, Made s id → Made s' id) : Counts past s' where
  ids := h.ids.sublist hids
  counts := by
    intro r hr
    obtain ⟨r₀, hr₀, hid, hsame⟩ := hrows r hr
    rw [hsame, hid]
    exact h.counts r₀ hr₀
  made := by
    intro r hr
    obtain ⟨r₀, hr₀, hid, -⟩ := hrows r hr
    rw [hid]
    exact hmade _ (h.made r₀ hr₀)
  cloned := by
    intro id vmId hmem
    exact hmade id (h.cloned id vmId hmem)

theorem Counts.sameRows (h : Counts past s) (hrows : s'.host.rows = s.host.rows)
    (hmade : ∀ id, Made s id → Made s' id) : Counts past s' :=
  h.quiet (fun r hr => ⟨r, hrows ▸ hr, rfl, rfl⟩) (by rw [hrows]) hmade

theorem left_updateRows_counts (h : Counts past s) (update : Option String)
    {f : VmTemplate → VmTemplate}
    (hf : ∀ r, (f r).id = r.id ∧ (f r).cloneCount = r.cloneCount) :
    Counts past (left (updateRows update f) s) := by
  cases update with
  | some message => exact h
  | none =>
      apply h.quiet
      · intro r hr
        obtain ⟨r₀, hr₀, rfl⟩ := List.mem_map.mp hr
        exact ⟨r₀, hr₀, hf r₀⟩
      · have hids : (s.host.rows.map f).map VmTemplate.id = s.host.rows.map VmTemplate.id := by
          rw [List.map_map]
          exact List.map_congr_left fun r _ => (hf r).1
        exact hids ▸ List.Sublist.refl _
      · exact fun _ hmade => hmade

theorem Made.spared {id path : String} {host : TemplateHost Sector Data} (h : Made s id)
    (hspared : Spared path s.host host) (hnew : s.host.files path = none) :
    Made { s with host := host } id := by
  have hne : templatePath s.host.templateDir id ≠ path := by
    intro hsame
    exact h.2 (hsame ▸ hnew)
  refine ⟨?_, ?_⟩
  · simp only [hspared.templateDir]
    exact h.1
  · simp only [hspared.templateDir, hspared.files _ hne]
    exact h.2

theorem recordClone_counts [Zero Data] (h : Counts past s) {out : CloneAnswers}
    {req : CloneRequest} (hnew : s.host.files (diskPath out.vmId) = none) :
    Counts (past ++ (recordClone out req s).2) (recordClone out req s).1 := by
  cases hrun : (clone out req).run s.host with
  | error message host =>
      have hspared : Spared (diskPath out.vmId) s.host host := (clone_spec out req).error rfl hrun
      simp only [recordClone, hrun, List.append_nil]
      exact h.sameRows hspared.rows fun id hmade => hmade.spared hspared hnew
  | ok result host =>
      have hcloned : Cloned out req s.host host := (clone_spec out req).ok rfl hrun
      obtain ⟨⟨tmpl, hfind, -, hrows, hfiles⟩, hdir⟩ := hcloned
      simp only [recordClone, hrun, hfind]
      have htmpl := List.mem_of_find?_eq_some hfind
      have hover := (overlaid_kept (s := s.host) out tmpl.imagePath).spared
      generalize diskPath out.vmId = own at hnew hfiles hover ⊢
      have hmade : ∀ overlays id, Made s id → Made ⟨host, ⟨s.copies.templates, overlays⟩⟩ id := by
        intro overlays id hid
        have hne : templatePath s.host.templateDir id ≠ own := by
          intro hsame
          exact hid.2 (hsame ▸ hnew)
        refine ⟨?_, ?_⟩
        · simp only [hdir]
          exact hid.1
        · simp only [hdir, hfiles, hover.files _ hne]
          exact hid.2
      constructor
      · simp only [hrows, List.map_map]
        have hsame : VmTemplate.id ∘ countClone tmpl.id = VmTemplate.id := by
          funext r
          exact countClone_id tmpl.id r
        rw [hsame]
        exact h.ids
      · intro r hr
        simp only [hrows, List.mem_map] at hr
        obtain ⟨r₀, hr₀, rfl⟩ := hr
        rw [countClone_id, List.countP_append, countClone_cloneCount, h.counts r₀ hr₀]
        by_cases hid : r₀.id = tmpl.id
        · simp [Event.isCloneOf, hid]
        · simp [Event.isCloneOf, hid, Ne.symm hid]
      · intro r hr
        simp only [hrows, List.mem_map] at hr
        obtain ⟨r₀, hr₀, rfl⟩ := hr
        rw [countClone_id]
        exact hmade _ _ (h.made r₀ hr₀)
      · intro id vmId hmem
        rcases List.mem_append.mp hmem with hpast | hlast
        · exact hmade _ _ (h.cloned id vmId hpast)
        · cases List.mem_singleton.mp hlast
          exact hmade _ _ (h.made tmpl htmpl)

theorem recordCreate_counts [Zero Data] (h : Counts past s) {out : CreateAnswers}
    {req : CreateTemplate}
    (hnew : s.host.files (templatePath s.host.templateDir out.tmplId) = none) :
    Counts (past ++ (recordCreate out req s).2) (recordCreate out req s).1 := by
  cases hrun : (createFromSnapshot out req).run s.host with
  | error message host =>
      have hkept : Kept (templatePath s.host.templateDir out.tmplId) s.host host :=
        (createFromSnapshot_spec out req).error rfl hrun
      simp only [recordCreate, hrun, List.append_nil]
      exact h.sameRows hkept.spared.rows fun id hmade => hmade.spared hkept.spared hnew
  | ok row host =>
      have hcreated : Created out req s.host row host :=
        (createFromSnapshot_spec out req).ok rfl hrun
      obtain ⟨⟨chain, hchain, rfl⟩, ⟨checksum, hrow⟩, hother⟩ := hcreated
      have hid : row.id = out.tmplId := by rw [hrow]; rfl
      have himage : row.imagePath = templatePath s.host.templateDir row.id := by rw [hrow]; rfl
      have hdisk : snapshotDisk s.host out.depth req.snapId = some (content s.host.files chain) := by
        rw [snapshotDisk, hchain]
        rfl
      simp only [recordCreate, hrun, hdisk]
      rw [← hid] at hnew ⊢
      rw [himage]
      -- a template that has been made has its image, so this one is not among them
      have hfresh : ¬ Made s row.id := fun hmade => hmade.2 hnew
      have hcount : past.countP (Event.isCloneOf row.id) = 0 := by
        apply List.countP_eq_zero.mpr
        intro e he hclone
        cases e with
        | created id => cases hclone
        | cloned id vmId =>
            have hsame : id = row.id := of_decide_eq_true hclone
            exact hfresh (hsame ▸ h.cloned id vmId he)
      have hevents : ∀ id, (past ++ [Event.created row.id]).countP (Event.isCloneOf id) =
          past.countP (Event.isCloneOf id) := by
        intro id
        rw [List.countP_append]
        rfl
      generalize hpath : templatePath s.host.templateDir row.id = path at hnew ⊢
      have hmade : ∀ id, Made s id ∨ id = row.id → Made
          { host := { putFile path (flatten s.host.files chain) s.host with
              rows := s.host.rows ++ [row] }
            copies := ⟨Function.update s.copies.templates path (some (content s.host.files chain)),
              s.copies.overlays⟩ } id := by
        intro id hor
        by_cases hsame : templatePath s.host.templateDir id = path
        · refine ⟨?_, ?_⟩
          · simp [putFile, hsame]
          · simp [putFile, hsame]
        · have hold : Made s id := by
            cases hor with
            | inl hold => exact hold
            | inr hnew => exact absurd (hnew ▸ hpath) hsame
          refine ⟨?_, ?_⟩
          · simpa [putFile, Function.update_of_ne hsame] using hold.1
          · simpa [putFile, Function.update_of_ne hsame] using hold.2
      constructor
      · rw [List.map_append, List.nodup_append]
        refine ⟨h.ids, List.nodup_singleton _, ?_⟩
        intro id hmem id' hmem' heq
        obtain ⟨r, hr, rfl⟩ := List.mem_map.mp hmem
        cases List.mem_singleton.mp hmem'
        exact hother r hr heq
      · intro r hr
        rw [hevents]
        rcases List.mem_append.mp hr with hold | hlast
        · exact h.counts r hold
        · cases List.mem_singleton.mp hlast
          rw [hcount, hrow]
          rfl
      · intro r hr
        rcases List.mem_append.mp hr with hold | hlast
        · exact hmade r.id (Or.inl (h.made r hold))
        · cases List.mem_singleton.mp hlast
          exact hmade row.id (Or.inr rfl)
      · intro id vmId hmem
        rcases List.mem_append.mp hmem with hpast | hlast
        · exact hmade id (Or.inl (h.cloned id vmId hpast))
        · cases List.mem_singleton.mp hlast

theorem step_counts [Zero Data] [DecidableEq Sector] (h : Counts past s)
    (a : TemplateAction Sector Data) (hapart : Apart s a) :
    Counts (past ++ (registry.step s a).2) (registry.step s a).1 := by
  cases a with
  | create out req => exact recordCreate_counts h hapart
  | clone out req => exact recordClone_counts h hapart
  | publish update id =>
      simp only [registry, List.append_nil]
      exact left_updateRows_counts h update fun r => by unfold setPublished; split <;> exact ⟨rfl, rfl⟩
  | unpublish update id =>
      simp only [registry, List.append_nil]
      exact left_updateRows_counts h update fun r => by unfold setPublished; split <;> exact ⟨rfl, rfl⟩
  | delete execute id =>
      simp only [registry, List.append_nil]
      cases execute with
      | some message => exact h
      | none =>
          apply h.quiet
          · intro r hr
            exact ⟨r, List.mem_of_mem_filter hr, rfl, rfl⟩
          · exact (List.filter_sublist).map _
          · exact fun _ hmade => hmade
  | writeOverlay disk x v =>
      simp only [registry, List.append_nil]
      refine h.sameRows rfl ?_
      intro id hmade
      refine ⟨hmade.1, ?_⟩
      intro hnone
      have hwritten : write s.host.files disk x v (templatePath s.host.templateDir id) = none := hnone
      have hback : (write s.host.files disk x v (templatePath s.host.templateDir id)).map
          Image.backing = _ := map_backing_write (templatePath s.host.templateDir id)
      rw [hwritten, Option.map_none] at hback
      exact hmade.2 (Option.map_eq_none_iff.mp hback.symm)
  | elsewhere snapshots files =>
      simp only [registry, List.append_nil]
      change Counts past
        { s with host := { s.host with snapshots := snapshots, files := files } }
      refine h.sameRows rfl ?_
      intro id hmade
      refine ⟨hmade.1, ?_⟩
      simp only [hapart _ (Or.inl hmade.1)]
      exact hmade.2

end

/-- The count in a row is how often its template was cloned since it was created. -/
theorem cloneCount_eq [Zero Data] [DecidableEq Sector] (templateDir : Option String)
    (snapshots : String → Option String) (files : Files String Sector Data)
    {as : List (TemplateAction Sector Data)}
    (hall : registry.AllSteps Apart (.new templateDir snapshots files) as) :
    ∀ r ∈ (registry.run (.new templateDir snapshots files) as).1.host.rows,
      r.cloneCount = (registry.run (.new templateDir snapshots files) as).2.countP
        (Event.isCloneOf r.id) := by
  have hnew : Counts [] (Watched.new templateDir snapshots files) := by
    constructor
    · exact List.nodup_nil
    · intro r hr
      cases hr
    · intro r hr
      cases hr
    · intro id vmId hmem
      cases hmem
  exact (registry.run_related (R := Counts) (fun _ _ a h hapart => step_counts h a hapart) hnew
    hall).counts

theorem cloneCount_eq_one :
    ∃ r, (registry.run oneSnapshot (cloneRun true)).1.host.rows = [r] ∧ r.cloneCount = 1 :=
  ⟨_, rfl, cloneCount_eq none snapshotRow snapshotFile (cloneRun_apart true) _ List.mem_cons_self⟩

end Caiman.Bts.Templates
