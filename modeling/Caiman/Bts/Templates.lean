import Caiman.Lib.Overlay
import Caiman.Lib.Triple
import Caiman.Api.State
import Caiman.Vmm.Mac

/-!
# Templates and their clones

A template is the chain of a snapshot made into one image. A clone is an empty overlay over that
image, which is meant to be a copy of its own for the VM. The VM is started without it.
-/

namespace Caiman.Bts.Templates

open Lib Lib.Overlay

inductive OsType
  | linux
  | windows
  | freeBsd
  | other
  deriving DecidableEq, Repr

structure TemplateDefaultCfg where
  memMib : UInt64
  cpus : UInt8
  diskGib : UInt64
  uplink : String
  deriving DecidableEq, Repr

structure VmTemplate where
  id : String
  name : String
  description : Option String
  version : String
  osType : OsType
  osVersion : String
  imagePath : String
  imageMib : UInt64
  checksum : String
  defaultCfg : TemplateDefaultCfg
  cloudInit : Option String
  labels : List (String × String)
  cloneCount : Nat
  createdAt : Nat
  createdBy : String
  published : Bool
  deriving DecidableEq, Repr

structure TemplateHost (Sector Data : Type) where
  /-- `CAIMAN_TEMPLATE_DIR` -/
  templateDir : Option String
  /-- the images of the rows of the table `snapshots` -/
  snapshots : String → Option String
  files : Files String Sector Data
  rows : List VmTemplate
  /-- the arguments of each `caiman-vmm` that was spawned -/
  spawned : List (List String)

structure CreateTemplate where
  snapId : String
  name : String
  version : String
  description : Option String
  osType : OsType
  osVersion : String
  defaultCfg : TemplateDefaultCfg
  cloudInit : Option String
  labels : List (String × String)
  createdBy : String

/-- What is drawn for a template, and how each step is answered; an error is its text. -/
structure CreateAnswers where
  tmplId : String
  now : Nat
  createDirAll : Option String
  fetchOne : Option String
  /-- `qemu-img convert`: whether it could be run, and its exit status. -/
  convert : Except String Bool
  /-- how far it follows a chain -/
  depth : Nat
  stderr : String
  metadata : Option String
  setPermissions : Option String
  /-- the length of the file -/
  len : Option UInt64
  checksum : Except String String
  insert : Option String

structure CloneRequest where
  sourceId : String
  name : String
  memMib : Option UInt64
  cpus : Option UInt8
  startAfter : Bool

structure CloneAnswers where
  uuid : String
  fetchOne : Option String
  createDirAll : Option String
  /-- `qemu-img create`: whether it could be run, and its exit status. -/
  create : Except String Bool
  render : Except String String
  writeIso : Option String
  update : Option String

structure OperationResult where
  opType : String
  status : String
  resourceId : Option String
  progressPct : Nat
  phase : String
  message : Option String
  deriving DecidableEq, Repr

abbrev Action (Sector Data α : Type) := EStateM String (TemplateHost Sector Data) α

variable {Sector Data : Type}

/-! ## The registry -/

/-- A step of which the state shows nothing but its error. -/
def check (error : Option String) : Action Sector Data Unit :=
  match error with
  | some message => throw message
  | none => pure ()

def getSnapshotPath (fetchOne : Option String) (snapId : String) : Action Sector Data String := do
  match fetchOne, (← get).snapshots snapId with
  | none, some path => return path
  | _, _ => throw ("snapshot " ++ snapId ++ " not found")

def getTemplate (fetchOne : Option String) (id : String) : Action Sector Data VmTemplate := do
  match fetchOne, (← get).rows.find? fun r => r.id = id with
  | none, some row => return row
  | _, _ => throw ("template " ++ id ++ " not found")

def templatePath (dir : Option String) (tmplId : String) : String :=
  Api.joinPath (Api.joinPath (dir.getD "/var/lib/caiman/templates") tmplId) "base.qcow2"

def putFile (path : String) (img : Image String Sector Data) (s : TemplateHost Sector Data) :
    TemplateHost Sector Data :=
  { s with files := Function.update s.files path (some img) }

@[simp] theorem putFile_files (path : String) (img : Image String Sector Data)
    (s : TemplateHost Sector Data) :
    (putFile path img s).files = Function.update s.files path (some img) := rfl

/-- The files of a snapshot's image that `qemu-img` reads. -/
def chainOf (s : TemplateHost Sector Data) (depth : Nat) (snapId : String) : Option (List String) :=
  (s.snapshots snapId).bind fun snap => resolve s.files depth (some snap)

section

variable [Zero Data]

def flatten (files : Files String Sector Data) (chain : List String) : Image String Sector Data :=
  ⟨none, fun x => some (content files chain x)⟩

def convert (out : CreateAnswers) (snap : String) : Action Sector Data Bool := do
  match out.convert with
  | .error _ => throw "qemu-img convert"
  | .ok success =>
      let s ← get
      match success, resolve s.files out.depth (some snap) with
      | true, some chain =>
          set (putFile (templatePath s.templateDir out.tmplId) (flatten s.files chain) s)
          return true
      | _, _ => return false

def hashFile (out : CreateAnswers) : Action Sector Data String := do
  match out.checksum with
  | .error message => throw message
  | .ok checksum => return checksum

/-- The identifier is the primary key. -/
def saveTemplate (out : CreateAnswers) (row : VmTemplate) : Action Sector Data Unit := do
  match out.insert with
  | some message => throw message
  | none =>
      if (← get).rows.any fun r => r.id = row.id then
        throw "UNIQUE constraint failed: templates.id"
      else modify fun s => { s with rows := s.rows ++ [row] }

def newTemplate (out : CreateAnswers) (req : CreateTemplate) (imagePath checksum : String) :
    VmTemplate where
  id := out.tmplId
  name := req.name
  description := req.description
  version := req.version
  osType := req.osType
  osVersion := req.osVersion
  imagePath := imagePath
  imageMib := (out.len.map (· / (1024 * 1024))).getD 0
  checksum := checksum
  defaultCfg := req.defaultCfg
  cloudInit := req.cloudInit
  labels := req.labels
  cloneCount := 0
  createdAt := out.now
  createdBy := req.createdBy
  published := false

def sealTemplate (out : CreateAnswers) (req : CreateTemplate) : Action Sector Data VmTemplate := do
  check out.metadata
  check out.setPermissions
  let checksum ← hashFile out
  let row := newTemplate out req (templatePath (← get).templateDir out.tmplId) checksum
  saveTemplate out row
  return row

def createFromSnapshot (out : CreateAnswers) (req : CreateTemplate) :
    Action Sector Data VmTemplate := do
  check out.createDirAll
  let snap ← getSnapshotPath out.fetchOne req.snapId
  if ← convert out snap then sealTemplate out req
  else throw ("Template creation failed: " ++ out.stderr)

end

/-- `vm-` and the first group of a UUID -/
def CloneAnswers.vmId (out : CloneAnswers) : String :=
  "vm-" ++ String.ofList (out.uuid.toList.takeWhile (· ≠ '-'))

def diskPath (vmId : String) : String :=
  Api.joinPath (Api.joinPath "/var/lib/caiman/disks" vmId) "disk0.qcow2"

/-- `qemu-img create`, whose exit status nobody looks at. -/
def createOverlay (out : CloneAnswers) (imagePath : String) : Action Sector Data Unit := do
  match out.create with
  | .error _ => throw "creating COW overlay"
  | .ok success =>
      if success then modify (putFile (diskPath out.vmId) ⟨some imagePath, fun _ => none⟩)

def writeCloudInit (out : CloneAnswers) : Option String → Action Sector Data Unit
  | none => pure ()
  | some _ =>
      match out.render with
      | .error message => throw message
      | .ok _ => check out.writeIso

def vmmArgs (out : CloneAnswers) (req : CloneRequest) (tmpl : VmTemplate) : List String :=
  ["--vm-id=" ++ String.ofList (Vmm.trimVm out.vmId.toList),
    "--kernel=/var/lib/caiman/vmlinux",
    "--mem-mib=" ++ toString (req.memMib.getD tmpl.defaultCfg.memMib).toNat,
    "--cpus=" ++ toString (req.cpus.getD tmpl.defaultCfg.cpus).toNat]

/-- No disk is named in any spelling of the option. -/
def Diskless (args : List String) : Prop := ∀ arg ∈ args, ¬ "--disk".toList <+: arg.toList

theorem vmmArgs_diskless (out : CloneAnswers) (req : CloneRequest) (tmpl : VmTemplate) :
    Diskless (vmmArgs out req tmpl) := by
  intro arg harg
  simp only [vmmArgs, List.mem_cons, List.not_mem_nil, or_false] at harg
  rcases harg with rfl | rfl | rfl | rfl
  all_goals simp [String.toList_append, List.cons_prefix_cons]

def spawnVmm (args : List String) (s : TemplateHost Sector Data) : TemplateHost Sector Data :=
  { s with spawned := s.spawned ++ [args] }

def countClone (id : String) (r : VmTemplate) : VmTemplate :=
  if r.id = id then { r with cloneCount := r.cloneCount + 1 } else r

def updateRows (error : Option String) (f : VmTemplate → VmTemplate) : Action Sector Data Unit :=
  match error with
  | some message => throw message
  | none => modify fun s => { s with rows := s.rows.map f }

def cloneResult (out : CloneAnswers) (tmpl : VmTemplate) : OperationResult where
  opType := "template_clone"
  status := "completed"
  resourceId := some out.vmId
  progressPct := 100
  phase := "done"
  message := some ("Cloned from template " ++ tmpl.name)

def clone (out : CloneAnswers) (req : CloneRequest) : Action Sector Data OperationResult := do
  let tmpl ← getTemplate out.fetchOne req.sourceId
  if tmpl.published then
    check out.createDirAll
    createOverlay out tmpl.imagePath
    writeCloudInit out tmpl.cloudInit
    modify fun s => if req.startAfter then spawnVmm (vmmArgs out req tmpl) s else s
    updateRows out.update (countClone tmpl.id)
    return cloneResult out tmpl
  else throw ("Template " ++ tmpl.id ++ " is not published yet")

def setPublished (published : Bool) (id : String) (r : VmTemplate) : VmTemplate :=
  if r.id = id then { r with published := published } else r

def publish (update : Option String) (id : String) : Action Sector Data Unit :=
  updateRows update (setPublished true id)

def unpublish (update : Option String) (id : String) : Action Sector Data Unit :=
  updateRows update (setPublished false id)

/-- `delete_template`, which says that it has whatever comes of it. The image stays. -/
def deleteTemplate (execute : Option String) (id : String) (s : TemplateHost Sector Data) :
    TemplateHost Sector Data :=
  match execute with
  | some _ => s
  | none => { s with rows := s.rows.filter fun r => r.id ≠ id }

/-! ## What the operations do -/

section

variable {s : TemplateHost Sector Data}

theorem check_spec {P : TemplateHost Sector Data → Prop} (error : Option String) :
    Triple P (check error) (fun _ => P) (fun _ => P) := by
  cases error with
  | none => exact Triple.pure fun _ h => h
  | some message => exact Triple.throw fun _ h => h

theorem getSnapshotPath_spec (fetchOne : Option String) (snapId : String) :
    Triple (fun t => t = s) (getSnapshotPath fetchOne snapId)
      (fun snap t => t = s ∧ s.snapshots snapId = some snap) (fun _ t => t = s) := by
  unfold getSnapshotPath
  apply Triple.get
  intro t ht
  cases ht
  split
  · rename_i snap hfetch hsnap
    exact Triple.pure fun _ ht => ⟨ht, hsnap⟩
  · exact Triple.throw fun _ ht => ht

theorem getTemplate_spec (fetchOne : Option String) (id : String) :
    Triple (fun t => t = s) (getTemplate fetchOne id)
      (fun tmpl t => t = s ∧ (s.rows.find? fun r => r.id = id) = some tmpl) (fun _ t => t = s) := by
  unfold getTemplate
  apply Triple.get
  intro t ht
  cases ht
  split
  · rename_i tmpl hfetch hfind
    exact Triple.pure fun _ ht => ⟨ht, hfind⟩
  · exact Triple.throw fun _ ht => ht

/-- At most the file is another one. -/
def Kept (path : String) (s t : TemplateHost Sector Data) : Prop :=
  t = s ∨ ∃ img, t = putFile path img s

theorem convert_spec [Zero Data] (out : CreateAnswers) (snap : String) :
    Triple (fun t => t = s) (convert out snap)
      (fun success t => if success then
          ∃ chain, resolve s.files out.depth (some snap) = some chain ∧
            t = putFile (templatePath s.templateDir out.tmplId) (flatten s.files chain) s
        else t = s)
      (fun _ t => t = s) := by
  intro t ht
  cases ht
  cases hconvert : out.convert with
  | error message =>
      simp only [convert, hconvert]
      rfl
  | ok success =>
      cases success with
      | false =>
          simp only [convert, hconvert]
          rfl
      | true =>
          cases hresolve : resolve s.files out.depth (some snap) with
          | none =>
              simp only [convert, hconvert, EStateM.run_bind, EStateM.run_get, hresolve]
              rfl
          | some chain =>
              simp only [convert, hconvert, EStateM.run_bind, EStateM.run_get, hresolve]
              exact ⟨chain, rfl, rfl⟩

theorem hashFile_spec {P : TemplateHost Sector Data → Prop} (out : CreateAnswers) :
    Triple P (hashFile out) (fun _ => P) (fun _ => P) := by
  unfold hashFile
  split
  · exact Triple.throw fun _ h => h
  · exact Triple.pure fun _ h => h

theorem saveTemplate_spec (out : CreateAnswers) (row : VmTemplate) :
    Triple (fun t => t = s) (saveTemplate out row)
      (fun _ t => t = { s with rows := s.rows ++ [row] } ∧ ∀ r ∈ s.rows, r.id ≠ row.id)
      (fun _ t => t = s) := by
  intro t ht
  cases ht
  cases hinsert : out.insert with
  | some message =>
      simp only [saveTemplate, hinsert]
      rfl
  | none =>
      simp only [saveTemplate, hinsert, EStateM.run_bind, EStateM.run_get]
      by_cases htaken : s.rows.any fun r => r.id = row.id
      · rw [if_pos htaken]
        rfl
      · rw [if_neg htaken]
        refine ⟨rfl, ?_⟩
        intro r hr hid
        exact htaken (List.any_eq_true.mpr ⟨r, hr, decide_eq_true hid⟩)

theorem sealTemplate_spec (out : CreateAnswers) (req : CreateTemplate) :
    Triple (fun t => t = s) (sealTemplate out req)
      (fun row t => t = { s with rows := s.rows ++ [row] } ∧
        (∃ checksum, row = newTemplate out req (templatePath s.templateDir out.tmplId) checksum) ∧
        ∀ r ∈ s.rows, r.id ≠ row.id)
      (fun _ t => t = s) := by
  unfold sealTemplate
  apply Triple.bind (check_spec out.metadata)
  intro _
  apply Triple.bind (check_spec out.setPermissions)
  intro _
  apply Triple.bind (hashFile_spec out)
  intro checksum
  apply Triple.get
  intro t ht
  cases ht
  apply Triple.bind (saveTemplate_spec out _)
  intro _
  exact Triple.pure fun u hu => ⟨hu.1, ⟨checksum, rfl⟩, hu.2⟩

/-- The image holds what the snapshot reads as, and the row is new. -/
structure Created [Zero Data] (out : CreateAnswers) (req : CreateTemplate)
    (s : TemplateHost Sector Data) (row : VmTemplate) (t : TemplateHost Sector Data) : Prop where
  made : ∃ chain, chainOf s out.depth req.snapId = some chain ∧
    t = { putFile (templatePath s.templateDir out.tmplId) (flatten s.files chain) s with
      rows := s.rows ++ [row] }
  written : ∃ checksum, row = newTemplate out req (templatePath s.templateDir out.tmplId) checksum
  other : ∀ r ∈ s.rows, r.id ≠ row.id

theorem createFromSnapshot_spec [Zero Data] (out : CreateAnswers) (req : CreateTemplate) :
    Triple (fun t => t = s) (createFromSnapshot out req) (Created out req s)
      (fun _ => Kept (templatePath s.templateDir out.tmplId) s) := by
  unfold createFromSnapshot
  apply Triple.bind ((check_spec out.createDirAll).imp_error fun _ _ h => Or.inl h)
  intro _
  apply Triple.step ((getSnapshotPath_spec out.fetchOne req.snapId).imp_error fun _ _ h => Or.inl h)
  intro snap hsnap
  apply Triple.bind ((convert_spec out snap).imp_error fun _ _ h => Or.inl h)
  intro success
  cases success with
  | false => exact Triple.throw fun _ h => Or.inl h
  | true =>
      intro t ht
      obtain ⟨chain, hchain, rfl⟩ := ht
      refine ((sealTemplate_spec out req).conseq (fun _ h => h) ?_ ?_) _ rfl
      · intro row u hu
        refine ⟨⟨chain, ?_, hu.1⟩, hu.2.1, hu.2.2⟩
        rw [chainOf, hsnap, Option.bind_some, hchain]
      · intro _ u hu
        exact Or.inr ⟨_, hu⟩

/-! ### Cloning -/

def overlaid (out : CloneAnswers) (imagePath : String) (s : TemplateHost Sector Data) :
    TemplateHost Sector Data :=
  if out.create = .ok true then putFile (diskPath out.vmId) ⟨some imagePath, fun _ => none⟩ s else s

theorem overlaid_kept (out : CloneAnswers) (imagePath : String) :
    Kept (diskPath out.vmId) s (overlaid out imagePath s) := by
  unfold overlaid
  split
  · exact Or.inr ⟨_, rfl⟩
  · exact Or.inl rfl

theorem createOverlay_spec (out : CloneAnswers) (imagePath : String) :
    Triple (fun t => t = s) (createOverlay out imagePath)
      (fun _ t => t = overlaid out imagePath s) (fun _ t => t = s) := by
  intro t ht
  cases ht
  cases hcreate : out.create with
  | error message =>
      simp only [createOverlay, hcreate]
      rfl
  | ok success =>
      cases success with
      | false =>
          simp only [createOverlay, overlaid, hcreate]
          rfl
      | true =>
          simp only [createOverlay, overlaid, hcreate]
          rfl

theorem writeCloudInit_spec {P : TemplateHost Sector Data → Prop} (out : CloneAnswers)
    (cloudInit : Option String) :
    Triple P (writeCloudInit out cloudInit) (fun _ => P) (fun _ => P) := by
  unfold writeCloudInit
  split
  · exact Triple.pure fun _ h => h
  · split
    · exact Triple.throw fun _ h => h
    · exact check_spec out.writeIso

theorem updateRows_spec (error : Option String) (f : VmTemplate → VmTemplate) :
    Triple (fun t => t = s) (updateRows error f)
      (fun _ t => t = { s with rows := s.rows.map f }) (fun _ t => t = s) := by
  cases error with
  | none => exact Triple.modify fun t ht => by rw [ht]
  | some message => exact Triple.throw fun _ ht => ht

def Started (s t : TemplateHost Sector Data) : Prop :=
  ∀ args ∈ t.spawned, args ∈ s.spawned ∨ Diskless args

/-- Another file than that of the path, and the rows, are as they were. -/
structure Spared (path : String) (s t : TemplateHost Sector Data) : Prop where
  templateDir : t.templateDir = s.templateDir
  snapshots : t.snapshots = s.snapshots
  rows : t.rows = s.rows
  files : ∀ p, p ≠ path → t.files p = s.files p
  started : Started s t

theorem Kept.spared {path : String} {t : TemplateHost Sector Data} (h : Kept path s t) :
    Spared path s t := by
  rcases h with rfl | ⟨img, rfl⟩
  · exact ⟨rfl, rfl, rfl, fun _ _ => rfl, fun _ hargs => Or.inl hargs⟩
  · exact ⟨rfl, rfl, rfl, fun p hp => Function.update_of_ne hp _ _, fun _ hargs => Or.inl hargs⟩

theorem Spared.spawnVmm {path : String} {t : TemplateHost Sector Data} (h : Spared path s t)
    {args : List String} (hargs : Diskless args) : Spared path s (spawnVmm args t) where
  templateDir := h.templateDir
  snapshots := h.snapshots
  rows := h.rows
  files := h.files
  started := by
    intro args' hmem
    rcases List.mem_append.mp hmem with hold | hlast
    · exact h.started args' hold
    · exact Or.inr (List.mem_singleton.mp hlast ▸ hargs)

structure Cloned (out : CloneAnswers) (req : CloneRequest) (s t : TemplateHost Sector Data) :
    Prop where
  found : ∃ tmpl, (s.rows.find? fun r => r.id = req.sourceId) = some tmpl ∧
    tmpl.published = true ∧ t.rows = s.rows.map (countClone tmpl.id) ∧
    t.files = (overlaid out tmpl.imagePath s).files
  templateDir : t.templateDir = s.templateDir
  started : Started s t

theorem clone_spec (out : CloneAnswers) (req : CloneRequest) :
    Triple (fun t => t = s) (clone out req) (fun _ => Cloned out req s)
      (fun _ => Spared (diskPath out.vmId) s) := by
  have hself : Spared (diskPath out.vmId) s s := Kept.spared (Or.inl rfl)
  unfold clone
  apply Triple.step ((getTemplate_spec out.fetchOne req.sourceId).imp_error fun _ _ h => h ▸ hself)
  intro tmpl hfind
  apply Triple.ite
  · intro hpublished
    apply Triple.bind ((check_spec out.createDirAll).imp_error fun _ _ h => h ▸ hself)
    intro _
    apply Triple.bind ((createOverlay_spec out tmpl.imagePath).imp_error fun _ _ h => h ▸ hself)
    intro _
    have hover := (overlaid_kept (s := s) out tmpl.imagePath).spared
    apply Triple.bind ((writeCloudInit_spec out tmpl.cloudInit).imp_error fun _ _ h => h ▸ hover)
    intro _
    -- the VMM that is spawned has its arguments, and nothing else of the host changes
    generalize hu : (if req.startAfter then spawnVmm (vmmArgs out req tmpl)
      (overlaid out tmpl.imagePath s) else overlaid out tmpl.imagePath s) = u
    have hsame : u.files = (overlaid out tmpl.imagePath s).files ∧
        Spared (diskPath out.vmId) s u := by
      rw [← hu]
      split
      · exact ⟨rfl, hover.spawnVmm (vmmArgs_diskless out req tmpl)⟩
      · exact ⟨rfl, hover⟩
    obtain ⟨hfiles, hspared⟩ := hsame
    apply Triple.bind (Triple.modify (Q := fun _ t => t = u) fun t ht => by rw [ht, hu])
    intro _
    apply Triple.bind ((updateRows_spec out.update _).imp_error fun _ _ h => h ▸ hspared)
    intro _
    apply Triple.pure
    intro t ht
    cases ht
    exact ⟨⟨tmpl, hfind, hpublished, by rw [hspared.rows], hfiles⟩, hspared.templateDir,
      hspared.started⟩
  · intro _
    exact Triple.throw fun _ h => h ▸ hself

end

end Caiman.Bts.Templates
