import Mathlib.Data.List.MinMax
import Caiman.Lib.Json
import Caiman.Lib.Triple
import Caiman.Api.State
import Caiman.Vmm.Mac
import Caiman.Bts.Snapshots

/-!
# Taking a snapshot

A new overlay is laid over the last snapshot that is not sealed, or over the disk of the
VM, and the VM's writes go to it from then on. The row of the snapshot names the overlay.
-/

namespace Caiman.Bts

open Lib Lib.Json Lib.Overlay

inductive SnapshotConsistency
  | quiesced
  | crashConsistent
  | offline
  deriving DecidableEq, Repr

/-- A row of the table `snapshots` with the columns that a delete does not look at. -/
structure SnapshotRow extends Snapshot where
  vmId : String
  vmName : String
  name : String
  description : Option String
  depth : UInt32
  diskMib : UInt64
  actualMib : UInt64
  checksum : String
  hasMemory : Bool
  consistency : SnapshotConsistency
  labels : List (String × String)
  createdAt : Nat
  createdBy : String
  deriving DecidableEq, Repr

/-- A VM: whether its vCPUs run, and the image that its writes go to. -/
structure Guest where
  running : Bool
  active : String
  deriving DecidableEq, Repr

structure SnapshotHost (Sector Data : Type) where
  rows : List SnapshotRow
  files : Files String Sector Data
  guests : String → Guest

structure TakeRequest where
  vmId : String
  vmName : String
  name : String
  description : Option String
  consistency : SnapshotConsistency
  labels : List (String × String)
  createdBy : String
  deriving DecidableEq, Repr

/-- The environment, the identifier and the time drawn for a snapshot, and how each step
is answered; an error is its text. -/
structure TakeAnswers where
  snapDir : Option String
  stateDir : Option String
  snapId : String
  now : Nat
  fetchOptional : Option String
  createDirAll : Option String
  quiesce : Option String
  /-- `qemu-img create`: whether it could be run, and its exit status. -/
  create : Except String Bool
  stderr : String
  resume : Option String
  redirect : Option String
  /-- the length of the overlay's file -/
  metadata : Option UInt64
  /-- what `qemu-img info` prints -/
  info : Except String Value
  checksum : Except String String
  insert : Option String

namespace SnapshotHost

abbrev Action (Sector Data α : Type) := EStateM String (SnapshotHost Sector Data) α

variable {Sector Data : Type}

def attempt (error : Option String) (f : SnapshotHost Sector Data → SnapshotHost Sector Data) :
    Action Sector Data Unit := do
  match error with
  | some message => throw message
  | none => modify f

def setRunning (vmId : String) (running : Bool) (s : SnapshotHost Sector Data) :
    SnapshotHost Sector Data :=
  { s with guests := Function.update s.guests vmId { s.guests vmId with running := running } }

def setActive (vmId path : String) (s : SnapshotHost Sector Data) : SnapshotHost Sector Data :=
  { s with guests := Function.update s.guests vmId { s.guests vmId with active := path } }

def layOver (path parentPath : String) (s : SnapshotHost Sector Data) :
    SnapshotHost Sector Data :=
  { s with files := Function.update s.files path (some ⟨some parentPath, fun _ => none⟩) }

/-- `vm_id = ? AND sealed = 0 ORDER BY created_at DESC LIMIT 1` -/
def latest (rows : List SnapshotRow) (vmId : String) : Option SnapshotRow :=
  (rows.filter fun r => r.vmId = vmId ∧ r.sealed = false).argmax SnapshotRow.createdAt

section Steps

variable (out : TakeAnswers) (req : TakeRequest)

def diskPath : String :=
  Api.joinPath (out.stateDir.getD "/var/run/caiman")
    (String.ofList (Vmm.trimVm req.vmId.toList) ++ ".img")

def snapPath : String :=
  Api.joinPath (Api.joinPath (out.snapDir.getD "/var/lib/caiman/snapshots") req.vmId)
    (out.snapId ++ ".qcow2")

def findVmDisk : Action Sector Data String := do
  if ((← get).files (diskPath out req)).isSome then return diskPath out req
  else throw ("Disk image not found for " ++ req.vmId ++ ": " ++ diskPath out req)

def latestSnapshot : Action Sector Data (Option SnapshotRow) := do
  match out.fetchOptional with
  | some message => throw message
  | none => return latest (← get).rows req.vmId

def createDirAll : Action Sector Data Unit := attempt out.createDirAll id

def quiesceVm : Action Sector Data Unit :=
  if req.consistency = .quiesced then attempt out.quiesce (setRunning req.vmId false) else pure ()

/-- An overlay can be created over a file that is there. -/
def createOverlay (parentPath : String) : Action Sector Data Bool := do
  match out.create with
  | .error _ => throw "qemu-img create overlay"
  | .ok success =>
      if success ∧ ((← get).files parentPath).isSome then
        modify (layOver (snapPath out req) parentPath)
        return true
      else return false

def resumeVm : Action Sector Data Unit :=
  if req.consistency = .quiesced then attempt out.resume (setRunning req.vmId true) else pure ()

def checkCreated (success : Bool) : Action Sector Data Unit :=
  if success then pure () else throw ("qemu-img failed: " ++ out.stderr)

def redirectVmWrites : Action Sector Data Unit :=
  attempt out.redirect (setActive req.vmId (snapPath out req))

def qcow2VirtualSize : Action Sector Data UInt64 := do
  match out.info with
  | .error message => throw message
  | .ok info => return ((info.index "virtual-size").asU64.getD 0) / (1024 * 1024)

def blake3File : Action Sector Data String := do
  match out.checksum with
  | .error message => throw message
  | .ok checksum => return checksum

/-- The identifier is the primary key. -/
def saveSnapshot (snap : SnapshotRow) : Action Sector Data Unit := do
  match out.insert with
  | some message => throw message
  | none =>
      if (← get).rows.any fun r => r.id = snap.id then
        throw "UNIQUE constraint failed: snapshots.id"
      else modify fun s => { s with rows := s.rows ++ [snap] }

def newSnapshot (parent : Option SnapshotRow) (diskMib : UInt64) (checksum : String) :
    SnapshotRow where
  id := out.snapId
  imagePath := snapPath out req
  parentId := parent.map fun p => p.id
  sealed := false
  vmId := req.vmId
  vmName := req.vmName
  name := req.name
  description := req.description
  depth := (parent.map fun p => p.depth + 1).getD 0
  diskMib := diskMib
  actualMib := out.metadata.getD 0 / (1024 * 1024)
  checksum := checksum
  hasMemory := false
  consistency := req.consistency
  labels := req.labels
  createdAt := out.now
  createdBy := req.createdBy

def takeSnapshot : Action Sector Data SnapshotRow := do
  let baseImage ← findVmDisk out req
  let parent ← latestSnapshot out req
  let parentPath := (parent.map fun p => p.imagePath).getD baseImage
  createDirAll out
  quiesceVm out req
  let success ← createOverlay out req parentPath
  resumeVm out req
  checkCreated out success
  redirectVmWrites out req
  let diskMib ← qcow2VirtualSize out
  let checksum ← blake3File out
  let snap := newSnapshot out req parent diskMib checksum
  saveSnapshot out snap
  return snap

end Steps

/-! ## Where it can stop -/

section

variable (out : TakeAnswers) (req : TakeRequest) (s : SnapshotHost Sector Data)

def parentPath : String :=
  ((latest s.rows req.vmId).map fun p => p.imagePath).getD (diskPath out req)

structure Prepared : Prop where
  disk : (s.files (diskPath out req)).isSome
  fetch : out.fetchOptional = none
  dir : out.createDirAll = none
  quiesce : req.consistency = .quiesced → out.quiesce = none

def Started : Prop := ∃ success, out.create = .ok success

def created : Bool :=
  match out.create with
  | .ok success => success && (s.files (parentPath out req s)).isSome
  | .error _ => false

def Resumed : Prop := req.consistency = .quiesced → out.resume = none

structure Saved : Prop where
  info : ∃ info, out.info = .ok info
  checksum : ∃ checksum, out.checksum = .ok checksum
  insert : out.insert = none
  fresh : ∀ r ∈ s.rows, r.id ≠ out.snapId

def begun : SnapshotHost Sector Data :=
  if req.consistency = .quiesced then setRunning req.vmId false s else s

def laid : SnapshotHost Sector Data :=
  if created out req s then layOver (snapPath out req) (parentPath out req s) (begun req s)
  else begun req s

def ended : SnapshotHost Sector Data :=
  if req.consistency = .quiesced then setRunning req.vmId true (laid out req s)
  else laid out req s

def switched : SnapshotHost Sector Data :=
  setActive req.vmId (snapPath out req) (ended out req s)

/-- The exits with an error, and what each leaves. -/
inductive Stops : SnapshotHost Sector Data → Prop
  | unprepared (h : ¬ Prepared out req s) : Stops s
  | unstarted (hprep : Prepared out req s) (h : ¬ Started out) : Stops (begun req s)
  | unresumed (hprep : Prepared out req s) (hstart : Started out) (h : ¬ Resumed out req) :
      Stops (laid out req s)
  | uncreated (hprep : Prepared out req s) (hstart : Started out) (hres : Resumed out req)
      (h : created out req s = false) : Stops (ended out req s)
  | unredirected (hprep : Prepared out req s) (hres : Resumed out req)
      (hcreated : created out req s = true) (h : out.redirect ≠ none) : Stops (ended out req s)
  | unsaved (hprep : Prepared out req s) (hres : Resumed out req)
      (hcreated : created out req s = true) (hredirect : out.redirect = none)
      (h : ¬ Saved out s) : Stops (switched out req s)

structure Completes : Prop where
  prepared : Prepared out req s
  resumed : Resumed out req
  created : created out req s = true
  redirect : out.redirect = none
  saved : Saved out s

structure Takes (snap : SnapshotRow) (s' : SnapshotHost Sector Data) : Prop
    extends Completes out req s where
  row : ∃ diskMib checksum, snap = newSnapshot out req (latest s.rows req.vmId) diskMib checksum
  rows : s'.rows = s.rows ++ [snap]
  files : s'.files = (switched out req s).files
  guests : s'.guests = (switched out req s).guests

end

section Specs

variable {out : TakeAnswers} {req : TakeRequest} {s : SnapshotHost Sector Data}

@[simp] theorem begun_rows : (begun req s).rows = s.rows := by
  unfold begun
  split <;> rfl

@[simp] theorem begun_files : (begun req s).files = s.files := by
  unfold begun
  split <;> rfl

@[simp] theorem laid_rows : (laid out req s).rows = s.rows := by
  unfold laid
  split <;> exact begun_rows

@[simp] theorem ended_rows : (ended out req s).rows = s.rows := by
  unfold ended
  split <;> exact laid_rows

@[simp] theorem switched_rows : (switched out req s).rows = s.rows := ended_rows

theorem attempt_spec (error : Option String)
    (f : SnapshotHost Sector Data → SnapshotHost Sector Data) :
    Triple (fun s₁ => s₁ = s) (attempt error f) (fun _ s₁ => s₁ = f s ∧ error = none)
      (fun _ s₁ => s₁ = s ∧ error ≠ none) := by
  rintro _ rfl
  cases error with
  | none => exact ⟨rfl, rfl⟩
  | some message => exact ⟨rfl, fun h => by cases h⟩

theorem attemptIf_spec (error : Option String)
    (f : SnapshotHost Sector Data → SnapshotHost Sector Data) :
    Triple (fun s₁ => s₁ = s)
      (if req.consistency = .quiesced then attempt error f else pure () : Action Sector Data Unit)
      (fun _ s₁ => s₁ = (if req.consistency = .quiesced then f s else s) ∧
        (req.consistency = .quiesced → error = none))
      (fun _ s₁ => s₁ = s ∧ ¬ (req.consistency = .quiesced → error = none)) := by
  apply Triple.ite
  · intro hq
    apply (attempt_spec error f).conseq (fun _ h => h)
    · intro _ s₁ h
      exact ⟨by rw [if_pos hq, h.1], fun _ => h.2⟩
    · intro _ s₁ h
      exact ⟨h.1, fun himp => h.2 (himp hq)⟩
  · intro hq
    apply Triple.pure
    intro s₁ h
    exact ⟨by rw [if_neg hq, h], fun h => absurd h hq⟩

theorem findVmDisk_spec :
    Triple (fun s₁ => s₁ = s) (findVmDisk out req)
      (fun path s₁ => s₁ = s ∧ path = diskPath out req ∧ (s.files (diskPath out req)).isSome)
      (fun _ s₁ => s₁ = s ∧ ¬ (s.files (diskPath out req)).isSome) := by
  rintro s₁ rfl
  simp only [findVmDisk, EStateM.run_bind, EStateM.run_get]
  by_cases h : (s₁.files (diskPath out req)).isSome
  · rw [if_pos h]
    exact ⟨rfl, rfl, h⟩
  · rw [if_neg h]
    exact ⟨rfl, h⟩

theorem latestSnapshot_spec :
    Triple (fun s₁ => s₁ = s) (latestSnapshot out req)
      (fun parent s₁ => s₁ = s ∧ parent = latest s.rows req.vmId ∧ out.fetchOptional = none)
      (fun _ s₁ => s₁ = s ∧ out.fetchOptional ≠ none) := by
  rintro _ rfl
  simp only [latestSnapshot]
  cases out.fetchOptional with
  | none => exact ⟨rfl, rfl, rfl⟩
  | some message => exact ⟨rfl, fun h => by cases h⟩

theorem createOverlay_spec :
    Triple (fun s₁ => s₁ = begun req s) (createOverlay out req (parentPath out req s))
      (fun success s₁ => s₁ = laid out req s ∧ success = created out req s ∧ Started out)
      (fun _ s₁ => s₁ = begun req s ∧ ¬ Started out) := by
  rintro _ rfl
  cases hcreate : out.create with
  | error message =>
      have hrun : (createOverlay out req (parentPath out req s)).run (begun req s) =
          .error "qemu-img create overlay" (begun req s) := by
        simp only [createOverlay, hcreate]
        rfl
      rw [hrun]
      refine ⟨rfl, ?_⟩
      rintro ⟨success, h⟩
      rw [hcreate] at h
      cases h
  | ok success =>
      have hrun : (createOverlay out req (parentPath out req s)).run (begun req s) =
          .ok (created out req s) (laid out req s) := by
        simp only [createOverlay, laid, created, hcreate, EStateM.run_bind, EStateM.run_get,
          begun_files, Bool.and_eq_true]
        by_cases h : success = true ∧ (s.files (parentPath out req s)).isSome = true
        · rw [if_pos h, if_pos h, h.1, h.2]
          rfl
        · rw [if_neg h, if_neg h]
          have hfalse : (success && (s.files (parentPath out req s)).isSome) = false := by
            simpa using h
          rw [hfalse]
          rfl
      rw [hrun]
      exact ⟨rfl, rfl, success, hcreate⟩

theorem saveSnapshot_spec (snap : SnapshotRow) (hid : snap.id = out.snapId)
    {s₀ : SnapshotHost Sector Data} (hrows : s₀.rows = s.rows) :
    Triple (fun s₁ => s₁ = s₀) (saveSnapshot out snap)
      (fun _ s₁ => s₁ = { s₀ with rows := s.rows ++ [snap] } ∧ out.insert = none ∧
        ∀ r ∈ s.rows, r.id ≠ out.snapId)
      (fun _ s₁ => s₁ = s₀ ∧ ¬ (out.insert = none ∧ ∀ r ∈ s.rows, r.id ≠ out.snapId)) := by
  rintro s₁ rfl
  simp only [saveSnapshot]
  cases out.insert with
  | some message => exact ⟨rfl, fun h => by cases h.1⟩
  | none =>
      simp only [EStateM.run_bind, EStateM.run_get]
      by_cases htaken : s₁.rows.any fun r => r.id = snap.id
      · rw [if_pos htaken]
        obtain ⟨row, hrow, heq⟩ := List.any_eq_true.mp htaken
        rw [hrows] at hrow
        exact ⟨rfl, fun h => h.2 row hrow ((of_decide_eq_true heq).trans hid)⟩
      · rw [if_neg htaken]
        refine ⟨by rw [← hrows], trivial, ?_⟩
        intro row hrow heq
        rw [← hrows] at hrow
        exact htaken (List.any_eq_true.mpr ⟨row, hrow, decide_eq_true (heq.trans hid.symm)⟩)

theorem checkCreated_spec (success : Bool) :
    Triple (fun s₁ => s₁ = s) (checkCreated out success) (fun _ s₁ => s₁ = s ∧ success = true)
      (fun _ s₁ => s₁ = s ∧ success = false) := by
  cases success with
  | true => exact Triple.pure fun _ h => ⟨h, rfl⟩
  | false => exact Triple.throw fun _ h => ⟨h, rfl⟩

theorem qcow2VirtualSize_spec :
    Triple (fun s₁ => s₁ = s) (qcow2VirtualSize out)
      (fun _ s₁ => s₁ = s ∧ ∃ info, out.info = .ok info)
      (fun _ s₁ => s₁ = s ∧ ¬ ∃ info, out.info = .ok info) := by
  rintro s₁ rfl
  simp only [qcow2VirtualSize]
  cases out.info with
  | ok info => exact ⟨rfl, info, rfl⟩
  | error message => exact ⟨rfl, fun ⟨_, h⟩ => by cases h⟩

theorem blake3File_spec :
    Triple (fun s₁ => s₁ = s) (blake3File out)
      (fun _ s₁ => s₁ = s ∧ ∃ checksum, out.checksum = .ok checksum)
      (fun _ s₁ => s₁ = s ∧ ¬ ∃ checksum, out.checksum = .ok checksum) := by
  rintro s₁ rfl
  simp only [blake3File]
  cases out.checksum with
  | ok checksum => exact ⟨rfl, checksum, rfl⟩
  | error message => exact ⟨rfl, fun ⟨_, h⟩ => by cases h⟩

theorem takeSnapshot_spec (out : TakeAnswers) (req : TakeRequest) (s : SnapshotHost Sector Data) :
    Triple (fun s₁ => s₁ = s) (takeSnapshot out req) (Takes out req s)
      (fun _ => Stops out req s) := by
  have hstop (h : ¬ Prepared out req s) (s₁ : SnapshotHost Sector Data) (heq : s₁ = s) :
      Stops out req s s₁ := by
    rw [heq]
    exact .unprepared h
  apply Triple.step (findVmDisk_spec.imp_error fun _ s₁ h => hstop (fun hp => h.2 hp.disk) s₁ h.1)
  rintro _ ⟨rfl, hdisk⟩
  apply Triple.step (latestSnapshot_spec.imp_error fun _ s₁ h =>
    hstop (fun hp => h.2 hp.fetch) s₁ h.1)
  rintro _ ⟨rfl, hfetch⟩
  apply Triple.step ((attempt_spec _ _).imp_error fun _ s₁ h =>
    hstop (fun hp => h.2 hp.dir) s₁ h.1)
  intro _ hdir
  apply Triple.step ((attemptIf_spec _ _).imp_error fun _ s₁ h =>
    hstop (fun hp => h.2 hp.quiesce) s₁ h.1)
  intro _ hquiesce
  have hprep : Prepared out req s := ⟨hdisk, hfetch, hdir, hquiesce⟩
  apply Triple.step (createOverlay_spec.imp_error fun _ s₁ h => h.1 ▸ .unstarted hprep h.2)
  rintro _ ⟨rfl, hstart⟩
  apply Triple.step ((attemptIf_spec _ _).imp_error fun _ s₁ h =>
    h.1 ▸ .unresumed hprep hstart h.2)
  intro _ hres
  apply Triple.step ((checkCreated_spec _).imp_error fun _ s₁ h =>
    h.1 ▸ .uncreated hprep hstart hres h.2)
  intro _ hcreated
  apply Triple.step ((attempt_spec _ _).imp_error fun _ s₁ h =>
    h.1 ▸ .unredirected hprep hres hcreated h.2)
  intro _ hredirect
  have hunsaved (h : ¬ Saved out s) (s₁ : SnapshotHost Sector Data)
      (heq : s₁ = switched out req s) : Stops out req s s₁ := by
    rw [heq]
    exact .unsaved hprep hres hcreated hredirect h
  apply Triple.step (qcow2VirtualSize_spec.imp_error fun _ s₁ h =>
    hunsaved (fun hs => h.2 hs.info) s₁ h.1)
  intro diskMib hinfo
  apply Triple.step (blake3File_spec.imp_error fun _ s₁ h =>
    hunsaved (fun hs => h.2 hs.checksum) s₁ h.1)
  intro checksum hchecksum
  apply Triple.step ((saveSnapshot_spec _ rfl switched_rows).imp_error fun _ s₁ h =>
    hunsaved (fun hs => h.2 ⟨hs.insert, hs.fresh⟩) s₁ h.1)
  intro _ hsaved
  apply Triple.pure
  rintro s₁ rfl
  exact ⟨⟨hprep, hres, hcreated, hredirect, ⟨hinfo, hchecksum, hsaved.1, hsaved.2⟩⟩,
    ⟨diskMib, checksum, rfl⟩, rfl, rfl, rfl⟩

theorem started_of_created (h : created out req s = true) : Started out := by
  unfold created at h
  split at h
  · next success heq => exact ⟨success, heq⟩
  · cases h

theorem Stops.not_completes {s' : SnapshotHost Sector Data} (h : Stops out req s s') :
    ¬ Completes out req s := by
  intro hc
  cases h with
  | unprepared h => exact h hc.prepared
  | unstarted _ h => exact h (started_of_created hc.created)
  | unresumed _ _ h => exact h hc.resumed
  | uncreated _ _ _ h => cases h.symm.trans hc.created
  | unredirected _ _ _ h => exact h hc.redirect
  | unsaved _ _ _ _ h => exact h hc.saved

/-! ## What a failure leaves -/

@[simp] theorem begun_guest : (begun req s).guests req.vmId =
    if req.consistency = .quiesced then { s.guests req.vmId with running := false }
    else s.guests req.vmId := by
  unfold begun
  split
  · exact Function.update_self ..
  · rfl

@[simp] theorem laid_guests : (laid out req s).guests = (begun req s).guests := by
  unfold laid
  split <;> rfl

@[simp] theorem ended_guest : (ended out req s).guests req.vmId =
    if req.consistency = .quiesced then { s.guests req.vmId with running := true }
    else s.guests req.vmId := by
  unfold ended
  split
  · next hq => simp [setRunning, hq]
  · next hq => simp [hq]

theorem switched_active : ((switched out req s).guests req.vmId).active = snapPath out req := by
  simp [switched, setActive]

theorem switched_running : ((switched out req s).guests req.vmId).running =
    ((ended out req s).guests req.vmId).running := by
  simp [switched, setActive]

end Specs

section

variable (out : TakeAnswers) (req : TakeRequest) (s : SnapshotHost Sector Data)

/-- The VM runs if it ran, on the image it had, and the catalog is as it was. -/
structure Untouched (s' : SnapshotHost Sector Data) : Prop where
  running : (s.guests req.vmId).running = true → (s'.guests req.vmId).running = true
  active : (s'.guests req.vmId).active = (s.guests req.vmId).active
  rows : s'.rows = s.rows

def LeavesNoTrace : Prop :=
  ∀ e s', (takeSnapshot out req).run s = .error e s' → Untouched req s s'

/-- A running VM that is paused for the snapshot is resumed, and once the writes go to
another image nothing fails. -/
structure Compensated : Prop where
  resumes : Prepared out req s → req.consistency = .quiesced →
    (s.guests req.vmId).running = true → Started out ∧ out.resume = none
  saves : Prepared out req s → Resumed out req → created out req s = true →
    out.redirect = none → (s.guests req.vmId).active ≠ snapPath out req → Saved out s

end

section

variable {out : TakeAnswers} {req : TakeRequest} {s s' : SnapshotHost Sector Data}

theorem untouched_ended : Untouched req s (ended out req s) := by
  refine ⟨?_, ?_, ended_rows⟩
  · intro hrunning
    rw [ended_guest]
    split
    · rfl
    · exact hrunning
  · rw [ended_guest]
    split <;> rfl

theorem untouched_begun_iff (hguests : s'.guests = (begun req s).guests)
    (hrows : s'.rows = s.rows) : Untouched req s s' ↔
      ¬ (req.consistency = .quiesced ∧ (s.guests req.vmId).running = true) := by
  have hguest : s'.guests req.vmId =
      if req.consistency = .quiesced then { s.guests req.vmId with running := false }
      else s.guests req.vmId := by
    rw [hguests, begun_guest]
  constructor
  · rintro h ⟨hq, hrunning⟩
    have hpaused := h.running hrunning
    rw [hguest, if_pos hq] at hpaused
    cases hpaused
  · intro h
    refine ⟨?_, ?_, hrows⟩
    · intro hrunning
      rw [hguest, if_neg fun hq => h ⟨hq, hrunning⟩]
      exact hrunning
    · rw [hguest]
      split <;> rfl

theorem untouched_switched_iff :
    Untouched req s (switched out req s) ↔ (s.guests req.vmId).active = snapPath out req := by
  constructor
  · intro h
    rw [← h.active, switched_active]
  · intro h
    refine ⟨?_, by rw [switched_active, h], switched_rows⟩
    rw [switched_running]
    exact untouched_ended.running

theorem Stops.untouched_iff (h : Stops out req s s') :
    Untouched req s s' ↔ Compensated out req s := by
  cases h with
  | unprepared h =>
      refine iff_of_true ⟨fun hrunning => hrunning, rfl, rfl⟩ ?_
      exact ⟨fun hprep => absurd hprep h, fun hprep => absurd hprep h⟩
  | unstarted hprep h =>
      rw [untouched_begun_iff rfl begun_rows]
      constructor
      · intro hidle
        refine ⟨fun _ hq hrunning => absurd ⟨hq, hrunning⟩ hidle, ?_⟩
        intro _ _ hcreated
        exact absurd (started_of_created hcreated) h
      · rintro hcomp ⟨hq, hrunning⟩
        exact h (hcomp.resumes hprep hq hrunning).1
  | unresumed hprep hstart h =>
      rw [untouched_begun_iff laid_guests laid_rows]
      constructor
      · intro hidle
        refine ⟨fun _ hq hrunning => absurd ⟨hq, hrunning⟩ hidle, ?_⟩
        intro _ hres
        exact absurd hres h
      · rintro hcomp ⟨hq, hrunning⟩
        exact h fun _ => (hcomp.resumes hprep hq hrunning).2
  | uncreated hprep hstart hres h =>
      refine iff_of_true untouched_ended ⟨fun _ hq _ => ⟨hstart, hres hq⟩, ?_⟩
      intro _ _ hcreated
      rw [h] at hcreated
      cases hcreated
  | unredirected hprep hres hcreated h =>
      refine iff_of_true untouched_ended
        ⟨fun _ hq _ => ⟨started_of_created hcreated, hres hq⟩, ?_⟩
      intro _ _ _ hredirect
      exact absurd hredirect h
  | unsaved hprep hres hcreated hredirect h =>
      rw [untouched_switched_iff]
      constructor
      · intro hactive
        refine ⟨fun _ hq _ => ⟨started_of_created hcreated, hres hq⟩, ?_⟩
        intro _ _ _ _ hne
        exact absurd hactive hne
      · intro hcomp
        by_contra hne
        exact h (hcomp.saves hprep hres hcreated hredirect hne)

/-- A failing call leaves no trace exactly when each exit it can take is compensated. -/
theorem leavesNoTrace_iff (out : TakeAnswers) (req : TakeRequest) (s : SnapshotHost Sector Data) :
    LeavesNoTrace out req s ↔ Compensated out req s := by
  have hspec := takeSnapshot_spec out req s s rfl
  simp only [LeavesNoTrace]
  cases hrun : (takeSnapshot out req).run s with
  | ok snap s' =>
      rw [hrun] at hspec
      refine iff_of_true (fun _ _ h => by cases h) ?_
      have hstart := started_of_created hspec.created
      exact ⟨fun _ hq _ => ⟨hstart, hspec.resumed hq⟩, fun _ _ _ _ _ => hspec.saved⟩
  | error e s' =>
      rw [hrun] at hspec
      rw [← Stops.untouched_iff hspec]
      constructor
      · intro h
        exact h e s' rfl
      · rintro h _ _ heq
        cases heq
        exact h

end

/-! ## Samples -/

def nightlySnapshot : TakeRequest where
  vmId := "vm-1"
  vmName := "web"
  name := "nightly"
  description := none
  consistency := .quiesced
  labels := []
  createdBy := "admin"

def stepsSucceed : TakeAnswers where
  snapDir := none
  stateDir := none
  snapId := "mon"
  now := 0
  fetchOptional := none
  createDirAll := none
  quiesce := none
  create := .ok true
  stderr := ""
  resume := none
  redirect := none
  metadata := some 196616
  info := .ok (.object [("virtual-size", .nat 10737418240)])
  checksum := .ok "af1349b9"
  insert := none

/-- One VM, on a disk of which sector 0 is written. -/
def oneDisk : SnapshotHost Nat SnapshotEngine.Block where
  rows := []
  files := fun path =>
    if path = SnapshotEngine.diskPath then some ⟨none, fun x => if x = 0 then some .old else none⟩
    else none
  guests := fun _ => ⟨true, SnapshotEngine.diskPath⟩

theorem failures_leave_traces :
    ¬ LeavesNoTrace { stepsSucceed with create := .error "No such file or directory" }
        nightlySnapshot oneDisk ∧
      ¬ LeavesNoTrace { stepsSucceed with checksum := .error "Permission denied" }
        nightlySnapshot oneDisk := by
  constructor
  · intro h
    have hpaused := (h "qemu-img create overlay" (setRunning "vm-1" false oneDisk) rfl).running rfl
    cases hpaused
  · intro h
    have hactive := (h "Permission denied" _ rfl).active
    revert hactive
    decide +kernel

end SnapshotHost

end Caiman.Bts
