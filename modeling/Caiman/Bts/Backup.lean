import Caiman.Lib.Json
import Caiman.Lib.Triple
import Caiman.Vmm.Mac

/-!
# Backing up a VM

A row goes into the catalog, restic is run, and the row is brought up to date. The
steps between the insert and the update leave through an error. What restic does to
its repositories is left open.
-/

namespace Caiman.Bts

open Lib Lib.Json

inductive BackupType
  | full
  | incremental
  | differential
  deriving DecidableEq, Repr

/-- `{:?}` -/
def BackupType.debug : BackupType → String
  | full => "Full"
  | incremental => "Incremental"
  | differential => "Differential"

inductive BackupStatus
  | pending
  | running
  | completed
  | failed
  | verifying
  | expired
  deriving DecidableEq, Repr

inductive BackupTarget
  | s3 (bucket pfx : String) (endpoint : Option String)
  | nfs (server exportPath mountPath : String)
  | localDir (path : String)
  | restic (repo passwordEnv : String)
  deriving DecidableEq, Repr

structure RetentionPolicy where
  keepHourly : Option UInt32
  keepDaily : Option UInt32
  keepWeekly : Option UInt32
  keepMonthly : Option UInt32
  keepYearly : Option UInt32
  /-- Always keep backups newer than this many days -/
  keepWithinDays : Option UInt32
  deriving DecidableEq, Repr

structure Backup where
  id : String
  vmId : String
  vmName : String
  name : String
  description : Option String
  backupType : BackupType
  status : BackupStatus
  target : BackupTarget
  parentId : Option String
  resticId : Option String
  sizeMib : UInt64
  rawMib : UInt64
  dedupMib : UInt64
  retention : RetentionPolicy
  startedAt : Nat
  finishedAt : Option Nat
  durationSecs : Option UInt64
  createdBy : String
  error : Option String
  deriving DecidableEq, Repr

/-! ## Restic -/

inductive KeepRule
  | hourly (n : UInt32)
  | daily (n : UInt32)
  | weekly (n : UInt32)
  | monthly (n : UInt32)
  | yearly (n : UInt32)
  deriving DecidableEq, Repr

def KeepRule.arg : KeepRule → String
  | hourly n => "--keep-hourly=" ++ toString n
  | daily n => "--keep-daily=" ++ toString n
  | weekly n => "--keep-weekly=" ++ toString n
  | monthly n => "--keep-monthly=" ++ toString n
  | yearly n => "--keep-yearly=" ++ toString n

inductive ResticCommand
  | snapshots
  | init
  | backup (tags : String) (parent : Option String) (path : String)
  | forget (tag : String) (keep : List KeepRule)
  deriving DecidableEq, Repr

def ResticCommand.args : ResticCommand → List String
  | snapshots => ["snapshots", "--json"]
  | init => ["init"]
  | backup tags parent path =>
      ["backup", "--json", "--tag=" ++ tags, "--compression=max"] ++
        (parent.map ("--parent=" ++ ·)).toList ++ [path]
  | forget tag keep => ["forget", "--prune", "--tag=" ++ tag] ++ keep.map KeepRule.arg

inductive Ran
  | notFound
  | failed (stderr : String)
  | succeeded (stdout : String)
  deriving DecidableEq, Repr

/-- What restic answers, by repository and password, and what it makes of the world. -/
abbrev Restic (World : Type) := String → String → ResticCommand → World → Ran × World

/-- What a successful `restic backup` has printed. -/
def printedBy : ResticCommand × Ran → Option String
  | (.backup .., .succeeded stdout) => some stdout
  | _ => none

/-! ## The output of restic -/

/-- A carriage return is taken off with the newline it is before. The characters of the
line come in reverse. -/
def lineOf : List Char → String
  | '\r' :: cs => String.ofList cs.reverse
  | cs => String.ofList cs.reverse

def linesFrom (line : List Char) : List Char → List String
  | [] => if line = [] then [] else [String.ofList line.reverse]
  | '\n' :: cs => lineOf line :: linesFrom [] cs
  | c :: cs => linesFrom (c :: line) cs

/-- `str::lines` -/
def lines (s : String) : List String := linesFrom [] s.toList

def isSummary (v : Value) : Bool := (v.index "message_type").asStr = some "summary"

structure Summary where
  resticId : String
  sizeMib : UInt64
  rawMib : UInt64
  dedupMib : UInt64
  deriving DecidableEq, Repr

section

variable (fromStr : String → Option Value)

def lastSummary (output : String) : Option Value :=
  (lines output).reverse.findSome? fun line => (fromStr line).filter isSummary

def parseResticOutput (output : String) : Summary :=
  match lastSummary fromStr output with
  | some v =>
      let sizeMib := ((v.index "data_added").asU64.getD 0) / (1024 * 1024)
      let rawMib := ((v.index "total_bytes_processed").asU64.getD 0) / (1024 * 1024)
      { resticId := (v.index "snapshot_id").asStr.getD ""
        sizeMib, rawMib
        dedupMib := if sizeMib ≤ rawMib then rawMib - sizeMib else 0 }
  | none => ⟨"unknown", 0, 0, 0⟩

end

/-! ## The engine -/

structure Request where
  vmId : String
  vmName : String
  target : BackupTarget
  btype : BackupType
  parentId : Option String
  retention : RetentionPolicy
  createdBy : String
  description : Option String
  deriving DecidableEq, Repr

/-- The identifier drawn for a backup, the clock and the environment, and the errors of
the database and of the first start of restic. -/
structure Outside where
  backupId : String
  /-- the time in the name -/
  stamp : String
  startedAt : Nat
  finishedAt : Nat
  durationSecs : UInt64
  env : String → Option String
  insert : Option String
  fetchOne : Option String
  update : Option String
  spawn : String

/-- The catalog and the world restic is in, with a record of its runs. -/
structure BackupEngine (World : Type) where
  rows : List Backup
  world : World
  ran : List (ResticCommand × Ran)

namespace BackupEngine

abbrev Action (World α : Type) := EStateM String (BackupEngine World) α

variable {World : Type}

def repoPath : BackupTarget → String
  | .s3 bucket pfx endpoint =>
      "s3:" ++ endpoint.getD "s3.amazonaws.com" ++ "/" ++ bucket ++ "/" ++ pfx
  | .nfs _ _ mountPath => mountPath
  | .localDir path => path
  | .restic repo _ => repo

def keepRules (policy : RetentionPolicy) : List KeepRule :=
  (policy.keepHourly.map .hourly).toList ++ (policy.keepDaily.map .daily).toList ++
    (policy.keepWeekly.map .weekly).toList ++ (policy.keepMonthly.map .monthly).toList ++
    (policy.keepYearly.map .yearly).toList

def tags (req : Request) : String :=
  "vm=" ++ req.vmId ++ ",name=" ++ req.vmName ++ ",type=" ++ req.btype.debug

section Steps

variable (restic : Restic World) (fromStr : String → Option Value) (out : Outside)

def repoPassword : BackupTarget → String
  | .restic _ passwordEnv => (out.env passwordEnv).getD "changeme"
  | _ => (out.env "CAIMAN_BACKUP_PASSWORD").getD "changeme"

def findVmDisk (vmId : String) : String :=
  let stateDir := (out.env "CAIMAN_STATE_DIR").getD "/var/run/caiman"
  stateDir ++ "/" ++ String.ofList (Vmm.trimVm vmId.toList) ++ ".img"

def exec (repo pass : String) (c : ResticCommand) : Action World Ran := do
  let answer := restic repo pass c (← get).world
  modify fun s => { s with world := answer.2, ran := s.ran ++ [(c, answer.1)] }
  return answer.1

def runRestic (repo pass : String) (c : ResticCommand) : Action World String := do
  match ← exec restic repo pass c with
  | .notFound => throw "restic not found — install with: apt install restic"
  | .failed stderr => throw ("restic error: " ++ stderr)
  | .succeeded stdout => return stdout

def initRepoIfNeeded (repo pass : String) : Action World Unit := do
  match ← exec restic repo pass .snapshots with
  | .notFound => throw out.spawn
  | .failed _ => let _ ← runRestic restic repo pass .init
  | .succeeded _ => return ()

def applyRetention (repo pass vmId : String) (policy : RetentionPolicy) : Action World Unit := do
  let _ ← runRestic restic repo pass (.forget ("vm=" ++ vmId) (keepRules policy))

/-- `.ok()` on a result that is not looked at. -/
def ignored (x : Action World Unit) : Action World Unit := fun s =>
  match x.run s with
  | .ok _ s' => .ok () s'
  | .error _ s' => .ok () s'

def getBackup (id : String) : Action World Backup := do
  match out.fetchOne, (← get).rows.find? fun r => r.id = id with
  | none, some row => return row
  | _, _ => throw ("backup " ++ id ++ " not found")

/-- The identifier is the primary key. -/
def saveBackup (b : Backup) : Action World Unit := do
  match out.insert with
  | some message => throw message
  | none =>
      if (← get).rows.any fun r => r.id = b.id then throw "UNIQUE constraint failed: backups.id"
      else modify fun s => { s with rows := s.rows ++ [b] }

def updated (b row : Backup) : Backup :=
  if row.id = b.id then
    { row with
      status := b.status
      resticId := b.resticId
      sizeMib := b.sizeMib
      rawMib := b.rawMib
      dedupMib := b.dedupMib
      finishedAt := b.finishedAt
      durationSecs := b.durationSecs
      error := b.error }
  else row

def updateBackup (b : Backup) : Action World Unit := do
  match out.update with
  | some message => throw message
  | none => modify fun s => { s with rows := s.rows.map (updated b) }

def newBackup (req : Request) : Backup where
  id := out.backupId
  vmId := req.vmId
  vmName := req.vmName
  name := req.vmName ++ "-" ++ out.stamp
  description := req.description
  backupType := req.btype
  status := .running
  target := req.target
  parentId := req.parentId
  resticId := none
  sizeMib := 0
  rawMib := 0
  dedupMib := 0
  retention := req.retention
  startedAt := out.startedAt
  finishedAt := none
  durationSecs := none
  createdBy := req.createdBy
  error := none

def finished (req : Request) (sum : Summary) : Backup :=
  { newBackup out req with
    status := .completed
    resticId := some sum.resticId
    sizeMib := sum.sizeMib
    rawMib := sum.rawMib
    dedupMib := sum.dedupMib
    finishedAt := some out.finishedAt
    durationSecs := some out.durationSecs }

def parentSnapshot (req : Request) : Action World (Option String) := do
  match req.parentId with
  | none => return none
  | some pid => return (← getBackup out pid).resticId

def backupVm (req : Request) : Action World Backup := do
  saveBackup out (newBackup out req)
  let repo := repoPath req.target
  let pass := repoPassword out req.target
  initRepoIfNeeded restic out repo pass
  let parent ← parentSnapshot out req
  let stdout ← runRestic restic repo pass (.backup (tags req) parent (findVmDisk out req.vmId))
  let sum := parseResticOutput fromStr stdout
  ignored (applyRetention restic repo pass req.vmId req.retention)
  updateBackup out (finished out req sum)
  return finished out req sum

/-- The engine after `backup_vm`, with the runs of restic that it made. -/
def afterBackup (req : Request) (s : BackupEngine World) : BackupEngine World :=
  match (backupVm restic fromStr out req).run { s with ran := [] } with
  | .ok _ s' => s'
  | .error _ s' => s'

end Steps

/-! ## What the steps lead to -/

def printed (s : BackupEngine World) : List String := s.ran.filterMap printedBy

structure At (rows : List Backup) (world : World) (texts : List String)
    (s : BackupEngine World) : Prop where
  rows : s.rows = rows
  world : s.world = world
  printed : s.printed = texts

/-- Commands other than `forget` have led from one world to the other. -/
inductive Led (restic : Restic World) (repo pass : String) (world : World) : World → Prop
  | refl : Led restic repo pass world world
  | step {mid : World} (c : ResticCommand) (hc : ∀ tag keep, c ≠ .forget tag keep)
      (h : Led restic repo pass world mid) : Led restic repo pass world (restic repo pass c mid).2

section

variable (restic : Restic World) (fromStr : String → Option Value) (out : Outside) (req : Request)

def Inserts (rows : List Backup) : Prop :=
  out.insert = none ∧ ∀ row ∈ rows, row.id ≠ out.backupId

/-- There is a repository, or one has been made. -/
def readied (repo pass : String) (world : World) : Option World :=
  match restic repo pass .snapshots world with
  | (.notFound, _) => none
  | (.succeeded _, world') => some world'
  | (.failed _, world') =>
      match restic repo pass .init world' with
      | (.succeeded _, made) => some made
      | _ => none

/-- The parent is not asked for, or found. -/
def parentOf (rows : List Backup) : Option (Option String) :=
  match req.parentId with
  | none => some none
  | some pid =>
      match out.fetchOne, rows.find? fun r => r.id = pid with
      | none, some row => some row.resticId
      | _, _ => none

/-- What restic prints at the end of the backup, when it gets there, and the world then. -/
def uploads (rows : List Backup) (world : World) : Option (String × World) :=
  let repo := repoPath req.target
  let pass := repoPassword out req.target
  (readied restic repo pass world).bind fun ready =>
    (parentOf out req (rows ++ [newBackup out req])).bind fun parent =>
      match restic repo pass (.backup (tags req) parent (findVmDisk out req.vmId)) ready with
      | (.succeeded stdout, sent) => some (stdout, sent)
      | _ => none

inductive Outcome (rows : List Backup) (world : World) (s : BackupEngine World) : Prop
  | refused (hno : ¬ Inserts out rows) (hrows : s.rows = rows) (hworld : s.world = world)
  | stuck (hin : Inserts out rows) (hno : uploads restic out req rows world = none)
      (hrows : s.rows = rows ++ [newBackup out req])
      (hworld : Led restic (repoPath req.target) (repoPassword out req.target) world s.world)
  | sent (hin : Inserts out rows) (stdout : String) (world' : World)
      (hup : uploads restic out req rows world = some (stdout, world'))
      (hprinted : s.printed = [stdout])
      (hrows : s.rows =
        if out.update = none then
          (rows ++ [newBackup out req]).map
            (updated (finished out req (parseResticOutput fromStr stdout)))
        else rows ++ [newBackup out req])
      (hworld : s.world = (restic (repoPath req.target) (repoPassword out req.target)
        (.forget ("vm=" ++ req.vmId) (keepRules req.retention)) world').2)

end

section Specs

variable {restic : Restic World} {fromStr : String → Option Value} {out : Outside}
  {req : Request} {rows : List Backup} {world : World} {texts : List String}
  {E : String → BackupEngine World → Prop}

theorem exec_spec (repo pass : String) (c : ResticCommand) :
    Triple (At rows world texts) (exec restic repo pass c)
      (fun r s => At rows (restic repo pass c world).2
        (texts ++ (printedBy (c, (restic repo pass c world).1)).toList) s ∧
          r = (restic repo pass c world).1) E := by
  rintro s ⟨rfl, rfl, rfl⟩
  refine ⟨⟨rfl, rfl, ?_⟩, rfl⟩
  simp only [printed, List.filterMap_append]
  cases h : printedBy (c, (restic repo pass c s.world).1) <;> simp [h]

theorem runRestic_spec (repo pass : String) (c : ResticCommand) :
    Triple (At rows world texts) (runRestic restic repo pass c)
      (fun stdout s => At rows (restic repo pass c world).2
        (texts ++ (printedBy (c, .succeeded stdout)).toList) s ∧
          (restic repo pass c world).1 = .succeeded stdout)
      (fun _ s => At rows (restic repo pass c world).2 texts s ∧
        ∀ stdout, (restic repo pass c world).1 ≠ .succeeded stdout) := by
  apply Triple.step (exec_spec repo pass c)
  intro r hr
  subst hr
  cases hran : (restic repo pass c world).1 with
  | notFound =>
      apply Triple.throw
      intro s hat
      rw [show printedBy (c, Ran.notFound) = none by cases c <;> rfl] at hat
      exact ⟨by simpa using hat, fun _ h => by cases h⟩
  | failed stderr =>
      apply Triple.throw
      intro s hat
      rw [show printedBy (c, Ran.failed stderr) = none by cases c <;> rfl] at hat
      exact ⟨by simpa using hat, fun _ h => by cases h⟩
  | succeeded stdout =>
      apply Triple.pure
      intro s hat
      exact ⟨hat, rfl⟩

theorem initRepoIfNeeded_spec (repo pass : String) :
    Triple (At rows world texts) (initRepoIfNeeded restic out repo pass)
      (fun _ s => At rows ((readied restic repo pass world).getD world) texts s ∧
        (readied restic repo pass world).isSome)
      (fun _ s => s.rows = rows ∧ Led restic repo pass world s.world ∧
        readied restic repo pass world = none) := by
  have hchecked : Led restic repo pass world (restic repo pass .snapshots world).2 :=
    .step .snapshots (fun _ _ h => by cases h) .refl
  apply Triple.step (exec_spec repo pass .snapshots)
  intro r hr
  subst hr
  rcases hcheck : restic repo pass .snapshots world with ⟨answer, world'⟩
  rw [hcheck] at hchecked
  simp only
  cases answer with
  | notFound =>
      apply Triple.throw
      intro s hat
      refine ⟨hat.rows, hat.world ▸ hchecked, ?_⟩
      simp [readied, hcheck]
  | succeeded stdout =>
      apply Triple.pure
      intro s hat
      simpa [readied, hcheck, printedBy] using hat
  | failed stderr =>
      rcases hinit : restic repo pass .init world' with ⟨answer, made⟩
      refine Triple.bind ?_ fun _ => Triple.pure fun _ h => h
      · apply (runRestic_spec repo pass .init).conseq (P := At rows world' texts)
        · intro s hat
          simpa [printedBy] using hat
        · intro stdout s hpost
          rw [hinit] at hpost
          obtain ⟨hat, rfl⟩ := hpost
          have hok : readied restic repo pass world = some made := by
            simp [readied, hcheck, hinit]
          simpa [hok, printedBy] using hat
        · intro e s hpost
          rw [hinit] at hpost
          have hled : Led restic repo pass world made := by
            have hnext : Led restic repo pass world (restic repo pass .init world').2 :=
              .step .init (fun _ _ h => by cases h) hchecked
            rwa [hinit] at hnext
          refine ⟨hpost.1.rows, hpost.1.world ▸ hled, ?_⟩
          cases answer with
          | succeeded stdout => exact absurd rfl (hpost.2 stdout)
          | notFound => simp [readied, hcheck, hinit]
          | failed stderr => simp [readied, hcheck, hinit]

theorem getBackup_run (s : BackupEngine World) (id : String) :
    (getBackup out id).run s =
      match out.fetchOne, s.rows.find? fun r => r.id = id with
      | none, some row => .ok row s
      | _, _ => .error ("backup " ++ id ++ " not found") s := by
  cases hfetch : out.fetchOne with
  | some message =>
      simp only [getBackup, hfetch, EStateM.run_bind, EStateM.run_get]
      rfl
  | none =>
      simp only [getBackup, hfetch, EStateM.run_bind, EStateM.run_get]
      cases s.rows.find? fun r => r.id = id <;> rfl

theorem parentSnapshot_spec :
    Triple (At rows world texts) (parentSnapshot out req)
      (fun r s => At rows world texts s ∧ parentOf out req rows = some r)
      (fun _ s => At rows world texts s ∧ parentOf out req rows = none) := by
  rintro s ⟨rfl, rfl, rfl⟩
  cases hparent : req.parentId with
  | none =>
      simp only [parentSnapshot, parentOf, hparent]
      exact ⟨⟨rfl, rfl, rfl⟩, rfl⟩
  | some pid =>
      have hat : At s.rows s.world s.printed s := ⟨rfl, rfl, rfl⟩
      simp only [parentSnapshot, parentOf, hparent, EStateM.run_bind, getBackup_run]
      cases out.fetchOne with
      | some message => exact ⟨hat, rfl⟩
      | none =>
          cases s.rows.find? fun r => r.id = pid with
          | none => exact ⟨hat, rfl⟩
          | some row => exact ⟨hat, rfl⟩

theorem saveBackup_spec :
    Triple (At rows world texts) (saveBackup out (newBackup out req))
      (fun _ s => At (rows ++ [newBackup out req]) world texts s ∧ Inserts out rows)
      (fun _ s => At rows world texts s ∧ ¬ Inserts out rows) := by
  rintro s ⟨rfl, rfl, rfl⟩
  simp only [saveBackup, Inserts]
  cases out.insert with
  | some message => exact ⟨⟨rfl, rfl, rfl⟩, fun h => by cases h.1⟩
  | none =>
      simp only [EStateM.run_bind, EStateM.run_get]
      by_cases htaken : s.rows.any fun r => r.id = (newBackup out req).id
      · rw [if_pos htaken]
        obtain ⟨row, hrow, hid⟩ := List.any_eq_true.mp htaken
        exact ⟨⟨rfl, rfl, rfl⟩, fun h => h.2 row hrow (of_decide_eq_true hid)⟩
      · rw [if_neg htaken]
        refine ⟨⟨rfl, rfl, rfl⟩, trivial, ?_⟩
        intro row hrow hid
        exact htaken (List.any_eq_true.mpr ⟨row, hrow, decide_eq_true hid⟩)

theorem updateBackup_spec (b : Backup) :
    Triple (At rows world texts) (updateBackup out b)
      (fun _ s => At (rows.map (updated b)) world texts s ∧ out.update = none)
      (fun _ s => At rows world texts s ∧ out.update ≠ none) := by
  rintro s ⟨rfl, rfl, rfl⟩
  simp only [updateBackup]
  cases out.update with
  | some message => exact ⟨⟨rfl, rfl, rfl⟩, fun h => by cases h⟩
  | none => exact ⟨⟨rfl, rfl, rfl⟩, rfl⟩

theorem ignored_spec {P Q : BackupEngine World → Prop} {x : Action World Unit}
    (h : Triple P x (fun _ => Q) (fun _ => Q)) : Triple P (ignored x) (fun _ => Q) E := by
  intro s hs
  have hpost := h s hs
  simp only [ignored, EStateM.run] at hpost ⊢
  cases hrun : x s with
  | ok a s' =>
      rw [hrun] at hpost
      exact hpost
  | error e s' =>
      rw [hrun] at hpost
      exact hpost

theorem applyRetention_spec (repo pass vmId : String) (policy : RetentionPolicy) :
    Triple (At rows world texts) (ignored (applyRetention restic repo pass vmId policy))
      (fun _ => At rows (restic repo pass (.forget ("vm=" ++ vmId) (keepRules policy)) world).2
        texts) E := by
  apply ignored_spec
  refine Triple.bind ?_ fun _ => Triple.pure fun _ h => h
  apply (runRestic_spec repo pass _).conseq (fun _ h => h)
  · intro stdout s hpost
    simpa [printedBy] using hpost.1
  · intro e s hpost
    exact hpost.1

theorem led_of_readied {repo pass : String} {ready : World}
    (h : readied restic repo pass world = some ready) : Led restic repo pass world ready := by
  have hchecked : Led restic repo pass world (restic repo pass .snapshots world).2 :=
    .step .snapshots (fun _ _ h => by cases h) .refl
  have hmade : Led restic repo pass world
      (restic repo pass .init (restic repo pass .snapshots world).2).2 :=
    .step .init (fun _ _ h => by cases h) hchecked
  unfold readied at h
  split at h
  · cases h
  · next heq =>
      cases h
      rwa [heq] at hchecked
  · next heq =>
      split at h
      · next hinit =>
          cases h
          rwa [heq, hinit] at hmade
      · cases h

theorem led_of_uploads {stdout : String} {world' : World}
    (h : uploads restic out req rows world = some (stdout, world')) :
    Led restic (repoPath req.target) (repoPassword out req.target) world world' := by
  obtain ⟨ready, hready, h⟩ := Option.bind_eq_some_iff.mp h
  obtain ⟨parent, -, h⟩ := Option.bind_eq_some_iff.mp h
  have hled := (led_of_readied hready).step
    (.backup (tags req) parent (findVmDisk out req.vmId)) (fun _ _ hc => by cases hc)
  split at h
  · next heq =>
      cases h
      rwa [heq] at hled
  · cases h

section Upload

variable {ready : World} {parent : Option String}
  (hready : readied restic (repoPath req.target) (repoPassword out req.target) world = some ready)
  (hparent : parentOf out req (rows ++ [newBackup out req]) = some parent)

include hready hparent

theorem uploads_of_succeeded {stdout : String}
    (h : (restic (repoPath req.target) (repoPassword out req.target)
      (.backup (tags req) parent (findVmDisk out req.vmId)) ready).1 = .succeeded stdout) :
    uploads restic out req rows world = some (stdout,
      (restic (repoPath req.target) (repoPassword out req.target)
        (.backup (tags req) parent (findVmDisk out req.vmId)) ready).2) := by
  simp only [uploads, hready, hparent, Option.bind_some]
  split
  · next heq => simp only [heq, Ran.succeeded.injEq] at h ⊢; rw [h]
  · next hne => exact (hne stdout _ (Prod.ext h rfl)).elim

theorem uploads_of_not_succeeded
    (h : ∀ stdout, (restic (repoPath req.target) (repoPassword out req.target)
      (.backup (tags req) parent (findVmDisk out req.vmId)) ready).1 ≠ .succeeded stdout) :
    uploads restic out req rows world = none := by
  simp only [uploads, hready, hparent, Option.bind_some]
  split
  · next heq => exact absurd (congrArg Prod.fst heq) (h _)
  · rfl

end Upload

theorem backupVm_spec (restic : Restic World) (fromStr : String → Option Value) (out : Outside)
    (req : Request) :
    Triple (At rows world []) (backupVm restic fromStr out req)
      (fun _ => Outcome restic fromStr out req rows world)
      (fun _ => Outcome restic fromStr out req rows world) := by
  apply Triple.step (saveBackup_spec.imp_error fun _ s h => .refused h.2 h.1.rows h.1.world)
  intro _ hin
  apply Triple.step ((initRepoIfNeeded_spec _ _).imp_error fun _ s h =>
    .stuck hin (by simp [uploads, h.2.2]) h.1 h.2.1)
  intro _ hready
  obtain ⟨ready, hready⟩ := Option.isSome_iff_exists.mp hready
  rw [hready, Option.getD_some]
  have hled := led_of_readied hready
  apply Triple.step (parentSnapshot_spec.imp_error fun _ s h =>
    .stuck hin (by simp [uploads, hready, h.2]) h.1.rows (h.1.world ▸ hled))
  intro parent hparent
  apply Triple.bind ((runRestic_spec _ _ _).imp_error fun _ s h =>
    Outcome.stuck hin (uploads_of_not_succeeded hready hparent h.2) h.1.rows
      (h.1.world ▸ hled.step _ fun _ _ h => by cases h))
  intro stdout
  apply Triple.assume
  intro hstdout
  have hup := uploads_of_succeeded hready hparent hstdout
  apply Triple.bind (applyRetention_spec _ _ _ _)
  intro _
  apply Triple.step ((updateBackup_spec _).imp_error fun _ s h =>
    .sent hin stdout _ hup h.1.printed (by rw [if_neg h.2, h.1.rows]) h.1.world)
  intro _ hupdate
  apply Triple.pure
  intro s hat
  exact .sent hin stdout _ hup hat.printed (by rw [if_pos hupdate, hat.rows]) hat.world

theorem afterBackup_outcome (restic : Restic World) (fromStr : String → Option Value)
    (out : Outside) (req : Request) (s : BackupEngine World) :
    Outcome restic fromStr out req s.rows s.world (afterBackup restic fromStr out req s) := by
  have hpost := backupVm_spec restic fromStr out req
    { s with ran := [] } ⟨rfl, rfl, rfl⟩
  simp only [afterBackup]
  cases hrun : (backupVm restic fromStr out req).run { s with ran := [] } with
  | ok a s' =>
      rw [hrun] at hpost
      exact hpost
  | error e s' =>
      rw [hrun] at hpost
      exact hpost

end Specs

/-! ## Whether the row tells the truth -/

section

variable {fromStr : String → Option Value}

theorem lastSummary_eq_some {output : String} {v : Value}
    (h : lastSummary fromStr output = some v) :
    ∃ line ∈ lines output, fromStr line = some v ∧ isSummary v = true := by
  obtain ⟨line, hline, hv⟩ := List.exists_of_findSome?_eq_some h
  exact ⟨line, List.mem_reverse.mp hline, Option.filter_eq_some_iff.mp hv⟩

theorem lastSummary_eq_none {output : String} (h : lastSummary fromStr output = none)
    {line : String} (hline : line ∈ lines output) {v : Value} (hv : fromStr line = some v) :
    isSummary v = false := by
  have hnone := List.findSome?_eq_none_iff.mp h line (List.mem_reverse.mpr hline)
  rw [hv] at hnone
  simpa using Option.filter_eq_none_iff.mp hnone v rfl

end

section

variable (restic : Restic World) (fromStr : String → Option Value) (out : Outside) (req : Request)

/-- The output has a summary with this identifier, which is not empty. -/
def Confirms (stdout id : String) : Prop :=
  id ≠ "" ∧ ∃ line ∈ lines stdout, ∃ v, fromStr line = some v ∧ isSummary v = true ∧
    (v.index "snapshot_id").asStr = some id

structure RowTrue (texts : List String) (row : Backup) : Prop where
  settled : row.status = .completed ∨ row.status = .failed
  completed : row.status = .completed →
    ∃ id, row.resticId = some id ∧ ∃ stdout ∈ texts, Confirms fromStr stdout id
  failed : row.status = .failed → row.error.isSome

/-- What is promised of the row that a call has inserted. -/
def TellsTruth (s : BackupEngine World) : Prop :=
  let s' := afterBackup restic fromStr out req s
  ∀ row ∈ s'.rows, row.id = out.backupId → row ∉ s.rows → RowTrue fromStr s'.printed row

/-- The last summary gives an identifier that is not empty. -/
def Names (stdout : String) : Prop :=
  ∃ id, ((lastSummary fromStr stdout).bind fun v => (v.index "snapshot_id").asStr) = some id ∧
    id ≠ ""

theorem finished_true_iff (stdout : String) :
    RowTrue fromStr [stdout] (finished out req (parseResticOutput fromStr stdout)) ↔
      Names fromStr stdout := by
  constructor
  · intro h
    obtain ⟨id, hid, text, htext, hne, line, hline, v, hv, hsum, -⟩ := h.completed rfl
    rw [List.mem_singleton.mp htext] at hline
    simp only [finished, parseResticOutput, Option.some.injEq] at hid
    cases hlast : lastSummary fromStr stdout with
    | none =>
        rw [lastSummary_eq_none hlast hline hv] at hsum
        cases hsum
    | some w =>
        simp only [hlast] at hid
        refine ⟨id, ?_, hne⟩
        rw [hlast, Option.bind_some]
        cases hstr : (w.index "snapshot_id").asStr with
        | none =>
            rw [hstr] at hid
            exact absurd hid.symm hne
        | some text =>
            rw [hstr] at hid
            exact congrArg some hid
  · intro h
    obtain ⟨id, hid, hne⟩ := h
    obtain ⟨v, hlast, hstr⟩ := Option.bind_eq_some_iff.mp hid
    obtain ⟨line, hline, hv, hsum⟩ := lastSummary_eq_some hlast
    refine ⟨.inl rfl, ?_, fun hfailed => by cases hfailed⟩
    intro _
    refine ⟨id, ?_, stdout, List.mem_singleton_self stdout, hne, line, hline, v, hv, hsum, hstr⟩
    simp only [finished, parseResticOutput, hlast, hstr, Option.getD_some]

theorem newBackup_untrue (texts : List String) : ¬ RowTrue fromStr texts (newBackup out req) := by
  intro h
  rcases h.settled with hstatus | hstatus <;> cases hstatus

theorem updated_newBackup (sum : Summary) :
    updated (finished out req sum) (newBackup out req) = finished out req sum := by
  simp [updated, finished, newBackup]

theorem updated_other {rows : List Backup} (hin : Inserts out rows) (sum : Summary)
    {row : Backup} (hrow : row ∈ rows) : updated (finished out req sum) row = row :=
  if_neg (hin.2 row hrow)

/-- Given that the final update is made, the row tells the truth exactly when no step
between the insert and the update fails and the last summary names a snapshot. -/
theorem tellsTruth_iff (s : BackupEngine World) (hupdate : out.update = none) :
    TellsTruth restic fromStr out req s ↔
      (Inserts out s.rows → ∃ stdout world,
        uploads restic out req s.rows s.world = some (stdout, world) ∧ Names fromStr stdout) := by
  have hnew (hin : Inserts out s.rows) {row : Backup} (hid : row.id = out.backupId) :
      row ∉ s.rows := fun hrow => hin.2 row hrow hid
  simp only [TellsTruth]
  cases afterBackup_outcome restic fromStr out req s with
  | refused hno hrows _ =>
      rw [hrows]
      refine iff_of_true ?_ fun hin => absurd hin hno
      intro row hrow _ hout
      exact absurd hrow hout
  | stuck hin hno hrows _ =>
      rw [hrows, hno]
      refine iff_of_false ?_ ?_
      · intro htrue
        exact newBackup_untrue fromStr out req _
          (htrue _ (List.mem_append_right _ (List.mem_singleton_self _)) rfl (hnew hin rfl))
      · intro h
        obtain ⟨_, _, hup, -⟩ := h hin
        cases hup
  | sent hin stdout world' hup hprinted hrows _ =>
      rw [if_pos hupdate, List.map_append, List.map_singleton, updated_newBackup] at hrows
      rw [hrows, hprinted, hup]
      have hone := finished_true_iff fromStr out req stdout
      constructor
      · intro htrue _
        exact ⟨stdout, world', rfl, hone.mp
          (htrue _ (List.mem_append_right _ (List.mem_singleton_self _)) rfl (hnew hin rfl))⟩
      · intro h row hrow hid hout
        obtain ⟨_, _, heq, hnames⟩ := h hin
        cases heq
        rcases List.mem_append.mp hrow with hold | hlast
        · obtain ⟨before, hbefore, rfl⟩ := List.mem_map.mp hold
          rw [updated_other out req hin _ hbefore] at hout
          exact absurd hbefore hout
        · rw [List.mem_singleton.mp hlast]
          exact hone.mpr hnames

end

/-! ## Samples -/

def nightly : Request where
  vmId := "vm-1"
  vmName := "web"
  target := .localDir "/var/lib/caiman/backups"
  btype := .full
  parentId := none
  retention := ⟨none, some 7, none, none, none, none⟩
  createdBy := "admin"
  description := none

def quietNight : Outside where
  backupId := "b-1"
  stamp := "20250428-020000"
  startedAt := 0
  finishedAt := 60
  durationSecs := 60
  env := fun _ => none
  insert := none
  fetchOne := none
  update := none
  spawn := "No such file or directory (os error 2)"

def summaryLine : String :=
  "\x7b\"message_type\":\"summary\",\"snapshot_id\":\"7c1e\"\x7d"

def readSummary (line : String) : Option Value :=
  if line = summaryLine then
    some (.object [("message_type", .string "summary"), ("snapshot_id", .string "7c1e")])
  else none

def resticEnds (ended : Ran) : Restic Unit
  | _, _, .backup .., w => (ended, w)
  | _, _, _, w => (.succeeded "[]", w)

def emptyCatalog : BackupEngine Unit := ⟨[], (), []⟩

theorem nightly_true :
    TellsTruth (resticEnds (.succeeded summaryLine)) readSummary quietNight nightly
      emptyCatalog := by
  refine (tellsTruth_iff _ _ _ _ _ rfl).mpr ?_
  intro _
  refine ⟨summaryLine, (), rfl, "7c1e", ?_, by decide⟩
  decide +kernel

theorem nightly_untrue :
    ¬ TellsTruth (resticEnds (.failed "Fatal: unable to open repository")) readSummary quietNight
        nightly emptyCatalog ∧
      ¬ TellsTruth (resticEnds (.succeeded "")) readSummary quietNight nightly emptyCatalog := by
  constructor
  · intro h
    exact newBackup_untrue readSummary quietNight nightly _
      (h (newBackup quietNight nightly) (List.mem_singleton_self _) rfl (by simp [emptyCatalog]))
  · intro h
    have hrow : RowTrue readSummary [""]
        (finished quietNight nightly (parseResticOutput readSummary "")) :=
      h _ (List.mem_singleton_self _) rfl (by simp [emptyCatalog])
    obtain ⟨id, hid, -⟩ := (finished_true_iff readSummary quietNight nightly "").mp hrow
    cases hid

end BackupEngine

end Caiman.Bts
