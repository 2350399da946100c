import Caiman.Lib.Run
import Caiman.Bts.Backup

/-!
# Retention

Every backup ends with a `restic forget` for the VM. It takes snapshots out of the
repository; the catalog, where the rows of earlier backups refer to them, is not told.
-/

namespace Caiman.Bts

open Lib Lib.Json BackupEngine

/-! ## Repositories -/

structure ResticSnapshot where
  id : String
  repo : String
  tags : List String
  time : Nat
  /-- The policy of the backup that made it, which restic is not told. -/
  policy : RetentionPolicy
  deriving DecidableEq, Repr

/-- The snapshots there are, and those that were removed, with the time. -/
structure Repos where
  snapshots : List ResticSnapshot
  removed : List (ResticSnapshot × Nat)
  deriving DecidableEq, Repr

/-- `--tag` takes a list; the characters of a tag come in reverse. -/
def splitTags (tag : List Char) : List Char → List String
  | [] => [String.ofList tag.reverse]
  | ',' :: cs => String.ofList tag.reverse :: splitTags [] cs
  | c :: cs => splitTags (c :: tag) cs

/-- How restic keeps to its rules: those, the snapshots with the tag, and one of them. -/
abbrev Retains := List KeepRule → List ResticSnapshot → ResticSnapshot → Bool

namespace Repos

def tagged (w : Repos) (repo tag : String) : List ResticSnapshot :=
  w.snapshots.filter fun x => x.repo = repo ∧ ∀ t ∈ splitTags [] tag.toList, t ∈ x.tags

/-- The snapshots with the tag that no rule retains. -/
def victims (retains : Retains) (w : Repos) (repo tag : String) (keep : List KeepRule) :
    List ResticSnapshot :=
  (w.tagged repo tag).filter fun x => ! retains keep (w.tagged repo tag) x

def forget (retains : Retains) (w : Repos) (repo tag : String) (keep : List KeepRule)
    (now : Nat) : Repos :=
  let gone := w.victims retains repo tag keep
  { snapshots := w.snapshots.filter fun x => x ∉ gone
    removed := w.removed ++ gone.map fun x => (x, now) }

end Repos

/-- How the commands of one call end, the snapshot that its backup makes, and the clock. -/
structure Replies where
  check : Ran
  init : Ran
  backup : Ran
  made : Option String
  forget : Ran
  now : Nat
  deriving DecidableEq, Repr

def Ran.ok : Ran → Bool
  | .succeeded _ => true
  | _ => false

def resticIn (retains : Retains) (replies : Replies) (policy : RetentionPolicy) : Restic Repos
  | _, _, .snapshots, w => (replies.check, w)
  | _, _, .init, w => (replies.init, w)
  | repo, _, .backup tags _ _, w =>
      let made := replies.made.map fun id =>
        ⟨id, repo, splitTags [] tags.toList, replies.now, policy⟩
      (replies.backup, { w with snapshots := w.snapshots ++ made.toList })
  | repo, _, .forget tag keep, w =>
      (replies.forget,
        if replies.forget.ok then w.forget retains repo tag keep replies.now else w)

/-! ## Histories -/

structure Call where
  out : Outside
  req : Request
  replies : Replies

abbrev Catalog := BackupEngine Repos

section

variable (retains : Retains) (fromStr : String → Option Value)

def Call.restic (c : Call) : Restic Repos := resticIn retains c.replies c.req.retention

def backups : Machine Catalog Call Empty where
  step s c := (afterBackup (c.restic retains) fromStr c.out c.req s, [])

def noBackups : Catalog := ⟨[], ⟨[], []⟩, []⟩

/-- Younger than its policy keeps everything for. -/
def ResticSnapshot.Young (x : ResticSnapshot) (now : Nat) : Prop :=
  ∃ days, x.policy.keepWithinDays = some days ∧ now < x.time + days.toNat * 86400

def RefersTo (row : Backup) (x : ResticSnapshot) : Prop :=
  row.status = .completed ∧ row.resticId = some x.id

instance (row : Backup) (x : ResticSnapshot) : Decidable (RefersTo row x) :=
  inferInstanceAs (Decidable (_ ∧ _))

structure Consistent (s : Catalog) : Prop where
  old : ∀ r ∈ s.world.removed, ¬ r.1.Young r.2
  live : ∀ row ∈ s.rows, ∀ r ∈ s.world.removed, ¬ RefersTo row r.1

/-- When the call gets to its retention, the rules it has for restic retain each snapshot of
the VM that is young or has a completed row, its own included, which is not given the
identifier of one removed before. -/
def Spares (s : Catalog) (c : Call) : Prop :=
  Inserts c.out s.rows → ∀ stdout w,
    uploads (c.restic retains) c.out c.req s.rows s.world = some (stdout, w) →
    (c.replies.forget.ok → ∀ x ∈ w.victims retains (repoPath c.req.target) ("vm=" ++ c.req.vmId)
      (keepRules c.req.retention),
      ¬ x.Young c.replies.now ∧ (∀ row ∈ s.rows, ¬ RefersTo row x) ∧
        (c.out.update = none → x.id ≠ (parseResticOutput fromStr stdout).resticId)) ∧
    (c.out.update = none →
      ∀ r ∈ s.world.removed, r.1.id ≠ (parseResticOutput fromStr stdout).resticId)

end

section

variable {retains : Retains} {fromStr : String → Option Value}

theorem not_young_iff {x : ResticSnapshot} {now : Nat} : ¬ x.Young now ↔
    x.policy.keepWithinDays = none ∨
      ∃ days, x.policy.keepWithinDays = some days ∧ x.time + days.toNat * 86400 ≤ now := by
  unfold ResticSnapshot.Young
  cases x.policy.keepWithinDays with
  | none => simp
  | some days => simp

/-- What the age comes to: each snapshot of the VM is of a policy that has no `keep_within_days`, or
is past them, or is kept by the other rules, which are all that restic is given. -/
theorem victims_old_iff {w : Repos} {repo tag : String} {policy : RetentionPolicy} {now : Nat} :
    (∀ x ∈ w.victims retains repo tag (keepRules policy), ¬ x.Young now) ↔
      ∀ x ∈ w.tagged repo tag, x.policy.keepWithinDays = none ∨
        (∃ days, x.policy.keepWithinDays = some days ∧ x.time + days.toNat * 86400 ≤ now) ∨
        ∀ days, retains (keepRules { policy with keepWithinDays := days }) (w.tagged repo tag) x =
          true := by
  have hrules : ∀ days, keepRules { policy with keepWithinDays := days } = keepRules policy :=
    fun _ => rfl
  simp only [Repos.victims, List.mem_filter, Bool.not_eq_true', and_imp, not_young_iff, hrules,
    forall_const]
  refine forall₂_congr fun x _ => ?_
  cases retains (keepRules policy) (w.tagged repo tag) x with
  | false => simp
  | true => simp

theorem removed_of_led {c : Call} {repo pass : String} {w w' : Repos}
    (h : Led (c.restic retains) repo pass w w') : w'.removed = w.removed := by
  induction h with
  | refl => rfl
  | step cmd hcmd _ ih =>
      cases cmd with
      | snapshots => exact ih
      | init => exact ih
      | backup tags parent path => exact ih
      | forget tag keep => exact absurd rfl (hcmd tag keep)

theorem mem_removed_forget {w : Repos} {repo tag : String} {keep : List KeepRule} {now : Nat}
    {r : ResticSnapshot × Nat} :
    r ∈ (w.forget retains repo tag keep now).removed ↔
      r ∈ w.removed ∨ r.1 ∈ w.victims retains repo tag keep ∧ r.2 = now := by
  simp only [Repos.forget, List.mem_append, List.mem_map]
  refine or_congr_right ?_
  constructor
  · rintro ⟨x, hx, rfl⟩
    exact ⟨hx, rfl⟩
  · rintro ⟨hx, hnow⟩
    exact ⟨r.1, hx, Prod.ext rfl hnow.symm⟩

theorem mem_removed_sent_iff (retains : Retains) (c : Call) (w : Repos)
    (r : ResticSnapshot × Nat) :
    r ∈ (c.restic retains (repoPath c.req.target) (repoPassword c.out c.req.target)
        (.forget ("vm=" ++ c.req.vmId) (keepRules c.req.retention)) w).2.removed ↔
      r ∈ w.removed ∨ c.replies.forget.ok ∧
        r.1 ∈ w.victims retains (repoPath c.req.target) ("vm=" ++ c.req.vmId)
          (keepRules c.req.retention) ∧ r.2 = c.replies.now := by
  simp only [Call.restic, resticIn]
  by_cases hok : c.replies.forget.ok
  · rw [if_pos hok, mem_removed_forget]
    simp only [hok, true_and]
  · rw [if_neg hok]
    simp only [hok, Bool.false_eq_true, false_and, or_false]

theorem not_refersTo_newBackup (out : Outside) (req : Request) (x : ResticSnapshot) :
    ¬ RefersTo (newBackup out req) x := by
  rintro ⟨hstatus, -⟩
  cases hstatus

theorem refersTo_finished_iff (out : Outside) (req : Request) (sum : Summary)
    (x : ResticSnapshot) : RefersTo (finished out req sum) x ↔ x.id = sum.resticId := by
  constructor
  · rintro ⟨-, hid⟩
    exact (Option.some.inj hid).symm
  · intro hid
    exact ⟨rfl, congrArg some hid.symm⟩

theorem Consistent.append_new {s s' : Catalog} (hs : Consistent s) {out : Outside} {req : Request}
    (hrows : s'.rows = s.rows ++ [newBackup out req])
    (hremoved : s'.world.removed = s.world.removed) : Consistent s' := by
  refine ⟨hremoved ▸ hs.old, ?_⟩
  rw [hrows, hremoved]
  intro row hrow r hr
  rcases List.mem_append.mp hrow with hold | hnew
  · exact hs.live row hold r hr
  · rw [List.mem_singleton.mp hnew]
    exact not_refersTo_newBackup out req r.1

theorem refersTo_sent_iff {rows : List Backup} {out : Outside} (req : Request)
    (hin : Inserts out rows) (sum : Summary) (x : ResticSnapshot) :
    (∃ row ∈ (if out.update = none then
        (rows ++ [newBackup out req]).map (updated (finished out req sum))
        else rows ++ [newBackup out req]), RefersTo row x) ↔
      (∃ row ∈ rows, RefersTo row x) ∨ out.update = none ∧ x.id = sum.resticId := by
  by_cases hupdate : out.update = none
  · have hkept : rows.map (updated (finished out req sum)) = rows := by
      conv_rhs => rw [← List.map_id rows]
      exact List.map_congr_left fun _ hrow => updated_other out req hin sum hrow
    rw [if_pos hupdate, List.map_append, List.map_singleton, updated_newBackup, hkept]
    simp only [List.mem_append, List.mem_singleton, or_and_right, exists_or, exists_eq_left,
      refersTo_finished_iff, hupdate, true_and]
  · rw [if_neg hupdate]
    simp only [List.mem_append, List.mem_singleton, or_and_right, exists_or, exists_eq_left,
      not_refersTo_newBackup, hupdate, false_and]

theorem consistent_step_iff {s : Catalog} (hs : Consistent s) (c : Call) :
    Consistent ((backups retains fromStr).step s c).1 ↔ Spares retains fromStr s c := by
  simp only [backups]
  generalize hafter : afterBackup (c.restic retains) fromStr c.out c.req s = s'
  have houtcome := afterBackup_outcome (c.restic retains) fromStr c.out c.req s
  rw [hafter] at houtcome
  cases houtcome with
  | refused hno hrows hworld =>
      refine iff_of_true ⟨hworld ▸ hs.old, ?_⟩ fun hin => absurd hin hno
      rw [hrows, hworld]
      exact hs.live
  | stuck hin hno hrows hled =>
      refine iff_of_true (hs.append_new hrows (removed_of_led hled)) ?_
      intro _ stdout w hup
      rw [hno] at hup
      cases hup
  | sent hin stdout w hup _ hrows hworld =>
      have hremoved := mem_removed_sent_iff retains c w
      rw [← hworld, removed_of_led (led_of_uploads hup)] at hremoved
      have hrefers := refersTo_sent_iff c.req hin (parseResticOutput fromStr stdout)
      rw [← hrows] at hrefers
      constructor
      · intro hnext _ stdout' w' hup'
        cases hup.symm.trans hup'
        refine ⟨?_, ?_⟩
        · intro hok x hx
          have hgone := (hremoved (x, c.replies.now)).mpr (.inr ⟨hok, hx, rfl⟩)
          refine ⟨hnext.old _ hgone, ?_, ?_⟩
          · intro row hrow href
            obtain ⟨row', hrow', href'⟩ := (hrefers x).mpr (.inl ⟨row, hrow, href⟩)
            exact hnext.live row' hrow' _ hgone href'
          · intro hupdate hid
            obtain ⟨row', hrow', href'⟩ := (hrefers x).mpr (.inr ⟨hupdate, hid⟩)
            exact hnext.live row' hrow' _ hgone href'
        · intro hupdate r hr hid
          obtain ⟨row', hrow', href'⟩ := (hrefers r.1).mpr (.inr ⟨hupdate, hid⟩)
          exact hnext.live row' hrow' r ((hremoved r).mpr (.inl hr)) href'
      · intro hspares
        obtain ⟨hvictims, hfresh⟩ := hspares hin stdout w hup
        refine ⟨?_, ?_⟩
        · intro r hr
          rcases (hremoved r).mp hr with hold | ⟨hok, hx, hnow⟩
          · exact hs.old r hold
          · rw [hnow]
            exact (hvictims hok r.1 hx).1
        · intro row hrow r hr href
          have hone := (hrefers r.1).mp ⟨row, hrow, href⟩
          rcases (hremoved r).mp hr with hold | ⟨hok, hx, -⟩
          · rcases hone with ⟨row', hrow', href'⟩ | ⟨hupdate, hid⟩
            · exact hs.live row' hrow' r hold href'
            · exact hfresh hupdate r hold hid
          · obtain ⟨-, hrows', hown⟩ := hvictims hok r.1 hx
            rcases hone with ⟨row', hrow', href'⟩ | ⟨hupdate, hid⟩
            · exact hrows' row' hrow' href'
            · exact hown hupdate hid

end

/-- Over a whole history, no young snapshot is removed and no completed row refers to a
removed one exactly when every call spares them. -/
theorem consistent_iff_spares (retains : Retains) (fromStr : String → Option Value)
    (calls : List Call) :
    (∀ pre, pre <+: calls → Consistent ((backups retains fromStr).run noBackups pre).1) ↔
      (backups retains fromStr).AllSteps (Spares retains fromStr) noBackups calls := by
  have hfirst : Consistent noBackups :=
    ⟨fun _ hr => absurd hr List.not_mem_nil, fun _ hrow => absurd hrow List.not_mem_nil⟩
  exact (backups retains fromStr).prefixes_iff_allSteps (I := Consistent)
    (fun _ c hs => consistent_step_iff hs c) hfirst calls

/-! ## Samples -/

/-- The last snapshot of a day is kept, for as many days as the daily rule says. -/
def keepsDaily : Retains := fun keep group x => keep.any fun
  | .daily n =>
      let day (y : ResticSnapshot) := y.time / 86400
      group.all (fun y => day y ≠ day x ∨ y.time ≤ x.time) &&
        decide (((group.map day).filter fun d => day x < d).dedup.length < n.toNat)
  | _ => false

def keepOneDay : RetentionPolicy := ⟨none, some 1, none, none, none, some 30⟩

def callAt (backupId resticId stdout : String) (now : Nat) : Call where
  out := { quietNight with backupId := backupId, startedAt := now, finishedAt := now }
  req := { nightly with retention := keepOneDay }
  replies :=
    { check := .succeeded "[]"
      init := .succeeded ""
      backup := .succeeded stdout
      made := some resticId
      forget := .succeeded ""
      now := now }

def secondLine : String :=
  "\x7b\"message_type\":\"summary\",\"snapshot_id\":\"9d40\"\x7d"

def readBoth (line : String) : Option Value :=
  if line = secondLine then
    some (.object [("message_type", .string "summary"), ("snapshot_id", .string "9d40")])
  else readSummary line

/-- Two backups on one day, where one a day is to be kept and everything for a month. -/
def twice : List Call :=
  [callAt "b-1" "7c1e" summaryLine 3600, callAt "b-2" "9d40" secondLine 7200]

theorem twice_inconsistent :
    ¬ ∀ pre, pre <+: twice →
      Consistent ((backups keepsDaily readBoth).run noBackups pre).1 := by
  intro h
  obtain ⟨row, hrow, r, hr, href⟩ :
      ∃ row ∈ ((backups keepsDaily readBoth).run noBackups twice).1.rows,
        ∃ r ∈ ((backups keepsDaily readBoth).run noBackups twice).1.world.removed,
          RefersTo row r.1 := by
    decide +kernel
  exact (h twice List.prefix_rfl).live row hrow r hr href

end Caiman.Bts
