import Caiman.Bts.Catalog

/-!
# What a snapshot is of

The disk of the VM is put on record when a snapshot is taken, and set against what a restore
of the snapshot reads later, while the VM goes on writing. The image that the snapshot's row
names is the one that these writes go to.
-/

namespace Caiman.Bts

open Lib Lib.Overlay

namespace SnapshotHost

variable {Sector Data : Type}

/-- A host, with a record of what its snapshots were taken of. -/
structure Watched (Sector Data : Type) where
  host : SnapshotHost Sector Data
  /-- The files, and the image of the VM, when a snapshot was taken. -/
  taken : String → Option (Files String Sector Data × String)
  /-- The backing file of each new overlay, and the image of the VM at that moment. -/
  overlays : List (Option String × String)

inductive VmAction (Sector Data : Type)
  | catalog (a : SnapshotAction)
  | write (vmId : String) (x : Sector) (v : Data)

def guestWrite [DecidableEq Sector] (s : SnapshotHost Sector Data) (vmId : String) (x : Sector)
    (v : Data) : SnapshotHost Sector Data :=
  { s with files := write s.files (s.guests vmId).active x v }

section Recording

variable (out : TakeAnswers) (req : TakeRequest) (s : Watched Sector Data)

/-- The disk of the VM that a snapshot is of. -/
def noteTaken : String → Option (Files String Sector Data × String) :=
  match (takeSnapshot out req).run s.host with
  | .ok snap _ =>
      Function.update s.taken snap.id (some (s.host.files, (s.host.guests req.vmId).active))
  | .error _ _ => s.taken

def noteOverlay (files : Files String Sector Data) : List (Option String × String) :=
  match files (snapPath out req) with
  | some img => s.overlays ++ [(img.backing, (s.host.guests req.vmId).active)]
  | none => s.overlays

def recordTake : Watched Sector Data :=
  let next := left (takeSnapshot out req) s.host
  { host := next, taken := noteTaken out req s, overlays := noteOverlay out req s next.files }

end Recording

def history [DecidableEq Sector] : Machine (Watched Sector Data) (VmAction Sector Data) Empty where
  step s
    | .catalog (.take out req) => (recordTake out req s, [])
    | .catalog a => ({ s with host := (catalog.step s.host a).1 }, [])
    | .write vmId x v => ({ s with host := guestWrite s.host vmId x v }, [])

def FreshNames (s : Watched Sector Data) : VmAction Sector Data → Prop
  | .catalog a => Fresh s.host a
  | .write .. => True

instance (s : Watched Sector Data) : (a : VmAction Sector Data) → Decidable (FreshNames s a)
  | .catalog a => inferInstanceAs (Decidable (Fresh s.host a))
  | .write .. => isTrue trivial

variable [Zero Data]

/-- The images of `build_chain`, over what the first of them is laid over, read as the disk. -/
def Restores (s : SnapshotHost Sector Data) (r : SnapshotRow) (disk : Sector → Data) : Prop :=
  ∃ fuel chain below, buildChain s.rows fuel r = some (.ok chain) ∧
    let paths := chain.reverse.map (fun p => p.imagePath) ++ below
    Chain s.files (some r.imagePath) paths ∧ ∀ x, content s.files paths x = disk x

structure Immutable (s : Watched Sector Data) : Prop where
  kept : ∀ r ∈ s.host.rows, ∃ files active ps, s.taken r.id = some (files, active) ∧
    Chain files (some active) ps ∧ Restores s.host r (content files ps)
  backs : ∀ o ∈ s.overlays, o.1 = some o.2

def Stays (out : Answers) (s : SnapshotHost Sector Data) (gone : String) (r : SnapshotRow) :
    Prop :=
  r.id = gone → ¬ (SnapshotEngine.CanMerge out (view s) gone ∧ out.execute = .ok ())

def commits (out : Answers) (s : SnapshotHost Sector Data) (gone : String) : List String :=
  SnapshotEngine.commitsOf out ((view s).children gone)

/-- What a committed image holds is what every snapshot reads that reads it through the image
that the commits go to. -/
def CommitsAgree (out : Answers) (s : SnapshotHost Sector Data) (gone path : String) : Prop :=
  ∀ c ∈ commits out s gone, ∀ x v, held s.files c x = some v →
    ∀ r ∈ s.rows, Stays out s gone r → ∀ above below,
      Chain s.files (some r.imagePath) (above ++ path :: below) →
        (∃ p ∈ above, p ∉ commits out s gone ∧ (held s.files p x).isSome) ∨
          content s.files (above ++ path :: below) x = v

/-- An overlay goes over the image that the VM writes to; a write changes nothing that a
snapshot reads; a delete removes no image that another snapshot or a row that stays needs,
and its commits change nothing that is read. -/
def Spares (s : Watched Sector Data) : VmAction Sector Data → Prop
  | .catalog (.take out req) =>
      (Prepared out req s.host → created out req s.host = true →
        parentPath out req s.host = (s.host.guests req.vmId).active) ∧
      (Completes out req s.host →
        ∃ ps, Chain s.host.files (some (s.host.guests req.vmId).active) ps)
  | .catalog (.sealSnapshot ..) => True
  | .catalog (.delete out gone) =>
      ∀ snap, SnapshotEngine.Finds out (view s.host) gone snap →
        if SnapshotEngine.CanMerge out (view s.host) gone ∧ out.removeFile = .ok () then
          out.execute = .ok () ∧ ∀ r ∈ s.host.rows, r.id ≠ gone →
            ∀ qs, Chain s.host.files (some r.imagePath) qs → snap.imagePath ∉ qs
        else CommitsAgree out s.host gone snap.imagePath
  | .write vmId x v =>
      ∀ r ∈ s.host.rows, ∀ above below,
        Chain s.host.files (some r.imagePath)
          (above ++ (s.host.guests vmId).active :: below) →
        (∃ q ∈ above, (held s.host.files q x).isSome) ∨
          content s.host.files ((s.host.guests vmId).active :: below) x = v

/-! ## What the catalog and the files have to do with each other -/

def Reads (s : Watched Sector Data) (r : SnapshotRow) : Prop :=
  ∃ files active ps qs, s.taken r.id = some (files, active) ∧ Chain files (some active) ps ∧
    Chain s.host.files (some r.imagePath) qs ∧ ∀ x, content s.host.files qs x = content files ps x

structure Faithful (s : Watched Sector Data) : Prop where
  ids : (s.host.rows.map fun r => r.id).Nodup
  paths : (s.host.rows.map fun r => r.imagePath).Nodup
  laid : ∀ r ∈ s.host.rows, LaidOver s.host r
  reads : ∀ r ∈ s.host.rows, Reads s r
  backs : ∀ o ∈ s.overlays, o.1 = some o.2

section

omit [Zero Data]

variable {s : SnapshotHost Sector Data} {r : SnapshotRow} {qs : List String}

theorem ancestors_of_chain (hlaid : ∀ r ∈ s.rows, LaidOver s r) (hr : r ∈ s.rows)
    (h : Chain s.files (some r.imagePath) qs) :
    ∃ as below, Ancestors s.rows r as ∧ qs = (r :: as).map (fun p => p.imagePath) ++ below := by
  induction qs generalizing r with
  | nil => cases h
  | cons path rest ih =>
      cases h with
      | cons exist below =>
          cases hparent : r.parentId with
          | none => exact ⟨[], rest, .root hparent, rfl⟩
          | some parentId =>
              obtain ⟨p, hp, hid, hbacking⟩ := hlaid r hr parentId hparent
              rw [hbacking] at below
              obtain ⟨as, tail, hancestors, hpaths⟩ := ih hp below
              exact ⟨p :: as, tail, .step hp (hid ▸ hparent) hancestors, by rw [hpaths]; rfl⟩

end

theorem restores_iff {s : SnapshotHost Sector Data} {r : SnapshotRow} {disk : Sector → Data}
    (hids : (s.rows.map fun r => r.id).Nodup) (hlaid : ∀ r ∈ s.rows, LaidOver s r)
    (hr : r ∈ s.rows) :
    Restores s r disk ↔
      ∃ qs, Chain s.files (some r.imagePath) qs ∧ ∀ x, content s.files qs x = disk x := by
  constructor
  · rintro ⟨fuel, chain, below, -, hchain, hreads⟩
    exact ⟨_, hchain, hreads⟩
  · rintro ⟨qs, hchain, hreads⟩
    obtain ⟨as, below, hancestors, rfl⟩ := ancestors_of_chain hlaid hr hchain
    refine ⟨as.length, as.reverse ++ [r], below, ?_, ?_⟩
    · exact buildChainLoop_eq hids hancestors (Nat.le_refl _) [r]
    · simpa using ⟨hchain, hreads⟩

theorem Faithful.immutable {s : Watched Sector Data} (hs : Faithful s) : Immutable s := by
  refine ⟨?_, hs.backs⟩
  intro r hr
  obtain ⟨files, active, ps, qs, htaken, hps, hqs, hreads⟩ := hs.reads r hr
  exact ⟨files, active, ps, htaken, hps, (restores_iff hs.ids hs.laid hr).mpr ⟨qs, hqs, hreads⟩⟩

theorem Immutable.reads {s : Watched Sector Data} (h : Immutable s) {r : SnapshotRow}
    (hr : r ∈ s.host.rows) : Reads s r := by
  obtain ⟨files, active, ps, htaken, hps, fuel, chain, below, -, hchain, hreads⟩ := h.kept r hr
  exact ⟨files, active, ps, _, htaken, hps, hchain, hreads⟩

/-! ## Rows from one state to the next -/

def ReadsAlike (files files' : Files String Sector Data) (path : String) : Prop :=
  ∀ qs, Chain files (some path) qs → ∀ x, content files' qs x = content files qs x

def KeepsChains (files files' : Files String Sector Data) (path : String) : Prop :=
  ∀ qs, Chain files (some path) qs → Chain files' (some path) qs

/-- A row of the state before that a row of the state after is the same snapshot as. -/
structure Follows (s s' : Watched Sector Data) (r r' : SnapshotRow) : Prop where
  id : r'.id = r.id
  imagePath : r'.imagePath = r.imagePath
  taken : s'.taken r.id = s.taken r.id
  parent : ∀ parentId, r'.parentId = some parentId → r.parentId = some parentId ∧
    ∀ p ∈ s.host.rows, p.id = parentId →
      ∃ p' ∈ s'.host.rows, p'.id = p.id ∧ p'.imagePath = p.imagePath
  chains : KeepsChains s.host.files s'.host.files r.imagePath

section

variable {s s' : Watched Sector Data} {r r' : SnapshotRow}

theorem Faithful.exist (hs : Faithful s) (hr : r ∈ s.host.rows) :
    (s.host.files r.imagePath).isSome := by
  obtain ⟨-, -, -, qs, -, -, hqs, -⟩ := hs.reads r hr
  cases hqs with
  | cons exist _ => exact exist

theorem Faithful.chain_of_parent (hs : Faithful s) (hr : r ∈ s.host.rows) {parentId : String}
    (hparent : r.parentId = some parentId) :
    ∃ p ∈ s.host.rows, p.id = parentId ∧
      ∃ rest, Chain s.host.files (some r.imagePath) (r.imagePath :: p.imagePath :: rest) := by
  obtain ⟨files, active, ps, qs, -, -, hqs, -⟩ := hs.reads r hr
  obtain ⟨p, hp, hid, hbacking⟩ := hs.laid r hr parentId hparent
  refine ⟨p, hp, hid, ?_⟩
  cases hqs with
  | cons exist below =>
      rw [hbacking] at below
      cases below with
      | @cons _ rest exist' below' =>
          refine ⟨rest, .cons exist ?_⟩
          rw [hbacking]
          exact .cons exist' below'

theorem Follows.laid (h : Follows s s' r r') (hs : Faithful s) (hr : r ∈ s.host.rows) :
    LaidOver s'.host r' := by
  intro parentId hparent
  obtain ⟨hbefore, hparents⟩ := h.parent parentId hparent
  obtain ⟨p, hp, hid, rest, hchain⟩ := hs.chain_of_parent hr hbefore
  obtain ⟨p', hp', hid', hpath'⟩ := hparents p hp hid
  refine ⟨p', hp', hid'.trans hid, ?_⟩
  rw [h.imagePath, hpath']
  exact (h.chains _ hchain).backing_eq

theorem Follows.reads (h : Follows s s' r r') (hs : Faithful s) (hr : r ∈ s.host.rows)
    (halike : ReadsAlike s.host.files s'.host.files r.imagePath) : Reads s' r' := by
  obtain ⟨files, active, ps, qs, htaken, hps, hqs, hreads⟩ := hs.reads r hr
  refine ⟨files, active, ps, qs, ?_, hps, ?_, ?_⟩
  · rw [h.id, h.taken, htaken]
  · rw [h.imagePath]
    exact h.chains qs hqs
  · intro x
    rw [halike qs hqs, hreads]

theorem Follows.alike (h : Follows s s' r r') (hbefore : Reads s r) (hafter : Reads s' r') :
    ReadsAlike s.host.files s'.host.files r.imagePath := by
  obtain ⟨files, active, ps, qs, htaken, hps, hqs, hreads⟩ := hbefore
  obtain ⟨files', active', ps', qs', htaken', hps', hqs', hreads'⟩ := hafter
  rw [h.id, h.taken, htaken] at htaken'
  cases htaken'
  cases hps'.unique hps
  rw [h.imagePath] at hqs'
  cases hqs'.unique (h.chains qs hqs)
  intro os hos x
  cases hos.unique hqs
  rw [hreads', hreads]

theorem Faithful.of_follows (hs : Faithful s) (hids : (s'.host.rows.map fun r => r.id).Nodup)
    (hpaths : (s'.host.rows.map fun r => r.imagePath).Nodup) (hoverlays : s'.overlays = s.overlays)
    (hrows : ∀ r' ∈ s'.host.rows, ∃ r ∈ s.host.rows, Follows s s' r r' ∧
      ReadsAlike s.host.files s'.host.files r.imagePath) : Faithful s' := by
  refine ⟨hids, hpaths, ?_, ?_, by rw [hoverlays]; exact hs.backs⟩
  · intro r' hr'
    obtain ⟨r, hr, hfollows, -⟩ := hrows r' hr'
    exact hfollows.laid hs hr
  · intro r' hr'
    obtain ⟨r, hr, hfollows, halike⟩ := hrows r' hr'
    exact hfollows.reads hs hr halike

end

theorem kept_of_frame {files files' : Files String Sector Data} {path : String} (gone : String)
    (hsame : ∀ p, p ≠ gone → files' p = files p)
    (hnot : ∀ qs, Chain files (some path) qs → gone ∉ qs) :
    KeepsChains files files' path ∧ ReadsAlike files files' path := by
  have hframe (qs : List String) (hqs : Chain files (some path) qs) :
      ∀ p ∈ qs, files' p = files p := by
    intro p hp
    apply hsame
    rintro rfl
    exact hnot qs hqs hp
  constructor
  · intro qs hqs
    exact hqs.frame (hframe qs hqs)
  · intro qs hqs x
    apply content_congr
    intro p hp
    rw [held, held, hframe qs hqs p hp]

/-! ### Taking -/

section

omit [Zero Data]

variable {s s' : Watched Sector Data}

theorem Follows.of_mem {r : SnapshotRow} (hrows : ∀ p ∈ s.host.rows, p ∈ s'.host.rows)
    (htaken : s'.taken r.id = s.taken r.id)
    (hchains : KeepsChains s.host.files s'.host.files r.imagePath) : Follows s s' r r :=
  ⟨rfl, rfl, htaken, fun _ h => ⟨h, fun p hp _ => ⟨p, hrows p hp, rfl, rfl⟩⟩, hchains⟩

theorem not_mem_of_fresh {files : Files String Sector Data} {path : String} {o : Option String}
    {qs : List String} (hfresh : (files path).isNone) (hqs : Chain files o qs) : path ∉ qs :=
  fun hmem => ne_of_fresh hfresh (hqs.isSome hmem) rfl

theorem Stops.files_eq {out : TakeAnswers} {req : TakeRequest} {s s' : SnapshotHost Sector Data}
    (h : Stops out req s s') :
    (¬ Prepared out req s ∧ s'.files = s.files) ∨
      Prepared out req s ∧ s'.files = (laid out req s).files := by
  cases h with
  | unprepared h => exact .inl ⟨h, rfl⟩
  | unstarted hprep h =>
      refine .inr ⟨hprep, ?_⟩
      have hcreated : created out req s = false :=
        Bool.eq_false_iff.mpr fun hcreated => h (started_of_created hcreated)
      rw [begun_files, laid_files, hcreated, if_neg Bool.false_ne_true]
  | unresumed hprep _ _ => exact .inr ⟨hprep, rfl⟩
  | uncreated hprep _ _ _ => exact .inr ⟨hprep, ended_files⟩
  | unredirected hprep _ _ _ => exact .inr ⟨hprep, ended_files⟩
  | unsaved hprep _ _ _ _ => exact .inr ⟨hprep, switched_files⟩

theorem take_cases (out : TakeAnswers) (req : TakeRequest) (s : Watched Sector Data) :
    (∃ snap, Takes out req s.host snap (left (takeSnapshot out req) s.host) ∧
      noteTaken out req s = Function.update s.taken snap.id
        (some (s.host.files, (s.host.guests req.vmId).active))) ∨
    ¬ Completes out req s.host ∧ Stops out req s.host (left (takeSnapshot out req) s.host) ∧
      noteTaken out req s = s.taken := by
  have hpost := takeSnapshot_spec out req s.host s.host rfl
  unfold left noteTaken
  cases hrun : (takeSnapshot out req).run s.host with
  | ok snap s' =>
      rw [hrun] at hpost
      exact .inl ⟨snap, hpost, rfl⟩
  | error e s' =>
      rw [hrun] at hpost
      exact .inr ⟨Stops.not_completes hpost, hpost, rfl⟩

theorem take_files (out : TakeAnswers) (req : TakeRequest) (s : SnapshotHost Sector Data) :
    (¬ Prepared out req s ∧ (left (takeSnapshot out req) s).files = s.files) ∨
      Prepared out req s ∧ (left (takeSnapshot out req) s).files = (laid out req s).files := by
  rcases taken_or_stopped out req s with ⟨snap, htakes⟩ | ⟨-, hstops⟩
  · exact .inr ⟨htakes.prepared, htakes.files.trans switched_files⟩
  · exact hstops.files_eq

theorem take_files_of_ne {out : TakeAnswers} {req : TakeRequest} {s : SnapshotHost Sector Data}
    {path : String} (hne : path ≠ snapPath out req) :
    (left (takeSnapshot out req) s).files path = s.files path := by
  rcases take_files out req s with ⟨-, hfiles⟩ | ⟨-, hfiles⟩
  · rw [hfiles]
  · rw [hfiles, laid_files_of_ne hne]

theorem overlay_cases {out : TakeAnswers} {req : TakeRequest} {s : Watched Sector Data}
    (hfresh : (s.host.files (snapPath out req)).isNone) :
    (Prepared out req s.host ∧ created out req s.host = true ∧
      noteOverlay out req s (left (takeSnapshot out req) s.host).files =
        s.overlays ++ [(some (parentPath out req s.host), (s.host.guests req.vmId).active)]) ∨
    ¬ (Prepared out req s.host ∧ created out req s.host = true) ∧
      noteOverlay out req s (left (takeSnapshot out req) s.host).files = s.overlays := by
  have hnone := Option.isNone_iff_eq_none.mp hfresh
  rcases take_files out req s.host with ⟨hno, hfiles⟩ | ⟨hprep, hfiles⟩
  · exact .inr ⟨fun h => hno h.1, by rw [noteOverlay, hfiles, hnone]⟩
  · cases hcreated : created out req s.host with
    | true =>
        refine .inl ⟨hprep, rfl, ?_⟩
        rw [noteOverlay, hfiles, laid_files, if_pos hcreated, Function.update_self]
    | false =>
        refine .inr ⟨fun h => Bool.false_ne_true h.2, ?_⟩
        rw [noteOverlay, hfiles, laid_files, hcreated, if_neg Bool.false_ne_true, hnone]

end

theorem Takes.reads {out : TakeAnswers} {req : TakeRequest} {s s' : Watched Sector Data}
    {snap : SnapshotRow} (h : Takes out req s.host snap s'.host)
    (hfresh : (s.host.files (snapPath out req)).isNone)
    (htaken : s'.taken snap.id = some (s.host.files, (s.host.guests req.vmId).active))
    (hspares : Spares s (.catalog (.take out req))) : Reads s' snap := by
  obtain ⟨ps, hps⟩ := hspares.2 h.toCompletes
  have hnew : s'.host.files snap.imagePath =
      some ⟨some (s.host.guests req.vmId).active, fun _ => none⟩ := by
    rw [h.new_file, hspares.1 h.prepared h.created]
  have hkept : ∀ p ∈ ps, s'.host.files p = s.host.files p := by
    intro p hp
    rw [h.files_eq]
    apply Function.update_of_ne
    rintro rfl
    exact not_mem_of_fresh hfresh hps hp
  refine ⟨s.host.files, _, ps, snap.imagePath :: ps, htaken, hps, .cons ?_ ?_, ?_⟩
  · rw [hnew]
    rfl
  · rw [backing, hnew]
    exact hps.frame hkept
  · intro x
    rw [content_cons, held, hnew]
    apply content_congr
    intro p hp
    rw [held, held, hkept p hp]

theorem kept_of_take {s : Watched Sector Data} {out : TakeAnswers} {req : TakeRequest}
    (hfresh : (s.host.files (snapPath out req)).isNone) (path : String) :
    KeepsChains s.host.files (recordTake out req s).host.files path ∧
      ReadsAlike s.host.files (recordTake out req s).host.files path :=
  kept_of_frame _ (fun _ hne => take_files_of_ne hne) fun _ hqs => not_mem_of_fresh hfresh hqs

theorem follows_take {s : Watched Sector Data} {out : TakeAnswers} {req : TakeRequest}
    (hfresh : (s.host.files (snapPath out req)).isNone) {r : SnapshotRow}
    (hr : r ∈ s.host.rows) : Follows s (recordTake out req s) r r := by
  rcases take_cases out req s with ⟨snap, htakes, htaken⟩ | ⟨-, hstops, htaken⟩
  · refine .of_mem (fun p hp => htakes.mem_rows.mpr (.inl hp)) ?_ (kept_of_take hfresh _).1
    have hne : r.id ≠ snap.id := by
      rw [htakes.id_eq]
      exact htakes.saved.fresh r hr
    simp only [recordTake, htaken, Function.update_of_ne hne]
  · refine .of_mem (fun p hp => ?_) (by simp only [recordTake, htaken]) (kept_of_take hfresh _).1
    simp only [recordTake, hstops.kept.1]
    exact hp

theorem Faithful.take {s : Watched Sector Data} (hs : Faithful s) {out : TakeAnswers}
    {req : TakeRequest} (hfresh : (s.host.files (snapPath out req)).isNone)
    (hspares : Spares s (.catalog (.take out req))) :
    Faithful (recordTake out req s) := by
  have hlaid (r : SnapshotRow) (hr : r ∈ s.host.rows) : LaidOver (recordTake out req s).host r :=
    (follows_take hfresh hr).laid hs hr
  have hreads (r : SnapshotRow) (hr : r ∈ s.host.rows) : Reads (recordTake out req s) r :=
    (follows_take hfresh hr).reads hs hr (kept_of_take hfresh _).2
  have hbacks : ∀ o ∈ (recordTake out req s).overlays, o.1 = some o.2 := by
    intro o ho
    simp only [recordTake] at ho
    rcases overlay_cases hfresh with ⟨hprep, hcreated, heq⟩ | ⟨-, heq⟩
    · rw [heq] at ho
      rcases List.mem_append.mp ho with ho | ho
      · exact hs.backs o ho
      · rw [List.mem_singleton.mp ho, hspares.1 hprep hcreated]
    · rw [heq] at ho
      exact hs.backs o ho
  rcases take_cases out req s with ⟨snap, htakes, htaken⟩ | ⟨-, hstops, htaken⟩
  · refine ⟨htakes.ids hs.ids, htakes.paths hs.paths (fun r hr => hs.exist hr) hfresh, ?_, ?_,
      hbacks⟩
    · intro r hr
      rcases htakes.mem_rows.mp hr with hr | rfl
      · exact hlaid r hr
      · exact htakes.laidOver
    · intro r hr
      rcases htakes.mem_rows.mp hr with hr | rfl
      · exact hreads r hr
      · exact htakes.reads hfresh (by simp only [recordTake, htaken, Function.update_self]) hspares
  · have hrows : (recordTake out req s).host.rows = s.host.rows := hstops.kept.1
    refine ⟨hrows ▸ hs.ids, hrows ▸ hs.paths, ?_, ?_, hbacks⟩
    · intro r hr
      exact hlaid r (hrows ▸ hr)
    · intro r hr
      exact hreads r (hrows ▸ hr)

/-! ### Seals, deletes and writes -/

section

omit [Zero Data]

theorem Follows.of_unlink {s s' : Watched Sector Data} {r : SnapshotRow} {gone : String}
    (hrows : s'.host.rows = deleteRows s.host.rows gone) (htaken : s'.taken = s.taken)
    (hchains : KeepsChains s.host.files s'.host.files r.imagePath) :
    Follows s s' r (unlinkRow gone r) := by
  refine ⟨unlinkRow_id gone r, unlinkRow_imagePath gone r, by rw [htaken], ?_, hchains⟩
  intro parentId hparent
  obtain ⟨hbefore, hother⟩ := unlinkRow_parentId hparent
  refine ⟨hbefore, ?_⟩
  rintro p hp rfl
  refine ⟨unlinkRow gone p, ?_, unlinkRow_id gone p, unlinkRow_imagePath gone p⟩
  rw [hrows]
  exact mem_deleteRows hp hother

theorem mem_commits {s : SnapshotHost Sector Data} {out : Answers} {gone path : String}
    (h : path ∈ commits out s gone) :
    ∃ c ∈ s.rows, c.parentId = some gone ∧ c.imagePath = path := by
  obtain ⟨c, hc, rfl⟩ := List.mem_map.mp h
  have hchild := (List.takeWhile_sublist _).subset (List.mem_of_mem_filter hc)
  obtain ⟨r, hr, hparent, rfl⟩ := mem_view_children.mp hchild
  exact ⟨r, hr, hparent, rfl⟩

theorem merge_keepsChains (out : Answers) (s : SnapshotHost Sector Data) (gone path : String) :
    KeepsChains s.files (SnapshotEngine.merge out (view s) gone).2 path :=
  fun _ hqs => hqs.of_map_backing (map_backing_merge out s gone)

end

theorem Faithful.sealed {s : Watched Sector Data} (hs : Faithful s) {id : String}
    {s' : SnapshotHost Sector Data} (h : Sealed s.host id s') :
    Faithful { s with host := s' } := by
  rcases h with rfl | rfl
  · exact hs
  · refine hs.of_follows ?_ ?_ rfl ?_
    · simpa [List.map_map, Function.comp_def] using hs.ids
    · simpa [List.map_map, Function.comp_def] using hs.paths
    · intro r' hr'
      obtain ⟨r, hr, rfl⟩ := List.mem_map.mp hr'
      refine ⟨r, hr, ⟨sealRow_id id r, sealRow_imagePath id r, rfl, ?_, fun _ h => h⟩,
        fun _ _ _ => rfl⟩
      intro parentId hparent
      rw [sealRow_parentId] at hparent
      refine ⟨hparent, fun p hp _ => ?_⟩
      exact ⟨_, List.mem_map_of_mem hp, sealRow_id id p, sealRow_imagePath id p⟩

section

variable {s : Watched Sector Data} {s' : SnapshotHost Sector Data} {out : Answers} {gone : String}

theorem Faithful.of_files (hs : Faithful s) (hrows : s'.rows = s.host.rows)
    (hkept : ∀ r ∈ s.host.rows, KeepsChains s.host.files s'.files r.imagePath ∧
      ReadsAlike s.host.files s'.files r.imagePath) : Faithful { s with host := s' } := by
  refine hs.of_follows ?_ ?_ rfl ?_
  · rw [hrows]
    exact hs.ids
  · rw [hrows]
    exact hs.paths
  · intro r hr
    rw [hrows] at hr
    obtain ⟨hchains, halike⟩ := hkept r hr
    exact ⟨r, hr, .of_mem (fun p hp => hrows ▸ hp) rfl hchains, halike⟩

theorem Faithful.of_deleteRows (hs : Faithful s) (hrows : s'.rows = deleteRows s.host.rows gone)
    (hkept : ∀ r ∈ s.host.rows, r.id ≠ gone → KeepsChains s.host.files s'.files r.imagePath ∧
      ReadsAlike s.host.files s'.files r.imagePath) : Faithful { s with host := s' } := by
  refine hs.of_follows ?_ ?_ rfl ?_
  · rw [hrows, deleteRows, List.map_map]
    simpa [Function.comp_def] using hs.ids.sublist (List.filter_sublist.map _)
  · rw [hrows, deleteRows, List.map_map]
    simpa [Function.comp_def] using hs.paths.sublist (List.filter_sublist.map _)
  · intro r' hr'
    rw [hrows] at hr'
    obtain ⟨r, hr, rfl⟩ := List.mem_map.mp hr'
    obtain ⟨hr, hne⟩ := List.mem_filter.mp hr
    obtain ⟨hchains, halike⟩ := hkept r hr (of_decide_eq_true hne)
    exact ⟨r, hr, .of_unlink hrows rfl hchains, halike⟩

/-- A snapshot whose image is in no other snapshot's chain has no children. -/
theorem Faithful.no_children (hs : Faithful s) {snap : Snapshot}
    (hf : SnapshotEngine.Finds out (view s.host) gone snap)
    (hnot : ∀ r ∈ s.host.rows, r.id ≠ gone →
      ∀ qs, Chain s.host.files (some r.imagePath) qs → snap.imagePath ∉ qs) :
    (view s.host).children gone = [] := by
  rw [List.eq_nil_iff_forall_not_mem]
  intro c hc
  obtain ⟨r, hr, hparent, -⟩ := mem_view_children.mp hc
  obtain ⟨q, hq, hid, rfl⟩ := row_of_finds hf
  obtain ⟨p, hp, hpid, rest, hchain⟩ := hs.chain_of_parent hr hparent
  cases eq_of_id hs.ids hp hq (hpid.trans hid.symm)
  by_cases hself : r.id = gone
  · cases eq_of_id hs.ids hr hp (hself.trans hpid.symm)
    exact hchain.not_mem_tail List.mem_cons_self
  · exact hnot r hr hself _ hchain (List.mem_cons_of_mem _ List.mem_cons_self)

theorem Faithful.chain_of_commits (hs : Faithful s) {snap : Snapshot}
    (hf : SnapshotEngine.Finds out (view s.host) gone snap) {path : String}
    (h : path ∈ commits out s.host gone) :
    ∃ c ∈ s.host.rows, c.imagePath = path ∧ c.id ≠ gone ∧
      ∃ rest, Chain s.host.files (some path) (path :: snap.imagePath :: rest) := by
  obtain ⟨c, hc, hparent, rfl⟩ := mem_commits h
  obtain ⟨q, hq, hid, rfl⟩ := row_of_finds hf
  obtain ⟨p, hp, hpid, rest, hchain⟩ := hs.chain_of_parent hc hparent
  cases eq_of_id hs.ids hp hq (hpid.trans hid.symm)
  refine ⟨c, hc, rfl, ?_, rest, hchain⟩
  intro hself
  cases eq_of_id hs.ids hc hp (hself.trans hpid.symm)
  exact hchain.not_mem_tail List.mem_cons_self

theorem Faithful.backing_commits (hs : Faithful s) {snap : Snapshot}
    (hf : SnapshotEngine.Finds out (view s.host) gone snap) :
    ∀ path ∈ commits out s.host gone, backing s.host.files path = some snap.imagePath := by
  intro path hpath
  obtain ⟨-, -, -, -, rest, hchain⟩ := hs.chain_of_commits hf hpath
  exact hchain.backing_eq

theorem Faithful.merged (hs : Faithful s) {snap : Snapshot}
    (hf : SnapshotEngine.Finds out (view s.host) gone snap) :
    Merged s.host.files (SnapshotEngine.merge out (view s.host) gone).2
      (commits out s.host gone) snap.imagePath := by
  obtain ⟨q, hq, hid, rfl⟩ := row_of_finds hf
  rw [SnapshotEngine.merge, SnapshotEngine.commitToChildren_files]
  apply merged_foldl_commit _ _ (hs.backing_commits hf) (hs.exist hq)
  · have hpaths : ((view s.host).rows.map Snapshot.imagePath).Nodup := by
      rw [view, List.map_map]
      exact hs.paths
    have hsub : List.Sublist (((view s.host).children gone).takeWhile fun c =>
        (out.commit c.imagePath).isOk) (view s.host).rows :=
      (List.takeWhile_sublist _).trans List.filter_sublist
    exact hpaths.sublist ((List.filter_sublist.trans hsub).map _)
  · intro hmem
    obtain ⟨c, -, -, -, rest, hchain⟩ := hs.chain_of_commits hf hmem
    exact hchain.not_mem_tail List.mem_cons_self

/-- When the commits of a delete change nothing that is read. -/
theorem Faithful.alike_iff (hs : Faithful s) {snap : Snapshot}
    (hf : SnapshotEngine.Finds out (view s.host) gone snap) :
    (∀ r ∈ s.host.rows, Stays out s.host gone r →
      ReadsAlike s.host.files (SnapshotEngine.merge out (view s.host) gone).2 r.imagePath) ↔
    CommitsAgree out s.host gone snap.imagePath := by
  have hm := hs.merged hf
  have hbacking := hs.backing_commits hf
  constructor
  · intro halike c hc x v hv r hr hstays above below hchain
    by_cases hfound : ∃ p ∈ above, p ∉ commits out s.host gone ∧ (held s.host.files p x).isSome
    · exact .inl hfound
    · refine .inr ?_
      obtain ⟨w, hw⟩ : ∃ w, held (SnapshotEngine.merge out (view s.host) gone).2
          snap.imagePath x = some w := by
        rcases hm.base x with ⟨-, hnone⟩ | ⟨p, -, w, -, hw⟩
        · cases (hnone c hc).symm.trans hv
        · exact ⟨w, hw⟩
      have hreads := hm.content_below (x := x) hbacking hchain fun p hp hother =>
        Option.not_isSome_iff_eq_none.mp fun hsome => hfound ⟨p, hp, hother, hsome⟩
      rw [halike r hr hstays _ hchain, hw] at hreads
      -- the child itself reads what it held
      obtain ⟨d, hd, rfl, hother, rest, hchild⟩ := hs.chain_of_commits hf hc
      have hsame := halike d hd (fun hid => absurd hid hother) _ hchild x
      rw [content_cons, content_cons, content_cons, hm.emptied _ hc, hw, hv] at hsame
      exact hreads.trans hsame
  · intro hagree r hr hstays qs hqs x
    by_cases hq : snap.imagePath ∈ qs
    · obtain ⟨above, below, rfl⟩ := List.append_of_mem hq
      by_cases hfound : ∃ p ∈ above, p ∉ commits out s.host gone ∧ (held s.host.files p x).isSome
      · exact hm.content_above hbacking hqs hfound
      · have hnone : ∀ p ∈ above, p ∉ commits out s.host gone → held s.host.files p x = none :=
          fun p hp hother => Option.not_isSome_iff_eq_none.mp fun hsome =>
            hfound ⟨p, hp, hother, hsome⟩
        rw [hm.content_below hbacking hqs hnone]
        rcases hm.base x with ⟨hbase, hempty⟩ | ⟨c, hc, v, hv, hbase⟩
        · rw [hbase, content_append, content_cons]
          intro p hp
          by_cases hmem : p ∈ commits out s.host gone
          · exact hempty p hmem
          · exact hnone p hp hmem
        · rw [hbase, Option.getD_some]
          exact ((hagree c hc x v hv r hr hstays above below hqs).resolve_left hfound).symm
    · exact hm.content_off hbacking hqs hq

theorem Faithful.delete (hs : Faithful s) (hspares : Spares s (.catalog (.delete out gone))) :
    Faithful { s with host := SnapshotHost.delete out s.host gone } := by
  rcases delete_cases out s.host gone with ⟨-, heq⟩ | ⟨snap, hf, ⟨hno, heq⟩ | ⟨hmerge, heq⟩⟩
  · rwa [heq]
  · have hagree := hspares snap hf
    rw [if_neg fun h => hno h.1, ← hs.alike_iff hf] at hagree
    rw [heq]
    refine hs.of_files rfl fun r hr => ⟨merge_keepsChains out s.host gone _, ?_⟩
    exact hagree r hr fun _ h => hno h.1
  · have hsp := hspares snap hf
    rw [heq]
    cases hfile : out.removeFile with
    | ok _ =>
        rw [if_pos ⟨hmerge, hfile⟩] at hsp
        obtain ⟨hexecute, hnot⟩ := hsp
        refine hs.of_deleteRows (if_pos hexecute) fun r hr hne => ?_
        refine kept_of_frame snap.imagePath ?_ (hnot r hr hne)
        intro p hp
        simp only [merge_of_no_children (hs.no_children hf hnot), SnapshotEngine.removeImage, hfile]
        exact Function.update_of_ne hp _ _
    | error e =>
        have hno : out.removeFile ≠ .ok () := by
          intro hok
          cases hfile.symm.trans hok
        rw [if_neg fun h => hno h.2, ← hs.alike_iff hf] at hsp
        simp only [SnapshotEngine.removeImage, hfile]
        by_cases hexecute : out.execute = .ok ()
        · refine hs.of_deleteRows (if_pos hexecute) fun r hr hne => ?_
          exact ⟨merge_keepsChains out s.host gone _, hsp r hr fun hid => absurd hid hne⟩
        · refine hs.of_files (if_neg hexecute) fun r hr => ?_
          exact ⟨merge_keepsChains out s.host gone _, hsp r hr fun _ h => hexecute h.2⟩

end

section

variable [DecidableEq Sector] {s : Watched Sector Data} {vmId : String} {x : Sector} {v : Data}

omit [Zero Data] in
theorem write_keepsChains (path : String) :
    KeepsChains s.host.files (guestWrite s.host vmId x v).files path :=
  fun _ hqs => hqs.of_map_backing map_backing_write

theorem content_guestWrite {o : Option String} {above below : List String}
    (hchain : Chain s.host.files o (above ++ (s.host.guests vmId).active :: below)) :
    content (guestWrite s.host vmId x v).files
        (above ++ (s.host.guests vmId).active :: below) x =
      if ∃ q ∈ above, (held s.host.files q x).isSome then
        content s.host.files (above ++ (s.host.guests vmId).active :: below) x
      else v :=
  content_write (hchain.isSome (List.mem_append_right _ List.mem_cons_self)) hchain.not_mem_above

theorem Faithful.write (hs : Faithful s) (hspares : Spares s (.write vmId x v)) :
    Faithful { s with host := guestWrite s.host vmId x v } := by
  refine hs.of_files rfl fun r hr => ⟨write_keepsChains _, ?_⟩
  intro qs hqs y
  by_cases hy : (s.host.guests vmId).active ∈ qs ∧ y = x
  · obtain ⟨hmem, rfl⟩ := hy
    obtain ⟨above, below, rfl⟩ := List.append_of_mem hmem
    rw [content_guestWrite hqs]
    split
    · rfl
    · next hread =>
        have hsame := (hspares r hr above below hqs).resolve_left hread
        rw [← hsame, content_append]
        intro q hq
        exact Option.not_isSome_iff_eq_none.mp fun hsome => hread ⟨q, hq, hsome⟩
  · exact content_write_other (not_and_or.mp hy)

/-! ### What goes wrong otherwise -/

theorem Faithful.spares_of_write (hs : Faithful s)
    (hafter : Immutable { s with host := guestWrite s.host vmId x v }) :
    Spares s (.write vmId x v) := by
  intro r hr above below hchain
  have hfollows : Follows s { s with host := guestWrite s.host vmId x v } r r :=
    .of_mem (fun _ hp => hp) rfl (write_keepsChains _)
  have halike := hfollows.alike (hs.reads r hr) (hafter.reads hr) _ hchain x
  by_cases hread : ∃ q ∈ above, (held s.host.files q x).isSome
  · exact .inl hread
  · refine .inr ?_
    rw [content_guestWrite hchain, if_neg hread] at halike
    rw [halike, content_append]
    intro q hq
    exact Option.not_isSome_iff_eq_none.mp fun hsome => hread ⟨q, hq, hsome⟩

end

theorem Immutable.spares_of_take {s : Watched Sector Data} {out : TakeAnswers} {req : TakeRequest}
    (hfresh : (s.host.files (snapPath out req)).isNone)
    (hafter : Immutable (recordTake out req s)) : Spares s (.catalog (.take out req)) := by
  constructor
  · intro hprep hcreated
    rcases overlay_cases hfresh with ⟨-, -, heq⟩ | ⟨hno, -⟩
    · have hlast := hafter.backs (some (parentPath out req s.host),
        (s.host.guests req.vmId).active) (by
          simp only [recordTake, heq]
          exact List.mem_append_right _ (List.mem_singleton_self _))
      exact Option.some.inj hlast
    · exact absurd ⟨hprep, hcreated⟩ hno
  · intro hcompletes
    rcases take_cases out req s with ⟨snap, htakes, htaken⟩ | ⟨hno, -⟩
    · have hrow : snap ∈ (recordTake out req s).host.rows := htakes.mem_rows.mpr (.inr rfl)
      obtain ⟨files, active, ps, hrecord, hps, -⟩ := hafter.kept snap hrow
      simp only [recordTake, htaken, Function.update_self] at hrecord
      cases hrecord
      exact ⟨ps, hps⟩
    · exact absurd hcompletes hno

section

variable {s : Watched Sector Data} {out : Answers} {gone : String}

theorem Faithful.agree_of_delete (hs : Faithful s) {snap : Snapshot}
    (hf : SnapshotEngine.Finds out (view s.host) gone snap) {s' : SnapshotHost Sector Data}
    (hrows : s'.rows =
      if SnapshotEngine.CanMerge out (view s.host) gone ∧ out.execute = .ok ()
      then deleteRows s.host.rows gone else s.host.rows)
    (hfiles : s'.files = (SnapshotEngine.merge out (view s.host) gone).2)
    (hafter : Immutable { s with host := s' }) : CommitsAgree out s.host gone snap.imagePath := by
  rw [← hs.alike_iff hf]
  intro r hr hstays
  have hchains := merge_keepsChains out s.host gone r.imagePath
  rw [← hfiles] at hchains ⊢
  split at hrows
  · next hdone =>
      have hrow : unlinkRow gone r ∈ s'.rows := by
        rw [hrows]
        exact mem_deleteRows hr fun hid => hstays hid hdone
      have hfollows : Follows s { s with host := s' } r (unlinkRow gone r) :=
        .of_unlink hrows rfl hchains
      exact hfollows.alike (hs.reads r hr) (hafter.reads hrow)
  · have hfollows : Follows s { s with host := s' } r r :=
      .of_mem (fun p hp => by rwa [hrows]) rfl hchains
    exact hfollows.alike (hs.reads r hr) (hafter.reads (by rwa [hrows]))

theorem Faithful.spares_of_delete (hs : Faithful s)
    (hafter : Immutable { s with host := SnapshotHost.delete out s.host gone }) :
    Spares s (.catalog (.delete out gone)) := by
  intro snap hf
  by_cases hmerge : SnapshotEngine.CanMerge out (view s.host) gone
  · rw [delete_of_merged hf hmerge] at hafter
    cases hfile : out.removeFile with
    | error e =>
        simp only [SnapshotEngine.removeImage, hfile] at hafter
        rw [if_neg fun h => by cases h.2]
        exact hs.agree_of_delete hf (by simp only [hmerge, true_and]) rfl hafter
    | ok _ =>
        simp only [SnapshotEngine.removeImage, hfile] at hafter
        rw [if_pos ⟨hmerge, rfl⟩]
        obtain ⟨q, hq, hid, rfl⟩ := row_of_finds hf
        by_cases hexecute : out.execute = .ok ()
        · simp only [if_pos hexecute] at hafter
          refine ⟨hexecute, fun r hr hne qs hqs hmem => ?_⟩
          obtain ⟨-, -, -, qs', -, -, hqs', -⟩ := hafter.reads (mem_deleteRows hr hne)
          rw [unlinkRow_imagePath] at hqs'
          refine hqs.not_of_lost hmem ?_ ?_ hqs'
          · exact Function.update_self ..
          · intro p hp
            simp only [Function.update_of_ne hp]
            exact map_backing_merge out s.host gone p
        · simp only [if_neg hexecute] at hafter
          obtain ⟨-, -, -, qs', -, -, hqs', -⟩ := hafter.reads hq
          have hexist : (Function.update (SnapshotEngine.merge out (view s.host) gone).2
              q.imagePath none q.imagePath).isSome := by
            cases hqs' with
            | cons exist _ => exact exist
          rw [Function.update_self] at hexist
          cases hexist
  · rw [delete_of_stopped hf hmerge] at hafter
    rw [if_neg fun h => hmerge h.1]
    exact hs.agree_of_delete hf (by rw [if_neg fun h => hmerge h.1]) rfl hafter

end

/-! ## Whole runs -/

section

variable [DecidableEq Sector] {s : Watched Sector Data} {a : VmAction Sector Data}

theorem Faithful.step (hs : Faithful s) (hfresh : FreshNames s a) (hspares : Spares s a) :
    Faithful (history.step s a).1 := by
  cases a with
  | write vmId x v => exact hs.write hspares
  | catalog a =>
      cases a with
      | take out req => exact hs.take hfresh hspares
      | sealSnapshot out id => exact hs.sealed (left_of_spec (sealSnapshot_spec out id))
      | delete out gone => exact hs.delete hspares

theorem Faithful.spares (hs : Faithful s) (hfresh : FreshNames s a)
    (hafter : Immutable (history.step s a).1) : Spares s a := by
  cases a with
  | write vmId x v => exact hs.spares_of_write hafter
  | catalog a =>
      cases a with
      | take out req => exact hafter.spares_of_take hfresh
      | sealSnapshot out id => trivial
      | delete out gone => exact hs.spares_of_delete hafter

omit [DecidableEq Sector] in
theorem faithful_of_no_rows (hrows : s.host.rows = []) (hoverlays : s.overlays = []) :
    Faithful s := by
  have hnone {r : SnapshotRow} (hr : r ∈ s.host.rows) : False := by
    rw [hrows] at hr
    cases hr
  refine ⟨by rw [hrows]; exact List.nodup_nil, by rw [hrows]; exact List.nodup_nil,
    fun _ hr => (hnone hr).elim, fun _ hr => (hnone hr).elim, ?_⟩
  rw [hoverlays]
  intro o ho
  cases ho

/-- From an empty catalog, every snapshot reads what it was taken of after every action, and
every overlay is laid over the image of its VM, exactly when every action spares what is read. -/
theorem immutable_iff_spares (as : List (VmAction Sector Data)) (hrows : s.host.rows = [])
    (hoverlays : s.overlays = []) (hfresh : history.AllSteps FreshNames s as) :
    (∀ pre, pre <+: as → Immutable (history.run s pre).1) ↔ history.AllSteps Spares s as :=
  history.prefixes_iff_of_invariant (fun _ hs => hs.immutable)
    (fun _ _ hs hnew hspares => hs.step hnew hspares)
    (fun _ _ hs hnew hafter => hs.spares hnew hafter)
    (faithful_of_no_rows hrows hoverlays) hfresh

end

/-! ## Samples -/

def watchedDisk : Watched Nat SnapshotEngine.Block := ⟨oneDisk, fun _ => none, []⟩

theorem monday_spares : Spares watchedDisk (.catalog monday) := by
  refine ⟨fun _ _ => ?_, fun _ => ⟨[SnapshotEngine.diskPath], .cons rfl .nil⟩⟩
  decide +kernel

def sealMonday : SnapshotAction := .sealSnapshot ⟨none, none, none, none⟩ "mon"

theorem mondaySealed_immutable :
    history.AllSteps FreshNames watchedDisk [.catalog monday, .catalog sealMonday] ∧
      ∀ pre, pre <+: [.catalog monday, .catalog sealMonday] →
        Immutable (history.run watchedDisk pre).1 := by
  have hfresh : history.AllSteps FreshNames watchedDisk
      [.catalog monday, .catalog sealMonday] := by
    decide +kernel
  exact ⟨hfresh, (immutable_iff_spares _ rfl rfl hfresh).mpr ⟨monday_spares, trivial, trivial⟩⟩

def mondayWritten : List (VmAction Nat SnapshotEngine.Block) :=
  [.catalog monday, .write "vm-1" 1 .new]

def afterMonday : Watched Nat SnapshotEngine.Block :=
  (history.run watchedDisk [.catalog monday]).1

def mondayImage : String := (afterMonday.host.guests "vm-1").active

def mondaySealed : List (VmAction Nat SnapshotEngine.Block) :=
  [.catalog monday, .catalog sealMonday, .catalog tuesday]

/-- The write shows in what is restored; the second overlay leaves out the first. -/
theorem monday_not_immutable :
    history.AllSteps FreshNames watchedDisk mondayWritten ∧
      history.AllSteps FreshNames watchedDisk mondaySealed ∧
      (¬ ∀ pre, pre <+: mondayWritten → Immutable (history.run watchedDisk pre).1) ∧
      ¬ ∀ pre, pre <+: mondaySealed → Immutable (history.run watchedDisk pre).1 := by
  refine ⟨by decide +kernel, by decide +kernel, ?_, ?_⟩
  · intro h
    have htaken : Faithful afterMonday :=
      (faithful_of_no_rows rfl rfl).step (by decide +kernel) monday_spares
    have hspares : Spares afterMonday (.write "vm-1" 1 .new) :=
      htaken.spares trivial (h mondayWritten List.prefix_rfl)
    obtain ⟨r, hr, hactive⟩ : ∃ r ∈ afterMonday.host.rows, r.imagePath = mondayImage := by
      decide +kernel
    have hlaid : backing afterMonday.host.files mondayImage = some SnapshotEngine.diskPath := by
      decide +kernel
    have hbottom : backing afterMonday.host.files SnapshotEngine.diskPath = none := by
      decide +kernel
    have hchain : Chain afterMonday.host.files (some r.imagePath)
        [mondayImage, SnapshotEngine.diskPath] := by
      rw [hactive]
      refine .cons (by decide +kernel) ?_
      rw [hlaid]
      refine .cons (by decide +kernel) ?_
      rw [hbottom]
      exact .nil
    rcases hspares r hr [] [SnapshotEngine.diskPath] hchain with ⟨q, hq, -⟩ | hnew
    · cases hq
    · revert hnew
      decide +kernel
  · intro h
    obtain ⟨o, ho, hother⟩ : ∃ o ∈ (history.run watchedDisk mondaySealed).1.overlays,
        o.1 ≠ some o.2 := by
      decide +kernel
    exact hother ((h mondaySealed List.prefix_rfl).backs o ho)

end SnapshotHost

end Caiman.Bts
