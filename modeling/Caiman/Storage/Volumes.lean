import Caiman.Lib.History
import Caiman.Lib.Keyed
import Mathlib.Data.UInt

/-!
# Volumes

The handlers of the storage daemon on the list of volumes and the directory of their files. Each
takes the lock for the list alone and none for the files, so that handlers take turns at every
call. Volumes and handlers hold the files: what the directory comes to is what is held and what
was left behind.
-/

namespace Caiman.Storage

open Lib Keyed

/-! ## Data -/

inductive VolumeStatus
  | available
  | inUse
  | creating
  | deleting
  | error
  deriving DecidableEq, Repr

structure Volume where
  id : String
  name : String
  sizeGib : UInt64
  status : VolumeStatus
  backend : String
  policy : String
  node : Option String
  vmId : Option String
  path : Option String
  iops : UInt64
  throughputMbps : Nat
  createdAt : String
  deriving DecidableEq, Repr

structure CreateVolumeRequest where
  name : String
  sizeGib : UInt64
  backend : Option String
  policy : Option String
  deriving DecidableEq, Repr

/-- `vol-` and the first eight characters of the UUID. -/
def volId (uuid : String) : String := "vol-" ++ String.ofList (uuid.toList.take 8)

def volPath (id : String) : String := "/var/lib/caiman/vols/" ++ id

def newVolume (uuid hostname now : String) (req : CreateVolumeRequest) : Volume :=
  let policy := req.policy.getD "standard"
  { id := volId uuid
    name := req.name
    sizeGib := req.sizeGib
    status := .available
    backend := req.backend.getD "vsan"
    policy := policy
    node := some hostname
    vmId := none
    path := some (volPath (volId uuid))
    iops := if policy = "performance" then 100000 else 10000
    throughputMbps := if policy = "performance" then 2000 else 500
    createdAt := now }

/-- The length that `create_sparse_file` asks for; the product wraps. -/
def Volume.bytes (v : Volume) : UInt64 := v.sizeGib * 1024 * 1024 * 1024

/-- What `build_local_node` counts for a file. -/
def gib (len : UInt64) : UInt64 := len / (1024 * 1024 * 1024)

/-! ## Handlers -/

inductive Stage
  /-- in `OpenOptions::open` -/
  | opening
  /-- in `set_len` -/
  | sizing
  /-- at the lock, with the file made -/
  | listing
  /-- in `remove_file`, out of the list -/
  | removing
  deriving DecidableEq, Repr

/-- A handler under way, with the volume it is about. -/
structure Task where
  stage : Stage
  vol : Volume
  deriving DecidableEq, Repr

structure State where
  volumes : Store String Volume
  /-- length by path -/
  files : Store String UInt64
  tasks : List Task

def State.new : State := ⟨∅, ∅, []⟩

inductive Action
  | create (uuid hostname now : String) (req : CreateVolumeRequest)
  | delete (id : String)
  /-- A handler makes its next call, which may fail. -/
  | run (t : Task) (ok : Bool)

inductive Event
  | created (v : Volume)
  | failed (id : String)
  | deleted (id : String)
  | notFound (id : String)
  /-- `remove_file` failed, and the error is dropped. -/
  | leftBehind (v : Volume)
  deriving DecidableEq, Repr

/-- `write(true).create(true)`: a file that exists keeps its content. -/
def openFile (files : Store String UInt64) (path : String) : Store String UInt64 :=
  if path ∈ files then files else files.insert path 0

def removeFile (files : Store String UInt64) : Option String → Store String UInt64
  | some path => files.erase path
  | none => files

def advance (s : State) (t : Task) (ok : Bool) : State × List Event :=
  match t.stage with
  | .opening =>
      if ok then
        ({ s with
            files := openFile s.files (volPath t.vol.id)
            tasks := ⟨.sizing, t.vol⟩ :: s.tasks }, [])
      else (s, [.failed t.vol.id])
  | .sizing =>
      -- a length from 2^63 on is no `off_t`
      if ok ∧ t.vol.bytes.toNat < 2 ^ 63 then
        ({ s with
            files := s.files.insert (volPath t.vol.id) t.vol.bytes
            tasks := ⟨.listing, t.vol⟩ :: s.tasks }, [])
      else (s, [.failed t.vol.id])
  | .listing => ({ s with volumes := s.volumes.insert t.vol.id t.vol }, [.created t.vol])
  | .removing =>
      if ok then ({ s with files := removeFile s.files t.vol.path }, [.deleted t.vol.id])
      else (s, [.leftBehind t.vol, .deleted t.vol.id])

def step (s : State) : Action → State × List Event
  | .create uuid hostname now req =>
      ({ s with tasks := ⟨.opening, newVolume uuid hostname now req⟩ :: s.tasks }, [])
  | .delete id =>
      match s.volumes.lookup id with
      | some v =>
          ({ s with volumes := s.volumes.erase id, tasks := ⟨.removing, v⟩ :: s.tasks }, [])
      | none => (s, [.notFound id])
  | .run t ok =>
      if t ∈ s.tasks then advance { s with tasks := s.tasks.erase t } t ok else (s, [])

def daemon : Machine State Action Event where
  step := step

/-! ## Who holds which file -/

inductive Hold
  | listed (v : Volume)
  | task (t : Task)

namespace Hold

def vol : Hold → Volume
  | listed v => v
  | task t => t.vol

def id (h : Hold) : String := h.vol.id

/-- The length of the file that is held, if there is one by now. -/
def expects : Hold → Option UInt64
  | listed v => some v.bytes
  | task t =>
      match t.stage with
      | .opening => none
      | .sizing => some 0
      | .listing => some t.vol.bytes
      | .removing => some t.vol.bytes

def share (h : Hold) : UInt64 := h.expects.elim 0 gib

/-- The volume names the file that its id does, which is as it should be. -/
structure Fits (files : Store String UInt64) (h : Hold) : Prop where
  path : h.vol.path = some (volPath h.id)
  file : files.lookup (volPath h.id) = h.expects
  small : ∀ len, h.expects = some len → len.toNat < 2 ^ 63

end Hold

def State.holds (s : State) : List Hold :=
  s.volumes.entries.map (fun entry => .listed entry.2) ++ s.tasks.map .task

/-- No two hold a file of one id, and each file is as its holder expects. -/
structure Sound (holds : List Hold) (files : Store String UInt64) : Prop where
  ids : (holds.map Hold.id).Nodup
  fits : ∀ h ∈ holds, h.Fits files

def shares (holds : List Hold) : UInt64 := (holds.map Hold.share).sum

theorem volPath_injective : Function.Injective volPath := by
  intro id id' h
  exact String.append_right_inj _ |>.mp h

section Sound

variable {files files' : Store String UInt64} {a b : Hold} {holds holds' : List Hold}

theorem Sound.perm (h : Sound holds files) (hperm : holds.Perm holds') : Sound holds' files := by
  refine ⟨(hperm.map _).nodup_iff.mp h.ids, ?_⟩
  intro c hc
  exact h.fits c (hperm.mem_iff.mpr hc)

theorem Sound.rest (h : Sound (a :: holds) files)
    (hframe : ∀ path, path ≠ volPath a.id → files'.lookup path = files.lookup path) :
    Sound holds files' := by
  obtain ⟨hnot, hids⟩ := List.nodup_cons.mp h.ids
  refine ⟨hids, ?_⟩
  intro c hc
  have hfits := h.fits c (List.mem_cons_of_mem _ hc)
  refine ⟨hfits.path, ?_, hfits.small⟩
  rw [hframe, hfits.file]
  intro hsame
  apply hnot
  rw [← volPath_injective hsame]
  exact List.mem_map_of_mem hc

theorem Sound.cons (h : Sound holds files) (hid : ∀ c ∈ holds, c.id ≠ b.id)
    (hfits : b.Fits files) : Sound (b :: holds) files := by
  constructor
  · rw [List.map_cons, List.nodup_cons]
    refine ⟨?_, h.ids⟩
    intro hmem
    obtain ⟨c, hc, hsame⟩ := List.mem_map.mp hmem
    exact hid c hc hsame
  · intro c hc
    cases hc with
    | head => exact hfits
    | tail _ hc => exact h.fits c hc

theorem Sound.move (h : Sound (a :: holds) files) (hid : b.id = a.id)
    (hframe : ∀ path, path ≠ volPath a.id → files'.lookup path = files.lookup path)
    (hfits : b.Fits files') : Sound (b :: holds) files' := by
  refine (h.rest hframe).cons ?_ hfits
  intro c hc hsame
  apply (List.nodup_cons.mp h.ids).1
  rw [← hid, ← hsame]
  exact List.mem_map_of_mem hc

theorem shares_cons (a : Hold) (holds : List Hold) :
    shares (a :: holds) = a.share + shares holds := by
  rw [shares, shares, List.map_cons, List.sum_cons]

theorem shares_perm (h : holds.Perm holds') : shares holds = shares holds' :=
  (h.map Hold.share).sum_eq

theorem Hold.Fits.weightAt (h : a.Fits files) : weightAt gib files (volPath a.id) = a.share := by
  rw [Keyed.weightAt, h.file]
  rfl

end Sound

/-! ## What a step does -/

/-- `used_gib` of `build_local_node`; the sum wraps. -/
def usedGib (files : Store String UInt64) : UInt64 := total gib files

def leftGib : List Event → UInt64
  | [] => 0
  | .leftBehind v :: past => gib v.bytes + leftGib past
  | _ :: past => leftGib past

theorem leftGib_append (past es : List Event) :
    leftGib (past ++ es) = leftGib past + leftGib es := by
  induction past with
  | nil => exact (zero_add _).symm
  | cons e past ih =>
      cases e with
      | leftBehind v => simp only [List.cons_append, leftGib, ih, add_assoc]
      | _ => exact ih

/-- Each volume is listed under its id, what is held is as it should be, and the files are what is
held and what was left behind. -/
structure Accounted (past : List Event) (s : State) : Prop where
  keyed : ∀ entry ∈ s.volumes.entries, entry.1 = entry.2.id
  sound : Sound s.holds s.files
  used : usedGib s.files = shares s.holds + leftGib past

/-- The UUID is of no volume, of no handler under way and of no file. -/
def Fresh (s : State) : Action → Prop
  | .create uuid _ _ _ =>
      (∀ c ∈ s.holds, c.id ≠ volId uuid) ∧ s.files.lookup (volPath (volId uuid)) = none
  | _ => True

section Step

variable {s : State} {past : List Event} {t : Task}

theorem holds_task (volumes : Store String Volume) (files : Store String UInt64) (t : Task)
    (tasks : List Task) :
    (State.holds ⟨volumes, files, t :: tasks⟩).Perm
      (.task t :: State.holds ⟨volumes, files, tasks⟩) := by
  rw [State.holds, State.holds, List.map_cons]
  exact List.perm_middle

theorem holds_of_mem (ht : t ∈ s.tasks) :
    s.holds.Perm (.task t :: State.holds { s with tasks := s.tasks.erase t }) :=
  (((List.perm_cons_erase ht).map Hold.task).append_left _).trans (List.perm_middle)

theorem holds_listed {id : String} {v : Volume} {volumes : Store String Volume}
    (h : volumes.lookup id = some v) (files : Store String UInt64) (tasks : List Task) :
    (State.holds ⟨volumes, files, tasks⟩).Perm
      (.listed v :: State.holds ⟨volumes.erase id, files, tasks⟩) := by
  have hperm := (perm_erase_of_lookup h).map fun entry => Hold.listed entry.2
  exact hperm.append_right _

/-- As `Accounted`, with one hold taken out of the state. -/
structure Loose (past : List Event) (a : Hold) (s : State) : Prop where
  keyed : ∀ entry ∈ s.volumes.entries, entry.1 = entry.2.id
  sound : Sound (a :: s.holds) s.files
  used : usedGib s.files = a.share + shares s.holds + leftGib past

theorem Accounted.take (h : Accounted past s) (ht : t ∈ s.tasks) :
    Loose past (.task t) { s with tasks := s.tasks.erase t } := by
  have hperm := holds_of_mem ht
  refine ⟨h.keyed, h.sound.perm hperm, ?_⟩
  rw [h.used, shares_perm hperm, shares_cons]

theorem Loose.schedule (h : Loose past (.task t) s) :
    Accounted past { s with tasks := t :: s.tasks } := by
  have hperm := holds_task s.volumes s.files t s.tasks
  refine ⟨h.keyed, h.sound.perm hperm.symm, ?_⟩
  rw [h.used, shares_perm hperm, shares_cons]

theorem Accounted.unlist (h : Accounted past s) {id : String} {v : Volume}
    (hlisted : s.volumes.lookup id = some v) :
    Loose past (.listed v) { s with volumes := s.volumes.erase id } := by
  have hperm := holds_listed hlisted s.files s.tasks
  refine ⟨?_, h.sound.perm hperm, ?_⟩
  · intro entry hentry
    exact h.keyed entry ((List.kerase_sublist id s.volumes.entries).subset hentry)
  · rw [h.used, shares_perm hperm, shares_cons]

theorem Loose.list {v : Volume} (h : Loose past (.listed v) s) :
    Accounted past { s with volumes := s.volumes.insert v.id v } := by
  have hnew : v.id ∉ s.volumes := by
    intro hmem
    obtain ⟨entry, hentry, hkey⟩ := List.mem_map.mp (AList.mem_keys.mp hmem)
    apply (List.nodup_cons.mp h.sound.ids).1
    have hid : (Hold.listed entry.2).id = v.id := (h.keyed entry hentry).symm.trans hkey
    have hheld : Hold.listed entry.2 ∈ s.holds :=
      List.mem_append_left _ (List.mem_map_of_mem (f := fun e => Hold.listed e.2) hentry)
    have hids := List.mem_map_of_mem (f := Hold.id) hheld
    rwa [hid] at hids
  have hentries := AList.entries_insert_of_notMem (b := v) hnew
  have hholds : State.holds { s with volumes := s.volumes.insert v.id v } =
      .listed v :: s.holds := by
    rw [State.holds, State.holds, hentries]
    rfl
  refine ⟨?_, ?_, ?_⟩
  · intro entry hentry
    rw [hentries] at hentry
    cases hentry with
    | head => rfl
    | tail _ hentry => exact h.keyed entry hentry
  · rw [hholds]
    exact h.sound
  · rw [hholds, shares_cons]
    exact h.used

variable {a b : Hold}

theorem Loose.pass (h : Loose past a s) (hvol : b.vol = a.vol) (hexpects : b.expects = a.expects) :
    Loose past b s := by
  have hid : b.id = a.id := congrArg Volume.id hvol
  have hfits := h.sound.fits a List.mem_cons_self
  refine ⟨h.keyed, h.sound.move hid (fun _ _ => rfl) ⟨?_, ?_, ?_⟩, ?_⟩
  · rw [hvol, hid]
    exact hfits.path
  · rw [hid, hexpects]
    exact hfits.file
  · rw [hexpects]
    exact hfits.small
  · rw [h.used, Hold.share, Hold.share, hexpects]

theorem Loose.write (h : Loose past a s) {len : UInt64} (hvol : b.vol = a.vol)
    (hexpects : b.expects = some len) (hsmall : len.toNat < 2 ^ 63) :
    Loose past b { s with files := s.files.insert (volPath a.id) len } := by
  have hid : b.id = a.id := congrArg Volume.id hvol
  have hfits := h.sound.fits a List.mem_cons_self
  refine ⟨h.keyed, h.sound.move hid ?_ ⟨?_, ?_, ?_⟩, ?_⟩
  · intro path hpath
    exact AList.lookup_insert_ne hpath
  · rw [hvol, hid]
    exact hfits.path
  · rw [hid, hexpects]
    exact AList.lookup_insert _
  · intro len' hlen
    rw [hexpects] at hlen
    cases hlen
    exact hsmall
  · have htotal := total_insert gib s.files (volPath a.id) len
    have hused := h.used
    have hshare : b.share = gib len := by rw [Hold.share, hexpects]; rfl
    unfold usedGib at hused ⊢
    rw [hfits.weightAt, hused, add_assoc, add_left_comm, ← hshare] at htotal
    rw [add_assoc]
    exact add_left_cancel htotal

theorem Loose.drop (h : Loose past a s) (hshare : a.share = 0) : Accounted past s := by
  refine ⟨h.keyed, h.sound.rest fun _ _ => rfl, ?_⟩
  rw [h.used, hshare, zero_add]

theorem Loose.remove (h : Loose past a s) :
    Accounted past { s with files := s.files.erase (volPath a.id) } := by
  refine ⟨h.keyed, h.sound.rest ?_, ?_⟩
  · intro path hpath
    exact AList.lookup_erase_ne hpath
  · have htotal := total_erase gib s.files (volPath a.id)
    have hused := h.used
    unfold usedGib at hused ⊢
    rw [(h.sound.fits a List.mem_cons_self).weightAt, hused, add_assoc] at htotal
    exact add_left_cancel htotal

theorem Loose.leave (h : Loose past a s) {v : Volume} (hshare : a.share = gib v.bytes)
    (rest : List Event) (hrest : leftGib rest = 0) :
    Accounted (past ++ .leftBehind v :: rest) s := by
  refine ⟨h.keyed, h.sound.rest fun _ _ => rfl, ?_⟩
  rw [h.used, leftGib_append, leftGib, hrest, hshare, add_zero, add_comm (gib _), add_right_comm,
    ← add_assoc]

theorem Accounted.tell (h : Accounted past s) {es : List Event} (hes : leftGib es = 0) :
    Accounted (past ++ es) s :=
  ⟨h.keyed, h.sound, by rw [h.used, leftGib_append, hes, add_zero]⟩

theorem gib_zero : gib 0 = 0 := by decide

theorem advance_accounted (h : Loose past (.task t) s) (ok : Bool) :
    Accounted (past ++ (advance s t ok).2) (advance s t ok).1 := by
  have hfits := h.sound.fits _ List.mem_cons_self
  obtain ⟨stage, v⟩ := t
  unfold advance
  cases stage with
  | opening =>
      dsimp only
      split
      · have hnone : volPath v.id ∉ s.files := AList.lookup_eq_none.mp hfits.file
        rw [openFile, if_neg hnone]
        exact (h.write (b := .task ⟨.sizing, v⟩) rfl rfl (by decide)).schedule.tell rfl
      · exact (h.drop rfl).tell rfl
  | sizing =>
      dsimp only
      split
      · rename_i hok
        exact (h.write (b := .task ⟨.listing, v⟩) rfl rfl hok.2).schedule.tell rfl
      · exact (h.drop gib_zero).tell rfl
  | listing => exact (h.pass (b := .listed v) rfl rfl).list.tell rfl
  | removing =>
      dsimp only
      split
      · have hpath : v.path = some (volPath v.id) := hfits.path
        rw [hpath]
        exact h.remove.tell rfl
      · exact h.leave rfl _ rfl

theorem step_accounted (h : Accounted past s) (a : Action) (hfresh : Fresh s a) :
    Accounted (past ++ (daemon.step s a).2) (daemon.step s a).1 := by
  cases a with
  | create uuid hostname now req =>
      obtain ⟨hid, hfile⟩ := hfresh
      have hloose : Loose past (.task ⟨.opening, newVolume uuid hostname now req⟩) s := by
        refine ⟨h.keyed, h.sound.cons hid ⟨rfl, hfile, ?_⟩, ?_⟩
        · intro len hlen
          cases hlen
        · rw [h.used]
          exact congrArg (· + _) (zero_add _).symm
      exact hloose.schedule.tell rfl
  | delete id =>
      simp only [daemon, step]
      cases hlisted : s.volumes.lookup id with
      | none => exact h.tell rfl
      | some v =>
          exact ((h.unlist hlisted).pass (b := .task ⟨.removing, v⟩) rfl rfl).schedule.tell rfl
  | run t ok =>
      simp only [daemon, step]
      split
      · rename_i ht
        exact advance_accounted (h.take ht) ok
      · exact h.tell rfl

end Step

/-! ## Over every run -/

theorem run_accounted {as : List Action} (hfresh : daemon.AllSteps Fresh .new as) :
    Accounted (daemon.run .new as).2 (daemon.run .new as).1 := by
  have hnew : Accounted [] .new := by
    refine ⟨?_, ⟨List.nodup_nil, ?_⟩, rfl⟩
    · intro entry hentry
      cases hentry
    · intro c hc
      cases hc
  exact daemon.run_related (R := Accounted) (fun _ _ a h ha => step_accounted h a ha) hnew hfresh

/-- Whatever the order of the handlers' calls and whichever of them fail: every volume in the list
is under its id, and its file is there with the length asked for. That is the capacity promised
exactly when it is below 2^33 GiB. -/
theorem listed_backed {as : List Action} (hfresh : daemon.AllSteps Fresh .new as) {id : String}
    {v : Volume} (hlisted : (daemon.run .new as).1.volumes.lookup id = some v) :
    v.id = id ∧ v.path = some (volPath id) ∧
      (daemon.run .new as).1.files.lookup (volPath id) = some v.bytes ∧
      (v.bytes.toNat = v.sizeGib.toNat * 2 ^ 30 ↔ v.sizeGib.toNat < 2 ^ 33) := by
  have h := run_accounted hfresh
  generalize (daemon.run .new as).1 = s at h hlisted
  have hentry : (⟨id, v⟩ : Sigma fun _ => Volume) ∈ s.volumes.entries :=
    AList.mem_lookup_iff.mp hlisted
  have hheld : Hold.listed v ∈ s.holds :=
    List.mem_append_left _ (List.mem_map_of_mem (f := fun e => Hold.listed e.2) hentry)
  have hid : id = v.id := h.keyed _ hentry
  have hfits := h.sound.fits _ hheld
  subst hid
  refine ⟨rfl, hfits.path, hfits.file, ?_⟩
  have hsmall : v.bytes.toNat < 2 ^ 63 := hfits.small _ rfl
  have hbytes : v.bytes.toNat = v.sizeGib.toNat * 2 ^ 30 % 2 ^ 64 := by
    simp [Volume.bytes, UInt64.toNat_mul]
    omega
  omega

def dataRequest : CreateVolumeRequest := ⟨"data", 8, none, some "performance"⟩

def dataVolume : Volume := newVolume "6f1c20aa-77b1-4b0e" "node-1" "2026-01-01" dataRequest

def oneVolume : List Action :=
  [.create "6f1c20aa-77b1-4b0e" "node-1" "2026-01-01" dataRequest,
    .run ⟨.opening, dataVolume⟩ true, .run ⟨.sizing, dataVolume⟩ true,
    .run ⟨.listing, dataVolume⟩ true]

theorem oneVolume_fresh : daemon.AllSteps Fresh .new oneVolume := by
  refine ⟨⟨?_, rfl⟩, trivial, trivial, trivial, trivial⟩
  intro c hc
  cases hc

theorem listed_backed_data :
    dataVolume.id = "vol-6f1c20aa" ∧
      dataVolume.path = some (volPath "vol-6f1c20aa") ∧
      (daemon.run .new oneVolume).1.files.lookup (volPath "vol-6f1c20aa") =
        some dataVolume.bytes ∧
      (dataVolume.bytes.toNat = dataVolume.sizeGib.toNat * 2 ^ 30 ↔
        dataVolume.sizeGib.toNat < 2 ^ 33) :=
  listed_backed oneVolume_fresh (by decide +kernel)

/-- Whatever the order of the handlers' calls and whichever of them fail: the GiB that the node
reports as used are those of the volumes in the list, of the handlers under way and of the files
whose removal failed. -/
theorem used_accounted {as : List Action} (hfresh : daemon.AllSteps Fresh .new as) :
    usedGib (daemon.run .new as).1.files =
      total (fun v => gib v.bytes) (daemon.run .new as).1.volumes +
        ((daemon.run .new as).1.tasks.map fun t => (Hold.task t).share).sum +
          leftGib (daemon.run .new as).2 := by
  have h := (run_accounted hfresh).used
  rw [h, shares, State.holds, List.map_append, List.sum_append, List.map_map, List.map_map]
  rfl

theorem used_accounted_data :
    usedGib (daemon.run .new oneVolume).1.files =
      total (fun v => gib v.bytes) (daemon.run .new oneVolume).1.volumes +
        ((daemon.run .new oneVolume).1.tasks.map fun t => (Hold.task t).share).sum +
          leftGib (daemon.run .new oneVolume).2 :=
  used_accounted oneVolume_fresh

example : usedGib (daemon.run .new oneVolume).1.files = 8 := by decide +kernel

end Caiman.Storage
