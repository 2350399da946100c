import Caiman.Lib.Run

/-!
# Optimistic edits of the VM list

The start, stop, migrate and delete mutations share one cached list. Each keeps
the list as it finds it and edits one VM before its request is sent. A request
that fails puts the kept list back, with whatever the others had done to it.
-/

namespace Caiman.Ui

open Lib

inductive VmStatus
  | running
  | migrating
  | stopped
  | booting
  | error
  deriving DecidableEq, Repr

structure MigrationStatus where
  phase : String
  fromNode : String
  toNode : String
  progressPct : Nat
  elapsedSecs : Nat
  blackoutMs : Option Nat
  deriving DecidableEq, Repr

/-- A cached VM. The fields that no mutation reads or sets are its `rest`. -/
structure Vm (Rest : Type) where
  id : String
  status : VmStatus
  nodeName : String
  migrating : Option MigrationStatus
  rest : Rest
  deriving DecidableEq

/-- What `getQueryData(KEYS.vms)` gives. -/
abbrev Cache (Rest : Type) := Option (List (Vm Rest))

variable {Rest : Type}

/-! ## The mutations -/

def mapVm (vmId : String) (f : Vm Rest → Vm Rest) (old : Cache Rest) : List (Vm Rest) :=
  (old.map fun vms => vms.map fun v => if v.id = vmId then f v else v).getD []

def useStartVm (vmId : String) (old : Cache Rest) : List (Vm Rest) :=
  mapVm vmId (fun v => { v with status := .booting }) old

def useStopVm (vmId : String) (old : Cache Rest) : List (Vm Rest) :=
  mapVm vmId (fun v => { v with status := .stopped }) old

def useMigrateVm (vmId toNode : String) (old : Cache Rest) : List (Vm Rest) :=
  mapVm vmId (fun v => { v with
    status := .migrating
    migrating := some ⟨"Setup", v.nodeName, toNode, 0, 0, none⟩ }) old

def useDeleteVm (vmId : String) (old : Cache Rest) : List (Vm Rest) :=
  (old.map fun vms => vms.filter fun v => v.id ≠ vmId).getD []

inductive Mutation
  | start (vmId : String)
  | stop (vmId : String)
  | migrate (vmId toNode : String)
  | delete (vmId : String)
  deriving DecidableEq, Repr

def Mutation.vmId : Mutation → String
  | start vmId => vmId
  | stop vmId => vmId
  | migrate vmId _ => vmId
  | delete vmId => vmId

/-- The list that `onMutate` puts in the cache. -/
def Mutation.onMutate : Mutation → Cache Rest → List (Vm Rest)
  | start vmId => useStartVm vmId
  | stop vmId => useStopVm vmId
  | migrate vmId toNode => useMigrateVm vmId toNode
  | delete vmId => useDeleteVm vmId

def entries (cache : Cache Rest) (id : String) : List (Vm Rest) :=
  (cache.getD []).filter fun v => v.id = id

theorem entries_mapVm_self (vmId : String) (f : Vm Rest → Vm Rest) (hid : ∀ v, (f v).id = v.id)
    (cache : Cache Rest) :
    entries (some (mapVm vmId f cache)) vmId = (entries cache vmId).map f := by
  cases cache with
  | none => rfl
  | some vms =>
      simp only [entries, mapVm, Option.map_some, Option.getD_some]
      induction vms with
      | nil => rfl
      | cons v vms ih =>
          by_cases hv : v.id = vmId
          · simp [hv, hid, ih]
          · simp [hv, ih]

theorem entries_mapVm_of_ne {vmId w : String} (hw : w ≠ vmId) (f : Vm Rest → Vm Rest)
    (hid : ∀ v, (f v).id = v.id) (cache : Cache Rest) :
    entries (some (mapVm vmId f cache)) w = entries cache w := by
  cases cache with
  | none => rfl
  | some vms =>
      simp only [entries, mapVm, Option.map_some, Option.getD_some]
      induction vms with
      | nil => rfl
      | cons v vms ih =>
          by_cases hv : v.id = vmId
          · simp [hv, hid, Ne.symm hw, ih]
          · by_cases hvw : v.id = w
            · simp [hvw, hw, ih]
            · simp [hv, hvw, ih]

theorem entries_mapVm_congr {vmId : String} (f : Vm Rest → Vm Rest) (hid : ∀ v, (f v).id = v.id)
    {cache cache' : Cache Rest} (h : entries cache vmId = entries cache' vmId) :
    entries (some (mapVm vmId f cache)) vmId = entries (some (mapVm vmId f cache')) vmId := by
  rw [entries_mapVm_self vmId f hid, entries_mapVm_self vmId f hid, h]

theorem entries_onMutate_self (m : Mutation) {cache cache' : Cache Rest}
    (h : entries cache m.vmId = entries cache' m.vmId) :
    entries (some (m.onMutate cache)) m.vmId = entries (some (m.onMutate cache')) m.vmId := by
  cases m with
  | start vmId => exact entries_mapVm_congr _ (by exact fun _ => rfl) h
  | stop vmId => exact entries_mapVm_congr _ (by exact fun _ => rfl) h
  | migrate vmId toNode => exact entries_mapVm_congr _ (by exact fun _ => rfl) h
  | delete vmId =>
      have hgone (c : Cache Rest) : entries (some (useDeleteVm vmId c)) vmId = [] := by
        cases c <;> simp [entries, useDeleteVm, List.filter_filter]
      exact (hgone cache).trans (hgone cache').symm

theorem entries_onMutate_of_ne (m : Mutation) {w : String} (hw : w ≠ m.vmId)
    (cache : Cache Rest) : entries (some (m.onMutate cache)) w = entries cache w := by
  cases m with
  | start vmId => exact entries_mapVm_of_ne hw _ (by exact fun _ => rfl) cache
  | stop vmId => exact entries_mapVm_of_ne hw _ (by exact fun _ => rfl) cache
  | migrate vmId toNode => exact entries_mapVm_of_ne hw _ (by exact fun _ => rfl) cache
  | delete vmId =>
      cases cache with
      | none => rfl
      | some vms =>
          simp only [entries, Mutation.onMutate, useDeleteVm, Option.map_some, Option.getD_some,
            List.filter_filter]
          refine List.filter_congr ?_
          intro v _
          have hv : v.id = w → v.id ≠ vmId := fun hv => hv ▸ hw
          simpa using hv

theorem entries_onMutate_none (m : Mutation) (w : String) :
    entries (some (m.onMutate (none : Cache Rest))) w = [] := by
  cases m <;> rfl

/-! ## Mutations in flight -/

inductive Outcome
  | pending
  | success
  | error
  deriving DecidableEq, Repr

/-- A mutation that has begun, with the context its `onMutate` returned. -/
structure Sent (Rest : Type) where
  mutation : Mutation
  prev : Cache Rest
  /-- The VMs whose edits the kept list shows. -/
  seen : String → Bool
  outcome : Outcome

/-- The cached list, and the mutation of each VM that has one. -/
structure VmList (Rest : Type) where
  cache : Cache Rest
  sent : String → Option (Sent Rest)

/-- The edit of the VM has been made and not taken back. -/
def Sent.stands (b : Sent Rest) : Bool := b.outcome ≠ .error

def VmList.shows (s : VmList Rest) (id : String) : Bool := (s.sent id).any Sent.stands

def VmList.settle (s : VmList Rest) (id : String) (outcome : Outcome) : VmList Rest :=
  let settled := (s.sent id).map fun b => { b with outcome := outcome }
  { s with sent := Function.update s.sent id settled }

/-- `if (ctx?.prev) qc.setQueryData(KEYS.vms, ctx.prev)`; an empty list counts as a value. -/
def VmList.onError (s : VmList Rest) (id : String) : VmList Rest :=
  { sent := (s.settle id .error).sent
    cache := ((s.sent id).bind fun b => b.prev).or s.cache }

theorem VmList.settle_sent {s : VmList Rest} {id v : String} {outcome : Outcome} {b' : Sent Rest}
    (h : (s.settle id outcome).sent v = some b') :
    ∃ b, s.sent v = some b ∧
      b' = { b with outcome := if v = id then outcome else b.outcome } := by
  simp only [settle] at h
  by_cases hv : v = id
  · subst hv
    rw [Function.update_self, Option.map_eq_some_iff] at h
    obtain ⟨b, hb, rfl⟩ := h
    exact ⟨b, hb, by rw [if_pos rfl]⟩
  · rw [Function.update_of_ne hv] at h
    exact ⟨b', h, by rw [if_neg hv]⟩

theorem VmList.settle_shows_of_ne (s : VmList Rest) {id w : String} (hw : w ≠ id)
    (outcome : Outcome) : (s.settle id outcome).shows w = s.shows w := by
  simp [shows, settle, Function.update_of_ne hw]

inductive Action
  | mutate (m : Mutation)
  | onSuccess (id : String)
  | onError (id : String)
  deriving DecidableEq, Repr

/-- No callback but `onError` writes the list; the refetches that `onSuccess` asks for are
not part of it. -/
def machine : Machine (VmList Rest) Action Empty where
  step s
    | .mutate m =>
        ({ cache := some (m.onMutate s.cache)
           sent := Function.update s.sent m.vmId (some ⟨m, s.cache, s.shows, .pending⟩) }, [])
    | .onSuccess id => (s.settle id .success, [])
    | .onError id => (s.onError id, [])

/-- Mutations are of pairwise different VMs, and each settles once. -/
def Admitted (s : VmList Rest) : Action → Prop
  | .mutate m => (s.sent m.vmId).isNone
  | .onSuccess id => (s.sent id).map Sent.outcome = some .pending
  | .onError id => (s.sent id).map Sent.outcome = some .pending

instance (s : VmList Rest) : (a : Action) → Decidable (Admitted s a)
  | .mutate m => inferInstanceAs (Decidable ((s.sent m.vmId).isNone = true))
  | .onSuccess id => inferInstanceAs (Decidable ((s.sent id).map Sent.outcome = some .pending))
  | .onError id => inferInstanceAs (Decidable ((s.sent id).map Sent.outcome = some .pending))

def initial (cache : Cache Rest) : VmList Rest := ⟨cache, fun _ => none⟩

/-! ## What is promised -/

def FailsAlone (s : VmList Rest) : Action → Prop
  | .onError id => ∀ w, w ≠ id → entries (s.onError id).cache w = entries s.cache w
  | _ => True

def Settled (s : VmList Rest) : Prop := ∀ id b, s.sent id = some b → b.outcome ≠ .pending

/-- A VM shows what its mutation's edit made of it, or what it was before. -/
def ShowsOutcomes (s : VmList Rest) : Prop :=
  ∀ id b, s.sent id = some b →
    (b.outcome = .success → entries s.cache id = entries (some (b.mutation.onMutate b.prev)) id) ∧
    (b.outcome = .error → entries s.cache id = entries b.prev id)

def RollBackAlone (cache : Cache Rest) (as : List Action) : Prop :=
  machine.AllSteps FailsAlone (initial cache) as ∧
    (Settled (machine.run (initial cache) as).1 → ShowsOutcomes (machine.run (initial cache) as).1)

/-- The edit is not of a VM that is not listed or already is as it would make it. -/
def Sent.Changes (b : Sent Rest) : Prop :=
  entries (some (b.mutation.onMutate b.prev)) b.mutation.vmId ≠ entries b.prev b.mutation.vmId

/-- When a mutation fails, the edits that stand are those that stood when it began, its
own and those without effect aside: none was made or taken back meanwhile. -/
def Undisturbed (s : VmList Rest) : Action → Prop
  | .onError id => ∀ b, s.sent id = some b →
      ∀ w o, w ≠ id → s.sent w = some o → o.Changes → b.seen w = o.stands
  | _ => True

/-! ## What the list shows -/

def viewOf (cache : Cache Rest) (o : Option (Sent Rest)) (made : Bool) (w : String) :
    List (Vm Rest) :=
  match o with
  | none => entries cache w
  | some b => if made then entries (some (b.mutation.onMutate cache)) w else entries cache w

theorem viewOf_unmade (cache : Cache Rest) (o : Option (Sent Rest)) (w : String) :
    viewOf cache o false w = entries cache w := by
  cases o <;> rfl

theorem viewOf_none (o : Option (Sent Rest)) (made : Bool) (w : String) :
    viewOf none o made w = [] := by
  cases o with
  | none => rfl
  | some b =>
      cases made with
      | false => rfl
      | true => exact entries_onMutate_none b.mutation w

/-- The cached list and every kept one are the first list with some of the edits made. -/
structure Tracks (cache : Cache Rest) (s : VmList Rest) : Prop where
  shown : ∀ w, entries s.cache w = viewOf cache (s.sent w) (s.shows w) w
  kept : ∀ v b, s.sent v = some b → ∀ w, entries b.prev w = viewOf cache (s.sent w) (b.seen w) w
  own : ∀ v b, s.sent v = some b → b.mutation.vmId = v ∧ b.seen v = false
  known : ∀ v b, s.sent v = some b → ∀ w, b.seen w = true → (s.sent w).isSome
  missing : s.cache = none → cache = none
  unkept : ∀ v b, s.sent v = some b → b.prev = none → cache = none

theorem tracks_initial (cache : Cache Rest) : Tracks cache (initial cache) where
  shown _ := rfl
  kept _ _ h := by cases h
  own _ _ h := by cases h
  known _ _ h := by cases h
  missing h := h
  unkept _ _ h := by cases h

section

variable {cache : Cache Rest} {s : VmList Rest}

theorem Tracks.kept_self (ht : Tracks cache s) {v : String} {b : Sent Rest}
    (hb : s.sent v = some b) : entries b.prev v = entries cache v := by
  rw [ht.kept v b hb v, (ht.own v b hb).2, viewOf_unmade]

theorem Tracks.edited (ht : Tracks cache s) {v : String} {b : Sent Rest}
    (hb : s.sent v = some b) :
    entries (some (b.mutation.onMutate b.prev)) v =
      entries (some (b.mutation.onMutate cache)) v := by
  have hself := ht.kept_self hb
  rw [← (ht.own v b hb).1] at hself ⊢
  exact entries_onMutate_self b.mutation hself

theorem Tracks.changes_iff (ht : Tracks cache s) {v : String} {b : Sent Rest}
    (hb : s.sent v = some b) :
    b.Changes ↔ entries (some (b.mutation.onMutate cache)) v ≠ entries cache v := by
  rw [Sent.Changes, (ht.own v b hb).1, ht.edited hb, ht.kept_self hb]

theorem Tracks.mutate (ht : Tracks cache s) {m : Mutation} (hnew : s.sent m.vmId = none) :
    Tracks cache (machine.step s (.mutate m)).1 := by
  have hhidden : s.shows m.vmId = false := by simp [VmList.shows, hnew]
  have hoff {w : String} (hw : w ≠ m.vmId) :
      (machine.step s (.mutate m)).1.sent w = s.sent w := Function.update_of_ne hw _ _
  have hself : (machine.step s (.mutate m)).1.sent m.vmId =
      some ⟨m, s.cache, s.shows, .pending⟩ := Function.update_self ..
  have hold : entries s.cache m.vmId = entries cache m.vmId := by
    rw [ht.shown, hhidden, viewOf_unmade]
  refine ⟨?_, ?_, ?_, ?_, ?_, ?_⟩
  · intro w
    by_cases hw : w = m.vmId
    · subst hw
      simp only [VmList.shows, hself]
      exact entries_onMutate_self m hold
    · simp only [VmList.shows, hoff hw]
      exact (entries_onMutate_of_ne m hw s.cache).trans (ht.shown w)
  · intro v b hb w
    by_cases hv : v = m.vmId
    · subst hv
      cases hself.symm.trans hb
      by_cases hw : w = m.vmId
      · subst hw
        simp only [hhidden, viewOf_unmade, hold]
      · rw [hoff hw]
        exact ht.shown w
    · rw [hoff hv] at hb
      by_cases hw : w = m.vmId
      · subst hw
        have hunseen : b.seen m.vmId = false := by
          by_contra h
          have hsent := ht.known v b hb m.vmId (by simpa using h)
          rw [hnew] at hsent
          cases hsent
        rw [ht.kept v b hb, hunseen, viewOf_unmade, viewOf_unmade]
      · rw [hoff hw]
        exact ht.kept v b hb w
  · intro v b hb
    by_cases hv : v = m.vmId
    · subst hv
      cases hself.symm.trans hb
      exact ⟨rfl, hhidden⟩
    · exact ht.own v b ((hoff hv).symm.trans hb)
  · intro v b hb w hseen
    by_cases hw : w = m.vmId
    · rw [hw, hself]
      rfl
    · rw [hoff hw]
      by_cases hv : v = m.vmId
      · subst hv
        cases hself.symm.trans hb
        exact Option.isSome_of_any hseen
      · exact ht.known v b ((hoff hv).symm.trans hb) w hseen
  · intro h
    cases h
  · intro v b hb hprev
    by_cases hv : v = m.vmId
    · subst hv
      cases hself.symm.trans hb
      exact ht.missing hprev
    · exact ht.unkept v b ((hoff hv).symm.trans hb) hprev

theorem Tracks.settle (ht : Tracks cache s) {id : String} {outcome : Outcome}
    {cache' : Cache Rest} (hsome : cache' = none → s.cache = none)
    (hshown : ∀ w, entries cache' w = viewOf cache (s.sent w) ((s.settle id outcome).shows w) w) :
    Tracks cache { s.settle id outcome with cache := cache' } := by
  have hview (made : Bool) (w : String) :
      viewOf cache ((s.settle id outcome).sent w) made w = viewOf cache (s.sent w) made w := by
    by_cases hw : w = id
    · subst hw
      cases hb : s.sent w <;> simp [VmList.settle, hb, viewOf]
    · simp [VmList.settle, Function.update_of_ne hw]
  refine ⟨?_, ?_, ?_, ?_, ?_, ?_⟩
  · intro w
    exact (hshown w).trans (hview _ w).symm
  · intro v b' hb' w
    obtain ⟨b, hb, rfl⟩ := VmList.settle_sent hb'
    exact (ht.kept v b hb w).trans (hview _ w).symm
  · intro v b' hb'
    obtain ⟨b, hb, rfl⟩ := VmList.settle_sent hb'
    exact ht.own v b hb
  · intro v b' hb' w hseen
    obtain ⟨b, hb, rfl⟩ := VmList.settle_sent hb'
    have hsent := ht.known v b hb w hseen
    by_cases hw : w = id
    · subst hw
      simpa [VmList.settle] using hsent
    · simpa [VmList.settle, Function.update_of_ne hw] using hsent
  · intro h
    exact ht.missing (hsome h)
  · intro v b' hb' hprev
    obtain ⟨b, hb, rfl⟩ := VmList.settle_sent hb'
    exact ht.unkept v b hb hprev

theorem Tracks.onSuccess (ht : Tracks cache s) {id : String}
    (hpending : (s.sent id).map Sent.outcome = some .pending) :
    Tracks cache (s.settle id .success) := by
  refine ht.settle (fun h => h) ?_
  intro w
  have hsame : (s.settle id .success).shows w = s.shows w := by
    by_cases hw : w = id
    · subst hw
      obtain ⟨b, hb, hout⟩ := Option.map_eq_some_iff.mp hpending
      simp [VmList.shows, VmList.settle, hb, Sent.stands, hout]
    · exact s.settle_shows_of_ne hw .success
  rw [hsame, ht.shown]

theorem Tracks.onError (ht : Tracks cache s) {id : String}
    (hpending : (s.sent id).map Sent.outcome = some .pending)
    (halone : FailsAlone s (.onError id)) : Tracks cache (s.onError id) := by
  obtain ⟨b, hb, -⟩ := Option.map_eq_some_iff.mp hpending
  refine ht.settle ?_ ?_
  · intro h
    exact (Option.or_eq_none_iff.mp h).2
  · intro w
    by_cases hw : w = id
    · subst hw
      have hdown : (s.settle w .error).shows w = false := by
        simp [VmList.shows, VmList.settle, hb, Sent.stands]
      rw [hdown, viewOf_unmade, hb, Option.bind_some]
      cases hprev : b.prev with
      | some vms =>
          rw [Option.some_or, ← hprev]
          exact ht.kept_self hb
      | none =>
          have hnone : cache = none := ht.unkept w b hb hprev
          rw [Option.none_or, ht.shown, hnone, viewOf_none]
          rfl
    · rw [s.settle_shows_of_ne hw, ← ht.shown]
      exact halone w hw

/-- A failure takes back nothing of the others exactly when none of them changed the
list since its own mutation began. -/
theorem Tracks.failsAlone_iff (ht : Tracks cache s) {id : String} {b : Sent Rest}
    (hb : s.sent id = some b) :
    FailsAlone s (.onError id) ↔ Undisturbed s (.onError id) := by
  have hcache : (s.onError id).cache = b.prev.or s.cache := by
    simp [VmList.onError, hb]
  have hone (w : String) : entries (s.onError id).cache w = entries s.cache w ↔
      viewOf cache (s.sent w) (b.seen w) w = viewOf cache (s.sent w) (s.shows w) w := by
    rw [hcache]
    cases hprev : b.prev with
    | some vms => rw [Option.some_or, ← hprev, ht.kept id b hb, ht.shown]
    | none =>
        rw [ht.unkept id b hb hprev, viewOf_none, viewOf_none, Option.none_or]
        exact iff_of_true rfl rfl
  constructor
  · intro halone b' hb' w o hw ho hchanges
    cases hb.symm.trans hb'
    have hsame := (hone w).mp (halone w hw)
    have hedit := (ht.changes_iff ho).mp hchanges
    simp only [VmList.shows, ho, Option.any_some, viewOf] at hsame
    cases hseen : b.seen w <;> cases hstands : o.stands
    · rfl
    · simp only [hseen, hstands, if_true, Bool.false_eq_true, if_false] at hsame
      exact absurd hsame.symm hedit
    · simp only [hseen, hstands, if_true, Bool.false_eq_true, if_false] at hsame
      exact absurd hsame hedit
    · rfl
  · intro hcalm w hw
    refine (hone w).mpr ?_
    cases ho : s.sent w with
    | none => rfl
    | some o =>
        simp only [VmList.shows, ho, Option.any_some]
        by_cases hchanges : o.Changes
        · rw [hcalm b hb w o hw ho hchanges]
        · have hedit := mt (ht.changes_iff ho).mpr hchanges
          simp only [viewOf, not_not.mp hedit, ite_self]

theorem Tracks.step (ht : Tracks cache s) {a : Action} (hadm : Admitted s a)
    (halone : FailsAlone s a) : Tracks cache (machine.step s a).1 := by
  cases a with
  | mutate m => exact ht.mutate (Option.isNone_iff_eq_none.mp hadm)
  | onSuccess id => exact ht.onSuccess hadm
  | onError id => exact ht.onError hadm halone

theorem Tracks.showsOutcomes (ht : Tracks cache s) : ShowsOutcomes s := by
  intro id b hb
  have hshown := ht.shown id
  simp only [VmList.shows, hb, Option.any_some, viewOf] at hshown
  constructor
  · intro hout
    rw [ht.edited hb, hshown]
    simp [Sent.stands, hout]
  · intro hout
    rw [ht.kept_self hb, hshown]
    simp [Sent.stands, hout]

end

theorem failsAlone_iff_undisturbed {cache : Cache Rest} {s : VmList Rest} (ht : Tracks cache s)
    {a : Action} (hadm : Admitted s a) : FailsAlone s a ↔ Undisturbed s a := by
  cases a with
  | mutate m => exact Iff.rfl
  | onSuccess id => exact Iff.rfl
  | onError id =>
      obtain ⟨b, hb, -⟩ := Option.map_eq_some_iff.mp hadm
      exact ht.failsAlone_iff hb

/-- Whatever their order, mutations of pairwise different VMs roll back only themselves
exactly when no failing one was disturbed. -/
theorem rollBackAlone_iff (cache : Cache Rest) (as : List Action)
    (hadm : machine.AllSteps Admitted (initial cache) as) :
    RollBackAlone cache as ↔ machine.AllSteps Undisturbed (initial cache) as := by
  have hstep (s : VmList Rest) (a : Action) (ht : Tracks cache s) :
      (Tracks cache (machine.step s a).1 ∧ Admitted s a ∧ FailsAlone s a) ↔
        Admitted s a ∧ Undisturbed s a := by
    constructor
    · rintro ⟨-, ha, halone⟩
      exact ⟨ha, (failsAlone_iff_undisturbed ht ha).mp halone⟩
    · rintro ⟨ha, hcalm⟩
      have halone := (failsAlone_iff_undisturbed ht ha).mpr hcalm
      exact ⟨ht.step ha halone, ha, halone⟩
  have hrun := machine.prefixes_and_allSteps_iff hstep (tracks_initial cache) as
  constructor
  · rintro ⟨halone, -⟩
    have hboth := machine.allSteps_and.mpr ⟨hadm, halone⟩
    have htracks : ∀ pre, pre <+: as → Tracks cache (machine.run (initial cache) pre).1 :=
      fun _ => machine.prefixes_invariant (fun _ _ ht h => ht.step h.1 h.2)
        (tracks_initial cache) hboth
    exact (machine.allSteps_and.mp (hrun.mp ⟨htracks, hboth⟩)).2
  · intro hcalm
    obtain ⟨htracks, hboth⟩ := hrun.mpr (machine.allSteps_and.mpr ⟨hadm, hcalm⟩)
    refine ⟨(machine.allSteps_and.mp hboth).2, ?_⟩
    intro _
    exact (htracks as List.prefix_rfl).showsOutcomes

/-! ## Samples -/

def twoRunning : Cache Unit :=
  some [⟨"a", .running, "node-01", none, ()⟩, ⟨"b", .running, "node-02", none, ()⟩]

def inTurn : List Action :=
  [.mutate (.stop "a"), .onError "a", .mutate (.migrate "b" "node-01"), .onSuccess "b"]

/-- The first stop fails while the second is under way. -/
def overlapping : List Action :=
  [.mutate (.stop "a"), .mutate (.stop "b"), .onError "a", .onSuccess "b"]

theorem inTurn_alone : RollBackAlone twoRunning inTurn := by
  refine (rollBackAlone_iff twoRunning inTurn (by decide +kernel)).mpr ?_
  refine ⟨trivial, ?_, trivial, trivial, trivial⟩
  intro b _ w o hw ho
  have hnone : (machine.step (initial twoRunning) (.mutate (.stop "a"))).1.sent w = none :=
    Function.update_of_ne hw _ _
  rw [hnone] at ho
  cases ho

theorem overlapping_disturbed :
    machine.AllSteps Admitted (initial twoRunning) overlapping ∧
      ¬ RollBackAlone twoRunning overlapping := by
  refine ⟨by decide +kernel, ?_⟩
  rintro ⟨⟨-, -, hfails, -⟩, -⟩
  have hb := hfails "b" (by decide)
  revert hb
  decide +kernel

end Caiman.Ui
