import Caiman.Api.Deletion

/-!
# The record and the process

The start, the stops, the reads and the reapers each load the record, change some of
its fields and write it back. When all are done the record should name the process
that lives, and only that one.
-/

namespace Caiman.Api

open Lib

variable {vmId : String}

def VmState.Runs (st : VmState) (p : Nat) : Prop :=
  st.status = .active ∧ st.powerState = .running ∧ st.pid = some p

def VmState.Off (st : VmState) : Prop :=
  st.status = .shutOff ∧ st.powerState = .stopped ∧ st.pid = none

/-- A handler that is done, or a reaper that is done or whose process has not ended. -/
def Task.Idle (h : Host) (t : Task) : Prop := t = .finished ∨ ∃ p, t = .waiting p ∧ h.Live p

def Vm.Idle (s : Vm) : Prop := ∀ i, (s.task i).Idle s.host

/-- The record runs as `p` exactly when `p` is live; when nothing is live it is off. -/
def Vm.Accurate (s : Vm) : Prop :=
  (∀ p, (∃ st, s.host.dir = .record st ∧ st.Runs p) ↔ s.host.Live p) ∧
    ((∀ p, ¬ s.host.Live p) → ∀ st, s.host.dir = .record st → st.Off)

/-- From the spawn of a process to the last save of its reaper. -/
def Task.Keeper : Task → Prop
  | .confirm .. | .waiting _ | .woken | .settling _ => True
  | _ => False

/-- No delete. A stop, a force-stop or a reconcile saves the record it loaded, unchanged
since, and of a pid that is not live; a VMM is spawned when no process and no reaper of an
earlier one is left; no save after the first one fails, nor does a reaper's wait or load,
nor the launch of a VM whose record is still booting. -/
def Vm.Orderly (s : Vm) : VmAction → Prop
  | .request _ kind _ => kind ≠ .delete
  | .step i o =>
      match s.task i with
      | .prepare st => st.status = .booting → o.fails = false
      | .spawning st => (st.status = .booting → o.fails = false) ∧
          (o.fails = false → (∀ p, s.host.process p = none) ∧ ∀ j, ¬ (s.task j).Keeper)
      | .confirm .. | .waiting _ | .woken | .settling _ => o.fails = false
      | .savingOff st _ | .savingReconciled st _ =>
          o.fails = false ∧ s.host.dir = .record st ∧ ∀ p, st.pid = some p → ¬ s.host.Live p
      | _ => True
  | _ => True

def Task.Early : Task → Prop
  | .makeDisk .. | .announce _ => True
  | _ => False

def Task.Owns : Task → Nat → Prop
  | .confirm pid _, p | .waiting pid, p => pid = p
  | _, _ => False

def Task.Launching : Task → Prop
  | .prepare st | .spawning st => st.status = .booting
  | _ => False

/-- Neither a create before its first save, nor a keeper, nor a delete. -/
def Task.Bystander : Task → Prop
  | .finished | .checking _ | .prepare _ | .spawning _ | .reconciling ..
  | .savingReconciled .. => True
  | .signalling _ source | .savingOff _ source => source ≠ .delete
  | _ => False

/-- `reconcile` changes an active record only. -/
def Task.FoundActive : Task → Prop
  | .savingReconciled st _ => st.status = .active
  | _ => True

structure Vm.Tracked (s : Vm) : Prop where
  fresh : s.Fresh
  kept : ∀ i, ¬ (s.task i).Deleting
  /-- Nothing else goes on before the first save. -/
  early : ∀ i, (s.task i).Early → s.host.dir.load = none ∧ (∀ p, s.host.process p = none) ∧
    ∀ j, j ≠ i → s.task j = .finished
  /-- What goes on later has loaded a record, which stays. -/
  record : ∀ i, s.task i = .finished ∨ (s.task i).Early ∨ ∃ st, s.host.dir = .record st
  keeper : ∀ i j, (s.task i).Keeper → (s.task j).Keeper → i = j
  owned : ∀ p, s.host.process p ≠ none → ∃ i, (s.task i).Owns p
  running : ∀ i p, s.task i = .waiting p → s.host.Live p →
    ∃ st, s.host.dir = .record st ∧ st.Runs p
  settled : (∀ i, ¬ (s.task i).Keeper) → ∀ st, s.host.dir = .record st →
    st.Off ∨ ∃ i, (s.task i).Launching
  active : ∀ i, (s.task i).FoundActive

theorem new_tracked : Vm.new.Tracked := by
  constructor
  · exact new_fresh
  · intro i hi
    cases hi
  · intro i hi
    cases hi
  · intro i
    exact Or.inl rfl
  · intro i j hi
    cases hi
  · intro p hp
    exact absurd rfl hp
  · intro i p hi
    cases hi
  · intro _ st hst
    cases hst
  · exact fun _ => trivial

theorem Task.Owns.keeper {t : Task} {p : Nat} (h : t.Owns p) : t.Keeper := by
  cases t <;> trivial

theorem Task.Keeper.late {t : Task} (h : t.Keeper) :
    t ≠ .finished ∧ ¬ t.Early ∧ ¬ t.Deleting ∧ t.FoundActive := by
  cases t with
  | confirm | waiting | woken | settling => exact ⟨by simp, id, id, trivial⟩
  | _ => cases h

theorem Task.Bystander.quiet {t : Task} (h : t.Bystander) :
    ¬ t.Keeper ∧ ¬ t.Early ∧ ¬ t.Deleting := by
  cases t with
  | finished | checking | prepare | spawning | reconciling | savingReconciled => exact ⟨id, id, id⟩
  | signalling | savingOff => exact ⟨id, id, h⟩
  | _ => cases h

theorem Host.Live.present {h : Host} {p : Nat} (hp : h.Live p) : h.process p ≠ none := by
  obtain ⟨q, hq, -⟩ := hp
  simp [hq]

theorem Vm.Tracked.accurate {s : Vm} (hs : s.Tracked) (hidle : s.Idle) : s.Accurate := by
  have howner : ∀ q, s.host.Live q → ∃ i, s.task i = .waiting q := by
    intro q hq
    obtain ⟨i, hi⟩ := hs.owned q hq.present
    refine ⟨i, ?_⟩
    rcases hidle i with hdone | ⟨p, hp, -⟩
    · rw [hdone] at hi
      cases hi
    · rw [hp] at hi
      cases hi
      exact hp
  have hnames : ∀ q, s.host.Live q → ∃ st, s.host.dir = .record st ∧ st.Runs q := by
    intro q hq
    obtain ⟨i, hi⟩ := howner q hq
    exact hs.running i q hi hq
  have hoff : (∀ q, ¬ s.host.Live q) → ∀ st, s.host.dir = .record st → st.Off := by
    intro hnone st hst
    have hdone : ∀ i, s.task i = .finished := by
      intro i
      rcases hidle i with hdone | ⟨p, -, hp⟩
      · exact hdone
      · exact absurd hp (hnone p)
    have hkeeper : ∀ i, ¬ (s.task i).Keeper := by
      intro i hi
      rw [hdone i] at hi
      cases hi
    rcases hs.settled hkeeper st hst with hst | ⟨i, hi⟩
    · exact hst
    · rw [hdone i] at hi
      cases hi
  refine ⟨?_, hoff⟩
  intro p
  constructor
  · intro hp
    obtain ⟨st, hst, hruns⟩ := hp
    by_cases hlive : ∃ q, s.host.Live q
    · obtain ⟨q, hq⟩ := hlive
      obtain ⟨st', hst', hruns'⟩ := hnames q hq
      rw [hst] at hst'
      cases hst'
      have hpq : p = q := Option.some.inj (hruns.2.2.symm.trans hruns'.2.2)
      rw [hpq]
      exact hq
    · have hst' := hoff (fun q hq => hlive ⟨q, hq⟩) st hst
      exact absurd (hruns.1.symm.trans hst'.1) (by decide)
  · exact hnames p

/-! ## Steps -/

/-- What a step of another task than the keeper may do to the host: it ends processes
and starts none, and it keeps a record that runs or is off. -/
structure Host.Follows (h h' : Host) : Prop where
  unrecorded : h.dir.load = none → h'.dir.load = none
  recorded : (∃ st, h.dir = .record st) → ∃ st, h'.dir = .record st
  runs : ∀ p, h'.Live p → (∃ st, h.dir = .record st ∧ st.Runs p) →
    ∃ st, h'.dir = .record st ∧ st.Runs p
  off : ∀ st', h'.dir = .record st' → ∃ st, h.dir = .record st ∧ (st.Off → st'.Off)
  present : ∀ p, h'.process p ≠ none → h.process p ≠ none
  live : ∀ p, h'.Live p → h.Live p

theorem Host.Follows.of_dir {h h' : Host} (hdir : h'.dir = h.dir)
    (present : ∀ p, h'.process p ≠ none → h.process p ≠ none)
    (live : ∀ p, h'.Live p → h.Live p) : h.Follows h' := by
  constructor
  · intro hnone
    rw [hdir]
    exact hnone
  · intro hst
    rw [hdir]
    exact hst
  · intro p _ hst
    rw [hdir]
    exact hst
  · intro st hst
    exact ⟨st, hdir ▸ hst, id⟩
  · exact present
  · exact live

theorem Host.Follows.refl (h : Host) : h.Follows h :=
  .of_dir rfl (fun _ => id) (fun _ => id)

theorem Host.Follows.kill (h : Host) (pid : Nat) : h.Follows (h.kill pid) := by
  apply Host.Follows.of_dir (h.kill_dir pid)
  · intro p
    unfold Host.kill
    cases hpid : h.process pid with
    | none => exact id
    | some q =>
        by_cases hp : p = pid
        · subst hp
          simp [hpid]
        · simp [hp]
  · intro p hp
    exact (Host.live_kill.mp hp).1

theorem Host.Follows.remove (h : Host) (pid : Nat) : h.Follows (h.remove pid) := by
  apply Host.Follows.of_dir
  · rfl
  · intro p
    unfold Host.remove
    by_cases hp : p = pid
    · subst hp
      simp
    · simp [hp]
  · intro p hp
    exact (Host.live_remove.mp hp).1

theorem Host.Follows.save {h : Host} {st st' : VmState} {o : Outcome} (hok : o.fails = false)
    (hdir : h.dir = .record st) (hdead : ∀ p, st.pid = some p → ¬ h.Live p)
    (hoff : st.Off → st'.Off) : h.Follows (h.save st' o) := by
  have hsave : h.save st' o = { h with dir := .record st' } := by simp [Host.save, hok]
  rw [hsave]
  constructor
  · intro hnone
    rw [hdir] at hnone
    cases hnone
  · intro _
    exact ⟨st', rfl⟩
  · intro p hp hruns
    obtain ⟨st₀, hst₀, hruns⟩ := hruns
    rw [hdir] at hst₀
    cases hst₀
    exact absurd hp (hdead p hruns.2.2)
  · intro st₀ hst₀
    cases hst₀
    exact ⟨st, hdir, hoff⟩
  · exact fun _ => id
  · exact fun _ => id

theorem Vm.Tracked.move {s : Vm} (hs : s.Tracked) {i : Nat} {h : Host} {old t : Task}
    (hi : s.task i = old) (hfresh : (s.advance i h t).Fresh) (hhost : s.host.Follows h)
    (hold : old.Bystander) (hnew : t.Bystander) (hlaunching : old.Launching → t.Launching)
    (hrecord : t = .finished ∨ ∃ st, s.host.dir = .record st) (hactive : t.FoundActive) :
    (s.advance i h t).Tracked := by
  subst hi
  have hkeeper : ∀ j, ((s.advance i h t).task j).Keeper ↔ (s.task j).Keeper := by
    intro j
    rcases s.advance_task_cases i h t j with ⟨rfl, htask⟩ | ⟨-, htask⟩
    · rw [htask]
      exact iff_of_false hnew.quiet.1 hold.quiet.1
    · rw [htask]
  constructor
  · exact hfresh
  · exact Vm.forall_advance (Q := fun t => ¬ t.Deleting) hnew.quiet.2.2 fun j _ => hs.kept j
  · intro j hj
    rcases s.advance_task_cases i h t j with ⟨-, htask⟩ | ⟨hji, htask⟩
    · rw [htask] at hj
      exact absurd hj hnew.quiet.2.1
    · rw [htask] at hj
      obtain ⟨hload, hnone, hothers⟩ := hs.early j hj
      refine ⟨hhost.unrecorded hload,
        fun p => by_contra fun hp => hhost.present p hp (hnone p), ?_⟩
      intro k hk
      rcases s.advance_task_cases i h t k with ⟨-, htask⟩ | ⟨-, htask⟩
      · rw [htask]
        rcases hrecord with hfinished | ⟨st, hst⟩
        · exact hfinished
        · rw [hst] at hload
          cases hload
      · rw [htask]
        exact hothers k hk
  · apply Vm.forall_advance (Q := fun t => t = .finished ∨ t.Early ∨ ∃ st, h.dir = .record st)
    · exact hrecord.imp_right fun hst => Or.inr (hhost.recorded hst)
    · intro j _
      exact (hs.record j).imp_right fun hj => hj.imp_right hhost.recorded
  · intro j k hj hk
    exact hs.keeper j k ((hkeeper j).mp hj) ((hkeeper k).mp hk)
  · intro p hp
    obtain ⟨j, hj⟩ := hs.owned p (hhost.present p hp)
    refine ⟨j, ?_⟩
    rcases s.advance_task_cases i h t j with ⟨rfl, -⟩ | ⟨-, htask⟩
    · exact absurd hj.keeper hold.quiet.1
    · rw [htask]
      exact hj
  · intro j p hj hp
    rcases s.advance_task_cases i h t j with ⟨-, htask⟩ | ⟨-, htask⟩
    · rw [htask] at hj
      exact absurd (by rw [hj]; trivial) hnew.quiet.1
    · rw [htask] at hj
      exact hhost.runs p hp (hs.running j p hj (hhost.live p hp))
  · intro hnone st' hst'
    obtain ⟨st, hst, hoff⟩ := hhost.off st' hst'
    rcases hs.settled (fun j hj => hnone j ((hkeeper j).mpr hj)) st hst with hst | ⟨j, hj⟩
    · exact Or.inl (hoff hst)
    · refine Or.inr ⟨j, ?_⟩
      rcases s.advance_task_cases i h t j with ⟨rfl, htask⟩ | ⟨-, htask⟩
      · rw [htask]
        exact hlaunching hj
      · rw [htask]
        exact hj
  · exact Vm.forall_advance hactive fun j _ => hs.active j

theorem Vm.Tracked.keep {s : Vm} (hs : s.Tracked) {i : Nat} {h : Host} {t : Task}
    (hfresh : (s.advance i h t).Fresh) (hbusy : s.task i ≠ .finished)
    (hothers : ∀ j, j ≠ i → ¬ (s.task j).Keeper) (hnew : t.Keeper ∨ t = .finished)
    (hrecord : ∃ st, h.dir = .record st) (howned : ∀ p, h.process p ≠ none → t.Owns p)
    (hrunning : ∀ p, t = .waiting p → h.Live p → ∃ st, h.dir = .record st ∧ st.Runs p)
    (hsettled : ¬ t.Keeper → ∀ st, h.dir = .record st → st.Off) : (s.advance i h t).Tracked := by
  have honly : ∀ j, ((s.advance i h t).task j).Keeper → j = i := by
    intro j hj
    rcases s.advance_task_cases i h t j with ⟨hji, -⟩ | ⟨hji, htask⟩
    · exact hji
    · rw [htask] at hj
      exact absurd hj (hothers j hji)
  have hown : (s.advance i h t).task i = t := Function.update_self _ _ _
  have hlate : ¬ t.Early ∧ ¬ t.Deleting ∧ t.FoundActive := by
    rcases hnew with hkeeper | rfl
    · exact hkeeper.late.2
    · exact ⟨id, id, trivial⟩
  constructor
  · exact hfresh
  · exact Vm.forall_advance (Q := fun t => ¬ t.Deleting) hlate.2.1 fun j _ => hs.kept j
  · intro j hj
    rcases s.advance_task_cases i h t j with ⟨-, htask⟩ | ⟨hji, htask⟩
    · rw [htask] at hj
      exact absurd hj hlate.1
    · rw [htask] at hj
      exact absurd ((hs.early j hj).2.2 i (Ne.symm hji)) hbusy
  · exact fun j => Or.inr (Or.inr hrecord)
  · intro j k hj hk
    rw [honly j hj, honly k hk]
  · intro p hp
    refine ⟨i, ?_⟩
    rw [hown]
    exact howned p hp
  · intro j p hj hp
    have hji : j = i := honly j (by rw [hj]; trivial)
    subst hji
    exact hrunning p (hown ▸ hj) hp
  · intro hnone st hst
    exact Or.inl (hsettled (fun ht => hnone i (hown.symm ▸ ht)) st hst)
  · exact Vm.forall_advance hlate.2.2 fun j _ => hs.active j

theorem Task.quiet_of_create {t : Task} (ht : t = .finished ∨ t.Early ∨ t.Launching) :
    ¬ t.Keeper ∧ ¬ t.Deleting ∧ t.FoundActive := by
  cases t with
  | finished | makeDisk | announce | prepare | spawning => exact ⟨id, id, trivial⟩
  | _ => rcases ht with h | h | h <;> cases h

theorem Vm.tracked_of_create {s : Vm} (hfresh : s.Fresh) {i : Nat}
    (hothers : ∀ j, j ≠ i → s.task j = .finished) (hproc : ∀ p, s.host.process p = none)
    (htask : ((s.task i = .finished ∨ (s.task i).Early) ∧ s.host.dir.load = none) ∨
      ((s.task i).Launching ∧ ∃ st, s.host.dir = .record st)) : s.Tracked := by
  have hquiet : ∀ j, ¬ (s.task j).Keeper ∧ ¬ (s.task j).Deleting ∧ (s.task j).FoundActive := by
    intro j
    by_cases hj : j = i
    · subst hj
      rcases htask with ⟨hdone | hearly, -⟩ | ⟨hlaunching, -⟩
      · exact Task.quiet_of_create (Or.inl hdone)
      · exact Task.quiet_of_create (Or.inr (Or.inl hearly))
      · exact Task.quiet_of_create (Or.inr (Or.inr hlaunching))
    · exact Task.quiet_of_create (Or.inl (hothers j hj))
  constructor
  · exact hfresh
  · exact fun j => (hquiet j).2.1
  · intro j hj
    by_cases hji : j = i
    · subst hji
      rcases htask with ⟨-, hload⟩ | ⟨hlaunching, -⟩
      · exact ⟨hload, hproc, hothers⟩
      · revert hj hlaunching
        cases s.task j <;> simp [Task.Early, Task.Launching]
    · rw [hothers j hji] at hj
      cases hj
  · intro j
    by_cases hji : j = i
    · subst hji
      rcases htask with ⟨hearly, -⟩ | ⟨-, hst⟩
      · exact hearly.imp_right Or.inl
      · exact Or.inr (Or.inr hst)
    · exact Or.inl (hothers j hji)
  · intro j k hj
    exact absurd hj (hquiet j).1
  · intro p hp
    exact absurd (hproc p) hp
  · intro j p hj
    exact absurd (by rw [hj]; trivial) (hquiet j).1
  · intro _ st hst
    rcases htask with ⟨-, hload⟩ | ⟨hlaunching, -⟩
    · rw [hst] at hload
      cases hload
    · exact Or.inr ⟨i, hlaunching⟩
  · exact fun j => (hquiet j).2.2

theorem Vm.Tracked.only {s : Vm} (hs : s.Tracked) {i : Nat} (hi : (s.task i).Keeper) :
    s.task i ≠ .finished ∧ (∀ j, j ≠ i → ¬ (s.task j).Keeper) ∧
      ∀ p, s.host.process p ≠ none → (s.task i).Owns p := by
  refine ⟨hi.late.1, ?_, ?_⟩
  · intro j hji hj
    exact hji (hs.keeper j i hj hi)
  · intro p hp
    obtain ⟨j, hj⟩ := hs.owned p hp
    rw [hs.keeper i j hi hj.keeper]
    exact hj

theorem Vm.Tracked.has_record {s : Vm} (hs : s.Tracked) {i : Nat} {t : Task} (hi : s.task i = t)
    (hbusy : t ≠ .finished) (hlate : ¬ t.Early) : ∃ st, s.host.dir = .record st := by
  subst hi
  rcases hs.record i with hdone | hearly | hst
  · exact absurd hdone hbusy
  · exact absurd hearly hlate
  · exact hst

theorem Host.save_of_ok {h : Host} {o : Outcome} (hok : o.fails = false) (st : VmState) :
    h.save st o = { h with dir := .record st } := by
  simp [Host.save, hok]

section

variable {s : Vm} (hs : s.Tracked) {i : Nat} {o : Outcome}

include hs

theorem Vm.Tracked.step_makeDisk {id : String} {req : CreateVmRequest}
    (hi : s.task i = .makeDisk id req) {t : Vm}
    (ht : t = s.advance i (Task.step s.host o (.makeDisk id req)).1
      (Task.step s.host o (.makeDisk id req)).2.1) (hfresh : t.Fresh) : t.Tracked := by
  obtain ⟨hload, hproc, hothers⟩ := hs.early i (by rw [hi]; trivial)
  subst ht
  apply Vm.tracked_of_create hfresh (i := i)
  · intro j hj
    exact (Function.update_of_ne hj _ _).trans (hothers j hj)
  · exact hproc
  · refine Or.inl ⟨Or.inr ?_, ?_⟩
    · show (Function.update s.task i _ i).Early
      rw [Function.update_self]
      trivial
    · show StateDir.load (if o.fails && !o.torn then s.host.dir else s.host.dir.ensure) = none
      have hensure : s.host.dir.ensure.load = none := by
        cases hdir : s.host.dir with
        | absent => rfl
        | bare => rfl
        | record st =>
            rw [hdir] at hload
            cases hload
      split
      · exact hload
      · exact hensure

theorem Vm.Tracked.step_announce {disk : Option String} (hi : s.task i = .announce disk) {t : Vm}
    (ht : t = s.advance i (Task.step s.host o (.announce disk)).1
      (Task.step s.host o (.announce disk)).2.1) (hfresh : t.Fresh) : t.Tracked := by
  obtain ⟨hload, hproc, hothers⟩ := hs.early i (by rw [hi]; trivial)
  subst ht
  have hown : (s.advance i (Task.step s.host o (.announce disk)).1
      (Task.step s.host o (.announce disk)).2.1).task i =
        if o.fails then .finished else .prepare (VmState.initial disk) :=
    Function.update_self _ _ _
  apply Vm.tracked_of_create hfresh (i := i)
  · intro j hj
    exact (Function.update_of_ne hj _ _).trans (hothers j hj)
  · intro p
    show (s.host.save (VmState.initial disk) o).process p = none
    rw [Host.save_process]
    exact hproc p
  · rw [hown]
    show _ ∧ (s.host.save (VmState.initial disk) o).dir.load = none ∨
      _ ∧ ∃ st, (s.host.save (VmState.initial disk) o).dir = .record st
    cases hfails : o.fails with
    | true =>
        refine Or.inl ⟨Or.inl rfl, ?_⟩
        simp only [Host.save, hfails, if_true]
        split
        · rfl
        · exact hload
    | false =>
        rw [Host.save_of_ok hfails]
        exact Or.inr ⟨rfl, _, rfl⟩

theorem Vm.Tracked.step_checking {st : VmState} (hi : s.task i = .checking st) {t : Vm}
    (ht : t = s.advance i (Task.step s.host o (.checking st)).1
      (Task.step s.host o (.checking st)).2.1) (hfresh : t.Fresh) : t.Tracked := by
  have hrecord := hs.has_record hi (by simp) id
  have hnext : ∃ u, t = s.advance i s.host u ∧ (u = .finished ∨ u = .prepare st) := by
    subst ht
    simp only [Task.step]
    split
    · exact ⟨_, rfl, Or.inr rfl⟩
    · refine ⟨_, rfl, ?_⟩
      split
      · exact Or.inl rfl
      · exact Or.inr rfl
  obtain ⟨u, rfl, hu⟩ := hnext
  have hrest : u.Bystander ∧ u.FoundActive := by
    rcases hu with rfl | rfl <;> exact ⟨trivial, trivial⟩
  exact hs.move hi hfresh (.refl _) trivial hrest.1 False.elim (Or.inr hrecord) hrest.2

theorem Vm.Tracked.step_prepare {st : VmState} (hi : s.task i = .prepare st)
    (hok : st.status = .booting → o.fails = false) {t : Vm}
    (ht : t = s.advance i (Task.step s.host o (.prepare st)).1
      (Task.step s.host o (.prepare st)).2.1) (hfresh : t.Fresh) : t.Tracked := by
  obtain ⟨st₀, hst₀⟩ := hs.has_record hi (by simp) id
  have hnext : ∃ u, t = s.advance i s.host u ∧
      ((u = .finished ∧ st.status ≠ .booting) ∨ u = .spawning st) := by
    subst ht
    refine ⟨_, rfl, ?_⟩
    simp only [Task.step, hst₀]
    cases hfails : o.fails with
    | false => exact Or.inr rfl
    | true =>
        refine Or.inl ⟨rfl, ?_⟩
        intro hbooting
        rw [hok hbooting] at hfails
        cases hfails
  obtain ⟨u, rfl, ⟨rfl, hnot⟩ | rfl⟩ := hnext
  · exact hs.move hi hfresh (.refl _) trivial trivial (fun hbooting => absurd hbooting hnot)
      (Or.inl rfl) trivial
  · exact hs.move hi hfresh (.refl _) trivial trivial id (Or.inr ⟨st₀, hst₀⟩) trivial

theorem Vm.Tracked.step_spawning {st : VmState} (hi : s.task i = .spawning st)
    (hok : st.status = .booting → o.fails = false)
    (halone : o.fails = false → (∀ p, s.host.process p = none) ∧ ∀ j, ¬ (s.task j).Keeper) {t : Vm}
    (ht : t = s.advance i (Task.step s.host o (.spawning st)).1
      (Task.step s.host o (.spawning st)).2.1) (hfresh : t.Fresh) : t.Tracked := by
  have hrecord := hs.has_record hi (by simp) id
  cases hfails : o.fails with
  | true =>
      have hnot : st.status ≠ .booting := by
        intro hbooting
        rw [hok hbooting] at hfails
        cases hfails
      simp only [Task.step, hfails, if_true] at ht
      subst ht
      exact hs.move hi hfresh (.refl _) trivial trivial (fun hbooting => absurd hbooting hnot)
        (Or.inl rfl) trivial
  | false =>
      obtain ⟨hnone, hkeeper⟩ := halone hfails
      simp only [Task.step, hfails, hnone, Option.isSome_none, Bool.false_eq_true, if_false] at ht
      subst ht
      apply hs.keep hfresh
      · simp [hi]
      · exact fun j _ => hkeeper j
      · exact Or.inl trivial
      · exact hrecord
      · intro p hp
        show o.pid = p
        by_contra hne
        simp only [Host.spawn, Function.update_of_ne (Ne.symm hne)] at hp
        exact hp (hnone p)
      · intro p hp
        cases hp
      · exact fun hnot => absurd trivial hnot

theorem Vm.Tracked.step_confirm {pid : Nat} {st : VmState} (hi : s.task i = .confirm pid st)
    (hok : o.fails = false) {t : Vm}
    (ht : t = s.advance i (Task.step s.host o (.confirm pid st)).1
      (Task.step s.host o (.confirm pid st)).2.1) (hfresh : t.Fresh) : t.Tracked := by
  obtain ⟨hbusy, hothers, howned⟩ := hs.only (i := i) (by rw [hi]; trivial)
  simp only [Task.step, hok, Host.save_of_ok hok, Bool.false_eq_true, if_false] at ht
  subst ht
  apply hs.keep hfresh
  · exact hbusy
  · exact hothers
  · exact Or.inl trivial
  · exact ⟨_, rfl⟩
  · intro p hp
    have hown := howned p hp
    rw [hi] at hown
    exact hown
  · intro p hp _
    cases hp
    exact ⟨_, rfl, rfl, rfl, rfl⟩
  · exact fun hnot => absurd trivial hnot

theorem Vm.Tracked.step_waiting {pid : Nat} (hi : s.task i = .waiting pid)
    (hok : o.fails = false) {t : Vm}
    (ht : t = s.advance i (Task.step s.host o (.waiting pid)).1
      (Task.step s.host o (.waiting pid)).2.1) (hfresh : t.Fresh) : t.Tracked := by
  obtain ⟨hbusy, hothers, howned⟩ := hs.only (i := i) (by rw [hi]; trivial)
  rw [hi] at howned
  have hrecord := hs.has_record hi (by simp) id
  have hnext : t = s.advance i s.host (.waiting pid) ∨
      t = s.advance i (s.host.remove pid) .woken := by
    subst ht
    simp only [Task.step, hok, Bool.false_eq_true, if_false]
    split
    · split
      · exact Or.inl rfl
      · exact Or.inr rfl
    · exact Or.inl rfl
  rcases hnext with rfl | rfl
  · apply hs.keep hfresh
    · exact hbusy
    · exact hothers
    · exact Or.inl trivial
    · exact hrecord
    · exact howned
    · intro p hp hlive
      cases hp
      exact hs.running i pid hi hlive
    · exact fun hnot => absurd trivial hnot
  · apply hs.keep hfresh
    · exact hbusy
    · exact hothers
    · exact Or.inl trivial
    · exact hrecord
    · intro p hp
      have hown : pid = p := howned p ((Host.Follows.remove s.host pid).present p hp)
      subst hown
      exact absurd (Function.update_self _ _ _) hp
    · intro p hp
      cases hp
    · exact fun hnot => absurd trivial hnot

theorem Vm.Tracked.step_woken (hi : s.task i = .woken) (hok : o.fails = false) {t : Vm}
    (ht : t = s.advance i (Task.step s.host o .woken).1 (Task.step s.host o .woken).2.1)
    (hfresh : t.Fresh) : t.Tracked := by
  obtain ⟨hbusy, hothers, howned⟩ := hs.only (i := i) (by rw [hi]; trivial)
  obtain ⟨st, hst⟩ := hs.has_record hi (by simp) id
  simp only [Task.step, hst, StateDir.load, hok, Bool.false_eq_true, if_false] at ht
  subst ht
  apply hs.keep hfresh
  · exact hbusy
  · exact hothers
  · exact Or.inl trivial
  · exact ⟨st, hst⟩
  · intro p hp
    have hown := howned p hp
    rw [hi] at hown
    cases hown
  · intro p hp
    cases hp
  · exact fun hnot => absurd trivial hnot

theorem Vm.Tracked.step_settling {st : VmState} (hi : s.task i = .settling st)
    (hok : o.fails = false) {t : Vm}
    (ht : t = s.advance i (Task.step s.host o (.settling st)).1
      (Task.step s.host o (.settling st)).2.1) (hfresh : t.Fresh) : t.Tracked := by
  obtain ⟨hbusy, hothers, howned⟩ := hs.only (i := i) (by rw [hi]; trivial)
  simp only [Task.step, Host.save_of_ok hok] at ht
  subst ht
  apply hs.keep hfresh
  · exact hbusy
  · exact hothers
  · exact Or.inr rfl
  · exact ⟨_, rfl⟩
  · intro p hp
    have hown := howned p hp
    rw [hi] at hown
    cases hown
  · intro p hp
    cases hp
  · intro _ st' hst'
    cases hst'
    exact ⟨rfl, rfl, rfl⟩

theorem Vm.Tracked.step_signalling {st : VmState} {source : Stopper}
    (hi : s.task i = .signalling st source) {t : Vm}
    (ht : t = s.advance i (Task.step s.host o (.signalling st source)).1
      (Task.step s.host o (.signalling st source)).2.1) (hfresh : t.Fresh) : t.Tracked := by
  have hrecord := hs.has_record hi (by simp) id
  have hsource : source ≠ .delete := by
    intro hdelete
    exact hs.kept i (by rw [hi]; exact hdelete)
  have hnext : ∃ h u, t = s.advance i h u ∧ s.host.Follows h ∧
      (u = .finished ∨ u = .savingOff st source) := by
    subst ht
    simp only [Task.step]
    split
    · exact ⟨_, _, rfl, .refl _, Or.inr rfl⟩
    · refine ⟨_, _, rfl, .refl _, ?_⟩
      split
      · exact Or.inl rfl
      · exact Or.inr rfl
    · exact ⟨_, _, rfl, .kill _ _, Or.inr rfl⟩
  obtain ⟨h, u, rfl, hhost, hu⟩ := hnext
  rcases hu with rfl | rfl
  · exact hs.move hi hfresh hhost hsource trivial False.elim (Or.inl rfl) trivial
  · exact hs.move hi hfresh hhost hsource hsource False.elim (Or.inr hrecord) trivial

theorem Vm.Tracked.step_savingOff {st : VmState} {source : Stopper}
    (hi : s.task i = .savingOff st source) (hok : o.fails = false)
    (hdir : s.host.dir = .record st) (hdead : ∀ p, st.pid = some p → ¬ s.host.Live p) {t : Vm}
    (ht : t = s.advance i (Task.step s.host o (.savingOff st source)).1
      (Task.step s.host o (.savingOff st source)).2.1) (hfresh : t.Fresh) : t.Tracked := by
  have hsource : source ≠ .delete := by
    intro hdelete
    exact hs.kept i (by rw [hi]; exact hdelete)
  simp only [Task.step, if_neg hsource] at ht
  subst ht
  have hhost : s.host.Follows (s.host.save st.signalled o) :=
    .save hok hdir hdead fun hoff => ⟨rfl, hoff.2.1, rfl⟩
  exact hs.move hi hfresh hhost hsource trivial False.elim (Or.inl rfl) trivial

theorem Vm.Tracked.step_reconciling {st : VmState} {checks : Nat}
    (hi : s.task i = .reconciling st checks) {t : Vm}
    (ht : t = s.advance i (Task.step s.host o (.reconciling st checks)).1
      (Task.step s.host o (.reconciling st checks)).2.1) (hfresh : t.Fresh) : t.Tracked := by
  have hrecord := hs.has_record hi (by simp) id
  have hnext : ∃ u, t = s.advance i s.host u ∧ (u = .finished ∨ (∃ n, u = .reconciling st n) ∨
      ∃ n, u = .savingReconciled st n ∧ st.status = .active) := by
    subst ht
    cases checks with
    | zero => exact ⟨_, rfl, Or.inl rfl⟩
    | succ n =>
        simp only [Task.step]
        split
        · rename_i hgone
          exact ⟨_, rfl, Or.inr (Or.inr ⟨n, rfl, hgone.1⟩)⟩
        · exact ⟨_, rfl, Or.inr (Or.inl ⟨n, rfl⟩)⟩
  obtain ⟨u, rfl, hu⟩ := hnext
  have hrest : u.Bystander ∧ u.FoundActive := by
    rcases hu with rfl | ⟨n, rfl⟩ | ⟨n, rfl, hactive⟩
    · exact ⟨trivial, trivial⟩
    · exact ⟨trivial, trivial⟩
    · exact ⟨trivial, hactive⟩
  exact hs.move hi hfresh (.refl _) trivial hrest.1 False.elim (Or.inr hrecord) hrest.2

theorem Vm.Tracked.step_savingReconciled {st : VmState} {checks : Nat}
    (hi : s.task i = .savingReconciled st checks) (hok : o.fails = false)
    (hdir : s.host.dir = .record st) (hdead : ∀ p, st.pid = some p → ¬ s.host.Live p) {t : Vm}
    (ht : t = s.advance i (Task.step s.host o (.savingReconciled st checks)).1
      (Task.step s.host o (.savingReconciled st checks)).2.1) (hfresh : t.Fresh) : t.Tracked := by
  have hactive := hs.active i
  rw [hi] at hactive
  have hhost : s.host.Follows (s.host.save st.reconciled o) := by
    apply Host.Follows.save hok hdir hdead
    intro hoff
    exact absurd (Eq.trans (Eq.symm hactive) hoff.1) (by decide)
  subst ht
  exact hs.move hi hfresh hhost trivial trivial False.elim (Or.inr ⟨st, hdir⟩) trivial

theorem Vm.Tracked.follow {h : Host} (hfresh : ({ s with host := h } : Vm).Fresh)
    (hhost : s.host.Follows h) : ({ s with host := h } : Vm).Tracked := by
  constructor
  · exact hfresh
  · exact hs.kept
  · intro i hi
    obtain ⟨hload, hnone, hothers⟩ := hs.early i hi
    exact ⟨hhost.unrecorded hload, fun p => by_contra fun hp => hhost.present p hp (hnone p),
      hothers⟩
  · intro i
    exact (hs.record i).imp_right fun hi => hi.imp_right hhost.recorded
  · exact hs.keeper
  · intro p hp
    exact hs.owned p (hhost.present p hp)
  · intro i p hi hp
    exact hhost.runs p hp (hs.running i p hi (hhost.live p hp))
  · intro hnone st' hst'
    obtain ⟨st, hst, hoff⟩ := hhost.off st' hst'
    exact (hs.settled hnone st hst).imp_left hoff
  · exact hs.active

theorem Vm.Tracked.request {kind : RequestKind} {readable : Bool} (hi : s.task i = .finished)
    (hkind : kind ≠ .delete) {t : Vm}
    (ht : t = s.advance i s.host (kind.first (if readable then s.host.dir.load else none)))
    (hfresh : t.Fresh) : t.Tracked := by
  subst ht
  have hload : ∀ st, (if readable then s.host.dir.load else none) = some st →
      s.host.dir = .record st := by
    intro st hst
    cases readable with
    | false => cases hst
    | true => exact StateDir.load_eq_some hst
  have hfirst : ∃ u, kind.first (if readable then s.host.dir.load else none) = u ∧
      u.Bystander ∧ (u = .finished ∨ ∃ st, s.host.dir = .record st) ∧ u.FoundActive := by
    rcases kind.first_cases (if readable then s.host.dir.load else none) with
      h | ⟨hdelete, -, -⟩ | ⟨st, hst, h | ⟨checks, h⟩ | ⟨source, h, hsource⟩⟩
    · exact ⟨_, h, trivial, Or.inl rfl, trivial⟩
    · exact absurd hdelete hkind
    · exact ⟨_, h, trivial, Or.inr ⟨st, hload st hst⟩, trivial⟩
    · exact ⟨_, h, trivial, Or.inr ⟨st, hload st hst⟩, trivial⟩
    · exact ⟨_, h, fun hdelete => hkind (hsource hdelete), Or.inr ⟨st, hload st hst⟩, trivial⟩
  obtain ⟨u, hu, hnew, hrecord, hactive⟩ := hfirst
  rw [hu] at hfresh ⊢
  exact hs.move hi hfresh (.refl _) trivial hnew False.elim hrecord hactive

theorem Vm.Tracked.step (ha : s.Orderly (.step i o)) {t : Vm}
    (ht : t = s.advance i ((s.task i).step s.host o).1 ((s.task i).step s.host o).2.1)
    (hfresh : t.Fresh) : t.Tracked := by
  have hdelete := hs.kept i
  simp only [Vm.Orderly] at ha
  cases hi : s.task i <;> rw [hi] at ht <;> simp only [hi] at ha
  case finished =>
    subst ht
    exact hs.move hi hfresh (.refl _) trivial trivial id (Or.inl rfl) trivial
  case makeDisk => exact hs.step_makeDisk hi ht hfresh
  case announce => exact hs.step_announce hi ht hfresh
  case checking => exact hs.step_checking hi ht hfresh
  case prepare => exact hs.step_prepare hi ha ht hfresh
  case spawning => exact hs.step_spawning hi ha.1 ha.2 ht hfresh
  case confirm => exact hs.step_confirm hi ha ht hfresh
  case waiting => exact hs.step_waiting hi ha ht hfresh
  case woken => exact hs.step_woken hi ha ht hfresh
  case settling => exact hs.step_settling hi ha ht hfresh
  case signalling => exact hs.step_signalling hi ht hfresh
  case savingOff => exact hs.step_savingOff hi ha.1 ha.2.1 ha.2.2 ht hfresh
  case reconciling => exact hs.step_reconciling hi ht hfresh
  case savingReconciled => exact hs.step_savingReconciled hi ha.1 ha.2.1 ha.2.2 ht hfresh
  all_goals
    rw [hi] at hdelete
    exact absurd trivial hdelete

end

theorem step_tracked (s : Vm) (a : VmAction) (hs : s.Tracked) (ha : s.Orderly a) :
    ((lifecycle vmId).step s a).1.Tracked := by
  have hfresh := step_fresh vmId s a hs.fresh
  apply step_rule (I := fun t => t.Fresh → t.Tracked) (fun _ => hs) ?_ ?_ ?_ ?_ ?_ hfresh
  · intro i req _ hcreated _ hnext
    obtain ⟨hdir, hproc, htask⟩ := hs.fresh hcreated
    apply Vm.tracked_of_create hnext (i := i)
    · intro j hj
      show Function.update s.task i _ j = .finished
      rw [Function.update_of_ne hj]
      have hvacant := htask j
      have hkept := hs.kept j
      revert hvacant hkept
      cases s.task j <;> simp [Task.Vacant, Task.Deleting, Task.Ending]
    · exact hproc
    · refine Or.inl ⟨Or.inr ?_, ?_⟩
      · show (Function.update s.task i _ i).Early
        rw [Function.update_self]
        trivial
      · show s.host.dir.load = none
        rw [hdir]
        rfl
  · intro i kind readable h hfree hnext
    subst h
    exact hs.request hfree ha rfl hnext
  · intro i o h hnext
    subst h
    exact hs.step ha rfl hnext
  · intro pid _ hnext
    exact hs.follow hnext (.kill _ _)
  · intro pid p _ _ _ _ hnext
    exact hs.follow hnext (.remove _ _)

/-- For every orderly interleaving of creates, starts, stops, reads, reapers and exits:
whenever all are idle, the record tracks the process. -/
theorem record_tracks_process {as : List VmAction}
    (hall : (lifecycle vmId).AllSteps Vm.Orderly .new as) {pre : List VmAction}
    (hpre : pre <+: as) (hidle : ((lifecycle vmId).run .new pre).1.Idle) :
    ((lifecycle vmId).run .new pre).1.Accurate := by
  have htracked := (lifecycle vmId).prefixes_invariant step_tracked new_tracked hall hpre
  exact htracked.accurate hidle

/-- A running VM is stopped by force; its reaper is last. -/
theorem record_tracks_process_force_stopped :
    let as := createRun 7 ++ [.request 1 .forceStop true, .step 1 {}, .step 1 {}, .step 0 {},
      .step 0 {}, .step 0 {}]
    sampleVm.AllSteps Vm.Orderly .new as ∧ (sampleVm.run .new as).1.Idle ∧
      (sampleVm.run .new as).1.Accurate := by
  intro as
  have hspawn : ∀ j, ¬ ((sampleVm.run .new ((createRun 7).take 4)).1.task j).Keeper := by
    apply forall_run_task (n := 1) (Q := fun t => ¬ t.Keeper)
    · simp [createRun, VmAction.slot]
    · exact id
    · intro j hj
      interval_cases j
      exact id
  have hdead : ∀ p, some 7 = some p → ¬ (sampleVm.run .new (createRun 7 ++
      [.request 1 .forceStop true, .step 1 {}])).1.host.Live p := by
    intro p hp hlive
    cases hp
    obtain ⟨q, hq, halive⟩ := hlive
    cases hq
    cases halive
  have hall : sampleVm.AllSteps Vm.Orderly .new as :=
    ⟨trivial, trivial, trivial, fun _ => rfl, ⟨fun _ => rfl, fun _ => ⟨fun _ => rfl, hspawn⟩⟩, rfl,
      fun h => (by cases h), trivial, ⟨rfl, rfl, hdead⟩, rfl, rfl, rfl, trivial⟩
  have hidle : (sampleVm.run .new as).1.Idle := by
    apply forall_run_task (n := 2) (Q := Task.Idle (sampleVm.run .new as).1.host)
    · simp [as, createRun, VmAction.slot]
    · exact Or.inl rfl
    · intro j hj
      interval_cases j <;> exact Or.inl rfl
  exact ⟨hall, hidle, record_tracks_process hall (List.prefix_refl as) hidle⟩

/-- A running VM is stopped. The record is off, with the power still on, and the process
has not ended. -/
theorem stopped_while_running_is_inaccurate :
    let s := (sampleVm.run .new (createRun 7 ++ [.request 1 .stop true, .step 1 {},
      .step 1 {}])).1
    s.Idle ∧ ¬ s.Accurate := by
  intro s
  have hlive : s.host.Live 7 := ⟨⟨true, true⟩, rfl, rfl⟩
  constructor
  · apply forall_run_task (n := 2) (Q := Task.Idle s.host)
    · simp [createRun, VmAction.slot]
    · exact Or.inl rfl
    · intro j hj
      interval_cases j
      · exact Or.inr ⟨7, rfl, hlive⟩
      · exact Or.inl rfl
  · intro haccurate
    obtain ⟨st, hst, hruns⟩ := (haccurate.1 7).mpr hlive
    cases hst
    cases hruns.1

end Caiman.Api
