import Caiman.Lib.Recent
import Caiman.Ui.Bus

/-!
# What becomes of a dispatch

A toast is executed or undone and does not get lost; the flag of an action is up while it runs;
the log of the browser holds what was executed.
-/

namespace Caiman.Ui.Bus

open Lib

/-! ## Nothing asked is lost -/

/-- A toast that has been asked for has been executed, has been undone, or is still there. -/
def Accounted (past : List Event) (s : BusState) : Prop :=
  ∀ c asked, .dispatched c asked ∈ past → (getAction c.id).confirm = .toast →
    (∃ time, .executed c time ∈ past) ∨ .undone c.ticket ∈ past ∨
      ⟨c, c.message, asked + 4000, false⟩ ∈ s.toasts

section Accounted

variable {past es : List Event} {s s' : BusState}

theorem Accounted.append (h : Accounted past s)
    (hes : ∀ c asked, .dispatched c asked ∈ es → (getAction c.id).confirm = .toast →
      ⟨c, c.message, asked + 4000, false⟩ ∈ s'.toasts)
    (hleft : ∀ t ∈ s.toasts, t.cancelled = false →
      (∃ time, .executed t.call time ∈ past ++ es) ∨ .undone t.call.ticket ∈ past ++ es ∨
        t ∈ s'.toasts) :
    Accounted (past ++ es) s' := by
  intro c asked hmem hlevel
  rcases List.mem_append.mp hmem with hpast | hnew
  · rcases h c asked hpast hlevel with ⟨time, hexec⟩ | hundone | htoast
    · exact Or.inl ⟨time, List.mem_append_left _ hexec⟩
    · exact Or.inr (Or.inl (List.mem_append_left _ hundone))
    · exact hleft _ htoast rfl
  · exact Or.inr (Or.inr (hes c asked hnew hlevel))

theorem Accounted.quiet (h : Accounted past s) (htoasts : s'.toasts = s.toasts)
    (hes : ∀ c asked, .dispatched c asked ∉ es) : Accounted (past ++ es) s' := by
  apply h.append
  · intro c asked hmem
    exact absurd hmem (hes c asked)
  · intro t ht _
    rw [htoasts]
    exact Or.inr (Or.inr ht)

theorem step_accounted (hagrees : Agrees past s) (h : Accounted past s) (a : Action) :
    Accounted (past ++ (machine.step s a).2) (machine.step s a).1 := by
  cases a with
  | dispatch id input =>
      cases hconfirm : (getAction id).confirm with
      | none =>
          simp only [machine, BusState.dispatch, hconfirm]
          apply h.append
          · intro c asked hmem hlevel
            cases hmem with
            | head => simp [hconfirm] at hlevel
            | tail _ hrest => cases List.mem_singleton.mp hrest
          · intro t ht _
            exact Or.inr (Or.inr ht)
      | toast =>
          simp only [machine, BusState.dispatch, hconfirm]
          apply h.append
          · intro c asked hmem _
            cases List.mem_singleton.mp hmem
            exact List.mem_cons_self
          · intro t ht _
            exact Or.inr (Or.inr (List.mem_cons_of_mem _ ht))
      | dialog =>
          simp only [machine, BusState.dispatch, hconfirm]
          apply h.append
          · intro c asked hmem hlevel
            cases List.mem_singleton.mp hmem
            simp [hconfirm] at hlevel
          · intro t ht _
            exact Or.inr (Or.inr ht)
      | critical =>
          simp only [machine, BusState.dispatch, hconfirm]
          apply h.append
          · intro c asked hmem hlevel
            cases List.mem_singleton.mp hmem
            simp [hconfirm] at hlevel
          · intro t ht _
            exact Or.inr (Or.inr ht)
  | undo ticket =>
      simp only [machine, BusState.undo]
      split
      · apply h.append
        · intro c asked hmem
          cases List.mem_singleton.mp hmem
        · intro t ht _
          by_cases hticket : t.call.ticket = ticket
          · exact Or.inr (Or.inl (by simp [hticket]))
          · exact Or.inr (Or.inr (List.mem_map.mpr ⟨t, ht, if_neg hticket⟩))
      · exact h.quiet rfl (by simp)
  | fire ticket =>
      simp only [machine, BusState.fire]
      split
      · exact h.quiet rfl (by simp)
      rename_i t hfind
      have hticket : t.call.ticket = ticket := by simpa using List.find?_some hfind
      split
      · -- every toast but the one that is due stays
        have hother : ∀ t' ∈ s.toasts, t' ≠ t →
            t' ∈ s.toasts.filter fun t => t.call.ticket ≠ ticket := by
          intro t' ht' hne
          apply List.mem_filter.mpr
          refine ⟨ht', decide_eq_true ?_⟩
          intro hticket'
          exact hne (hagrees.toast_unique ht' (List.mem_of_find?_eq_some hfind)
            (hticket'.trans hticket.symm))
        split
        · rename_i hcancelled
          apply h.append
          · simp
          · intro t' ht' hkept
            refine Or.inr (Or.inr (hother t' ht' ?_))
            rintro rfl
            rw [hcancelled] at hkept
            cases hkept
        · apply h.append
          · simp [BusState.execute]
          · intro t' ht' _
            by_cases hsame : t' = t
            · rw [hsame]
              exact Or.inl ⟨s.now, List.mem_append_right _ List.mem_cons_self⟩
            · exact Or.inr (Or.inr (hother t' ht' hsame))
      · exact h.quiet rfl (by simp)
  | confirm =>
      simp only [machine, BusState.confirm]
      split
      · exact h.quiet rfl (by simp)
      split
      · split
        · exact h.quiet rfl (by simp)
        · exact h.quiet rfl (by simp [BusState.execute])
      · exact h.quiet rfl (by simp)
  | settle id err =>
      simp only [machine, BusState.finish]
      split
      · exact h.quiet rfl (by simp)
      · exact h.quiet rfl (by simp)
  | type text =>
      simp only [machine, BusState.type]
      split
      · split
        · exact h.quiet rfl (by simp)
        · exact h.quiet rfl (by simp)
      · exact h.quiet rfl (by simp)
  | elapse ms => exact h.quiet rfl (by simp [machine])
  | cancel => exact h.quiet rfl (by simp [machine])

end Accounted

/-- A toast that was asked for has been executed, or undone, or has its timer running, whatever
else was done. -/
theorem toast_not_lost (now : Nat) (user : Option String) (entries : List AuditEntry)
    (as : List Action) {c : Call} {asked : Nat}
    (hasked : .dispatched c asked ∈ (machine.run (.new now user entries) as).2)
    (hlevel : (getAction c.id).confirm = .toast) :
    (∃ time, .executed c time ∈ (machine.run (.new now user entries) as).2) ∨
      .undone c.ticket ∈ (machine.run (.new now user entries) as).2 ∨
      ⟨c, c.message, asked + 4000, false⟩ ∈ (machine.run (.new now user entries) as).1.toasts := by
  have hrun := machine.run_related (R := fun past s => Agrees past s ∧ Accounted past s)
    (P := fun _ _ => True)
    (fun _ _ a h _ => ⟨(step_agrees h.1 a).2, step_accounted h.1 h.2 a⟩)
    ⟨new_agrees now user entries, fun _ _ hmem => absurd hmem List.not_mem_nil⟩
    (machine.allSteps_of (fun _ _ => trivial) _ as)
  exact hrun.2 c asked hasked hlevel

theorem toast_not_lost_stop :
    (∃ time, Event.executed ⟨0, .vmStop, []⟩ time ∈ [Event.dispatched ⟨0, .vmStop, []⟩ 0]) ∨
      Event.undone 0 ∈ [Event.dispatched ⟨0, .vmStop, []⟩ 0] ∨
      ⟨⟨0, .vmStop, []⟩, Call.message ⟨0, .vmStop, []⟩, 0 + 4000, false⟩ ∈
        (machine.run (.new 0 none []) [.dispatch .vmStop []]).1.toasts :=
  toast_not_lost 0 none [] [.dispatch .vmStop []] (by decide) rfl

/-! ## The busy flags -/

def BusState.BusyExact (s : BusState) : Prop := ∀ id, s.busy id = true ↔ id ∈ s.running

/-- Two executions of one action do not overlap when the first of them settles. -/
def Alone (s : BusState) : Action → Prop
  | .settle id _ => s.running.count id ≤ 1
  | _ => True

theorem execute_busyExact {s : BusState} (h : s.BusyExact) (c : Call) :
    (s.execute c).1.BusyExact := by
  intro id
  have hid := h id
  simp only [BusState.execute, BusState.log, List.mem_cons, Function.update_apply]
  by_cases heq : id = c.id
  · simp [heq]
  · rw [if_neg heq]
    simpa [heq] using hid

theorem finish_busyExact_iff {s : BusState} (h : s.BusyExact) (id : ActionId)
    (err : Option String) : (s.finish id err).1.BusyExact ↔ s.running.count id ≤ 1 := by
  unfold BusState.finish
  split
  · rename_i hrunning
    have hpos := List.count_pos_iff.mpr hrunning
    constructor
    · intro hexact
      have hidle : id ∉ s.running.erase id := by
        intro hmem
        have := (hexact id).mpr hmem
        simp at this
      have hzero := List.count_eq_zero.mpr hidle
      rw [List.count_erase_self] at hzero
      omega
    · intro hone other
      by_cases heq : other = id
      · have hzero : (s.running.erase id).count id = 0 := by
          rw [List.count_erase_self]
          omega
        simpa [heq] using List.count_eq_zero.mp hzero
      · simp only [Function.update_of_ne heq, List.mem_erase_of_ne heq]
        exact h other
  · rename_i hrunning
    have hzero := List.count_eq_zero.mpr hrunning
    exact iff_of_true h (by omega)

theorem step_busyExact_iff (s : BusState) (a : Action) (h : s.BusyExact) :
    (machine.step s a).1.BusyExact ↔ Alone s a := by
  cases a with
  | settle id err => exact finish_busyExact_iff h id err
  | dispatch id input =>
      refine iff_of_true ?_ trivial
      simp only [machine, BusState.dispatch]
      split
      · exact execute_busyExact (s := { s with next := s.next + 1 }) h _
      all_goals exact h
  | undo ticket =>
      refine iff_of_true ?_ trivial
      simp only [machine, BusState.undo]
      split <;> exact h
  | fire ticket =>
      refine iff_of_true ?_ trivial
      simp only [machine, BusState.fire]
      split
      · exact h
      split
      · split
        · exact h
        · exact execute_busyExact
            (s := { s with toasts := s.toasts.filter fun t => t.call.ticket ≠ ticket }) h _
      · exact h
  | type text =>
      refine iff_of_true ?_ trivial
      simp only [machine, BusState.type]
      split
      · split <;> exact h
      · exact h
  | confirm =>
      refine iff_of_true ?_ trivial
      simp only [machine, BusState.confirm]
      split
      · exact h
      split
      · split
        · exact h
        · exact execute_busyExact h _
      · exact h
  | elapse ms => exact iff_of_true h trivial
  | cancel => exact iff_of_true h trivial

/-- The flag of an action is up exactly while it runs, as long as no execution settles while
another of the same action is running: the first one down takes the flag of both. -/
theorem busy_exact_iff (now : Nat) (user : Option String) (entries : List AuditEntry)
    (as : List Action) :
    (∀ pre, pre <+: as → ∀ id, (machine.run (.new now user entries) pre).1.busy id = true ↔
        id ∈ (machine.run (.new now user entries) pre).1.running) ↔
      machine.AllSteps Alone (.new now user entries) as :=
  machine.prefixes_iff_allSteps (I := BusState.BusyExact) step_busyExact_iff
    (fun _ => by simp [BusState.new]) as

/-! ## The audit log -/

def Event.execution : Event → Option (Call × Nat)
  | executed call time => some (call, time)
  | _ => none

def auditEntry (user : Option String) (before : Nat) (e : Call × Nat) : AuditEntry where
  id := "audit-" ++ toString e.2 ++ "-" ++ toString (before + 1)
  actionId := e.1.id
  input := e.1.input
  timestamp := e.2
  user := user.getD "operator"

/-- The log is what has been executed since the page was loaded, the newest first, before what
was there; of all that the newest 500. -/
structure Logged (user : Option String) (entries : List AuditEntry) (past : List Event)
    (s : BusState) : Prop where
  sameUser : s.user = user
  counted : s.counter = (past.filterMap Event.execution).length
  logged : s.entries = (((past.filterMap Event.execution).mapIdx (auditEntry user)).reverse ++
    entries).take 500

section Logged

variable {user : Option String} {entries : List AuditEntry} {past es : List Event}
  {s s' : BusState}

theorem Logged.quiet (h : Logged user entries past s) (huser : s'.user = s.user)
    (hcounter : s'.counter = s.counter) (hentries : s'.entries = s.entries)
    (hes : es.filterMap Event.execution = []) : Logged user entries (past ++ es) s' where
  sameUser := huser.trans h.sameUser
  counted := by rw [hcounter, h.counted, List.filterMap_append, hes, List.append_nil]
  logged := by rw [hentries, h.logged, List.filterMap_append, hes, List.append_nil]

theorem Logged.execute (h : Logged user entries past s) {c : Call}
    (huser : s'.user = s.user) (hcounter : s'.counter = (s.log c).counter)
    (hentries : s'.entries = (s.log c).entries)
    (hes : es.filterMap Event.execution = [(c, s.now)]) :
    Logged user entries (past ++ es) s' where
  sameUser := huser.trans h.sameUser
  counted := by
    rw [hcounter, List.filterMap_append, hes, List.length_append, ← h.counted]
    rfl
  logged := by
    have hentry : (s.log c).entries =
        if 500 < (auditEntry user s.counter (c, s.now) :: s.entries).length then
          (auditEntry user s.counter (c, s.now) :: s.entries).dropLast
        else auditEntry user s.counter (c, s.now) :: s.entries := by
      rw [← h.sameUser]
      rfl
    rw [hentries, hentry, h.logged, cons_take_dropLast, List.filterMap_append, hes,
      List.mapIdx_append, List.reverse_append, h.counted]
    simp

theorem step_logged (h : Logged user entries past s) (a : Action) :
    Logged user entries (past ++ (machine.step s a).2) (machine.step s a).1 := by
  cases a with
  | dispatch id input =>
      simp only [machine, BusState.dispatch]
      split
      · exact h.execute rfl rfl rfl rfl
      all_goals exact h.quiet rfl rfl rfl rfl
  | undo ticket =>
      simp only [machine, BusState.undo]
      split <;> exact h.quiet rfl rfl rfl rfl
  | fire ticket =>
      simp only [machine, BusState.fire]
      split
      · exact h.quiet rfl rfl rfl rfl
      split
      · split
        · exact h.quiet rfl rfl rfl rfl
        · exact h.execute rfl rfl rfl rfl
      · exact h.quiet rfl rfl rfl rfl
  | type text =>
      simp only [machine, BusState.type]
      split
      · split <;> exact h.quiet rfl rfl rfl rfl
      · exact h.quiet rfl rfl rfl rfl
  | confirm =>
      simp only [machine, BusState.confirm]
      split
      · exact h.quiet rfl rfl rfl rfl
      split
      · split
        · exact h.quiet rfl rfl rfl rfl
        · exact h.execute rfl rfl rfl rfl
      · exact h.quiet rfl rfl rfl rfl
  | settle id err =>
      simp only [machine, BusState.finish]
      split <;> exact h.quiet rfl rfl rfl rfl
  | elapse ms => exact h.quiet rfl rfl rfl rfl
  | cancel => exact h.quiet rfl rfl rfl rfl

end Logged

/-- The audit log after any run. -/
theorem entries_eq_executions (now : Nat) (user : Option String) {entries : List AuditEntry}
    (hfew : entries.length ≤ 500) (as : List Action) :
    (machine.run (.new now user entries) as).1.entries =
      ((((machine.run (.new now user entries) as).2.filterMap Event.execution).mapIdx
        (auditEntry user)).reverse ++ entries).take 500 := by
  have hnew : Logged user entries [] (.new now user entries) :=
    ⟨rfl, rfl, (List.take_of_length_le hfew).symm⟩
  exact (machine.run_related (R := Logged user entries) (P := fun _ _ => True)
    (fun _ _ a h _ => step_logged h a) hnew (machine.allSteps_of (fun _ _ => trivial) _ as)).logged

theorem entries_eq_executions_start :
    (machine.run (.new 7 none []) [.dispatch .vmStart [("vmId", "v1")]]).1.entries =
      [⟨"audit-7-1", .vmStart, [("vmId", "v1")], 7, "operator"⟩] := by
  have hfew : ([] : List AuditEntry).length ≤ 500 := Nat.zero_le 500
  exact (entries_eq_executions 7 none hfew [.dispatch .vmStart [("vmId", "v1")]]).trans rfl

end Caiman.Ui.Bus
