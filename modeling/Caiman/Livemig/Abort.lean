import Caiman.Livemig.Migration

/-!
# Failures of a migration

What the source makes of a command the VMM refuses, and what is left behind when
a call fails. The `ok` flag of a reply is never read, and an error is returned
as it is: the VM is not resumed and the phase of the job is not set.
-/

namespace Caiman.Livemig

open Lib

variable (json : Json.Codec) (args : Args)

/-! ## Before and after DONE -/

/-- DONE has not been sent. -/
def SourcePc.early : SourcePc → Bool
  | .running | .network | .storage | .cleanup | .returned _ => false
  | _ => true

def MigEvent.isDone : MigEvent → Bool
  | .sent m => m = ⟨.done, []⟩
  | _ => false

theorem done_mem_iff {trace : List MigEvent} :
    .sent ⟨.done, []⟩ ∈ trace ↔ trace.any MigEvent.isDone = true := by
  rw [List.any_eq_true]
  constructor
  · intro h
    exact ⟨_, h, by simp [MigEvent.isDone]⟩
  · rintro ⟨e, he, hdone⟩
    cases e with
    | sent m =>
        simp only [MigEvent.isDone, decide_eq_true_eq] at hdone
        exact hdone ▸ he
    | ctrl cmd reply => cases hdone
    | answered m => cases hdone

def MigAction.breaksEarly (s : MigSystem) : MigAction → Bool
  | .source o => s.pc.early && s.breaks json o
  | _ => false

theorem SourcePc.next_early {pc : SourcePc} (h : pc.early = true) (hdone : pc ≠ .done)
    (o : Outcome) (job : MigrationJob) : (pc.next args o job).1.early = true := by
  cases pc with
  | pages stage count sent rest =>
      cases rest with
      | cons page rest => rfl
      | nil =>
          cases stage with
          | final => rfl
          | iterative pass =>
              simp only [next]
              split
              · rfl
              · split <;> rfl
  | done => exact absurd rfl hdone
  | running => cases h
  | network => cases h
  | storage => cases h
  | cleanup => cases h
  | returned result => cases h
  | _ => rfl

theorem SourcePc.next_late {pc : SourcePc} (h : pc.early = false) (o : Outcome)
    (job : MigrationJob) : (pc.next args o job).1.early = false := by
  cases pc with
  | running => rfl
  | network => rfl
  | storage => rfl
  | cleanup => rfl
  | returned result => rfl
  | _ => cases h

theorem done_mem_perform {s : MigSystem} {o : Outcome} :
    .sent ⟨.done, []⟩ ∈ (s.perform json o).2 ↔ s.pc = .done := by
  unfold MigSystem.perform
  cases hpc : s.pc with
  | pages stage count sent rest => cases rest <;> simp [SourcePc.call, pageMsg, Send.toMsg]
  | _ => simp [SourcePc.call, Send.toMsg]

theorem destStep_answered {s : MigSystem} {fails : Bool} :
    ∀ e ∈ (s.destStep json fails).2, ∃ m, e = .answered m := by
  unfold MigSystem.destStep
  split
  · simp
  · split
    · simp
    · intro e he
      obtain ⟨m, -, rfl⟩ := List.mem_map.mp he
      exact ⟨m, rfl⟩

theorem done_not_mem_destStep (s : MigSystem) (fails : Bool) :
    .sent ⟨.done, []⟩ ∉ (s.destStep json fails).2 := by
  intro hdone
  obtain ⟨m, hm⟩ := destStep_answered json _ hdone
  cases hm

@[simp] theorem destStep_pc (s : MigSystem) (fails : Bool) :
    (s.destStep json fails).1.pc = s.pc := by
  unfold MigSystem.destStep
  split
  · rfl
  · split <;> rfl

/-- A step before DONE breaks, keeps before DONE, or sends it. -/
theorem step_early {s : MigSystem} (hearly : s.pc.early = true) (a : MigAction) :
    (a.breaksEarly json s = true ∧ .sent ⟨.done, []⟩ ∉ ((migration json args).step s a).2 ∧
        ∃ why, ((migration json args).step s a).1.pc = .returned (.error why)) ∨
      (a.breaksEarly json s = false ∧ .sent ⟨.done, []⟩ ∉ ((migration json args).step s a).2 ∧
        ((migration json args).step s a).1.pc.early = true) ∨
      (a.breaksEarly json s = false ∧ .sent ⟨.done, []⟩ ∈ ((migration json args).step s a).2 ∧
        ((migration json args).step s a).1.pc = .running) := by
  cases a with
  | guestWrite gpa data => exact Or.inr (Or.inl ⟨rfl, by simp [migration], hearly⟩)
  | dest fails =>
      refine Or.inr (Or.inl ⟨rfl, done_not_mem_destStep json s fails, ?_⟩)
      simpa [migration] using hearly
  | source o =>
      simp only [MigAction.breaksEarly, hearly, Bool.true_and, migration]
      obtain ⟨hbreaks, vm, toSource, events, hstep, hevents⟩ | ⟨hbreaks, hstep⟩ |
        ⟨hbreaks, hstep⟩ := MigSystem.sourceStep_cases json args s o
      · rw [hstep]
        refine Or.inl ⟨hbreaks, ?_, _, rfl⟩
        intro he
        obtain ⟨cmd, hcmd⟩ := hevents _ he
        cases hcmd
      · rw [hstep]
        exact Or.inr (Or.inl ⟨hbreaks, by simp, hearly⟩)
      · right
        rw [hstep]
        simp only [done_mem_perform, MigSystem.advance, MigSystem.perform_pc,
          MigSystem.perform_job]
        by_cases hdone : s.pc = .done
        · exact Or.inr ⟨hbreaks, hdone, by rw [hdone]; rfl⟩
        · exact Or.inl ⟨hbreaks, hdone, SourcePc.next_early args hearly hdone o s.job⟩

theorem step_late {s : MigSystem} (hlate : s.pc.early = false) (a : MigAction) :
    .sent ⟨.done, []⟩ ∉ ((migration json args).step s a).2 ∧
      ((migration json args).step s a).1.pc.early = false := by
  cases a with
  | guestWrite gpa data => exact ⟨by simp [migration], hlate⟩
  | dest fails =>
      refine ⟨done_not_mem_destStep json s fails, ?_⟩
      simpa [migration] using hlate
  | source o =>
      simp only [migration]
      obtain ⟨-, vm, toSource, events, hstep, hevents⟩ | ⟨-, hstep⟩ | ⟨-, hstep⟩ :=
        MigSystem.sourceStep_cases json args s o
      · rw [hstep]
        refine ⟨?_, rfl⟩
        intro he
        obtain ⟨cmd, hcmd⟩ := hevents _ he
        cases hcmd
      · rw [hstep]
        exact ⟨by simp, hlate⟩
      · rw [hstep]
        simp only [done_mem_perform, MigSystem.advance, MigSystem.perform_pc,
          MigSystem.perform_job]
        refine ⟨?_, SourcePc.next_late args hlate o s.job⟩
        intro hdone
        rw [hdone] at hlate
        cases hlate

theorem step_returned {s : MigSystem} {result : Except MigError Unit}
    (h : s.pc = .returned result) (a : MigAction) :
    ((migration json args).step s a).1.pc = .returned result := by
  cases a with
  | guestWrite gpa data => exact h
  | dest fails => simpa [migration] using h
  | source o =>
      simp [migration, MigSystem.sourceStep, MigSystem.advance, h, SourcePc.call, SourcePc.next]

theorem run_returned {s : MigSystem} {result : Except MigError Unit}
    (h : s.pc = .returned result) (as : List MigAction) :
    ((migration json args).run s as).1.pc = .returned result :=
  (migration json args).run_inductive (I := fun s => s.pc = .returned result)
    (fun _ a hs => step_returned json args hs a) h as

theorem run_late {s : MigSystem} (hlate : s.pc.early = false) (as : List MigAction) :
    .sent ⟨.done, []⟩ ∉ ((migration json args).run s as).2 ∧
      (migration json args).AllSteps (fun s a => a.breaksEarly json s = false) s as := by
  have hkeep : ∀ pre, ((migration json args).run s pre).1.pc.early = false := fun pre =>
    (migration json args).run_inductive (I := fun s => s.pc.early = false)
      (fun _ a hs => (step_late json args hs a).2) hlate pre
  constructor
  · rw [Machine.mem_run_iff]
    rintro ⟨pre, a, post, -, he⟩
    exact (step_late json args (hkeep pre) a).1 he
  · rw [Machine.allSteps_iff_split]
    intro pre a post _
    cases a with
    | source o => simp [MigAction.breaksEarly, hkeep pre]
    | _ => rfl

/-- A run that returns has sent DONE exactly when nothing broke before it, and
returns an error when it has not. -/
theorem run_early {s : MigSystem} (hearly : s.pc.early = true) {as : List MigAction}
    {result : Except MigError Unit}
    (hret : ((migration json args).run s as).1.pc = .returned result) :
    (.sent ⟨.done, []⟩ ∈ ((migration json args).run s as).2 ∧
        (migration json args).AllSteps (fun s a => a.breaksEarly json s = false) s as) ∨
      (.sent ⟨.done, []⟩ ∉ ((migration json args).run s as).2 ∧
        ¬ (migration json args).AllSteps (fun s a => a.breaksEarly json s = false) s as ∧
        ∃ why, result = .error why) := by
  induction as generalizing s with
  | nil =>
      have hpc : s.pc = .returned result := hret
      rw [hpc] at hearly
      cases hearly
  | cons a as ih =>
      rw [Machine.run_cons] at hret ⊢
      rcases step_early json args hearly a with
        ⟨hbreaks, hdone, why, hpc⟩ | ⟨hbreaks, hdone, hpc⟩ | ⟨hbreaks, hdone, hpc⟩
      · -- broken: the error is returned, and nothing is sent after that
        right
        have hlate : ((migration json args).step s a).1.pc.early = false := by rw [hpc]; rfl
        refine ⟨?_, ?_, why, ?_⟩
        · rw [List.mem_append]
          rintro (he | he)
          · exact hdone he
          · exact (run_late json args hlate as).1 he
        · rintro ⟨hfirst, -⟩
          rw [hbreaks] at hfirst
          cases hfirst
        · rw [run_returned json args hpc as] at hret
          cases hret
          rfl
      · rcases ih hpc hret with ⟨hin, hall⟩ | ⟨hout, hall, herr⟩
        · exact Or.inl ⟨List.mem_append_right _ hin, hbreaks, hall⟩
        · refine Or.inr ⟨?_, fun h => hall h.2, herr⟩
          rw [List.mem_append]
          rintro (he | he)
          · exact hdone he
          · exact hout he
      · have hlate : ((migration json args).step s a).1.pc.early = false := by rw [hpc]; rfl
        exact Or.inl ⟨List.mem_append_left _ hdone, hbreaks, (run_late json args hlate as).2⟩

/-! ## Refused commands -/

/-- A reply of the VMM that says no. -/
def MigEvent.refused : MigEvent → Bool
  | .ctrl _ (some reply) => !reply.ok
  | _ => false

/-- What a refusal has to lead to: an error, and no DONE. -/
def AbortsOnRefusal (result : Except MigError Unit) (trace : List MigEvent) : Prop :=
  (∃ e ∈ trace, e.refused = true) →
    (∃ why, result = .error why) ∧ .sent ⟨.done, []⟩ ∉ trace

def MigAction.accepted (s : MigSystem) : MigAction → Bool
  | .source o =>
      match s.pc.call json s.job with
      | .ctrl _ => o.fails || o.reply.ok
      | _ => true
  | _ => true

theorem refused_step_iff (s : MigSystem) (a : MigAction) :
    (∃ e ∈ ((migration json args).step s a).2, e.refused = true) ↔
      a.accepted json s = false := by
  cases a with
  | guestWrite gpa data => simp [migration, MigAction.accepted]
  | dest fails =>
      simp only [migration, MigAction.accepted, MigSystem.destStep]
      split
      · simp
      · split <;> simp [MigEvent.refused]
  | source o =>
      simp only [migration, MigAction.accepted, MigSystem.sourceStep]
      cases hcall : s.pc.call json s.job with
      | own => simp
      | host =>
          dsimp only
          split <;> simp
      | ctrl cmd =>
          dsimp only
          cases hfails : o.fails <;> simp [MigEvent.refused]
      | send m =>
          dsimp only
          split <;> simp [MigEvent.refused]
      | expect t =>
          dsimp only
          split
          · simp
          · split
            · simp
            · split <;> simp

theorem refused_run_iff (s : MigSystem) (as : List MigAction) :
    (∃ e ∈ ((migration json args).run s as).2, e.refused = true) ↔
      ¬ (migration json args).AllSteps (fun s a => a.accepted json s = true) s as := by
  rw [Machine.allSteps_iff_split]
  push Not
  constructor
  · rintro ⟨e, he, href⟩
    obtain ⟨pre, a, post, has, hstep⟩ := Machine.mem_run_iff _ |>.mp he
    have hno := (refused_step_iff json args _ a).mp ⟨e, hstep, href⟩
    exact ⟨pre, a, post, has, by simp [hno]⟩
  · rintro ⟨pre, a, post, has, hno⟩
    obtain ⟨e, hstep, href⟩ := (refused_step_iff json args _ a).mpr (by simpa using hno)
    exact ⟨e, Machine.mem_run_iff _ |>.mpr ⟨pre, a, post, has, hstep⟩, href⟩

/-- In every run that returns: a refused command makes it return an error and
withhold DONE exactly when no command is refused or a call up to DONE breaks. -/
theorem refusal_aborts_iff (vmId : UInt32) (source dest : String) (ram : UInt64 → List UInt8)
    (as : List MigAction) (result : Except MigError Unit)
    (hret : ((migration json args).run (.new vmId source dest ram) as).1.pc = .returned result) :
    AbortsOnRefusal result ((migration json args).run (.new vmId source dest ram) as).2 ↔
      (migration json args).AllSteps (fun s a => a.accepted json s = true)
          (.new vmId source dest ram) as ∨
        ∃ pre a post, as = pre ++ a :: post ∧
          a.breaksEarly json ((migration json args).run (.new vmId source dest ram) pre).1 =
            true := by
  have hbroken : (∃ pre a post, as = pre ++ a :: post ∧
      a.breaksEarly json ((migration json args).run (.new vmId source dest ram) pre).1 = true) ↔
      ¬ (migration json args).AllSteps (fun s a => a.breaksEarly json s = false)
        (.new vmId source dest ram) as := by
    rw [Machine.allSteps_iff_split]
    push Not
    simp
  rw [hbroken, AbortsOnRefusal, refused_run_iff]
  rcases run_early json args rfl hret with ⟨hin, hall⟩ | ⟨hout, hall, herr⟩
  · constructor
    · intro h
      by_contra hno
      rw [not_or] at hno
      exact (h hno.1).2 hin
    · rintro (hok | hbreak)
      · exact fun hno => absurd hok hno
      · exact absurd hall hbreak
  · exact iff_of_true (fun _ => ⟨herr, hout⟩) (Or.inr hall)

def Outcome.refusal : Outcome :=
  { Outcome.fine with reply := ⟨false, none, none⟩, carriedOut := false }

/-- The VMM refuses to pause, and its socket breaks at the next command. -/
def refusedThenBroken : List MigAction :=
  (moveRun .refusal).take 9 ++ [.source { Outcome.fine with fails := true }]

theorem refusal_aborts_iff_moveRun :
    let final := (migration sampleJson ⟨50, 300⟩).run (.new 7 "a" "b" fun _ => []) refusedThenBroken
    (∃ e ∈ final.2, e.refused = true) ∧ ∃ why, final.1.pc = .returned (.error why) ∧
      AbortsOnRefusal (.error why) final.2 := by
  intro final
  have hsome : final.1.pc.failure.isSome = true := by decide +kernel
  obtain ⟨why, hwhy⟩ := Option.isSome_iff_exists.mp hsome
  have hret := SourcePc.failure_eq_some.mp hwhy
  refine ⟨List.any_eq_true.mp (by decide +kernel), why, hret, ?_⟩
  exact (refusal_aborts_iff _ _ _ _ _ _ refusedThenBroken _ hret).mpr
    (Or.inr ⟨_, _, [], rfl, by decide +kernel⟩)

/-- The VMM refuses to pause, and the migration completes. -/
theorem refused_pause_sends_done :
    let refusal : Outcome := { Outcome.fine with reply := ⟨false, none, none⟩, carriedOut := false }
    let final := (migration sampleJson ⟨50, 300⟩).run (.new 7 "a" "b" fun _ => [])
      (moveRun refusal)
    final.1.pc = .returned (.ok ()) ∧ ¬ AbortsOnRefusal (.ok ()) final.2 := by
  intro refusal final
  refine ⟨SourcePc.succeeded_iff.mp (by decide +kernel), ?_⟩
  intro h
  have href : ∃ e ∈ final.2, e.refused = true := List.any_eq_true.mp (by decide +kernel)
  obtain ⟨⟨why, herr⟩, -⟩ := h href
  cases herr

/-! ## One running VM -/

/-- What must hold at every step: never two running VMs, and when an error is
returned exactly the right one runs and the job says that it failed. -/
structure OneRunning (s : MigSystem) : Prop where
  failed : ∀ why, s.pc = .returned (.error why) →
    (s.dest.running = false → s.vm.running = true) ∧
      (s.dest.running = true → s.vm.running = false) ∧ ∃ msg, s.job.phase = .failed msg
  exclusive : ¬ (s.vm.running = true ∧ s.dest.running = true)

/-- The destination is about to report RUNNING. -/
def MigSystem.reports (s : MigSystem) : Bool :=
  match s.toDest with
  | [] => false
  | m :: _ => s.dest.pc = .receive && m.type = .done

/-- No call of the source fails, and the destination reports RUNNING only when
the source's vCPUs have stopped. -/
def MigAction.unbroken (s : MigSystem) : MigAction → Bool
  | .guestWrite _ _ => true
  | .source o => !s.breaks json o
  | .dest fails => fails || !s.reports || !s.vm.running

theorem write_running (vm : SourceVm) (gpa : UInt64) (data : List UInt8) :
    (vm.write gpa data).running = vm.running := by
  unfold SourceVm.write
  split <;> rfl

theorem command_running {s : MigSystem} {cmd : VmmCtrl}
    (hcall : s.pc.call json s.job = .ctrl cmd) {o : Outcome}
    (h : (s.command cmd o).vm.running = true) : s.vm.running = true := by
  unfold MigSystem.command at h
  split at h
  · cases cmd with
    | resumeVcpus =>
        cases hpc : s.pc with
        | pages stage count sent rest => cases rest <;> simp [hpc, SourcePc.call] at hcall
        | _ => simp [hpc, SourcePc.call] at hcall
    | pauseVcpus => cases h
    | _ => exact h
  · exact h

theorem perform_running {s : MigSystem} {o : Outcome}
    (h : (s.perform json o).1.vm.running = true) : s.vm.running = true := by
  unfold MigSystem.perform at h
  cases hcall : s.pc.call json s.job with
  | ctrl cmd =>
      rw [hcall] at h
      exact command_running json hcall h
  | _ =>
      rw [hcall] at h
      exact h

theorem handle_running (d : Destination) (m : Msg) :
    (d.handle json m).1.running = (d.running || (d.pc = .receive && m.type = .done)) := by
  unfold Destination.handle
  cases hpc : d.pc with
  | handshake =>
      dsimp only
      split <;> simp [Destination.giveUp]
  | receive =>
      cases htype : m.type with
      | page =>
          dsimp only
          split <;> simp
      | vcpuState =>
          dsimp only
          split <;> simp [Destination.giveUp]
      | _ => simp
  | returned ok => simp

theorem destStep_running (s : MigSystem) (fails : Bool) :
    (s.destStep json fails).1.dest.running =
      (s.dest.running || (!fails && s.reports)) := by
  unfold MigSystem.destStep MigSystem.reports
  cases fails with
  | true => simp [Destination.giveUp]
  | false =>
      cases s.toDest with
      | nil => simp
      | cons m rest => simp [handle_running]

@[simp] theorem destStep_vm (s : MigSystem) (fails : Bool) :
    (s.destStep json fails).1.vm = s.vm := by
  unfold MigSystem.destStep
  split
  · rfl
  · split <;> rfl

@[simp] theorem destStep_job (s : MigSystem) (fails : Bool) :
    (s.destStep json fails).1.job = s.job := by
  unfold MigSystem.destStep
  split
  · rfl
  · split <;> rfl

/-- No error has been returned, and the destination does not run beside the
source. -/
structure Handover (s : MigSystem) : Prop where
  going : ∀ why, s.pc ≠ .returned (.error why)
  apart : s.dest.running = true → s.vm.running = false

theorem SourcePc.next_going {pc : SourcePc} (h : ∀ why, pc ≠ .returned (.error why)) (o : Outcome)
    (job : MigrationJob) (why : MigError) : (pc.next args o job).1 ≠ .returned (.error why) := by
  cases pc with
  | pages stage count sent rest =>
      cases rest with
      | cons page rest => simp [next]
      | nil =>
          cases stage with
          | final => simp [next]
          | iterative pass =>
              simp only [next]
              split
              · simp
              · split <;> simp
  | returned result => exact h why
  | _ => simp [next]

theorem step_handover (s : MigSystem) (a : MigAction) (h : Handover s)
    (hok : a.unbroken json s = true) : Handover ((migration json args).step s a).1 := by
  cases a with
  | guestWrite gpa data =>
      refine ⟨h.going, fun hdest => ?_⟩
      exact (write_running s.vm gpa data).trans (h.apart hdest)
  | dest fails =>
      constructor
      · intro why
        simpa [migration] using h.going why
      · simp only [migration, destStep_running, destStep_vm]
        intro hdest
        by_cases hrun : s.dest.running = true
        · exact h.apart hrun
        · simp only [MigAction.unbroken] at hok
          simp_all
  | source o =>
      have hbreaks : s.breaks json o = false := by simpa [MigAction.unbroken] using hok
      simp only [migration]
      obtain ⟨hbroken, -⟩ | ⟨-, hstep⟩ | ⟨-, hstep⟩ := MigSystem.sourceStep_cases json args s o
      · rw [hbreaks] at hbroken
        cases hbroken
      · rw [hstep]
        exact h
      · rw [hstep]
        constructor
        · intro why
          simpa [MigSystem.advance] using SourcePc.next_going args h.going o s.job why
        · intro hdest
          have hdest' : s.dest.running = true := by simpa [MigSystem.advance] using hdest
          by_contra hrun
          have hvm : (s.perform json o).1.vm.running = true := by
            simpa [MigSystem.advance] using hrun
          exact absurd (h.apart hdest') (by simp [perform_running json hvm])

/-- `Failed` is declared and never set. -/
theorem SourcePc.next_phase {pc : SourcePc} {job : MigrationJob} (o : Outcome)
    (h : ∀ msg, job.phase ≠ .failed msg) (msg : String) :
    (pc.next args o job).2.phase ≠ .failed msg := by
  cases pc with
  | pages stage count sent rest =>
      cases rest with
      | cons page rest => exact h msg
      | nil =>
          cases stage with
          | final => exact h msg
          | iterative pass =>
              simp only [next]
              split
              · simp
              · split <;> simp
  | ready shell => simp [next]
  | bpf => simp [next]
  | cleanup => simp [next]
  | _ => exact h msg

theorem step_phase (s : MigSystem) (a : MigAction) (h : ∀ msg, s.job.phase ≠ .failed msg)
    (msg : String) : ((migration json args).step s a).1.job.phase ≠ .failed msg := by
  cases a with
  | guestWrite gpa data => exact h msg
  | dest fails => simpa [migration] using h msg
  | source o =>
      simp only [migration]
      obtain ⟨-, vm, toSource, events, hstep, -⟩ | ⟨-, hstep⟩ | ⟨-, hstep⟩ :=
        MigSystem.sourceStep_cases json args s o
      · rw [hstep]
        exact h msg
      · rw [hstep]
        exact h msg
      · rw [hstep]
        simpa [MigSystem.advance] using SourcePc.next_phase args o h msg

theorem run_phase (vmId : UInt32) (source dest : String) (ram : UInt64 → List UInt8)
    (as : List MigAction) (msg : String) :
    ((migration json args).run (.new vmId source dest ram) as).1.job.phase ≠ .failed msg :=
  (migration json args).run_inductive (I := fun s => ∀ msg, s.job.phase ≠ .failed msg)
    (fun s a h => step_phase json args s a h) (by simp [MigSystem.new]) as msg

/-- One broken step is enough: the error is returned and the job does not say so,
or both VMs run. -/
theorem not_oneRunning_of_broken {s : MigSystem} {a : MigAction}
    (hphase : ∀ msg, ((migration json args).step s a).1.job.phase ≠ .failed msg)
    (h : a.unbroken json s = false) : ¬ OneRunning ((migration json args).step s a).1 := by
  intro hone
  cases a with
  | guestWrite gpa data => cases h
  | dest fails =>
      obtain ⟨hfails, hreports, hvm⟩ : fails = false ∧ s.reports = true ∧ s.vm.running = true := by
        simpa [MigAction.unbroken, and_assoc] using h
      apply hone.exclusive
      simp [migration, destStep_running, hfails, hreports, hvm]
  | source o =>
      have hbreaks : s.breaks json o = true := by simpa [MigAction.unbroken] using h
      obtain ⟨vm, toSource, events, hstep, -, -⟩ := MigSystem.sourceStep_breaks json args hbreaks
      have hpc : ((migration json args).step s (.source o)).1.pc =
          .returned (.error s.pc.context) := by
        simp only [migration]
        rw [hstep]
      obtain ⟨-, -, msg, hmsg⟩ := hone.failed _ hpc
      exact hphase msg hmsg

/-- For every run: it leaves exactly one running VM behind, at every step and
when it fails, exactly when none of its calls fails and the destination starts
only after the source has stopped. -/
theorem one_running_iff (vmId : UInt32) (source dest : String) (ram : UInt64 → List UInt8)
    (as : List MigAction) :
    (∀ pre, pre <+: as →
        OneRunning ((migration json args).run (.new vmId source dest ram) pre).1) ↔
      (migration json args).AllSteps (fun s a => a.unbroken json s = true)
        (.new vmId source dest ram) as := by
  constructor
  · intro h
    rw [Machine.allSteps_iff_split]
    rintro pre a post rfl
    by_contra hbroken
    have hphase := run_phase json args vmId source dest ram (pre ++ [a])
    have hone := h (pre ++ [a]) ⟨post, by simp⟩
    rw [Machine.run_append, Machine.run_cons, Machine.run_nil] at hone hphase
    exact not_oneRunning_of_broken json args hphase (by simpa using hbroken) hone
  · intro hall pre hpre
    have hstart : Handover (.new vmId source dest ram) := ⟨by simp [MigSystem.new], by
      simp [MigSystem.new, Destination.new]⟩
    have hend := (migration json args).prefixes_invariant (step_handover json args) hstart hall
      hpre
    refine ⟨fun why hwhy => absurd hwhy (hend.going why), ?_⟩
    rintro ⟨hvm, hdest⟩
    rw [hend.apart hdest] at hvm
    cases hvm

/-- The control socket breaks after the pause: an error is returned, neither VM
runs and the phase is still the one of the blackout. -/
theorem failed_copy_leaves_none_running :
    ¬ OneRunning ((migration sampleJson ⟨50, 300⟩).run (.new 7 "a" "b" fun _ => [])
      ((moveRun .fine).take 9 ++ [.source { Outcome.fine with fails := true }])).1 := by
  intro h
  have hrun := (h.failed .remaining rfl).1 rfl
  cases hrun

end Caiman.Livemig
