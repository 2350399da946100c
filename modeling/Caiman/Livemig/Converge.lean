import Caiman.Lib.Last
import Caiman.Livemig.Precopy

/-!
# The end of the iterative phase

The loop is left when no more pages are dirty than the threshold allows. What it compares is
the number of pages found less the number sent, and at the end of a pass every page found has
been sent. So the first pass is the last one, whatever it has found.
-/

namespace Caiman.Livemig

open Lib

variable (json : Json.Codec) (args : Args)

/-! ## Inside a pass -/

/-- No pass but the first. -/
def Stage.First : Stage → Prop
  | .iterative pass => pass = 0
  | .final => True

/-- The pages that are counted and not sent are those still to come. -/
def SourcePc.InPass : SourcePc → Prop
  | .log stage => stage.First
  | .pages stage count sent rest => stage.First ∧ count - sent = UInt64.ofNat rest.length
  | _ => True

theorem SourcePc.next_of_passEnd {pass : UInt32} {count sent : UInt64}
    (h : (pages (.iterative pass) count sent []).InPass) (o : Outcome) (job : MigrationJob) :
    ((pages (.iterative pass) count sent []).next args o job).1 = .pause := by
  have hdirty : count - sent = 0 := h.2
  have hbelow : count - sent ≤ convergeThreshold args := by
    rw [hdirty]
    exact UInt64.zero_le
  simp only [next, if_pos hbelow]

theorem SourcePc.next_inPass {pc : SourcePc} (h : pc.InPass) (o : Outcome) (job : MigrationJob) :
    (pc.next args o job).1.InPass := by
  cases pc with
  | enable => exact rfl
  | log stage => exact ⟨h, UInt64.sub_zero _⟩
  | pages stage count sent rest =>
      cases rest with
      | cons page rest =>
          refine ⟨h.1, ?_⟩
          have hleft : count - sent = UInt64.ofNat (rest.length + 1) := h.2
          have hone : UInt64.ofNat (rest.length + 1) = UInt64.ofNat rest.length + 1 :=
            UInt64.ofNat_add _ _
          show count - (sent + 1) = UInt64.ofNat rest.length
          rw [hone] at hleft
          grind
      | nil =>
          cases stage with
          | final => exact trivial
          | iterative pass =>
              rw [next_of_passEnd args h]
              exact trivial
  | pause => exact trivial
  | _ => exact trivial

theorem step_inPass {s : MigSystem} (h : s.pc.InPass) (a : MigAction) :
    ((migration json args).step s a).1.pc.InPass := by
  cases a with
  | guestWrite gpa data => exact h
  | dest fails =>
      rw [migration, destStep_pc]
      exact h
  | source o =>
      simp only [migration]
      obtain ⟨-, vm, toSource, events, hstep, -⟩ | ⟨-, hstep⟩ | ⟨-, hstep⟩ :=
        MigSystem.sourceStep_cases json args s o
      · rw [hstep]
        exact trivial
      · rw [hstep]
        exact h
      · rw [hstep]
        simp only [MigSystem.advance, MigSystem.perform_pc]
        exact SourcePc.next_inPass args h o _

theorem run_inPass (vmId : UInt32) (source dest : String) (ram : UInt64 → List UInt8)
    (as : List MigAction) :
    ((migration json args).run (.new vmId source dest ram) as).1.pc.InPass :=
  (migration json args).run_inductive (I := fun s => s.pc.InPass)
    (fun _ a hs => step_inPass json args hs a)
    (s := .new vmId source dest ram) True.intro as

/-! ## What a pass has found -/

/-- The entries of a dirty log that is answered. -/
def MigEvent.logged : MigEvent → Option Nat
  | .ctrl .getDirtyLog (some reply) => some (dirtyPages reply).length
  | _ => none

/-- The dirty count of the last pass. -/
def lastFound (trace : List MigEvent) : Nat := (lastPut MigEvent.logged trace).getD 0

/-- The pages of 4 KiB in `convergence_mib`. -/
def Args.tolerated (args : Args) : Nat := args.convergenceMib.toNat * 256

/-- A pass that ends before the deadline is the last one only if it found no more pages than
are tolerated; one that found more is followed by another. -/
def EndsConverged (before : MigSystem × List MigEvent) (o : Outcome) : Prop :=
  ∀ pass count sent, before.1.pc = .pages (.iterative pass) count sent [] → o.late = false →
    let next := ((migration json args).step before.1 (.source o)).1.pc
    (next = .pause → lastFound before.2 ≤ args.tolerated) ∧
      (args.tolerated < lastFound before.2 → next = .log (.iterative (pass + 1)))

theorem step_passEnd {s : MigSystem} (h : s.pc.InPass) {pass : UInt32} {count sent : UInt64}
    (hpc : s.pc = .pages (.iterative pass) count sent []) (o : Outcome) :
    pass = 0 ∧ ((migration json args).step s (.source o)).1.pc = .pause := by
  rw [hpc] at h
  refine ⟨h.1, ?_⟩
  have hcall : s.pc.call json s.job = .own := by
    rw [hpc]
    rfl
  have hstep : ((migration json args).step s (.source o)).1.pc = (s.pc.next args o s.job).1 := by
    simp only [migration, MigSystem.sourceStep, hcall, MigSystem.advance]
  rw [hstep, hpc]
  exact SourcePc.next_of_passEnd args h o _

theorem endsConverged_iff {before : MigSystem × List MigEvent} (h : before.1.pc.InPass)
    (o : Outcome) :
    EndsConverged json args before o ↔
      ∀ pass count sent, before.1.pc = .pages (.iterative pass) count sent [] →
        o.late = false → lastFound before.2 ≤ args.tolerated := by
  constructor
  · intro hends pass count sent hpc hearly
    exact (hends pass count sent hpc hearly).1 (step_passEnd json args h hpc o).2
  · intro hfew pass count sent hpc hearly
    have hle := hfew pass count sent hpc hearly
    exact ⟨fun _ => hle, fun hmore => absurd hle (Nat.not_le.mpr hmore)⟩

/-! ## The log of a pass -/

/-- The pages of an iterative pass are being sent. -/
def SourcePc.copying : SourcePc → Bool
  | .pages (.iterative _) _ _ _ => true
  | _ => false

def SourcePc.past : SourcePc → Bool
  | .prepare | .connect _ | .hello _ | .ready _ | .enable => false
  | .log (.iterative _) | .pages (.iterative _) _ _ _ => false
  | _ => true

theorem SourcePc.not_copying_of_past {pc : SourcePc} (h : pc.past = true) :
    pc.copying = false := by
  cases pc with
  | pages stage count sent rest =>
      cases stage with
      | iterative pass => cases h
      | final => rfl
  | _ => rfl

theorem SourcePc.next_past {pc : SourcePc} (h : pc.past = true) (o : Outcome)
    (job : MigrationJob) : (pc.next args o job).1.past = true := by
  cases pc with
  | log stage =>
      cases stage with
      | iterative pass => cases h
      | final => rfl
  | pages stage count sent rest =>
      cases stage with
      | iterative pass => cases h
      | final => cases rest <;> rfl
  | prepare => cases h
  | connect shell => cases h
  | hello shell => cases h
  | ready shell => cases h
  | enable => cases h
  | _ => rfl

theorem step_past {s : MigSystem} (h : s.pc.past = true) (a : MigAction) :
    ((migration json args).step s a).1.pc.past = true := by
  cases a with
  | guestWrite gpa data => exact h
  | dest fails =>
      rw [migration, destStep_pc]
      exact h
  | source o =>
      simp only [migration]
      obtain ⟨-, vm, toSource, events, hstep, -⟩ | ⟨-, hstep⟩ | ⟨-, hstep⟩ :=
        MigSystem.sourceStep_cases json args s o
      · rw [hstep]
        rfl
      · rw [hstep]
        exact h
      · rw [hstep]
        simp only [MigSystem.advance, MigSystem.perform_pc]
        exact SourcePc.next_past args h o _

theorem step_copying {s : MigSystem} (hin : s.pc.InPass) (h : s.pc.copying = true)
    (a : MigAction) :
    (((migration json args).step s a).1.pc.copying = true ∧
        lastPut MigEvent.logged ((migration json args).step s a).2 = none) ∨
      ((migration json args).step s a).1.pc.past = true := by
  cases a with
  | guestWrite gpa data => exact Or.inl ⟨h, rfl⟩
  | dest fails =>
      refine Or.inl ⟨?_, lastPut_of_none ?_⟩
      · rw [migration, destStep_pc]
        exact h
      · intro e he
        obtain ⟨m, rfl⟩ := destStep_answered json e he
        rfl
  | source o =>
      cases hpc : s.pc with
      | pages stage count sent rest =>
          cases stage with
          | final =>
              rw [hpc] at h
              cases h
          | iterative pass =>
              cases rest with
              | nil =>
                  right
                  rw [(step_passEnd json args hin hpc o).2]
                  rfl
              | cons page rest =>
                  simp only [migration]
                  obtain ⟨-, vm, toSource, events, hstep, -⟩ | ⟨-, hstep⟩ | ⟨-, hstep⟩ :=
                    MigSystem.sourceStep_cases json args s o
                  · right
                    rw [hstep]
                    rfl
                  · left
                    rw [hstep]
                    exact ⟨h, rfl⟩
                  · left
                    rw [hstep]
                    simp only [MigSystem.advance, MigSystem.perform, hpc]
                    exact ⟨rfl, rfl⟩
      | _ =>
          rw [hpc] at h
          cases h

theorem run_copying {s : MigSystem} (hin : s.pc.InPass) (h : s.pc.copying = true)
    {as : List MigAction} (hend : ((migration json args).run s as).1.pc.copying = true) :
    lastPut MigEvent.logged ((migration json args).run s as).2 = none := by
  induction as generalizing s with
  | nil => rfl
  | cons a as ih =>
      rw [Machine.run_cons] at hend ⊢
      rcases step_copying json args hin h a with ⟨hstay, hnone⟩ | hpast
      · rw [lastPut_append, hnone, ih (step_inPass json args hin a) hstay hend, Option.or_none]
      · have hover := (migration json args).run_inductive (I := fun s => s.pc.past = true)
          (fun _ b hs => step_past json args hs b) hpast as
        rw [SourcePc.not_copying_of_past hover] at hend
        cases hend

theorem step_log {s : MigSystem} {pass : UInt32} (hpc : s.pc = .log (.iterative pass))
    (o : Outcome) :
    (((migration json args).step s (.source o)).1.pc.copying = true ∧
        lastPut MigEvent.logged ((migration json args).step s (.source o)).2 =
          some (dirtyPages o.reply).length) ∨
      ((migration json args).step s (.source o)).1.pc.past = true := by
  have hcall : s.pc.call json s.job = .ctrl .getDirtyLog := by
    rw [hpc]
    rfl
  simp only [migration, MigSystem.sourceStep, hcall]
  cases o.fails with
  | true => exact Or.inr rfl
  | false =>
      left
      simp only [Bool.false_eq_true, if_false, MigSystem.advance, MigSystem.command_pc, hpc]
      exact ⟨rfl, rfl⟩

theorem lastFound_of_log {s₀ : MigSystem} {pre mid : List MigAction} {o : Outcome}
    {pass : UInt32} (hin : ((migration json args).run s₀ pre).1.pc.InPass)
    (hpc : ((migration json args).run s₀ pre).1.pc = .log (.iterative pass))
    (hend : ((migration json args).run s₀ (pre ++ .source o :: mid)).1.pc.copying = true) :
    lastFound ((migration json args).run s₀ (pre ++ .source o :: mid)).2 =
      (dirtyPages o.reply).length := by
  rw [Machine.run_append, Machine.run_cons] at hend
  rcases step_log json args hpc o with ⟨hcopying, hsome⟩ | hpast
  · have hrest := run_copying json args (step_inPass json args hin (.source o)) hcopying hend
    rw [lastFound, Machine.run_append, Machine.run_cons, lastPut_append, lastPut_append, hrest,
      hsome]
    rfl
  · have hover := (migration json args).run_inductive (I := fun s => s.pc.past = true)
      (fun _ b hs => step_past json args hs b) hpast mid
    rw [SourcePc.not_copying_of_past hover] at hend
    cases hend

theorem step_to_copying {s : MigSystem} {a : MigAction}
    (h : ((migration json args).step s a).1.pc.copying = true) :
    s.pc.copying = true ∨ ∃ pass o, s.pc = .log (.iterative pass) ∧ a = .source o := by
  cases a with
  | guestWrite gpa data => exact Or.inl h
  | dest fails =>
      rw [migration, destStep_pc] at h
      exact Or.inl h
  | source o =>
      simp only [migration] at h
      obtain ⟨-, vm, toSource, events, hstep, -⟩ | ⟨-, hstep⟩ | ⟨-, hstep⟩ :=
        MigSystem.sourceStep_cases json args s o
      · rw [hstep] at h
        cases h
      · rw [hstep] at h
        exact Or.inl h
      · rw [hstep] at h
        simp only [MigSystem.advance, MigSystem.perform_pc] at h
        cases hpc : s.pc with
        | log stage =>
            cases stage with
            | iterative pass => exact Or.inr ⟨pass, o, rfl, rfl⟩
            | final =>
                rw [hpc] at h
                cases h
        | pages stage count sent rest =>
            cases stage with
            | iterative pass => exact Or.inl rfl
            | final =>
                rw [hpc] at h
                cases rest <;> cases h
        | _ =>
            rw [hpc] at h
            cases h

theorem exists_log {s₀ : MigSystem} (h₀ : s₀.pc.copying = false) {as : List MigAction}
    (h : ((migration json args).run s₀ as).1.pc.copying = true) :
    ∃ pre o mid pass, as = pre ++ .source o :: mid ∧
      ((migration json args).run s₀ pre).1.pc = .log (.iterative pass) := by
  induction as using List.reverseRecOn with
  | nil =>
      rw [Machine.run_nil, h₀] at h
      cases h
  | append_singleton as a ih =>
      rw [Machine.run_append, Machine.run_cons] at h
      rcases step_to_copying json args h with hbefore | ⟨pass, o, hpc, rfl⟩
      · obtain ⟨pre, o, mid, pass, rfl, hpc⟩ := ih hbefore
        exact ⟨pre, o, mid ++ [a], pass, by simp, hpc⟩
      · exact ⟨as, o, [], pass, rfl, hpc⟩

/-- Unless its pass is still going on at the deadline, the first dirty log has no more entries
than are tolerated. -/
def FirstLogTolerated (s₀ : MigSystem) (as : List MigAction) : Prop :=
  ∀ pre log mid o post count sent,
    as = pre ++ .source log :: mid ++ .source o :: post →
    ((migration json args).run s₀ pre).1.pc = .log (.iterative 0) →
    ((migration json args).run s₀ (pre ++ .source log :: mid)).1.pc =
      .pages (.iterative 0) count sent [] →
    o.late = false → (dirtyPages log.reply).length ≤ args.tolerated

/-- In a run of a migration the passes that end before the deadline end as they should exactly
when the first dirty log is small. -/
theorem precopy_converged_iff (vmId : UInt32) (source dest : String) (ram : UInt64 → List UInt8)
    (as : List MigAction) :
    (∀ pre o post, as = pre ++ .source o :: post →
        EndsConverged json args ((migration json args).run (.new vmId source dest ram) pre) o) ↔
      FirstLogTolerated json args (.new vmId source dest ram) as := by
  have hin := run_inPass json args vmId source dest ram
  constructor
  · intro hends pre log mid o post count sent has hlog hpc hearly
    have hfew := (endsConverged_iff json args (hin _) o).mp (hends _ o post has) 0 count sent hpc
      hearly
    rwa [lastFound_of_log json args (hin pre) hlog (by rw [hpc]; rfl)] at hfew
  · intro htolerated pre o post has
    rw [endsConverged_iff json args (hin pre)]
    intro pass count sent hpc hearly
    have hcopying : ((migration json args).run (.new vmId source dest ram) pre).1.pc.copying =
        true := by
      rw [hpc]
      rfl
    obtain ⟨front, log, mid, first, rfl, hlog⟩ := exists_log json args rfl hcopying
    have hfirst : first = 0 := by
      have hfront := hin front
      rw [hlog] at hfront
      exact hfront
    obtain ⟨rfl, -⟩ := step_passEnd json args (hin _) hpc o
    subst hfirst
    rw [lastFound_of_log json args (hin front) hlog hcopying]
    exact htolerated front log mid o post count sent has hlog hpc hearly

/-- The pass whose pages have all been sent, with the two counts. -/
def SourcePc.passEnd : SourcePc → Option (UInt32 × UInt64 × UInt64)
  | .pages (.iterative pass) count sent [] => some (pass, count, sent)
  | _ => none

theorem SourcePc.eq_of_passEnd {pc : SourcePc} {pass : UInt32} {count sent : UInt64}
    (h : pc.passEnd = some (pass, count, sent)) :
    pc = .pages (.iterative pass) count sent [] := by
  unfold passEnd at h
  split at h
  · cases h
    rfl
  · cases h

/-- A migration up to the end of the first pass, which finds 257 dirty pages. -/
def fullPassRun : List MigAction :=
  let found := (List.range 257).map fun i =>
    (UInt64.ofNat (i * 4096), List.replicate 4096 (1 : UInt8))
  List.flatten [List.replicate 3 (.source .fine), [.dest false],
    List.replicate 2 (.source .fine), [.source (.log found)],
    List.replicate 257 (.source .fine)]

/-- Of 1 MiB that is tolerated the first pass finds one page too many, and is the last one. -/
theorem full_pass_is_last :
    ¬ ∀ pre o post, fullPassRun ++ [.source .fine] = pre ++ .source o :: post →
        EndsConverged sampleJson ⟨1, 300⟩
          ((migration sampleJson ⟨1, 300⟩).run zeroed pre) o := by
  intro h
  have hend : ((migration sampleJson ⟨1, 300⟩).run zeroed fullPassRun).1.pc.passEnd =
      some (0, 257, 257) := by
    decide +kernel
  have hfound : lastFound ((migration sampleJson ⟨1, 300⟩).run zeroed fullPassRun).2 = 257 := by
    decide +kernel
  have hpc := SourcePc.eq_of_passEnd hend
  have hin : ∀ as, ((migration sampleJson ⟨1, 300⟩).run zeroed as).1.pc.InPass :=
    run_inPass sampleJson ⟨1, 300⟩ _ _ _ _
  have hnext := (step_passEnd sampleJson ⟨1, 300⟩ (hin _) hpc .fine).2
  have hfew := (h fullPassRun .fine [] rfl 0 257 257 hpc rfl).1 hnext
  rw [hfound] at hfew
  exact absurd hfew (by decide)

end Caiman.Livemig
