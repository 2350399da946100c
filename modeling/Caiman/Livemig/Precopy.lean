import Caiman.Livemig.Abort

/-!
# Pre-copy

Which pages the destination holds when DONE is sent, over every interleaving of
the source's calls with the guest's writes and with a VMM that answers the dirty
log truthfully. The first pass asks for the dirty log like every other, so a page
is sent exactly when the guest writes it while it is being tracked.
-/

namespace Caiman.Livemig

open Lib

variable (json : Json.Codec) (args : Args) (gpa : UInt64)

/-! ## Pages sent -/

/-- The content of the page after the event, where `last` is its content before. -/
def MigEvent.pageAfter (last : Option (List UInt8)) : MigEvent → Option (List UInt8)
  | .sent m =>
      if m.type = .page ∧ m.payload.take 8 = beBytes 8 gpa.toNat then some (m.payload.drop 8)
      else last
  | _ => last

def lastPage (trace : List MigEvent) : Option (List UInt8) :=
  trace.foldl (MigEvent.pageAfter gpa) none

/-- What the last of these log entries for the page carries. -/
def pendingIn : List Json.Value → Option (List UInt8)
  | [] => none
  | page :: rest => (pendingIn rest).or (if pageGpa page = gpa then some (pageData page) else none)

/-- What the calls still to come in the current pass send for the page. -/
def SourcePc.pending : SourcePc → Option (List UInt8)
  | .pages _ _ _ rest => pendingIn gpa rest
  | _ => none

theorem pageAfter_pageMsg (last : Option (List UInt8)) (page : Json.Value) :
    MigEvent.pageAfter gpa last (.sent (pageMsg json page)) =
      (if pageGpa page = gpa then some (pageData page) else none).or last := by
  have htake : (pageMsg json page).payload.take 8 = beBytes 8 (pageGpa page).toNat :=
    List.take_left' (beBytes_length _ _)
  have hdrop : (pageMsg json page).payload.drop 8 = pageData page :=
    List.drop_left' (beBytes_length _ _)
  have hsame : beBytes 8 (pageGpa page).toNat = beBytes 8 gpa.toNat ↔ pageGpa page = gpa := by
    constructor
    · intro h
      have hnat := congrArg beNat h
      rw [beNat_beBytes (by simpa using (pageGpa page).toNat_lt),
        beNat_beBytes (by simpa using gpa.toNat_lt)] at hnat
      exact UInt64.toNat_inj.mp hnat
    · intro h
      rw [h]
  have htype : (pageMsg json page).type = .page := rfl
  simp only [MigEvent.pageAfter, htype, htake, hdrop, hsame, true_and]
  split <;> simp

theorem pendingIn_log (ram : UInt64 → List UInt8) (gpas : List UInt64) :
    pendingIn gpa (gpas.map fun g => pageEntry g (ram g)) =
      if gpa ∈ gpas then some (ram gpa) else none := by
  induction gpas with
  | nil => rfl
  | cons g gpas ih =>
      rw [List.map_cons, pendingIn, ih, pageGpa_pageEntry, pageData_pageEntry]
      by_cases hin : gpa ∈ gpas
      · simp [hin]
      · by_cases hg : g = gpa
        · subst hg
          simp [hin]
        · simp [hin, hg, Ne.symm hg]

/-! ## A truthful VMM -/

/-- A command that is answered has been carried out, and the dirty log lists the
dirty pages with their content. -/
def MigAction.Truthful (s : MigSystem) : MigAction → Prop
  | .source o => ∀ cmd, s.pc.call json s.job = .ctrl cmd → o.fails = false →
      o.carriedOut = true ∧ (cmd = .getDirtyLog → s.vm.IsDirtyLog o.reply)
  | _ => True

/-- The guest writes the page, and the write is tracked. -/
def MigAction.writesTracked (s : MigSystem) : MigAction → Bool
  | .guestWrite g _ => g = gpa && s.vm.tracking && s.vm.running
  | _ => false

/-! ## One page along a run -/

/-- What has become of the page so far: whether a tracked write has hit it, what
the last PAGE message for it carried, and whether DONE has been sent. -/
structure Seen where
  written : Bool
  last : Option (List UInt8)
  done : Bool

def Seen.after (s : MigSystem) (h : Seen) (a : MigAction) : Seen where
  written := h.written || a.writesTracked gpa s
  last := ((migration json args).step s a).2.foldl (MigEvent.pageAfter gpa) h.last
  done := h.done || ((migration json args).step s a).2.any MigEvent.isDone

def Seen.start : Seen := ⟨false, none, false⟩

def SourcePc.settled : SourcePc → Bool
  | .pages .final _ _ _ | .vcpu | .vcpuSend _ | .bpf | .done => true
  | .running | .network | .storage | .cleanup | .returned _ => true
  | _ => false

def SourcePc.untracked : SourcePc → Bool
  | .prepare | .connect _ | .hello _ | .ready _ | .enable => true
  | _ => false

/-- A page that was never written while tracked is nowhere; one that was is dirty
or its present content has been sent or is about to be. -/
structure Synced (s : MigSystem) (h : Seen) : Prop where
  fresh : h.written = false → gpa ∉ s.vm.dirty ∧ (s.pc.pending gpa).or h.last = none
  held : h.written = true →
    (gpa ∈ s.vm.dirty ∧ s.pc.settled = false) ∨
      (s.pc.pending gpa).or h.last = some (s.vm.ram gpa)
  stopped : s.pc.settled = true ∨ s.pc = .log .final → s.vm.running = false
  before : s.pc.untracked = true → s.vm.tracking = false
  since : h.written = true → s.vm.tracking = true
  sent : h.done = true → s.pc.early = false

/-- Either the page is accounted for, or the migration has failed without DONE. -/
def Accounted (s : MigSystem) (h : Seen) : Prop :=
  ((∃ why, s.pc = .returned (.error why)) ∧ h.done = false) ∨ Synced gpa s h

variable {gpa} {s : MigSystem} {h : Seen}

theorem Synced.guestWrite (hs : Synced gpa s h) (g : UInt64) (data : List UInt8) :
    Synced gpa ((migration json args).step s (.guestWrite g data)).1
      (h.after json args gpa s (.guestWrite g data)) := by
  cases hrun : s.vm.running with
  | false =>
      have hvm : s.vm.write g data = s.vm := by simp [SourceVm.write, hrun]
      simpa [migration, Seen.after, MigAction.writesTracked, hvm, hrun] using hs
  | true =>
      have hopen : s.pc.settled = false := by
        by_contra hset
        have := hs.stopped (Or.inl (by simpa using hset))
        rw [hrun] at this
        cases this
      cases htrack : s.vm.tracking with
      | false =>
          -- nothing is tracked yet, so no write to the page has counted
          have hnot : h.written = false := by
            by_contra hw
            have := hs.since (by simpa using hw)
            rw [htrack] at this
            cases this
          refine ⟨?_, ?_, ?_, ?_, ?_, ?_⟩
          · simpa [migration, Seen.after, MigAction.writesTracked, SourceVm.write, hrun, htrack]
              using hs.fresh
          · simp [Seen.after, MigAction.writesTracked, htrack, hnot]
          · simpa [migration, SourceVm.write, hrun] using hs.stopped
          · simp [migration, SourceVm.write, hrun, htrack]
          · simp [Seen.after, MigAction.writesTracked, htrack, hnot]
          · simpa [migration, Seen.after] using hs.sent
      | true =>
          by_cases hg : g = gpa
          · subst hg
            refine ⟨?_, ?_, ?_, ?_, ?_, ?_⟩
            · simp [Seen.after, MigAction.writesTracked, hrun, htrack]
            · intro _
              exact Or.inl ⟨by simp [migration, SourceVm.write, hrun, htrack], hopen⟩
            · simpa [migration, SourceVm.write, hrun] using hs.stopped
            · simpa [migration, SourceVm.write, hrun, htrack] using hs.before
            · simp [migration, SourceVm.write, hrun, htrack]
            · simpa [migration, Seen.after] using hs.sent
          · refine ⟨?_, ?_, ?_, ?_, ?_, ?_⟩
            · simpa [migration, Seen.after, MigAction.writesTracked, SourceVm.write, hrun, htrack,
                hg, Ne.symm hg] using hs.fresh
            · simpa [migration, Seen.after, MigAction.writesTracked, SourceVm.write, hrun, htrack,
                hg, Ne.symm hg] using hs.held
            · simpa [migration, SourceVm.write, hrun] using hs.stopped
            · simpa [migration, SourceVm.write, hrun, htrack] using hs.before
            · simp [migration, SourceVm.write, hrun, htrack]
            · simpa [migration, Seen.after] using hs.sent

theorem after_dest (fails : Bool) : h.after json args gpa s (.dest fails) = h := by
  have hevents : ∀ e ∈ (s.destStep json fails).2, ∃ m, e = .answered m :=
    destStep_answered json
  have hlast : ∀ (events : List MigEvent) last, (∀ e ∈ events, ∃ m, e = .answered m) →
      events.foldl (MigEvent.pageAfter gpa) last = last := by
    intro events
    induction events with
    | nil => exact fun _ _ => rfl
    | cons e events ih =>
        intro last he
        obtain ⟨m, rfl⟩ := he e List.mem_cons_self
        exact ih last fun e' he' => he e' (List.mem_cons_of_mem _ he')
  have hdone : (s.destStep json fails).2.any MigEvent.isDone = false := by
    rw [List.any_eq_false]
    intro e he
    obtain ⟨m, rfl⟩ := hevents e he
    simp [MigEvent.isDone]
  cases h with
  | mk written last done =>
      simp only [Seen.after, MigAction.writesTracked, Bool.or_false, migration]
      rw [hlast _ last hevents, hdone, Bool.or_false]

theorem Synced.dest (hs : Synced gpa s h) (fails : Bool) :
    Synced gpa ((migration json args).step s (.dest fails)).1
      (h.after json args gpa s (.dest fails)) := by
  rw [after_dest]
  constructor
  · simpa [migration] using hs.fresh
  · simpa [migration] using hs.held
  · simpa [migration] using hs.stopped
  · simpa [migration] using hs.before
  · simpa [migration] using hs.since
  · simpa [migration] using hs.sent

/-- A move of the source that has nothing to do with the page. -/
structure SourcePc.Quiet (gpa : UInt64) (pc pc' : SourcePc) : Prop where
  pending : pc'.pending gpa = pc.pending gpa
  settled : pc'.settled = pc.settled
  log : pc' ≠ .log .final
  untracked : pc'.untracked = true → pc.untracked = true
  early : pc.early = false → pc'.early = false

theorem Synced.of_quiet {s' : MigSystem} (hs : Synced gpa s h) (hvm : s'.vm = s.vm)
    (hq : SourcePc.Quiet gpa s.pc s'.pc) : Synced gpa s' h := by
  constructor
  · rw [hvm, hq.pending]
    exact hs.fresh
  · rw [hvm, hq.pending, hq.settled]
    exact hs.held
  · rw [hvm, hq.settled]
    rintro (hset | hpc)
    · exact hs.stopped (Or.inl hset)
    · exact absurd hpc hq.log
  · rw [hvm]
    exact fun hu => hs.before (hq.untracked hu)
  · rw [hvm]
    exact hs.since
  · exact fun hd => hq.early (hs.sent hd)

theorem Synced.sendPage {stage : Stage} {count sent : UInt64} {page : Json.Value}
    {rest : List Json.Value} {s' : MigSystem} (hs : Synced gpa s h)
    (hpc : s.pc = .pages stage count sent (page :: rest)) (hvm : s'.vm = s.vm)
    (hpc' : s'.pc = .pages stage count (sent + 1) rest) :
    Synced gpa s'
      { h with last := MigEvent.pageAfter gpa h.last (.sent (pageMsg json page)) } := by
  have hsame : (s'.pc.pending gpa).or (MigEvent.pageAfter gpa h.last (.sent (pageMsg json page))) =
      (s.pc.pending gpa).or h.last := by
    rw [hpc, hpc', pageAfter_pageMsg, SourcePc.pending, SourcePc.pending, pendingIn,
      Option.or_assoc]
  have hsettled : s'.pc.settled = s.pc.settled := by
    rw [hpc, hpc']
    cases stage <;> rfl
  constructor
  · rw [hvm, hsame]
    exact hs.fresh
  · rw [hvm, hsame, hsettled]
    exact hs.held
  · rw [hvm, hsettled, hpc']
    rintro (hset | hlog)
    · exact hs.stopped (Or.inl hset)
    · cases hlog
  · rw [hpc']
    intro hu
    cases hu
  · rw [hvm]
    exact hs.since
  · intro hd
    have hearly := hs.sent hd
    rw [hpc] at hearly
    cases hearly

theorem Synced.readLog {stage : Stage} {reply : VmmResponse} {s' : MigSystem}
    (hs : Synced gpa s h) (hpc : s.pc = .log stage) (hreply : s.vm.IsDirtyLog reply)
    (hvm : s'.vm = s.vm.carryOut .getDirtyLog)
    (hpc' : s'.pc = .pages stage (UInt64.ofNat (dirtyPages reply).length) 0 (dirtyPages reply)) :
    Synced gpa s' h := by
  obtain ⟨gpas, hgpas, hdata⟩ := hreply
  have hpages : dirtyPages reply = gpas.map fun g => pageEntry g (s.vm.ram g) := by
    simp [dirtyPages, hdata]
  have hpending : s'.pc.pending gpa = if gpa ∈ s.vm.dirty then some (s.vm.ram gpa) else none := by
    rw [hpc', SourcePc.pending, hpages, pendingIn_log]
    simp only [hgpas]
  have hold : s.pc.pending gpa = none := by rw [hpc]; rfl
  constructor
  · intro hw
    obtain ⟨hclean, hlast⟩ := hs.fresh hw
    rw [hold, Option.none_or] at hlast
    simp [hvm, SourceVm.carryOut, hpending, hclean, hlast]
  · intro hw
    right
    rw [hpending, hvm]
    by_cases hdirty : gpa ∈ s.vm.dirty
    · simp [hdirty, SourceVm.carryOut]
    · rcases hs.held hw with ⟨hin, -⟩ | hlast
      · exact absurd hin hdirty
      · rw [hold, Option.none_or] at hlast
        simp [hdirty, hlast, SourceVm.carryOut]
  · rw [hpc', hvm]
    rintro (hset | hlog)
    · cases stage with
      | iterative pass => cases hset
      | final => exact hs.stopped (Or.inr hpc)
    · cases hlog
  · rw [hpc']
    intro hu
    cases hu
  · rw [hvm]
    exact hs.since
  · intro hd
    have hearly := hs.sent hd
    rw [hpc] at hearly
    cases hearly

theorem Synced.enable {s' : MigSystem} (hs : Synced gpa s h) (hpc : s.pc = .enable)
    (hvm : s'.vm = s.vm.carryOut .enableDirtyTracking) (hpc' : s'.pc = .log (.iterative 0)) :
    Synced gpa s' h := by
  have hnot : h.written = false := by
    by_contra hw
    have htrack := hs.since (by simpa using hw)
    rw [hs.before (by rw [hpc]; rfl)] at htrack
    cases htrack
  have hlast := (hs.fresh hnot).2
  rw [hpc] at hlast
  constructor
  · intro _
    rw [hvm, hpc']
    exact ⟨by simp [SourceVm.carryOut], hlast⟩
  · rw [hnot]
    intro hw
    cases hw
  · rw [hpc']
    rintro (hset | hlog)
    · cases hset
    · cases hlog
  · rw [hpc']
    intro hu
    cases hu
  · rw [hnot]
    intro hw
    cases hw
  · intro hd
    have hearly := hs.sent hd
    rw [hpc] at hearly
    cases hearly

theorem Synced.pause {s' : MigSystem} (hs : Synced gpa s h) (hpc : s.pc = .pause)
    (hvm : s'.vm = s.vm.carryOut .pauseVcpus) (hpc' : s'.pc = .log .final) :
    Synced gpa s' h := by
  have hpending : s'.pc.pending gpa = s.pc.pending gpa := by rw [hpc, hpc']; rfl
  constructor
  · rw [hpending, hvm]
    exact hs.fresh
  · intro hw
    rw [hpending, hvm]
    rcases hs.held hw with ⟨hin, -⟩ | hlast
    · exact Or.inl ⟨hin, by rw [hpc']; rfl⟩
    · exact Or.inr hlast
  · intro _
    rw [hvm]
    rfl
  · rw [hpc']
    intro hu
    cases hu
  · rw [hvm]
    exact hs.since
  · intro hd
    have hearly := hs.sent hd
    rw [hpc] at hearly
    cases hearly

theorem SourcePc.quiet_passEnd (stage : Stage) (count sent : UInt64) (o : Outcome)
    (job : MigrationJob) :
    Quiet gpa (pages stage count sent []) ((pages stage count sent []).next args o job).1 := by
  rcases next_passEnd args stage count sent o job with
    ⟨rfl, hnext⟩ | ⟨pass, rfl, hnext | hnext⟩
  · rw [hnext]
    exact ⟨rfl, rfl, by simp, by simp [untracked], by simp [early]⟩
  · rw [hnext]
    exact ⟨rfl, rfl, by simp, by simp [untracked], by simp [early]⟩
  · rw [hnext]
    exact ⟨rfl, rfl, by simp, by simp [untracked], by simp [early]⟩

theorem Synced.goesOn {o : Outcome} (hs : Synced gpa s h)
    (htrue : (MigAction.source o).Truthful json s) (hbreaks : s.breaks json o = false) :
    Synced gpa ((s.perform json o).1.advance args o)
      { h with
        last := (s.perform json o).2.foldl (MigEvent.pageAfter gpa) h.last
        done := h.done || (s.perform json o).2.any MigEvent.isDone } := by
  have hcarry : ∀ cmd, s.pc.call json s.job = .ctrl cmd →
      ((s.perform json o).1.advance args o).vm = s.vm.carryOut cmd ∧
        (s.perform json o).2 = [.ctrl cmd (some o.reply)] ∧
        (cmd = .getDirtyLog → s.vm.IsDirtyLog o.reply) := by
    intro cmd hcall
    have hfails : o.fails = false := by simpa [MigSystem.breaks, hcall] using hbreaks
    obtain ⟨hdone, hlog⟩ := htrue cmd hcall hfails
    refine ⟨?_, ?_, hlog⟩
    · simp [MigSystem.advance, MigSystem.perform, hcall, MigSystem.command, hdone]
    · simp [MigSystem.perform, hcall]
  have hpc' : ((s.perform json o).1.advance args o).pc = (s.pc.next args o s.job).1 := by
    simp [MigSystem.advance]
  cases hpc : s.pc with
  | enable =>
      obtain ⟨hvm, hevents, -⟩ := hcarry .enableDirtyTracking (by rw [hpc]; rfl)
      rw [hpc] at hpc'
      rw [hevents]
      simpa [MigEvent.pageAfter, MigEvent.isDone] using hs.enable hpc hvm hpc'
  | log stage =>
      obtain ⟨hvm, hevents, hlog⟩ := hcarry .getDirtyLog (by rw [hpc]; rfl)
      rw [hpc] at hpc'
      rw [hevents]
      simpa [MigEvent.pageAfter, MigEvent.isDone] using hs.readLog hpc (hlog rfl) hvm hpc'
  | pause =>
      obtain ⟨hvm, hevents, -⟩ := hcarry .pauseVcpus (by rw [hpc]; rfl)
      rw [hpc] at hpc'
      rw [hevents]
      simpa [MigEvent.pageAfter, MigEvent.isDone] using hs.pause hpc hvm hpc'
  | vcpu =>
      obtain ⟨hvm, hevents, -⟩ := hcarry .getVcpuState (by rw [hpc]; rfl)
      have hquiet : SourcePc.Quiet gpa s.pc ((s.perform json o).1.advance args o).pc := by
        rw [hpc', hpc]
        exact ⟨rfl, rfl, by simp [SourcePc.next], by simp [SourcePc.next, SourcePc.untracked],
          by simp [SourcePc.early]⟩
      rw [hevents]
      simpa [MigEvent.pageAfter, MigEvent.isDone] using hs.of_quiet hvm hquiet
  | pages stage count sent rest =>
      have hvm : ((s.perform json o).1.advance args o).vm = s.vm := by
        cases rest <;> simp [MigSystem.advance, MigSystem.perform, hpc, SourcePc.call]
      cases rest with
      | cons page rest =>
          have hevents : (s.perform json o).2 = [.sent (pageMsg json page)] := by
            simp [MigSystem.perform, hpc, SourcePc.call]
          rw [hpc] at hpc'
          rw [hevents]
          simpa [MigEvent.isDone, pageMsg, Send.toMsg] using hs.sendPage json hpc hvm hpc'
      | nil =>
          have hevents : (s.perform json o).2 = [] := by
            simp [MigSystem.perform, hpc, SourcePc.call]
          have hquiet : SourcePc.Quiet gpa s.pc ((s.perform json o).1.advance args o).pc := by
            rw [hpc', hpc]
            exact SourcePc.quiet_passEnd args stage count sent o s.job
          rw [hevents]
          simpa using hs.of_quiet hvm hquiet
  | done =>
      have hvm : ((s.perform json o).1.advance args o).vm = s.vm := by
        simp [MigSystem.advance, MigSystem.perform, hpc, SourcePc.call]
      have hevents : (s.perform json o).2 = [.sent ⟨.done, []⟩] := by
        simp [MigSystem.perform, hpc, SourcePc.call, Send.toMsg]
      have hquiet : SourcePc.Quiet gpa s.pc ((s.perform json o).1.advance args o).pc := by
        rw [hpc', hpc]
        exact ⟨rfl, rfl, by simp [SourcePc.next], by simp [SourcePc.next, SourcePc.untracked],
          by simp [SourcePc.next, SourcePc.early]⟩
      have hsame := hs.of_quiet hvm hquiet
      rw [hevents]
      refine ⟨hsame.fresh, hsame.held, hsame.stopped, hsame.before, hsame.since, fun _ => ?_⟩
      rw [hpc', hpc]
      rfl
  | _ =>
      have hvm : ((s.perform json o).1.advance args o).vm = s.vm := by
        simp [MigSystem.perform, hpc, SourcePc.call, MigSystem.advance]
      have hevents : (s.perform json o).2.foldl (MigEvent.pageAfter gpa) h.last = h.last ∧
          (s.perform json o).2.any MigEvent.isDone = false := by
        simp [MigSystem.perform, hpc, SourcePc.call, Send.toMsg, MigEvent.pageAfter,
          MigEvent.isDone]
      have hquiet : SourcePc.Quiet gpa s.pc ((s.perform json o).1.advance args o).pc := by
        rw [hpc', hpc]
        exact ⟨rfl, rfl, by simp [SourcePc.next], by simp [SourcePc.next, SourcePc.untracked],
          by simp [SourcePc.next, SourcePc.early]⟩
      rw [hevents.1, hevents.2, Bool.or_false]
      exact hs.of_quiet hvm hquiet

/-- A failed call: before DONE the migration is over, after it the page has been
settled. -/
theorem Synced.breaks {o : Outcome} (hs : Synced gpa s h) (hbreaks : s.breaks json o = true) :
    Accounted gpa ((migration json args).step s (.source o)).1
      (h.after json args gpa s (.source o)) := by
  obtain ⟨vm, toSource, events, hstep, hevents, hvm⟩ :=
    MigSystem.sourceStep_breaks json args hbreaks
  have hlast : ∀ (events : List MigEvent) last, (∀ e ∈ events, ∃ cmd, e = .ctrl cmd none) →
      events.foldl (MigEvent.pageAfter gpa) last = last ∧
        events.any MigEvent.isDone = false := by
    intro events
    induction events with
    | nil => exact fun _ _ => ⟨rfl, rfl⟩
    | cons e events ih =>
        intro last he
        obtain ⟨cmd, rfl⟩ := he e List.mem_cons_self
        exact ih last fun e' he' => he e' (List.mem_cons_of_mem _ he')
  have hafter : h.after json args gpa s (.source o) = h := by
    cases h with
    | mk written last done =>
        simp only [Seen.after, MigAction.writesTracked, Bool.or_false, migration, hstep]
        rw [(hlast events last hevents).1, (hlast events last hevents).2, Bool.or_false]
  have hstep' : ((migration json args).step s (.source o)).1 =
      { s with vm := vm, toSource := toSource, pc := .returned (.error s.pc.context) } :=
    congrArg Prod.fst hstep
  rw [hafter, hstep']
  cases hdone : h.done with
  | false => exact Or.inl ⟨⟨_, rfl⟩, hdone⟩
  | true =>
      -- after DONE no command is pending, so the VM is as it was
      have hlate := hs.sent hdone
      have hsame : vm = s.vm := by
        rcases hvm with hvm | ⟨cmd, hcall⟩
        · exact hvm
        · cases hpc : s.pc with
          | running => simp [hpc, SourcePc.call] at hcall
          | network => simp [hpc, SourcePc.call] at hcall
          | storage => simp [hpc, SourcePc.call] at hcall
          | cleanup => simp [hpc, SourcePc.call] at hcall
          | returned result => simp [hpc, SourcePc.call] at hcall
          | _ => simp [hpc, SourcePc.early] at hlate
      right
      refine hs.of_quiet hsame ?_
      cases hpc : s.pc with
      | running => exact ⟨rfl, rfl, by simp, by simp [SourcePc.untracked], fun _ => rfl⟩
      | network => exact ⟨rfl, rfl, by simp, by simp [SourcePc.untracked], fun _ => rfl⟩
      | storage => exact ⟨rfl, rfl, by simp, by simp [SourcePc.untracked], fun _ => rfl⟩
      | cleanup => exact ⟨rfl, rfl, by simp, by simp [SourcePc.untracked], fun _ => rfl⟩
      | returned result => exact ⟨rfl, rfl, by simp, by simp [SourcePc.untracked], fun _ => rfl⟩
      | _ => simp [hpc, SourcePc.early] at hlate

theorem step_accounted (s : MigSystem) (h : Seen) (a : MigAction) (hs : Accounted gpa s h)
    (htrue : a.Truthful json s) :
    Accounted gpa ((migration json args).step s a).1 (h.after json args gpa s a) := by
  rcases hs with ⟨⟨why, hpc⟩, hdone⟩ | hs
  · left
    refine ⟨⟨why, step_returned json args hpc a⟩, ?_⟩
    have hlate : s.pc.early = false := by rw [hpc]; rfl
    have hnot := (step_late json args hlate a).1
    simpa [Seen.after, hdone, done_mem_iff] using hnot
  · cases a with
    | guestWrite g data => exact Or.inr (hs.guestWrite json args g data)
    | dest fails => exact Or.inr (hs.dest json args fails)
    | source o =>
        obtain ⟨hbreaks, -⟩ | ⟨-, hstep⟩ | ⟨hbreaks, hstep⟩ :=
          MigSystem.sourceStep_cases json args s o
        · exact hs.breaks json args hbreaks
        · right
          simpa [migration, Seen.after, MigAction.writesTracked, hstep] using hs
        · right
          simpa [migration, Seen.after, MigAction.writesTracked, hstep] using
            hs.goesOn json args htrue hbreaks

/-! ## Whole runs -/

variable (gpa)

theorem track_last (s : MigSystem) (h : Seen) (as : List MigAction) :
    ((migration json args).track (fun s h a => h.after json args gpa s a) s h as).last =
      ((migration json args).run s as).2.foldl (MigEvent.pageAfter gpa) h.last := by
  induction as generalizing s h with
  | nil => rfl
  | cons a as ih =>
      rw [Machine.track, ih, Machine.run_cons, List.foldl_append]
      rfl

theorem track_done (s : MigSystem) (h : Seen) (as : List MigAction) :
    ((migration json args).track (fun s h a => h.after json args gpa s a) s h as).done =
      (h.done || ((migration json args).run s as).2.any MigEvent.isDone) := by
  induction as generalizing s h with
  | nil => simp [Machine.track]
  | cons a as ih =>
      rw [Machine.track, ih, Machine.run_cons, List.any_append, ← Bool.or_assoc]
      rfl

theorem track_written (s : MigSystem) (h : Seen) (as : List MigAction) :
    ((migration json args).track (fun s h a => h.after json args gpa s a) s h as).written = true ↔
      h.written = true ∨ ∃ pre a post, as = pre ++ a :: post ∧
        a.writesTracked gpa ((migration json args).run s pre).1 = true := by
  induction as generalizing s h with
  | nil =>
      rw [Machine.track]
      refine (or_iff_left ?_).symm
      rintro ⟨pre, a, post, has, -⟩
      cases pre <;> cases has
  | cons a as ih =>
      rw [Machine.track, ih]
      simp only [Seen.after, Bool.or_eq_true, or_assoc]
      refine or_congr_right ?_
      constructor
      · rintro (hfirst | ⟨pre, b, post, rfl, hb⟩)
        · exact ⟨[], a, as, rfl, hfirst⟩
        · exact ⟨a :: pre, b, post, rfl, hb⟩
      · rintro ⟨pre, b, post, has, hb⟩
        cases pre with
        | nil =>
            cases has
            exact Or.inl hb
        | cons c pre =>
            cases has
            exact Or.inr ⟨pre, b, post, rfl, hb⟩

/-! ## The pause -/

def SourcePc.unpaused : SourcePc → Bool
  | .log .final | .pages .final _ _ _ | .vcpu | .vcpuSend _ | .bpf | .done => false
  | .running | .network | .storage | .cleanup | .returned _ => false
  | _ => true

theorem SourcePc.next_unpaused {pc : SourcePc} (h : pc.unpaused = true) (hpause : pc ≠ .pause)
    (o : Outcome) (job : MigrationJob) : (pc.next args o job).1.unpaused = true := by
  cases pc with
  | pause => exact absurd rfl hpause
  | log stage =>
      cases stage with
      | final => cases h
      | iterative pass => rfl
  | pages stage count sent rest =>
      cases stage with
      | final => cases h
      | iterative pass =>
          cases rest with
          | cons page rest => rfl
          | nil =>
              simp only [next]
              split
              · rfl
              · split <;> rfl
  | prepare => rfl
  | connect shell => rfl
  | hello shell => rfl
  | ready shell => rfl
  | enable => rfl
  | _ => cases h

theorem step_unpaused {s : MigSystem} (h : s.pc.unpaused = true) (a : MigAction) :
    ((migration json args).step s a).1.pc.unpaused = true ∨
      (∃ why, ((migration json args).step s a).1.pc = .returned (.error why)) ∨
      (s.pc = .pause ∧ ∃ o, a = .source o) := by
  cases a with
  | guestWrite g data => exact Or.inl h
  | dest fails => exact Or.inl (by simpa [migration] using h)
  | source o =>
      by_cases hpause : s.pc = .pause
      · exact Or.inr (Or.inr ⟨hpause, o, rfl⟩)
      simp only [migration]
      obtain ⟨-, vm, toSource, events, hstep, -⟩ | ⟨-, hstep⟩ | ⟨-, hstep⟩ :=
        MigSystem.sourceStep_cases json args s o
      · rw [hstep]
        exact Or.inr (Or.inl ⟨_, rfl⟩)
      · left
        rw [hstep]
        exact h
      · left
        rw [hstep]
        simpa [MigSystem.advance] using SourcePc.next_unpaused args h hpause o s.job

theorem SourcePc.early_of_unpaused {pc : SourcePc} (h : pc.unpaused = true) : pc.early = true := by
  cases pc with
  | running => cases h
  | network => cases h
  | storage => cases h
  | cleanup => cases h
  | returned result => cases h
  | _ => rfl

theorem not_done_of_early {s : MigSystem} {as : List MigAction}
    (h : ((migration json args).run s as).1.pc.early = true) :
    .sent ⟨.done, []⟩ ∉ ((migration json args).run s as).2 := by
  intro hdone
  obtain ⟨pre, a, post, rfl, he⟩ := (migration json args).mem_run_iff.mp hdone
  rw [Machine.run_append, Machine.run_cons] at h
  have hlate : ((migration json args).step ((migration json args).run s pre).1 a).1.pc.early =
      false := by
    cases hbefore : ((migration json args).run s pre).1.pc.early with
    | false => exact (step_late json args hbefore a).2
    | true =>
        rcases step_early json args hbefore a with ⟨-, hout, -⟩ | ⟨-, hout, -⟩ | ⟨-, -, hpc⟩
        · exact absurd he hout
        · exact absurd he hout
        · rw [hpc]
          rfl
  have hend := (migration json args).run_inductive (I := fun s => s.pc.early = false)
    (fun _ a hs => (step_late json args hs a).2) hlate post
  rw [hend] at h
  cases h

theorem pauses_of_done {s : MigSystem} (h : s.pc.unpaused = true) {as : List MigAction}
    (hdone : .sent ⟨.done, []⟩ ∈ ((migration json args).run s as).2) :
    ∃ pre o post, as = pre ++ .source o :: post ∧
      ((migration json args).run s pre).1.pc = .pause := by
  induction as generalizing s with
  | nil => cases hdone
  | cons a as ih =>
      by_cases hpause : s.pc = .pause ∧ ∃ o, a = .source o
      · obtain ⟨hpc, o, rfl⟩ := hpause
        exact ⟨[], o, as, rfl, hpc⟩
      have hfirst : .sent ⟨.done, []⟩ ∉ ((migration json args).step s a).2 := by
        intro he
        rcases step_early json args (SourcePc.early_of_unpaused h) a with
          ⟨-, hout, -⟩ | ⟨-, hout, -⟩ | ⟨-, -, hpc⟩
        · exact hout he
        · exact hout he
        · rcases step_unpaused json args h a with hun | ⟨why, hwhy⟩ | hp
          · rw [hpc] at hun
            cases hun
          · rw [hpc] at hwhy
            cases hwhy
          · exact hpause hp
      have hrest : .sent ⟨.done, []⟩ ∈
          ((migration json args).run ((migration json args).step s a).1 as).2 := by
        rw [Machine.run_cons] at hdone
        exact (List.mem_append.mp hdone).resolve_left hfirst
      rcases step_unpaused json args h a with hun | ⟨why, hwhy⟩ | hp
      · obtain ⟨pre, o, post, rfl, hpc⟩ := ih hun hrest
        exact ⟨a :: pre, o, post, rfl, hpc⟩
      · have hlate : ((migration json args).step s a).1.pc.early = false := by rw [hwhy]; rfl
        exact absurd hrest (run_late json args hlate as).1
      · exact absurd hp hpause

theorem sourceStep_vm (s : MigSystem) (o : Outcome) :
    (s.sourceStep json args o).1.vm = s.vm ∨
      ∃ cmd, s.pc.call json s.job = .ctrl cmd ∧
        (s.sourceStep json args o).1.vm = (s.command cmd o).vm := by
  unfold MigSystem.sourceStep
  cases hcall : s.pc.call json s.job with
  | own => exact Or.inl rfl
  | host =>
      dsimp only
      split <;> exact Or.inl rfl
  | ctrl cmd =>
      refine Or.inr ⟨cmd, rfl, ?_⟩
      dsimp only
      split <;> rfl
  | send m =>
      dsimp only
      split <;> exact Or.inl rfl
  | expect t =>
      left
      dsimp only
      split
      · rfl
      · split
        · rfl
        · split <;> rfl

theorem command_ram (cmd : VmmCtrl) (o : Outcome) (s : MigSystem) :
    (s.command cmd o).vm.ram = s.vm.ram := by
  unfold MigSystem.command
  split
  · cases cmd <;> rfl
  · rfl

theorem step_stopped (s : MigSystem) (a : MigAction) (h : s.vm.running = false) :
    ((migration json args).step s a).1.vm.running = false ∧
      ((migration json args).step s a).1.vm.ram = s.vm.ram := by
  cases a with
  | guestWrite g data => simp [migration, SourceVm.write, h]
  | dest fails => simp [migration, h]
  | source o =>
      simp only [migration]
      rcases sourceStep_vm json args s o with hvm | ⟨cmd, hcall, hvm⟩
      · rw [hvm]
        exact ⟨h, rfl⟩
      · rw [hvm]
        refine ⟨?_, command_ram cmd o s⟩
        by_contra hrun
        have := command_running json hcall (by simpa using hrun)
        rw [h] at this
        cases this

theorem run_stopped {s : MigSystem} (h : s.vm.running = false) (as : List MigAction) :
    ((migration json args).run s as).1.vm.ram = s.vm.ram :=
  ((migration json args).run_inductive
    (I := fun t => t.vm.running = false ∧ t.vm.ram = s.vm.ram)
    (fun t a ht => ⟨(step_stopped json args t a ht.1).1,
      (step_stopped json args t a ht.1).2.trans ht.2⟩) ⟨h, rfl⟩ as).2

theorem ram_of_pause {s : MigSystem} {o : Outcome} {as : List MigAction}
    (hpc : s.pc = .pause) (htrue : (MigAction.source o).Truthful json s)
    (hdone : .sent ⟨.done, []⟩ ∈ ((migration json args).run s (.source o :: as)).2) :
    ((migration json args).run s (.source o :: as)).1.vm.ram = s.vm.ram := by
  have hcall : s.pc.call json s.job = .ctrl .pauseVcpus := by rw [hpc]; rfl
  cases hfails : o.fails with
  | true =>
      -- the pause fails, and DONE is never sent
      have hstep : (migration json args).step s (.source o) =
          ((s.command .pauseVcpus o).abort, [.ctrl .pauseVcpus none]) := by
        simp [migration, MigSystem.sourceStep, hcall, hfails]
      rw [Machine.run_cons, hstep] at hdone
      have hlate : (s.command .pauseVcpus o).abort.pc.early = false := rfl
      rcases List.mem_append.mp hdone with he | he
      · simp at he
      · exact absurd he (run_late json args hlate as).1
  | false =>
      have hcarried := (htrue .pauseVcpus hcall hfails).1
      have hvm : ((migration json args).step s (.source o)).1.vm =
          s.vm.carryOut .pauseVcpus := by
        simp [migration, MigSystem.sourceStep, hcall, hfails, MigSystem.advance,
          MigSystem.command, hcarried]
      rw [Machine.run_cons]
      have hstop : ((migration json args).step s (.source o)).1.vm.running = false := by
        rw [hvm]
        rfl
      rw [run_stopped json args hstop as, hvm]
      rfl

/-! ## The whole memory -/

theorem synced_new (vmId : UInt32) (source dest : String) (ram : UInt64 → List UInt8) :
    Synced gpa (.new vmId source dest ram) .start := by
  constructor
  · exact fun _ => ⟨by simp [MigSystem.new], rfl⟩
  · intro hw
    cases hw
  · rintro (hset | hlog)
    · cases hset
    · cases hlog
  · exact fun _ => rfl
  · intro hw
    cases hw
  · intro hd
    cases hd

/-- Once DONE has been sent, the last PAGE message for a page carries its content
if a write to it was tracked, and there is none if not. -/
theorem lastPage_of_done {vmId : UInt32} {source dest : String} {ram : UInt64 → List UInt8}
    {as : List MigAction}
    (htrue : (migration json args).AllSteps (fun s a => a.Truthful json s)
      (.new vmId source dest ram) as)
    (hdone : .sent ⟨.done, []⟩ ∈
      ((migration json args).run (.new vmId source dest ram) as).2) :
    lastPage gpa ((migration json args).run (.new vmId source dest ram) as).2 =
        some (((migration json args).run (.new vmId source dest ram) as).1.vm.ram gpa) ↔
      ∃ pre a post, as = pre ++ a :: post ∧ a.writesTracked gpa
        ((migration json args).run (.new vmId source dest ram) pre).1 = true := by
  have hend : Accounted gpa ((migration json args).run (.new vmId source dest ram) as).1
      ((migration json args).track (fun s (h : Seen) a => h.after json args gpa s a)
        (.new vmId source dest ram) Seen.start as) :=
    (migration json args).run_tracked (step_accounted json args)
      (Or.inr (synced_new gpa vmId source dest ram)) htrue
  have hlast := track_last json args gpa (.new vmId source dest ram) .start as
  have hseen := track_done json args gpa (.new vmId source dest ram) .start as
  have hwritten := track_written json args gpa (.new vmId source dest ram) .start as
  set seen := (migration json args).track (fun s (h : Seen) a => h.after json args gpa s a)
    (.new vmId source dest ram) Seen.start as
  set final := (migration json args).run (.new vmId source dest ram) as
  have hsent : seen.done = true := by
    rw [hseen, Bool.or_eq_true]
    exact Or.inr (done_mem_iff.mp hdone)
  have hsynced : Synced gpa final.1 seen := by
    rcases hend with ⟨-, hnot⟩ | hsynced
    · rw [hsent] at hnot
      cases hnot
    · exact hsynced
  have hlate := hsynced.sent hsent
  have hover : final.1.pc.pending gpa = none ∧ final.1.pc.settled = true := by
    cases hpc : final.1.pc with
    | running => exact ⟨rfl, rfl⟩
    | network => exact ⟨rfl, rfl⟩
    | storage => exact ⟨rfl, rfl⟩
    | cleanup => exact ⟨rfl, rfl⟩
    | returned result => exact ⟨rfl, rfl⟩
    | _ => simp [hpc, SourcePc.early] at hlate
  have hpage : lastPage gpa final.2 = seen.last := hlast.symm
  have hstart : ¬ Seen.start.written = true := Bool.false_ne_true
  rw [hpage]
  apply Iff.trans _ (hwritten.trans (or_iff_right hstart))
  cases hw : seen.written with
  | true =>
      refine iff_of_true ?_ rfl
      rcases hsynced.held hw with ⟨-, hopen⟩ | hheld
      · rw [hover.2] at hopen
        cases hopen
      · rwa [hover.1, Option.none_or] at hheld
  | false =>
      have hnone := (hsynced.fresh hw).2
      rw [hover.1, Option.none_or] at hnone
      simp [hnone]

/-- In every run that sends DONE, over a truthful VMM: the last PAGE message of
each of these pages carries what the page holds when the vCPUs are paused exactly
when the guest writes each of them while writes are being tracked. -/
theorem precopy_complete_iff (vmId : UInt32) (source dest : String) (ram : UInt64 → List UInt8)
    (as : List MigAction) (pages : Set UInt64)
    (htrue : (migration json args).AllSteps (fun s a => a.Truthful json s)
      (.new vmId source dest ram) as)
    (hdone : .sent ⟨.done, []⟩ ∈
      ((migration json args).run (.new vmId source dest ram) as).2) :
    ∃ pre o post, as = pre ++ .source o :: post ∧
      ((migration json args).run (.new vmId source dest ram) pre).1.pc = .pause ∧
      ((∀ gpa ∈ pages,
          lastPage gpa ((migration json args).run (.new vmId source dest ram) as).2 =
            some (((migration json args).run (.new vmId source dest ram) pre).1.vm.ram gpa)) ↔
        ∀ gpa ∈ pages, ∃ pre a post, as = pre ++ a :: post ∧
          a.writesTracked gpa
            ((migration json args).run (.new vmId source dest ram) pre).1 = true) := by
  obtain ⟨pre, o, post, has, hpc⟩ := pauses_of_done json args rfl hdone
  refine ⟨pre, o, post, has, hpc, ?_⟩
  have hpause : (MigAction.source o).Truthful json
      ((migration json args).run (.new vmId source dest ram) pre).1 :=
    (migration json args).allSteps_iff_split.mp htrue pre _ post has
  have hearly : .sent ⟨.done, []⟩ ∉
      ((migration json args).run (.new vmId source dest ram) pre).2 :=
    not_done_of_early json args (by rw [hpc]; rfl)
  have hram : ((migration json args).run (.new vmId source dest ram) as).1.vm.ram =
      ((migration json args).run (.new vmId source dest ram) pre).1.vm.ram := by
    rw [has, Machine.run_append] at hdone ⊢
    exact ram_of_pause json args hpc hpause ((List.mem_append.mp hdone).resolve_left hearly)
  have hpages : ∀ gpa ∈ pages, _ := fun gpa _ => lastPage_of_done json args gpa htrue hdone
  rw [hram] at hpages
  exact forall₂_congr hpages

def Outcome.log (pages : List (UInt64 × List UInt8)) : Outcome :=
  { Outcome.fine with
    reply := ⟨true, none, some (.array (pages.map fun page => pageEntry page.1 page.2))⟩ }

/-- A migration up to DONE in which the guest writes one page once writes are
tracked. -/
def copyRun : List MigAction :=
  let page := List.replicate 4096 1
  List.flatten [List.replicate 3 (.source .fine), [.dest false],
    List.replicate 2 (.source .fine),
    [.guestWrite 0x1000 page, .source (.log [(0x1000, page)])],
    List.replicate 3 (.source .fine), [.source (.log [])], List.replicate 5 (.source .fine)]

def zeroed : MigSystem := .new 7 "a" "b" fun _ => List.replicate 4096 0

theorem copyRun_truthful :
    (migration sampleJson ⟨50, 300⟩).AllSteps (fun s a => a.Truthful sampleJson s) zeroed
      copyRun := by
  repeat' apply And.intro
  all_goals
    first
    | trivial
    | (intro cmd h _
       cases h
       done)
    | (intro cmd h _
       cases h
       refine ⟨rfl, fun h => ?_⟩
       cases h
       done)
    | (intro cmd h _
       cases h
       refine ⟨rfl, fun _ => ?_⟩)
  · exact ⟨[0x1000], fun _ => Iff.rfl, rfl⟩
  · exact ⟨[], fun _ => Iff.rfl, rfl⟩

theorem copyRun_done :
    .sent ⟨.done, []⟩ ∈ ((migration sampleJson ⟨50, 300⟩).run zeroed copyRun).2 :=
  done_mem_iff.mpr (by decide +kernel)

theorem precopy_complete_iff_copyRun :
    ∃ pre o post, copyRun = pre ++ .source o :: post ∧
      ((migration sampleJson ⟨50, 300⟩).run zeroed pre).1.pc = .pause ∧
      ((∀ gpa ∈ ({0x1000} : Set UInt64),
          lastPage gpa ((migration sampleJson ⟨50, 300⟩).run zeroed copyRun).2 =
            some (((migration sampleJson ⟨50, 300⟩).run zeroed pre).1.vm.ram gpa)) ↔
        ∀ gpa ∈ ({0x1000} : Set UInt64), ∃ pre a post, copyRun = pre ++ a :: post ∧
          a.writesTracked gpa
            ((migration sampleJson ⟨50, 300⟩).run zeroed pre).1 = true) :=
  precopy_complete_iff _ _ _ _ _ _ _ _ copyRun_truthful copyRun_done

/-- A page the guest does not write during the copy is never sent. -/
theorem unwritten_page_never_sent :
    (migration sampleJson ⟨50, 300⟩).AllSteps (fun s a => a.Truthful sampleJson s) zeroed
        copyRun ∧
      .sent ⟨.done, []⟩ ∈ ((migration sampleJson ⟨50, 300⟩).run zeroed copyRun).2 ∧
      lastPage 0x2000 ((migration sampleJson ⟨50, 300⟩).run zeroed copyRun).2 = none :=
  ⟨copyRun_truthful, copyRun_done, rfl⟩

end Caiman.Livemig
