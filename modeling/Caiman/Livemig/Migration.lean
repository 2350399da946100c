import Caiman.Livemig.Ctrl
import Caiman.Livemig.Destination

/-!
# Live migration

`run_migration` on the source node, call by call, together with the VM it moves,
the destination and the two directions of the TCP stream between them. A step of
the source is one call that leaves the process, or one stretch of code between
two such calls; the guest writes its pages and the destination takes its messages
between any two of them. Every call that can fail does so whenever the
environment says so.

Time appears in one place, the deadline of the iterative phase; the rate limit
only delays and is left out.
-/

namespace Caiman.Livemig

open Lib

inductive MigrationPhase
  | setup
  | iterativeCopy (pass : UInt32) (dirtyPages : UInt64)
  | converging
  | stopAndCopy
  | switchover
  | complete
  | failed (why : String)
  deriving DecidableEq, Repr

structure MigrationJob where
  vmId : UInt32
  source : String
  dest : String
  phase : MigrationPhase
  totalRam : UInt64
  transferred : UInt64
  deriving DecidableEq, Repr

/-- The arguments `run_migration` reads, the bandwidth apart. -/
structure Args where
  convergenceMib : UInt64
  maxIterSecs : UInt64
  deriving DecidableEq, Repr

structure DestShell where
  vmId : UInt32
  ramBytes : UInt64
  destNode : String
  deriving DecidableEq, Repr

/-- Where `run_migration` failed, by the context it adds to the error. The final
copy adds none. -/
inductive MigError
  | setup
  | dirtyTracking
  | dirtyPages
  | pausing
  | remaining
  | vcpuState
  | starting
  deriving DecidableEq, Repr

inductive Stage
  | iterative (pass : UInt32)
  | final
  deriving DecidableEq, Repr

/-- The next call of the source, with the locals it needs. -/
inductive SourcePc
  | prepare
  | connect (shell : DestShell)
  | hello (shell : DestShell)
  | ready (shell : DestShell)
  | enable
  | log (stage : Stage)
  | pages (stage : Stage) (count sent : UInt64) (rest : List Json.Value)
  | pause
  | vcpu
  | vcpuSend (state : Json.Value)
  | bpf
  | done
  | running
  | network
  | storage
  | cleanup
  | returned (result : Except MigError Unit)

/-- How the environment answers a step of the source. Each call reads what it
needs: whether it fails, the reply of the destination's API or of the VMM,
whether the VMM carried the command out, and whether the deadline has passed. -/
structure Outcome where
  fails : Bool
  shell : DestShell
  reply : VmmResponse
  carriedOut : Bool
  late : Bool

/-- What leaves the two nodes: a control command with the reply, if one came,
and the messages of the source and of the destination. -/
inductive MigEvent
  | ctrl (cmd : VmmCtrl) (reply : Option VmmResponse)
  | sent (m : Msg)
  | answered (m : Msg)

/-- The source node and its VM, the destination, and what is in flight. -/
structure MigSystem where
  job : MigrationJob
  pc : SourcePc
  vm : SourceVm
  toDest : List Msg
  toSource : List Msg
  dest : Destination

/-! ## The source, call by call -/

/-- The kinds of call. `own` code cannot fail, the results of HTTP requests it
makes being dropped; `host` is a call to the destination's API or a connect. -/
inductive Call
  | own
  | host
  | ctrl (cmd : VmmCtrl)
  | send (m : Msg)
  | expect (t : MsgType)

/-- `{ "vmId": .., "ramMib": .. }` -/
def helloConfig (job : MigrationJob) : Json.Value :=
  .object [("ramMib", .nat (job.totalRam / (1024 * 1024))), ("vmId", .nat job.vmId.toUInt64)]

def pageMsg (json : Json.Codec) (page : Json.Value) : Msg :=
  (Send.page (pageGpa page) (pageData page)).toMsg json

def SourcePc.call (json : Json.Codec) (job : MigrationJob) : SourcePc → Call
  | .prepare => .host
  | .connect _ => .host
  | .hello _ => .send ((Send.hello (helloConfig job)).toMsg json)
  | .ready _ => .expect .ready
  | .enable => .ctrl .enableDirtyTracking
  | .log _ => .ctrl .getDirtyLog
  | .pages _ _ _ (page :: _) => .send (pageMsg json page)
  | .pages _ _ _ [] => .own
  | .pause => .ctrl .pauseVcpus
  | .vcpu => .ctrl .getVcpuState
  | .vcpuSend state => .send ((Send.vcpuState state).toMsg json)
  | .bpf => .own
  | .done => .send (Send.done.toMsg json)
  | .running => .expect .running
  | .network => .own
  | .storage => .own
  | .cleanup => .own
  | .returned _ => .own

def SourcePc.context : SourcePc → MigError
  | .prepare | .connect _ | .hello _ | .ready _ => .setup
  | .enable => .dirtyTracking
  | .log .final | .pages .final _ _ _ => .remaining
  | .log _ | .pages _ _ _ _ => .dirtyPages
  | .pause => .pausing
  | .vcpu | .vcpuSend _ => .vcpuState
  | _ => .starting

/-- `convergence_mib * 1024 * 1024 / 4096`, in pages. -/
def convergeThreshold (args : Args) : UInt64 := args.convergenceMib * 1024 * 1024 / 4096

/-- From the return of a call to the next one. -/
def SourcePc.next (args : Args) (o : Outcome) (job : MigrationJob) :
    SourcePc → SourcePc × MigrationJob
  | .prepare => (.connect o.shell, job)
  | .connect shell => (.hello shell, job)
  | .hello shell => (.ready shell, job)
  | .ready shell =>
      (.enable, { job with
        totalRam := shell.ramBytes
        phase := .iterativeCopy 0 0xFFFFFFFFFFFFFFFF })
  | .enable => (.log (.iterative 0), job)
  | .log stage =>
      let pages := dirtyPages o.reply
      (.pages stage (UInt64.ofNat pages.length) 0 pages, job)
  | .pages stage count sent (_ :: rest) => (.pages stage count (sent + 1) rest, job)
  | .pages (.iterative pass) count sent [] =>
      let dirty := count - sent
      let job := { job with phase := .iterativeCopy (pass + 1) dirty }
      -- `Converging` is overwritten before the next call
      if dirty ≤ convergeThreshold args then (.pause, { job with phase := .stopAndCopy })
      else if o.late then (.pause, { job with phase := .stopAndCopy })
      else (.log (.iterative (pass + 1)), job)
  | .pages .final _ _ [] => (.vcpu, job)
  | .pause => (.log .final, job)
  | .vcpu => (.vcpuSend (o.reply.data.getD (.object [])), job)
  | .vcpuSend _ => (.bpf, job)
  | .bpf => (.done, { job with phase := .switchover })
  | .done => (.running, job)
  | .running => (.network, job)
  | .network => (.storage, job)
  | .storage => (.cleanup, job)
  | .cleanup => (.returned (.ok ()), { job with phase := .complete })
  | .returned result => (.returned result, job)

namespace MigSystem

/-- `?` on a failed call: the error is returned and nothing is undone. -/
def abort (s : MigSystem) : MigSystem := { s with pc := .returned (.error s.pc.context) }

def advance (args : Args) (o : Outcome) (s : MigSystem) : MigSystem :=
  { s with pc := (s.pc.next args o s.job).1, job := (s.pc.next args o s.job).2 }

/-- Carried out or not, the command may still be the one whose reply is lost. -/
def command (cmd : VmmCtrl) (o : Outcome) (s : MigSystem) : MigSystem :=
  if o.carriedOut then { s with vm := s.vm.carryOut cmd } else s

def sourceStep (json : Json.Codec) (args : Args) (s : MigSystem) (o : Outcome) :
    MigSystem × List MigEvent :=
  match s.pc.call json s.job with
  | .own => (s.advance args o, [])
  | .host => if o.fails then (s.abort, []) else (s.advance args o, [])
  | .ctrl cmd =>
      if o.fails then ((s.command cmd o).abort, [.ctrl cmd none])
      else ((s.command cmd o).advance args o, [.ctrl cmd (some o.reply)])
  | .send m =>
      if o.fails then (s.abort, [])
      else ({ s with toDest := s.toDest ++ [m] }.advance args o, [.sent m])
  | .expect t =>
      if o.fails then (s.abort, [])
      else
        match s.toSource with
        | [] => (s, [])
        | m :: rest =>
            if m.type = t then ({ s with toSource := rest }.advance args o, [])
            else ({ s with toSource := rest }.abort, [])

/-- The destination takes the next message, waits for one, or fails. -/
def destStep (json : Json.Codec) (s : MigSystem) (fails : Bool) : MigSystem × List MigEvent :=
  if fails then ({ s with dest := s.dest.giveUp }, [])
  else
    match s.toDest with
    | [] => (s, [])
    | m :: rest =>
        let (dest, answers) := s.dest.handle json m
        ({ s with dest := dest, toDest := rest, toSource := s.toSource ++ answers },
          answers.map .answered)

def new (vmId : UInt32) (source dest : String) (ram : UInt64 → List UInt8) : MigSystem where
  job := ⟨vmId, source, dest, .setup, 0, 0⟩
  pc := .prepare
  vm := ⟨true, false, ram, []⟩
  toDest := []
  toSource := []
  dest := .new

end MigSystem

inductive MigAction
  | guestWrite (gpa : UInt64) (data : List UInt8)
  | source (o : Outcome)
  | dest (fails : Bool)

def migration (json : Json.Codec) (args : Args) : Machine MigSystem MigAction MigEvent where
  step s
    | .guestWrite gpa data => ({ s with vm := s.vm.write gpa data }, [])
    | .source o => s.sourceStep json args o
    | .dest fails => s.destStep json fails

/-- A codec that reads the config of VM 7 and an empty state. -/
def sampleJson : Json.Codec :=
  .knowing (fun _ => []) [helloConfig ⟨7, "a", "b", .setup, 0, 0⟩, .object []]

/-- Every call goes through and no page is dirty. -/
def Outcome.fine : Outcome where
  fails := false
  shell := ⟨7, 0, "b"⟩
  reply := ⟨true, none, none⟩
  carriedOut := true
  late := false

/-- A migration from the first request to the return, in which the pause is
answered as given. -/
def moveRun (pause : Outcome) : List MigAction :=
  List.flatten [List.replicate 3 (.source .fine), [.dest false],
    List.replicate 4 (.source .fine), [.source pause], List.replicate 6 (.source .fine),
    [.dest false, .dest false], List.replicate 4 (.source .fine)]

def SourcePc.succeeded : SourcePc → Bool
  | .returned (.ok _) => true
  | _ => false

theorem SourcePc.succeeded_iff {pc : SourcePc} :
    pc.succeeded = true ↔ pc = .returned (.ok ()) := by
  unfold succeeded
  split
  · simp
  · rename_i hother
    refine iff_of_false (by simp) ?_
    intro hpc
    exact hother () hpc

def SourcePc.failure : SourcePc → Option MigError
  | .returned (.error why) => some why
  | _ => none

theorem SourcePc.failure_eq_some {pc : SourcePc} {why : MigError} :
    pc.failure = some why ↔ pc = .returned (.error why) := by
  unfold failure
  split
  · simp
  · rename_i hother
    refine iff_of_false (by simp) ?_
    intro hpc
    exact hother why hpc

/-! ## What a step of the source can do -/

/-- At the end of a pass the source goes on to the pause, to another pass, or,
after the final one, to the vCPU state. -/
theorem SourcePc.next_passEnd (args : Args) (stage : Stage) (count sent : UInt64)
    (o : Outcome) (job : MigrationJob) :
    (stage = .final ∧ ((pages stage count sent []).next args o job).1 = .vcpu) ∨
      ∃ pass, stage = .iterative pass ∧
        (((pages stage count sent []).next args o job).1 = .pause ∨
          ((pages stage count sent []).next args o job).1 = .log (.iterative (pass + 1))) := by
  cases stage with
  | final => exact Or.inl ⟨rfl, rfl⟩
  | iterative pass =>
      refine Or.inr ⟨pass, rfl, ?_⟩
      simp only [next]
      split
      · exact Or.inl rfl
      · split
        · exact Or.inl rfl
        · exact Or.inr rfl

namespace MigSystem

/-- The call of the step fails, or the message it waits for is another one. -/
def breaks (json : Json.Codec) (s : MigSystem) (o : Outcome) : Bool :=
  match s.pc.call json s.job with
  | .own => false
  | .expect t =>
      o.fails ||
        match s.toSource with
        | [] => false
        | m :: _ => m.type != t
  | _ => o.fails

def waits (json : Json.Codec) (s : MigSystem) : Bool :=
  match s.pc.call json s.job with
  | .expect _ => s.toSource.isEmpty
  | _ => false

/-- What the call itself does when it returns. -/
def perform (json : Json.Codec) (o : Outcome) (s : MigSystem) : MigSystem × List MigEvent :=
  match s.pc.call json s.job with
  | .own => (s, [])
  | .host => (s, [])
  | .ctrl cmd => (s.command cmd o, [.ctrl cmd (some o.reply)])
  | .send m => ({ s with toDest := s.toDest ++ [m] }, [.sent m])
  | .expect _ => ({ s with toSource := s.toSource.tail }, [])

@[simp] theorem command_pc (cmd : VmmCtrl) (o : Outcome) (s : MigSystem) :
    (s.command cmd o).pc = s.pc := by
  unfold command
  split <;> rfl

@[simp] theorem command_job (cmd : VmmCtrl) (o : Outcome) (s : MigSystem) :
    (s.command cmd o).job = s.job := by
  unfold command
  split <;> rfl

@[simp] theorem command_dest (cmd : VmmCtrl) (o : Outcome) (s : MigSystem) :
    (s.command cmd o).dest = s.dest := by
  unfold command
  split <;> rfl

@[simp] theorem perform_pc (json : Json.Codec) (o : Outcome) (s : MigSystem) :
    (s.perform json o).1.pc = s.pc := by
  unfold perform
  split <;> simp

@[simp] theorem perform_job (json : Json.Codec) (o : Outcome) (s : MigSystem) :
    (s.perform json o).1.job = s.job := by
  unfold perform
  split <;> simp

@[simp] theorem perform_dest (json : Json.Codec) (o : Outcome) (s : MigSystem) :
    (s.perform json o).1.dest = s.dest := by
  unfold perform
  split <;> simp

variable (json : Json.Codec) (args : Args)

theorem sourceStep_breaks {s : MigSystem} {o : Outcome} (h : s.breaks json o = true) :
    ∃ vm toSource events,
      s.sourceStep json args o =
        ({ s with vm := vm, toSource := toSource, pc := .returned (.error s.pc.context) },
          events) ∧
      (∀ e ∈ events, ∃ cmd, e = .ctrl cmd none) ∧
      (vm = s.vm ∨ ∃ cmd, s.pc.call json s.job = .ctrl cmd) := by
  unfold breaks at h
  unfold sourceStep
  cases hcall : s.pc.call json s.job with
  | own => simp [hcall] at h
  | host =>
      have hfails : o.fails = true := by simpa [hcall] using h
      exact ⟨s.vm, s.toSource, [], by simp [hfails, abort], by simp, Or.inl rfl⟩
  | ctrl cmd =>
      have hfails : o.fails = true := by simpa [hcall] using h
      refine ⟨(s.command cmd o).vm, s.toSource, [.ctrl cmd none], ?_, by simp,
        Or.inr ⟨cmd, rfl⟩⟩
      simp only [hfails, if_true, abort, command_pc]
      unfold command
      split <;> rfl
  | send m =>
      have hfails : o.fails = true := by simpa [hcall] using h
      exact ⟨s.vm, s.toSource, [], by simp [hfails, abort], by simp, Or.inl rfl⟩
  | expect t =>
      cases hfails : o.fails with
      | true => exact ⟨s.vm, s.toSource, [], by simp [abort], by simp, Or.inl rfl⟩
      | false =>
          cases hin : s.toSource with
          | nil => simp [hcall, hfails, hin] at h
          | cons m rest =>
              have hother : m.type ≠ t := by simpa [hcall, hfails, hin] using h
              exact ⟨s.vm, rest, [], by simp [hother, abort], by simp, Or.inl rfl⟩

theorem sourceStep_waits {s : MigSystem} {o : Outcome} (hbreaks : s.breaks json o = false)
    (h : s.waits json = true) : s.sourceStep json args o = (s, []) := by
  unfold waits at h
  unfold breaks at hbreaks
  unfold sourceStep
  cases hcall : s.pc.call json s.job with
  | expect t =>
      have hin : s.toSource = [] := by simpa [hcall] using h
      have hfails : o.fails = false := by simpa [hcall, hin] using hbreaks
      simp [hfails, hin]
  | _ => simp [hcall] at h

theorem sourceStep_goesOn {s : MigSystem} {o : Outcome} (hbreaks : s.breaks json o = false)
    (h : s.waits json = false) :
    s.sourceStep json args o =
      ((s.perform json o).1.advance args o, (s.perform json o).2) := by
  unfold waits at h
  unfold breaks at hbreaks
  unfold sourceStep perform
  cases hcall : s.pc.call json s.job with
  | own => rfl
  | host =>
      have hfails : o.fails = false := by simpa [hcall] using hbreaks
      simp [hfails]
  | ctrl cmd =>
      have hfails : o.fails = false := by simpa [hcall] using hbreaks
      simp [hfails]
  | send m =>
      have hfails : o.fails = false := by simpa [hcall] using hbreaks
      simp [hfails]
  | expect t =>
      cases hin : s.toSource with
      | nil => simp [hcall, hin] at h
      | cons m rest =>
          obtain ⟨hfails, htype⟩ : o.fails = false ∧ m.type = t := by
            simpa [hcall, hin] using hbreaks
          simp [hfails, htype]

theorem sourceStep_cases (s : MigSystem) (o : Outcome) :
    (s.breaks json o = true ∧ ∃ vm toSource events,
      s.sourceStep json args o =
        ({ s with vm := vm, toSource := toSource, pc := .returned (.error s.pc.context) },
          events) ∧
      ∀ e ∈ events, ∃ cmd, e = .ctrl cmd none) ∨
    (s.breaks json o = false ∧ s.sourceStep json args o = (s, [])) ∨
    (s.breaks json o = false ∧
      s.sourceStep json args o =
        ((s.perform json o).1.advance args o, (s.perform json o).2)) := by
  cases hbreaks : s.breaks json o with
  | true =>
      obtain ⟨vm, toSource, events, hstep, hevents, -⟩ := sourceStep_breaks json args hbreaks
      exact Or.inl ⟨rfl, vm, toSource, events, hstep, hevents⟩
  | false =>
      right
      cases hwaits : s.waits json with
      | true => exact Or.inl ⟨rfl, sourceStep_waits json args hbreaks hwaits⟩
      | false => exact Or.inr ⟨rfl, sourceStep_goesOn json args hbreaks hwaits⟩

end MigSystem

end Caiman.Livemig
