import Caiman.Livemig.Abort

/-!
# Order of the messages

When the destination reports RUNNING, over every sequence of messages a peer can
send, and that what the source sends leads there. After the HELLO the destination
keeps no account of what it has received: any DONE starts the VM.
-/

namespace Caiman.Livemig

open Lib

variable (json : Json.Codec)

/-! ## What the destination accepts -/

/-- A HELLO that carries JSON. -/
def Msg.opens (m : Msg) : Bool := m.type = .hello && (json.fromSlice m.payload).isSome

/-- A message that leaves the destination in its receive loop. -/
def Msg.passes (m : Msg) : Bool :=
  m.type ≠ .done && (m.type ≠ .vcpuState || (json.fromSlice m.payload).isSome)

theorem handle_running_iff (d : Destination) (m : Msg) :
    ⟨.running, []⟩ ∈ (d.handle json m).2 ↔ d.pc = .receive ∧ m.type = .done := by
  unfold Destination.handle
  cases hpc : d.pc with
  | handshake =>
      dsimp only
      split <;> simp [Send.toMsg]
  | receive =>
      cases htype : m.type with
      | page =>
          dsimp only
          split <;> simp
      | vcpuState =>
          dsimp only
          split <;> simp
      | _ => simp [Send.toMsg]
  | returned ok => simp

theorem handle_handshake {d : Destination} (hpc : d.pc = .handshake) (m : Msg) :
    (d.handle json m).1.pc = if m.opens json then .receive else .returned false := by
  unfold Destination.handle Msg.opens
  rw [hpc]
  dsimp only
  by_cases h : m.type = .hello ∧ (json.fromSlice m.payload).isSome
  · simp [h]
  · rw [if_neg h, if_neg (by simpa using h)]
    rfl

theorem handle_receive {d : Destination} (hpc : d.pc = .receive) (m : Msg) :
    (d.handle json m).1.pc = .receive ↔ m.passes json = true := by
  unfold Destination.handle Msg.passes
  rw [hpc]
  cases htype : m.type with
  | page =>
      dsimp only
      split <;> simp [hpc]
  | vcpuState =>
      cases hread : (json.fromSlice m.payload).isSome <;> simp [hpc, Destination.giveUp]
  | _ => simp [hpc]

theorem handle_left {d : Destination} (h : ∃ ok, d.pc = .returned ok) (m : Msg) :
    ∃ ok, (d.handle json m).1.pc = .returned ok := by
  obtain ⟨ok, hpc⟩ := h
  exact ⟨ok, by simp [Destination.handle, hpc]⟩

theorem handle_receive_or (d : Destination) (hpc : d.pc = .receive) (m : Msg) :
    (d.handle json m).1.pc = .receive ∨ ∃ ok, (d.handle json m).1.pc = .returned ok := by
  unfold Destination.handle
  rw [hpc]
  cases htype : m.type with
  | page =>
      dsimp only
      split
      · exact Or.inl rfl
      · exact Or.inl hpc
  | vcpuState =>
      dsimp only
      split
      · exact Or.inl hpc
      · exact Or.inr ⟨false, rfl⟩
  | done => exact Or.inr ⟨true, rfl⟩
  | _ => exact Or.inl hpc

theorem machine_step (d : Destination) (m : Msg) :
    (Destination.machine json).step d m = d.handle json m := rfl

theorem run_left {d : Destination} (h : ∃ ok, d.pc = .returned ok) (msgs : List Msg) :
    ∃ ok, ((Destination.machine json).run d msgs).1.pc = .returned ok :=
  (Destination.machine json).run_inductive (I := fun d => ∃ ok, d.pc = .returned ok)
    (fun _ m hd => handle_left json hd m) h msgs

theorem run_receive_iff {d : Destination} (hpc : d.pc = .receive) (msgs : List Msg) :
    ((Destination.machine json).run d msgs).1.pc = .receive ↔
      ∀ m ∈ msgs, m.passes json = true := by
  induction msgs generalizing d with
  | nil => simpa using hpc
  | cons m msgs ih =>
      rw [Machine.run_cons, List.forall_mem_cons, machine_step]
      dsimp only
      rcases handle_receive_or json d hpc m with hstay | hleft
      · rw [ih hstay]
        exact (and_iff_right ((handle_receive json hpc m).mp hstay)).symm
      · refine iff_of_false ?_ ?_
        · obtain ⟨ok, hend⟩ := run_left json hleft msgs
          intro hrec
          have hrec' := hend.symm.trans hrec
          cases hrec'
        · rintro ⟨hpass, -⟩
          obtain ⟨ok, hret⟩ := hleft
          rw [(handle_receive json hpc m).mpr hpass] at hret
          cases hret

/-- The destination is in its receive loop exactly after a HELLO and messages
that leave it there. -/
theorem receiving_iff (got : List Msg) :
    ((Destination.machine json).run .new got).1.pc = .receive ↔
      ∃ hello mid, got = hello :: mid ∧ hello.opens json = true ∧
        ∀ m ∈ mid, m.passes json = true := by
  cases got with
  | nil => simp [Destination.new]
  | cons hello mid =>
      have hfirst := handle_handshake json (d := .new) rfl hello
      rw [Machine.run_cons, machine_step]
      dsimp only
      cases hopens : hello.opens json with
      | true =>
          rw [hopens, if_pos rfl] at hfirst
          rw [run_receive_iff json hfirst]
          constructor
          · exact fun h => ⟨hello, mid, rfl, hopens, h⟩
          · rintro ⟨hello', mid', hgot, -, h⟩
            cases hgot
            exact h
      | false =>
          rw [hopens] at hfirst
          obtain ⟨ok, hend⟩ := run_left json ⟨false, hfirst⟩ mid
          refine iff_of_false ?_ ?_
          · intro hrec
            have hrec' := hend.symm.trans hrec
            cases hrec'
          · rintro ⟨hello', mid', hgot, hopens', -⟩
            cases hgot
            rw [hopens] at hopens'
            cases hopens'

/-! ## The documented order -/

/-- A PAGE message of the documented size: the GPA and 4096 bytes. -/
def Msg.wellSized (m : Msg) : Prop := m.type = .page → m.payload.length = 8 + 4096

/-- HELLO, PAUSE, VCPU_STATE and DONE in this order, and whole pages. -/
structure InOrder (got : List Msg) : Prop where
  order : List.Sublist [.hello, .pause, .vcpuState, .done] (got.map Msg.type)
  pages : ∀ m ∈ got, m.wellSized

/-- RUNNING is sent only after the documented messages. -/
def StartsInOrder (msgs : List Msg) : Prop :=
  ∀ got m rest, msgs = got ++ m :: rest →
    ⟨.running, []⟩ ∈ (((Destination.machine json).run .new got).1.handle json m).2 →
    InOrder (got ++ [m])

/-- A PAUSE, and a VCPU_STATE after it, and whole pages. -/
structure Handed (mid : List Msg) : Prop where
  order : List.Sublist [.pause, .vcpuState] (mid.map Msg.type)
  pages : ∀ m ∈ mid, m.wellSized

theorem inOrder_iff {hello done : Msg} {mid : List Msg} (hhello : hello.type = .hello)
    (hdone : done.type = .done) : InOrder (hello :: mid ++ [done]) ↔ Handed mid := by
  have htypes : (hello :: mid ++ [done]).map Msg.type =
      .hello :: (mid.map Msg.type ++ [.done]) := by
    simp [hhello, hdone]
  have horder : List.Sublist [.hello, .pause, .vcpuState, .done]
      ((hello :: mid ++ [done]).map Msg.type) ↔
        List.Sublist [.pause, .vcpuState] (mid.map Msg.type) := by
    rw [htypes, List.cons_sublist_cons]
    have hsplit : [MsgType.pause, .vcpuState, .done] = [.pause, .vcpuState] ++ [.done] := rfl
    rw [hsplit, List.append_sublist_append_right]
  constructor
  · intro h
    exact ⟨horder.mp h.order, fun m hm => h.pages m (by simp [hm])⟩
  · intro h
    refine ⟨horder.mpr h.order, fun m hm => ?_⟩
    rcases List.mem_append.mp hm with hfront | hlast
    · rcases List.mem_cons.mp hfront with rfl | hin
      · simp [Msg.wellSized, hhello]
      · exact h.pages m hin
    · have hm' : m = done := by simpa using hlast
      simp [Msg.wellSized, hm', hdone]

/-- The destination keeps to the documented order on exactly the sequences whose
first accepted DONE comes after a PAUSE, a VCPU_STATE and whole pages. -/
theorem startsInOrder_iff (msgs : List Msg) :
    StartsInOrder json msgs ↔
      ∀ hello mid done rest, msgs = hello :: mid ++ done :: rest → hello.opens json = true →
        (∀ m ∈ mid, m.passes json = true) → done.type = .done → Handed mid := by
  have hhello : ∀ m : Msg, m.opens json = true → m.type = .hello := by
    intro m hm
    simp only [Msg.opens, Bool.and_eq_true, decide_eq_true_eq] at hm
    exact hm.1
  constructor
  · intro h hello mid done rest hmsgs hopens hmid hdone
    have hstart := (handle_running_iff json _ done).mpr
      ⟨(receiving_iff json (hello :: mid)).mpr ⟨hello, mid, rfl, hopens, hmid⟩, hdone⟩
    exact (inOrder_iff (hhello hello hopens) hdone).mp (h (hello :: mid) done rest hmsgs hstart)
  · intro h got m rest hmsgs hstart
    obtain ⟨hpc, hdone⟩ := (handle_running_iff json _ m).mp hstart
    obtain ⟨hello, mid, rfl, hopens, hmid⟩ := (receiving_iff json got).mp hpc
    exact (inOrder_iff (hhello hello hopens) hdone).mpr (h hello mid m rest hmsgs hopens hmid hdone)

/-! ## What the source sends -/

variable (args : Args)

def MigEvent.message : MigEvent → Option Msg
  | .sent m => some m
  | _ => none

def sentMsgs (trace : List MigEvent) : List Msg := trace.filterMap MigEvent.message

def SourcePc.opening : SourcePc → Bool
  | .prepare | .connect _ | .hello _ => true
  | _ => false

/-- A state the VMM replies with can be read again once it is printed. -/
def MigAction.readable : MigAction → Prop
  | .source o => json.ReadsBack (o.reply.data.getD (.object []))
  | _ => True

/-- What the source has sent by the time it stands at `pc`: nothing before the
HELLO, then messages the destination passes over, then one DONE. -/
structure Sent (job : MigrationJob) (s : MigSystem) (sent : List Msg) : Prop where
  opening : s.pc.opening = true → sent = [] ∧ s.job = job
  talking : s.pc.opening = false → s.pc.early = true →
    ∃ hello mid, sent = hello :: mid ∧ hello.opens json = true ∧ ∀ m ∈ mid, m.passes json = true
  state : ∀ v, s.pc = .vcpuSend v → json.ReadsBack v
  finished : ⟨.done, []⟩ ∈ sent →
    ∃ hello mid, sent = hello :: mid ++ [⟨.done, []⟩] ∧ hello.opens json = true ∧
      ∀ m ∈ mid, m.passes json = true

variable {json} {job : MigrationJob} {s s' : MigSystem} {sent : List Msg}

theorem Sent.quiet (hs : Sent json job s sent)
    (hopening : s'.pc.opening = true → s.pc.opening = true ∧ s'.job = s.job)
    (htalking : s'.pc.opening = false → s'.pc.early = true →
      s.pc.opening = false ∧ s.pc.early = true)
    (hstate : ∀ v, s'.pc = .vcpuSend v → json.ReadsBack v) : Sent json job s' sent := by
  refine ⟨?_, ?_, hstate, hs.finished⟩
  · intro h
    obtain ⟨hopen, hjob⟩ := hopening h
    exact ⟨(hs.opening hopen).1, hjob.trans (hs.opening hopen).2⟩
  · intro h hearly
    obtain ⟨hopen, hearly'⟩ := htalking h hearly
    exact hs.talking hopen hearly'

theorem Sent.pass {m : Msg} (hs : Sent json job s sent) (hopen : s.pc.opening = false)
    (hearly : s.pc.early = true) (hm : m.passes json = true) (hopen' : s'.pc.opening = false)
    (hstate : ∀ v, s'.pc ≠ .vcpuSend v) : Sent json job s' (sent ++ [m]) := by
  obtain ⟨hello, mid, rfl, hhello, hmid⟩ := hs.talking hopen hearly
  have hpass : ∀ x ∈ mid ++ [m], x.passes json = true := by
    intro x hx
    rcases List.mem_append.mp hx with hin | hlast
    · exact hmid x hin
    · rw [List.mem_singleton.mp hlast]
      exact hm
  refine ⟨fun h => ?_, fun _ _ => ⟨hello, mid ++ [m], rfl, hhello, hpass⟩,
    fun v hv => absurd hv (hstate v), fun hin => ?_⟩
  · rw [hopen'] at h
    cases h
  · -- none of them is DONE
    rcases List.mem_cons.mp hin with hfirst | hrest
    · rw [← hfirst] at hhello
      simp [Msg.opens] at hhello
    · have := hpass _ hrest
      simp [Msg.passes] at this

theorem Sent.hello {shell shell' : DestShell} (hs : Sent json job s sent)
    (hpc : s.pc = .hello shell) (hhello : json.ReadsBack (helloConfig job))
    (hpc' : s'.pc = .ready shell') :
    Sent json job s' (sent ++ [⟨.hello, json.toVec (helloConfig s.job)⟩]) := by
  obtain ⟨rfl, rfl⟩ := hs.opening (by rw [hpc]; rfl)
  refine ⟨?_, fun _ _ => ⟨_, [], rfl, ?_, by simp⟩, ?_, ?_⟩
  · rw [hpc']
    intro hopen
    cases hopen
  · simpa [Msg.opens, Json.Codec.ReadsBack] using hhello
  · rw [hpc']
    intro v hv
    cases hv
  · simp

theorem Sent.done (hs : Sent json job s sent) (hpc : s.pc = .done) (hpc' : s'.pc = .running) :
    Sent json job s' (sent ++ [⟨.done, []⟩]) := by
  obtain ⟨hello, mid, rfl, hopens, hmid⟩ := hs.talking (by rw [hpc]; rfl) (by rw [hpc]; rfl)
  refine ⟨?_, ?_, ?_, fun _ => ⟨hello, mid, rfl, hopens, hmid⟩⟩
  · rw [hpc']
    intro hopen
    cases hopen
  · rw [hpc']
    intro _ hearly
    cases hearly
  · rw [hpc']
    intro v hv
    cases hv

theorem sent_goesOn {o : Outcome} (hs : Sent json job s sent)
    (hhello : json.ReadsBack (helloConfig job))
    (hreply : json.ReadsBack (o.reply.data.getD (.object []))) :
    Sent json job ((s.perform json o).1.advance args o)
      (sent ++ sentMsgs (s.perform json o).2) := by
  have hpc' : ((s.perform json o).1.advance args o).pc = (s.pc.next args o s.job).1 := by
    simp [MigSystem.advance]
  have hjob' : ((s.perform json o).1.advance args o).job = (s.pc.next args o s.job).2 := by
    simp [MigSystem.advance]
  cases hpc : s.pc with
  | hello shell =>
      have hevents : sentMsgs (s.perform json o).2 =
          [⟨.hello, json.toVec (helloConfig s.job)⟩] := by
        simp [MigSystem.perform, hpc, SourcePc.call, sentMsgs, MigEvent.message, Send.toMsg]
      rw [hpc] at hpc'
      rw [hevents]
      exact hs.hello hpc hhello hpc'
  | vcpu =>
      have hevents : sentMsgs (s.perform json o).2 = [] := by
        simp [MigSystem.perform, hpc, SourcePc.call, sentMsgs, MigEvent.message]
      rw [hevents, List.append_nil]
      apply hs.quiet
      · rw [hpc', hpc]
        simp [SourcePc.next, SourcePc.opening]
      · rw [hpc]
        simp [SourcePc.opening, SourcePc.early]
      · rw [hpc', hpc]
        intro v hv
        cases hv
        exact hreply
  | vcpuSend state =>
      have hevents : sentMsgs (s.perform json o).2 = [⟨.vcpuState, json.toVec state⟩] := by
        simp [MigSystem.perform, hpc, SourcePc.call, sentMsgs, MigEvent.message, Send.toMsg]
      rw [hpc] at hpc'
      rw [hevents]
      apply hs.pass
      · rw [hpc]
        rfl
      · rw [hpc]
        rfl
      · simpa [Msg.passes, Json.Codec.ReadsBack] using hs.state state hpc
      · rw [hpc']
        rfl
      · rw [hpc']
        intro v hv
        cases hv
  | pages stage count done rest =>
      cases rest with
      | cons page rest =>
          have hevents : sentMsgs (s.perform json o).2 = [pageMsg json page] := by
            simp [MigSystem.perform, hpc, SourcePc.call, sentMsgs, MigEvent.message]
          rw [hpc] at hpc'
          rw [hevents]
          apply hs.pass
          · rw [hpc]
            rfl
          · rw [hpc]
            rfl
          · simp [Msg.passes, pageMsg, Send.toMsg]
          · rw [hpc']
            rfl
          · rw [hpc']
            intro v hv
            cases hv
      | nil =>
          have hevents : sentMsgs (s.perform json o).2 = [] := by
            simp [MigSystem.perform, hpc, SourcePc.call, sentMsgs]
          have hnext : (s.pc.next args o s.job).1.opening = false ∧
              ∀ v, (s.pc.next args o s.job).1 ≠ .vcpuSend v := by
            rw [hpc]
            rcases SourcePc.next_passEnd args stage count done o s.job with
              ⟨-, hnext⟩ | ⟨pass, -, hnext | hnext⟩ <;> simp [hnext, SourcePc.opening]
          rw [hevents, List.append_nil]
          apply hs.quiet
          · rw [hpc', hnext.1]
            intro hopen
            cases hopen
          · rw [hpc]
            exact fun _ _ => ⟨rfl, rfl⟩
          · rw [hpc']
            exact fun v hv => absurd hv (hnext.2 v)
  | done =>
      have hevents : sentMsgs (s.perform json o).2 = [⟨.done, []⟩] := by
        simp [MigSystem.perform, hpc, SourcePc.call, sentMsgs, MigEvent.message, Send.toMsg]
      rw [hpc] at hpc'
      rw [hevents]
      exact hs.done hpc hpc'
  | _ =>
      have hevents : sentMsgs (s.perform json o).2 = [] := by
        simp [MigSystem.perform, hpc, SourcePc.call, sentMsgs, MigEvent.message]
      rw [hevents, List.append_nil]
      apply hs.quiet
      · rw [hpc', hjob', hpc]
        simp [SourcePc.next, SourcePc.opening]
      · rw [hpc', hpc]
        simp [SourcePc.next, SourcePc.opening, SourcePc.early]
      · rw [hpc', hpc]
        simp [SourcePc.next]

theorem step_sent (s : MigSystem) (sent : List Msg) (a : MigAction) (hs : Sent json job s sent)
    (h : json.ReadsBack (helloConfig job) ∧ a.readable json) :
    Sent json job ((migration json args).step s a).1
      (sent ++ sentMsgs ((migration json args).step s a).2) := by
  obtain ⟨hhello, hreply⟩ := h
  cases a with
  | guestWrite gpa data =>
      have hevents : sentMsgs ((migration json args).step s (.guestWrite gpa data)).2 = [] := rfl
      rw [hevents, List.append_nil]
      exact hs.quiet (fun h => ⟨h, rfl⟩) (fun h hearly => ⟨h, hearly⟩) hs.state
  | dest fails =>
      have hevents : sentMsgs (s.destStep json fails).2 = [] := by
        unfold MigSystem.destStep
        split
        · rfl
        · split
          · rfl
          · simp [sentMsgs, List.filterMap_map, MigEvent.message, Function.comp_def]
      simp only [migration]
      rw [hevents, List.append_nil]
      apply hs.quiet
      · rw [destStep_pc, destStep_job]
        exact fun h => ⟨h, rfl⟩
      · rw [destStep_pc]
        exact fun h hearly => ⟨h, hearly⟩
      · rw [destStep_pc]
        exact hs.state
  | source o =>
      simp only [migration]
      obtain ⟨-, vm, toSource, events, hstep, hevents⟩ | ⟨-, hstep⟩ | ⟨-, hstep⟩ :=
        MigSystem.sourceStep_cases json args s o
      · have hnone : sentMsgs events = [] := by
          rw [sentMsgs, List.filterMap_eq_nil_iff]
          intro e he
          obtain ⟨cmd, rfl⟩ := hevents e he
          rfl
        rw [hstep]
        dsimp only
        rw [hnone, List.append_nil]
        apply hs.quiet
        · intro h
          cases h
        · intro _ h
          cases h
        · intro v h
          cases h
      · rw [hstep]
        simpa [sentMsgs] using hs
      · rw [hstep]
        exact sent_goesOn args hs hhello hreply

theorem track_sent (s : MigSystem) (sent : List Msg) (as : List MigAction) :
    (migration json args).track
        (fun s sent a => sent ++ sentMsgs ((migration json args).step s a).2) s sent as =
      sent ++ sentMsgs ((migration json args).run s as).2 := by
  induction as generalizing s sent with
  | nil => simp [Machine.track, sentMsgs]
  | cons a as ih =>
      rw [Machine.track, ih, Machine.run_cons, List.append_assoc]
      simp [sentMsgs]

theorem sentMsgs_of_done (vmId : UInt32) (source dest : String) (ram : UInt64 → List UInt8)
    {as : List MigAction}
    (hhello : json.ReadsBack (helloConfig (MigSystem.new vmId source dest ram).job))
    (hreply : ∀ o, .source o ∈ as → json.ReadsBack (o.reply.data.getD (.object [])))
    (hdone : .sent ⟨.done, []⟩ ∈
      ((migration json args).run (.new vmId source dest ram) as).2) :
    ∃ hello mid,
      sentMsgs ((migration json args).run (.new vmId source dest ram) as).2 =
        hello :: mid ++ [⟨.done, []⟩] ∧
      hello.opens json = true ∧ ∀ m ∈ mid, m.passes json = true := by
  have hstart : Sent json (MigSystem.new vmId source dest ram).job
      (.new vmId source dest ram) [] := by
    constructor
    · exact fun _ => ⟨rfl, rfl⟩
    · intro h
      cases h
    · intro v h
      cases h
    · intro h
      cases h
  have hall : (migration json args).AllSteps
      (fun _ a => json.ReadsBack (helloConfig (MigSystem.new vmId source dest ram).job) ∧
        a.readable json) (.new vmId source dest ram) as := by
    rw [Machine.allSteps_iff_split]
    rintro pre a post rfl
    refine ⟨hhello, ?_⟩
    cases a with
    | source o => exact hreply o (by simp)
    | _ => trivial
  have hend := (migration json args).run_tracked (step_sent args) hstart hall
  rw [track_sent, List.nil_append] at hend
  apply hend.finished
  rw [sentMsgs, List.mem_filterMap]
  exact ⟨_, hdone, rfl⟩

/-! ## Both sides -/

variable (json)

/-- For every sequence of messages: the destination keeps to the documented order
exactly when the first DONE it accepts comes after a PAUSE, a VCPU_STATE and whole
pages. For every run of the source that sends DONE, in which the JSON it prints
can be read: the messages of the source lead the destination to RUNNING. -/
theorem destination_order (msgs : List Msg) :
    (StartsInOrder json msgs ↔
      ∀ hello mid done rest, msgs = hello :: mid ++ done :: rest → hello.opens json = true →
        (∀ m ∈ mid, m.passes json = true) → done.type = .done → Handed mid) ∧
      ∀ (args : Args) (vmId : UInt32) (source dest : String) (ram : UInt64 → List UInt8)
        (as : List MigAction),
        json.ReadsBack (helloConfig (MigSystem.new vmId source dest ram).job) →
        (∀ o, .source o ∈ as → json.ReadsBack (o.reply.data.getD (.object []))) →
        .sent ⟨.done, []⟩ ∈ ((migration json args).run (.new vmId source dest ram) as).2 →
        ⟨.running, []⟩ ∈ ((Destination.machine json).run .new
          (sentMsgs ((migration json args).run (.new vmId source dest ram) as).2)).2 := by
  refine ⟨startsInOrder_iff json msgs, ?_⟩
  intro args vmId source dest ram as hhello hreply hdone
  obtain ⟨hello, mid, hsent, hopens, hmid⟩ :=
    sentMsgs_of_done args vmId source dest ram hhello hreply hdone
  rw [hsent, Machine.run_append]
  apply List.mem_append_right
  have hpc := (receiving_iff json (hello :: mid)).mpr ⟨hello, mid, rfl, hopens, hmid⟩
  have hrunning := (handle_running_iff json _ ⟨.done, []⟩).mpr ⟨hpc, rfl⟩
  simpa [machine_step] using hrunning

/-- A whole migration, with the text of the config and of an empty vCPU state. -/
theorem destination_order_moveRun :
    ⟨.running, []⟩ ∈ ((Destination.machine sampleJson).run .new
      (sentMsgs ((migration sampleJson ⟨50, 300⟩).run (.new 7 "a" "b" fun _ => [])
        (moveRun .fine)).2)).2 := by
  apply (destination_order sampleJson []).2
  · exact rfl
  · intro o ho
    have hfine : o = .fine := by
      simpa [moveRun] using ho
    rw [hfine]
    exact rfl
  · exact done_mem_iff.mpr (by decide +kernel)

/-- A HELLO and a DONE are enough. -/
theorem done_after_hello_starts :
    ¬ StartsInOrder (.knowing (fun _ => []) [.object []])
      [⟨.hello, [123, 125]⟩, ⟨.done, []⟩] := by
  intro h
  have horder := (h [⟨.hello, [123, 125]⟩] ⟨.done, []⟩ [] rfl (by decide)).order
  exact absurd horder (by decide)

end Caiman.Livemig
