import Caiman.Livemig.Order
import Caiman.Livemig.Precopy
import Mathlib.Data.List.Forall2

/-!
# What is sent for a dirty page

`copy_dirty_pages` reads each entry of the log through accessors that have a default for
everything: 0 for an address, zeros for the data, and nothing for a value that is no number.
It refuses no entry, so it is right about a reply exactly when every entry is well formed.
-/

namespace Caiman.Livemig

open Lib

/-! ## One entry -/

/-- The entry gives this address as a number, and these bytes of a page. -/
structure Gives (entry : Json.Value) (gpa : UInt64) (data : List UInt8) : Prop where
  address : entry.index "gpa" = .nat gpa
  bytes : entry.index "data" = .array (data.map fun b => .nat b.toUInt64)
  whole : data.length = 4096

def WellFormed (entry : Json.Value) : Prop := ∃ gpa data, Gives entry gpa data

def Msg.IsPageOf (m : Msg) (entry : Json.Value) : Prop :=
  ∃ gpa data, Gives entry gpa data ∧ m = ⟨.page, beBytes 8 gpa.toNat ++ data⟩

theorem Gives.pageGpa {entry : Json.Value} {gpa : UInt64} {data : List UInt8}
    (h : Gives entry gpa data) : pageGpa entry = gpa := by
  rw [Livemig.pageGpa, h.address, Json.Value.asU64_nat, Option.getD_some]

theorem Gives.pageData {entry : Json.Value} {gpa : UInt64} {data : List UInt8}
    (h : Gives entry gpa data) : pageData entry = data := by
  have hentry : Livemig.pageData entry = Livemig.pageData (pageEntry gpa data) := by
    rw [Livemig.pageData, h.bytes]
    rfl
  rw [hentry, pageData_pageEntry]

variable (json : Json.Codec) (args : Args)

theorem pageMsg_isPageOf_iff (entry : Json.Value) :
    (pageMsg json entry).IsPageOf entry ↔ WellFormed entry := by
  constructor
  · intro h
    obtain ⟨gpa, data, hgives, -⟩ := h
    exact ⟨gpa, data, hgives⟩
  · intro h
    obtain ⟨gpa, data, hgives⟩ := h
    refine ⟨gpa, data, hgives, ?_⟩
    rw [pageMsg, hgives.pageGpa, hgives.pageData]
    rfl

theorem pageMsgs_iff (entries : List Json.Value) :
    List.Forall₂ Msg.IsPageOf (entries.map (pageMsg json)) entries ↔
      ∀ entry ∈ entries, WellFormed entry := by
  rw [List.forall₂_map_left_iff, List.forall₂_same]
  exact forall₂_congr fun entry _ => pageMsg_isPageOf_iff json entry

/-! ## The copy -/

/-- The entries the copy has still to send. -/
def SourcePc.toSend : SourcePc → Option (List Json.Value)
  | .pages _ _ _ rest => some rest
  | _ => none

theorem sentMsgs_destStep (s : MigSystem) (fails : Bool) :
    sentMsgs (s.destStep json fails).2 = [] := by
  rw [sentMsgs, List.filterMap_eq_nil_iff]
  intro e he
  obtain ⟨m, rfl⟩ := destStep_answered json e he
  rfl

theorem sentMsgs_broken {events : List MigEvent} (h : ∀ e ∈ events, ∃ cmd, e = .ctrl cmd none) :
    sentMsgs events = [] := by
  rw [sentMsgs, List.filterMap_eq_nil_iff]
  intro e he
  obtain ⟨cmd, rfl⟩ := h e he
  rfl

theorem sentMsgs_append (events more : List MigEvent) :
    sentMsgs (events ++ more) = sentMsgs events ++ sentMsgs more :=
  List.filterMap_append

theorem step_toSend {s : MigSystem} {rest : List Json.Value} (h : s.pc.toSend = some rest)
    (a : MigAction) :
    (sentMsgs ((migration json args).step s a).2 = [] ∧
        ((migration json args).step s a).1.pc.toSend = some rest) ∨
      (∃ entry rest', rest = entry :: rest' ∧
        sentMsgs ((migration json args).step s a).2 = [pageMsg json entry] ∧
        ((migration json args).step s a).1.pc.toSend = some rest') ∨
      (sentMsgs ((migration json args).step s a).2 = [] ∧
        ((migration json args).step s a).1.pc.toSend = none) := by
  cases a with
  | guestWrite gpa data => exact Or.inl ⟨rfl, h⟩
  | dest fails =>
      refine Or.inl ⟨sentMsgs_destStep json s fails, ?_⟩
      rw [migration, destStep_pc]
      exact h
  | source o =>
      cases hpc : s.pc with
      | pages stage count sent rest' =>
          rw [hpc] at h
          cases h
          simp only [migration]
          obtain ⟨-, vm, toSource, events, hstep, hevents⟩ | ⟨-, hstep⟩ | ⟨-, hstep⟩ :=
            MigSystem.sourceStep_cases json args s o
          · rw [hstep]
            exact Or.inr (Or.inr ⟨sentMsgs_broken hevents, rfl⟩)
          · rw [hstep, hpc]
            exact Or.inl ⟨rfl, rfl⟩
          · rw [hstep]
            cases rest with
            | cons entry rest =>
                right
                left
                simp only [MigSystem.advance, MigSystem.perform, hpc]
                exact ⟨entry, rest, rfl, rfl, rfl⟩
            | nil =>
                refine Or.inr (Or.inr ⟨?_, ?_⟩)
                · simp only [MigSystem.perform, hpc]
                  rfl
                · simp only [MigSystem.advance, MigSystem.perform_pc, MigSystem.perform_job, hpc]
                  obtain ⟨-, hnext⟩ | ⟨pass, -, hnext | hnext⟩ :=
                    SourcePc.next_passEnd args stage count sent o s.job
                  · exact congrArg SourcePc.toSend hnext
                  · exact congrArg SourcePc.toSend hnext
                  · exact congrArg SourcePc.toSend hnext
      | _ =>
          rw [hpc] at h
          cases h

theorem run_toSend {s : MigSystem} {rest : List Json.Value} (h : s.pc.toSend = some rest)
    {as : List MigAction}
    (hall : (migration json args).AllSteps (fun s _ => s.pc.toSend.isSome = true) s as) :
    ∃ k, sentMsgs ((migration json args).run s as).2 = (rest.take k).map (pageMsg json) ∧
      ∀ left, ((migration json args).run s as).1.pc.toSend = some left → left = rest.drop k := by
  induction as generalizing s rest with
  | nil =>
      refine ⟨0, rfl, ?_⟩
      intro left hleft
      rw [Machine.run_nil, h] at hleft
      exact (Option.some.inj hleft).symm
  | cons a as ih =>
      rw [Machine.run_cons, sentMsgs_append]
      dsimp only
      rcases step_toSend json args h a with ⟨hsent, hpc⟩ | ⟨entry, rest', rfl, hsent, hpc⟩ |
        ⟨hsent, hpc⟩
      · obtain ⟨k, hk, hleft⟩ := ih hpc hall.2
        exact ⟨k, by rw [hsent, hk, List.nil_append], hleft⟩
      · obtain ⟨k, hk, hleft⟩ := ih hpc hall.2
        refine ⟨k + 1, ?_, hleft⟩
        rw [hsent, hk]
        rfl
      · cases as with
        | nil =>
            refine ⟨0, ?_, ?_⟩
            · rw [hsent]
              rfl
            · intro left hleft
              rw [Machine.run_nil, hpc] at hleft
              cases hleft
        | cons b as =>
            have hinside : ((migration json args).step s a).1.pc.toSend.isSome = true := hall.2.1
            rw [hpc] at hinside
            cases hinside

theorem run_fine {s : MigSystem} {rest : List Json.Value} (h : s.pc.toSend = some rest) :
    let as := List.replicate rest.length (MigAction.source .fine)
    (migration json args).AllSteps (fun s _ => s.pc.toSend.isSome = true) s as ∧
      sentMsgs ((migration json args).run s as).2 = rest.map (pageMsg json) ∧
      ((migration json args).run s as).1.pc.toSend = some [] := by
  induction rest generalizing s with
  | nil => exact ⟨trivial, rfl, h⟩
  | cons entry rest ih =>
      have hstep : sentMsgs ((migration json args).step s (.source .fine)).2 =
            [pageMsg json entry] ∧
          ((migration json args).step s (.source .fine)).1.pc.toSend = some rest := by
        cases hpc : s.pc with
        | pages stage count sent rest' =>
            rw [hpc] at h
            cases h
            simp only [migration, MigSystem.sourceStep, MigSystem.advance, hpc]
            exact ⟨rfl, rfl⟩
        | _ =>
            rw [hpc] at h
            cases h
      obtain ⟨hall, hsent, hend⟩ := ih hstep.2
      have hinside : s.pc.toSend.isSome = true := by rw [h]; rfl
      refine ⟨⟨hinside, hall⟩, ?_, hend⟩
      rw [List.length_cons, List.replicate_succ, Machine.run_cons, sentMsgs_append, hstep.1, hsent]
      rfl

/-- Over every run of the call, whatever the guest and the destination do meanwhile: for the
first entries of the log, in order, one message each has left that is the page of its entry,
and when the call is about to return that is so of all entries. -/
def CopiesExactly (reply : VmmResponse) : Prop :=
  ∀ s stage o as, s.pc = .log stage → o.fails = false → o.reply = reply →
    (migration json args).AllSteps (fun s _ => s.pc.toSend.isSome = true)
      ((migration json args).step s (.source o)).1 as →
    let final := (migration json args).run s (.source o :: as)
    ∃ k, List.Forall₂ Msg.IsPageOf (sentMsgs final.2) ((dirtyPages reply).take k) ∧
      (final.1.pc.toSend = some [] → (dirtyPages reply).length ≤ k)

theorem step_reply {s : MigSystem} {stage : Stage} (hpc : s.pc = .log stage) {o : Outcome}
    (ho : o.fails = false) :
    sentMsgs ((migration json args).step s (.source o)).2 = [] ∧
      ((migration json args).step s (.source o)).1.pc.toSend = some (dirtyPages o.reply) := by
  simp only [migration, MigSystem.sourceStep, ho, Bool.false_eq_true, if_false,
    MigSystem.advance, MigSystem.command_pc, hpc]
  exact ⟨rfl, rfl⟩

/-- The copy keeps to the log exactly when every entry of the log is well formed. -/
theorem copies_exactly_iff (reply : VmmResponse) :
    CopiesExactly json args reply ↔ ∀ entry ∈ dirtyPages reply, WellFormed entry := by
  constructor
  · intro h
    let s : MigSystem := { MigSystem.new 7 "a" "b" (fun _ => []) with pc := .log .final }
    let o : Outcome := { Outcome.fine with reply := reply }
    obtain ⟨hsent, hpc⟩ := step_reply json args (s := s) (o := o) rfl rfl
    obtain ⟨hall, hmsgs, hend⟩ := run_fine json args hpc
    obtain ⟨k, hpages, hlen⟩ := h s .final o _ rfl rfl rfl hall
    rw [Machine.run_cons, sentMsgs_append, hsent, List.nil_append, hmsgs,
      List.take_of_length_le (hlen hend)] at hpages
    exact (pageMsgs_iff json _).mp hpages
  · intro h s stage o as hpc ho hreply hall
    subst hreply
    obtain ⟨hsent, hstep⟩ := step_reply json args hpc ho
    obtain ⟨k, hk, hleft⟩ := run_toSend json args hstep hall
    refine ⟨k, ?_, ?_⟩
    · rw [Machine.run_cons, sentMsgs_append, hsent, List.nil_append, hk, pageMsgs_iff]
      intro entry hentry
      exact h entry (List.mem_of_mem_take hentry)
    · intro hend
      exact List.drop_eq_nil_iff.mp (hleft [] hend).symm

/-- No address, and two values neither of which is a byte. -/
def malformedEntry : Json.Value := .object [("data", .array [.string "x", .nat 300])]

/-- It is sent all the same, to address 0 and with one byte. -/
theorem malformed_entry_sent :
    pageMsg sampleJson malformedEntry = ⟨.page, beBytes 8 0 ++ [44]⟩ ∧
      ¬ CopiesExactly sampleJson ⟨50, 300⟩ ⟨true, none, some (.array [malformedEntry])⟩ := by
  refine ⟨rfl, ?_⟩
  intro h
  let s : MigSystem := { zeroed with pc := .log (.iterative 0) }
  let o : Outcome := { Outcome.fine with reply := ⟨true, none, some (.array [malformedEntry])⟩ }
  obtain ⟨k, hpages, hlen⟩ := h s (.iterative 0) o [.source .fine] rfl rfl rfl ⟨rfl, trivial⟩
  have hsent : List.Forall₂ Msg.IsPageOf ([malformedEntry].map (pageMsg sampleJson))
      ([malformedEntry].take k) := hpages
  have hlong : [malformedEntry].length ≤ k := hlen rfl
  rw [List.take_of_length_le hlong, pageMsgs_iff] at hsent
  obtain ⟨gpa, data, hgives⟩ := hsent malformedEntry List.mem_cons_self
  have haddress := hgives.address
  cases haddress

end Caiman.Livemig
