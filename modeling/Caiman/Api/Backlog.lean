import Mathlib.Data.List.Range
import Caiman.Lib.Recent
import Caiman.Lib.Run

/-!
# Console backlog and live stream

The PTY reader appends a chunk to the 64 KiB ring under its lock and broadcasts
it in a step of its own. A client subscribes when it is accepted, later copies
the ring, and then receives what was broadcast since it subscribed. Bytes carry
their place in the output, so that two bytes of one value are told apart.
-/

namespace Caiman.Api

open Lib

/-- `VecDeque::with_capacity(65536)` -/
def ringCapacity : Nat := 65536

/-- `broadcast::channel(256)` -/
def broadcastCapacity : Nat := 256

structure PtyByte where
  value : UInt8
  place : Nat
  deriving DecidableEq, Repr

/-- What a client task has behind it. -/
inductive Attached
  | away
  | subscribed
  | live
  deriving DecidableEq, Repr

/-- `queue` and `lagged` are the client's end of the broadcast channel, `unsent` the
chunk between the ring and the channel. `output` and `received` record what the PTY
has produced and what the client was sent. -/
structure Pty where
  /-- the reader has met the end of the PTY -/
  closed : Bool
  output : List PtyByte
  ring : List PtyByte
  unsent : Option (List PtyByte)
  client : Attached
  queue : List (List PtyByte)
  lagged : Bool
  received : List PtyByte
  deriving DecidableEq, Repr

inductive PtyAction
  | read (bytes : List UInt8)
  | send
  | accept
  | snapshot
  | recv
  deriving DecidableEq, Repr

namespace Pty

def start : Pty where
  closed := false
  output := []
  ring := []
  unsent := none
  client := .away
  queue := []
  lagged := false
  received := []

def stamp (s : Pty) (bytes : List UInt8) : List PtyByte :=
  bytes.mapIdx fun i b => ⟨b, s.output.length + i⟩

/-- The reader puts a chunk in the ring. A read of nothing ends it. -/
def readStep (s : Pty) (bytes : List UInt8) : Pty :=
  if s.closed = true ∨ s.unsent ≠ none then s
  else if bytes = [] then { s with closed := true }
  else
    let chunk := s.stamp bytes
    { s with
      output := s.output ++ chunk
      ring := chunk.foldl (pushRecent ringCapacity) s.ring
      unsent := some chunk }

/-- The channel keeps 256 messages for a receiver, then overwrites the oldest. -/
def deliver (s : Pty) (chunk : List PtyByte) : Pty :=
  if s.client = .away then s
  else if s.queue.length < broadcastCapacity then { s with queue := s.queue ++ [chunk] }
  else { s with queue := s.queue.tail ++ [chunk], lagged := true }

def sendStep (s : Pty) : Pty :=
  match s.unsent with
  | some chunk => { s with unsent := none }.deliver chunk
  | none => s

def acceptStep (s : Pty) : Pty :=
  match s.client with
  | .away => { s with client := .subscribed, queue := [], lagged := false }
  | _ => s

def snapshotStep (s : Pty) : Pty :=
  match s.client with
  | .subscribed => { s with client := .live, received := s.received ++ s.ring }
  | _ => s

def recvStep (s : Pty) : Pty :=
  match s.client with
  | .live =>
      if s.lagged then { s with lagged := false }
      else
        match s.queue with
        | chunk :: rest => { s with queue := rest, received := s.received ++ chunk }
        | [] => s
  | _ => s

def machine : Machine Pty PtyAction Empty where
  step s a :=
    (match a with
      | .read bytes => s.readStep bytes
      | .send => s.sendStep
      | .accept => s.acceptStep
      | .snapshot => s.snapshotStep
      | .recv => s.recvStep, [])

/-- The client is not 256 messages behind when another one is sent. -/
def KeepsReading (s : Pty) : PtyAction → Prop
  | .send => s.client = .away ∨ s.queue.length < broadcastCapacity
  | _ => True

/-- Nothing is underway when the client copies the ring: no chunk is in the ring and not
yet broadcast, and none was broadcast since the client subscribed. -/
def Quiet (s : Pty) : PtyAction → Prop
  | .snapshot => s.client = .subscribed → s.unsent = none ∧ s.queue = []
  | _ => True

instance (s : Pty) (a : PtyAction) : Decidable (s.KeepsReading a) := by
  cases a <;> unfold KeepsReading <;> infer_instance

instance (s : Pty) (a : PtyAction) : Decidable (s.Quiet a) := by
  cases a <;> unfold Quiet <;> infer_instance

def CaughtUp (s : Pty) : Prop := s.client = .live ∧ s.unsent = none ∧ s.queue = []

/-- The bytes received are the last 65536 before some point of the output and all bytes
behind it. -/
def Seamless (s : Pty) : Prop :=
  ∃ p ≤ s.output.length,
    s.received = recent ringCapacity (s.output.take p) ++ s.output.drop p

def underway (s : Pty) : List PtyByte := s.queue.flatten ++ s.unsent.getD []

structure Sound (s : Pty) : Prop where
  places : s.output.map PtyByte.place = List.range s.output.length
  ring : s.ring = recent ringCapacity s.output
  unsent : s.unsent ≠ some []
  queue : [] ∉ s.queue
  current : s.lagged = false
  away : s.client = .away → s.queue = []
  fresh : s.client ≠ .live → s.received = []
  underway : s.underway <:+ s.output

/-! ## Soundness -/

theorem stamp_places (s : Pty) (bytes : List UInt8) :
    (s.stamp bytes).map PtyByte.place = (List.range bytes.length).map (s.output.length + ·) := by
  apply List.ext_getElem
  · simp [stamp]
  · intro i _ _
    simp [stamp]

@[simp] theorem stamp_length (s : Pty) (bytes : List UInt8) :
    (s.stamp bytes).length = bytes.length := List.length_mapIdx

theorem Sound.nodup {s : Pty} (h : s.Sound) : s.output.Nodup := by
  have hplaces : (s.output.map PtyByte.place).Nodup := by
    rw [h.places]
    exact List.nodup_range
  exact List.Nodup.of_map PtyByte.place hplaces

theorem start_sound : start.Sound := by
  constructor <;> simp [start, underway]

theorem readStep_cases (s : Pty) (bytes : List UInt8) :
    (∃ closed, s.readStep bytes = { s with closed := closed }) ∨
    s.unsent = none ∧ bytes ≠ [] ∧
      s.readStep bytes =
        { s with
          output := s.output ++ s.stamp bytes
          ring := (s.stamp bytes).foldl (pushRecent ringCapacity) s.ring
          unsent := some (s.stamp bytes) } := by
  unfold readStep
  split
  · exact Or.inl ⟨s.closed, rfl⟩
  · rename_i hopen
    split
    · exact Or.inl ⟨true, rfl⟩
    · rename_i hbytes
      refine Or.inr ⟨?_, hbytes, rfl⟩
      by_contra hunsent
      exact hopen (Or.inr hunsent)

theorem readStep_sound {s : Pty} (h : s.Sound) (bytes : List UInt8) :
    (s.readStep bytes).Sound := by
  rcases s.readStep_cases bytes with ⟨closed, hr⟩ | ⟨hunsent, hbytes, hr⟩
  · rw [hr]
    exact ⟨h.places, h.ring, h.unsent, h.queue, h.current, h.away, h.fresh, h.underway⟩
  · rw [hr]
    refine ⟨?_, ?_, ?_, h.queue, h.current, h.away, h.fresh, ?_⟩
    · rw [List.map_append, h.places, stamp_places, List.length_append, stamp_length, List.range_add]
    · rw [h.ring, foldl_pushRecent (by decide)]
    · intro hnil
      have hlen := s.stamp_length bytes
      rw [Option.some.inj hnil] at hlen
      exact hbytes (List.length_eq_zero_iff.mp hlen.symm)
    · obtain ⟨front, hfront⟩ := h.underway
      refine ⟨front, ?_⟩
      simp only [Pty.underway, hunsent, Option.getD_none, List.append_nil] at hfront
      simp only [Pty.underway, Option.getD_some]
      rw [← List.append_assoc, hfront]

theorem sendStep_cases {s : Pty} (hkeeps : s.KeepsReading .send) :
    s.sendStep = s ∨ ∃ chunk, s.unsent = some chunk ∧
      (s.client = .away ∧ s.sendStep = { s with unsent := none } ∨
        s.client ≠ .away ∧ s.sendStep = { s with unsent := none, queue := s.queue ++ [chunk] }) := by
  unfold sendStep
  split
  · rename_i chunk hunsent
    refine Or.inr ⟨chunk, hunsent, ?_⟩
    by_cases haway : s.client = .away
    · exact Or.inl ⟨haway, if_pos haway⟩
    · refine Or.inr ⟨haway, ?_⟩
      rw [deliver, if_neg haway, if_pos (hkeeps.resolve_left haway)]
  · exact Or.inl rfl

theorem sendStep_sound {s : Pty} (h : s.Sound) (hkeeps : s.KeepsReading .send) :
    s.sendStep.Sound := by
  have hnone : (none : Option (List PtyByte)) ≠ some [] := by
    intro hcontra
    cases hcontra
  rcases sendStep_cases hkeeps with hr | ⟨chunk, hunsent, ⟨haway, hr⟩ | ⟨hclient, hr⟩⟩
  · rw [hr]
    exact h
  · rw [hr]
    refine ⟨h.places, h.ring, hnone, h.queue, h.current, h.away, h.fresh, ?_⟩
    simp [Pty.underway, h.away haway]
  · rw [hr]
    refine ⟨h.places, h.ring, hnone, ?_, h.current,
      fun haway => absurd haway hclient, h.fresh, ?_⟩
    · intro hmem
      rcases List.mem_append.mp hmem with hold | hnew
      · exact h.queue hold
      · exact h.unsent (by rw [hunsent, List.mem_singleton.mp hnew])
    · have hunder := h.underway
      simpa [Pty.underway, hunsent] using hunder

theorem acceptStep_sound {s : Pty} (h : s.Sound) : s.acceptStep.Sound := by
  unfold acceptStep
  split
  · rename_i haway
    have hfresh : s.client ≠ .live := by
      rw [haway]
      decide
    refine ⟨h.places, h.ring, h.unsent, List.not_mem_nil, rfl, fun _ => rfl,
      fun _ => h.fresh hfresh, ?_⟩
    have hunder := h.underway
    simpa [Pty.underway, h.away haway] using hunder
  · exact h

theorem snapshotStep_sound {s : Pty} (h : s.Sound) : s.snapshotStep.Sound := by
  unfold snapshotStep
  split
  · refine ⟨h.places, h.ring, h.unsent, h.queue, h.current, ?_, ?_, h.underway⟩
    · intro haway
      cases haway
    · exact fun hlive => absurd rfl hlive
  · exact h

theorem recvStep_cases {s : Pty} (h : s.Sound) :
    s.recvStep = s ∨ ∃ chunk rest, s.client = .live ∧ s.queue = chunk :: rest ∧
      s.recvStep = { s with queue := rest, received := s.received ++ chunk } := by
  unfold recvStep
  split
  · rename_i hlive
    rw [h.current, if_neg Bool.false_ne_true]
    split
    · rename_i chunk rest hqueue
      exact Or.inr ⟨chunk, rest, hlive, hqueue, rfl⟩
    · exact Or.inl rfl
  · exact Or.inl rfl

theorem recvStep_sound {s : Pty} (h : s.Sound) : s.recvStep.Sound := by
  rcases recvStep_cases h with hr | ⟨chunk, rest, hlive, hqueue, hr⟩
  · rw [hr]
    exact h
  · rw [hr]
    refine ⟨h.places, h.ring, h.unsent, ?_, h.current, ?_, fun hfresh => absurd hlive hfresh, ?_⟩
    · intro hmem
      exact h.queue (by rw [hqueue]; exact List.mem_cons_of_mem _ hmem)
    · intro haway
      cases hlive.symm.trans haway
    · have hunder := h.underway
      simp only [Pty.underway, hqueue, List.flatten_cons, List.append_assoc] at hunder
      exact (List.suffix_append _ _).trans hunder

theorem step_sound {s : Pty} (h : s.Sound) (a : PtyAction) (hkeeps : s.KeepsReading a) :
    (machine.step s a).1.Sound := by
  cases a with
  | read bytes => exact readStep_sound h bytes
  | send => exact sendStep_sound h hkeeps
  | accept => exact acceptStep_sound h
  | snapshot => exact snapshotStep_sound h
  | recv => exact recvStep_sound h

/-! ## Joining -/

/-- All the client has received and will receive of what was put out so far. -/
def joined (s : Pty) : List PtyByte := s.received ++ s.underway

/-- Of a client that is attached, all of it is one stretch of the output. -/
def Joins (s : Pty) : Prop :=
  s.client = .live → ∃ p ≤ s.output.length,
    s.joined = recent ringCapacity (s.output.take p) ++ s.output.drop p

/-- The client is attached and gets some byte twice. -/
def Repeats (s : Pty) : Prop := s.client = .live ∧ ¬ s.joined.Nodup

theorem underway_eq_nil_iff {s : Pty} (h : s.Sound) :
    s.underway = [] ↔ s.unsent = none ∧ s.queue = [] := by
  constructor
  · intro hnil
    obtain ⟨hqueue, hunsent⟩ := List.append_eq_nil_iff.mp hnil
    constructor
    · cases hchunk : s.unsent with
      | none => rfl
      | some chunk =>
          rw [hchunk, Option.getD_some] at hunsent
          exact absurd (by rw [hchunk, hunsent]) h.unsent
    · cases hq : s.queue with
      | nil => rfl
      | cons chunk rest =>
          rw [hq, List.flatten_cons] at hqueue
          have hempty := (List.append_eq_nil_iff.mp hqueue).1
          exact absurd (by rw [hq, hempty]; exact List.mem_cons_self) h.queue
  · intro hquiet
    rw [underway, hquiet.1, hquiet.2]
    rfl

theorem step_live {s : Pty} (h : s.Sound) (a : PtyAction) (hkeeps : s.KeepsReading a)
    (hlive : s.client = .live) :
    (machine.step s a).1.client = .live ∧
      ∃ new, (machine.step s a).1.joined = s.joined ++ new ∧
        (machine.step s a).1.output = s.output ++ new := by
  have hsame : s.joined = s.joined ++ [] ∧ s.output = s.output ++ [] :=
    ⟨(List.append_nil _).symm, (List.append_nil _).symm⟩
  cases a with
  | read bytes =>
      change (s.readStep bytes).client = _ ∧ ∃ new, (s.readStep bytes).joined = _ ∧
        (s.readStep bytes).output = _
      rcases s.readStep_cases bytes with ⟨closed, hr⟩ | ⟨hunsent, -, hr⟩
      · rw [hr]
        exact ⟨hlive, [], hsame⟩
      · rw [hr]
        refine ⟨hlive, s.stamp bytes, ?_, rfl⟩
        simp [joined, underway, hunsent]
  | send =>
      change s.sendStep.client = _ ∧ ∃ new, s.sendStep.joined = _ ∧ s.sendStep.output = _
      rcases sendStep_cases hkeeps with hr | ⟨chunk, hunsent, ⟨haway, -⟩ | ⟨-, hr⟩⟩
      · rw [hr]
        exact ⟨hlive, [], hsame⟩
      · cases hlive.symm.trans haway
      · rw [hr]
        refine ⟨hlive, [], ?_, hsame.2⟩
        simp [joined, underway, hunsent]
  | accept =>
      have hr : s.acceptStep = s := by rw [acceptStep, hlive]
      change s.acceptStep.client = _ ∧ ∃ new, s.acceptStep.joined = _ ∧ s.acceptStep.output = _
      rw [hr]
      exact ⟨hlive, [], hsame⟩
  | snapshot =>
      have hr : s.snapshotStep = s := by rw [snapshotStep, hlive]
      change s.snapshotStep.client = _ ∧ ∃ new, s.snapshotStep.joined = _ ∧
        s.snapshotStep.output = _
      rw [hr]
      exact ⟨hlive, [], hsame⟩
  | recv =>
      change s.recvStep.client = _ ∧ ∃ new, s.recvStep.joined = _ ∧ s.recvStep.output = _
      rcases recvStep_cases h with hr | ⟨chunk, rest, -, hqueue, hr⟩
      · rw [hr]
        exact ⟨hlive, [], hsame⟩
      · rw [hr]
        refine ⟨hlive, [], ?_, hsame.2⟩
        simp [joined, underway, hqueue]

theorem step_attach {s : Pty} (h : s.Sound) (a : PtyAction) (hkeeps : s.KeepsReading a)
    (hlive : s.client ≠ .live) :
    (machine.step s a).1.client ≠ .live ∨ a = .snapshot ∧ s.client = .subscribed := by
  cases a with
  | read bytes =>
      left
      change (s.readStep bytes).client ≠ _
      rcases s.readStep_cases bytes with ⟨closed, hr⟩ | ⟨-, -, hr⟩
      · rw [hr]
        exact hlive
      · rw [hr]
        exact hlive
  | send =>
      left
      change s.sendStep.client ≠ _
      rcases sendStep_cases hkeeps with hr | ⟨chunk, -, ⟨-, hr⟩ | ⟨-, hr⟩⟩
      all_goals
        rw [hr]
        exact hlive
  | accept =>
      left
      change s.acceptStep.client ≠ _
      unfold acceptStep
      split
      · intro hsub
        cases hsub
      · exact hlive
  | snapshot =>
      cases hclient : s.client with
      | away =>
          left
          change s.snapshotStep.client ≠ _
          rw [snapshotStep, hclient]
          exact hlive
      | subscribed => exact Or.inr ⟨rfl, rfl⟩
      | live => exact absurd hclient hlive
  | recv =>
      left
      change s.recvStep.client ≠ _
      rcases recvStep_cases h with hr | ⟨chunk, rest, hl, -, -⟩
      · rw [hr]
        exact hlive
      · exact absurd hl hlive

theorem snapshot_joins {s : Pty} (h : s.Sound) (hclient : s.client = .subscribed) :
    (s.Quiet .snapshot → s.snapshotStep.Joins) ∧ (¬ s.Quiet .snapshot → s.snapshotStep.Repeats) := by
  have hreceived : s.received = [] := h.fresh (by rw [hclient]; decide)
  have hr : s.snapshotStep = { s with client := .live, received := s.ring } := by
    rw [snapshotStep, hclient, hreceived]
    rfl
  have hjoined : s.snapshotStep.joined = s.ring ++ s.underway := by
    rw [hr]
    rfl
  constructor
  · intro hquiet _
    rw [hjoined, (underway_eq_nil_iff h).mpr (hquiet hclient), List.append_nil, h.ring, hr]
    exact ⟨s.output.length, Nat.le_refl _, by simp⟩
  · intro hbusy
    have hunder : s.underway ≠ [] := fun hnil => hbusy fun _ => (underway_eq_nil_iff h).mp hnil
    have houtput : s.output ≠ [] := by
      intro hnil
      have hsuffix := h.underway
      rw [hnil, List.suffix_nil] at hsuffix
      exact hunder hsuffix
    refine ⟨by rw [hr], ?_⟩
    rw [hjoined, h.ring]
    exact not_nodup_append_of_suffix (recent_suffix _ _) h.underway
      (recent_ne_nil (by decide) houtput) hunder

theorem snapshot_of_not_quiet {s : Pty} {a : PtyAction} (h : ¬ s.Quiet a) :
    a = .snapshot ∧ s.client = .subscribed := by
  cases a with
  | snapshot =>
      refine ⟨rfl, ?_⟩
      by_contra hclient
      exact h fun hsub => absurd hsub hclient
  | _ => exact absurd trivial h

theorem step_joins {s : Pty} (h : s.Sound) (a : PtyAction) (hkeeps : s.KeepsReading a) :
    (s.Joins → s.Quiet a → (machine.step s a).1.Joins) ∧
      (s.Repeats ∨ ¬ s.Quiet a → (machine.step s a).1.Repeats) := by
  by_cases hlive : s.client = .live
  · obtain ⟨hnext, new, hjoined, houtput⟩ := step_live h a hkeeps hlive
    constructor
    · intro hjoins _ _
      obtain ⟨p, hp, heq⟩ := hjoins hlive
      refine ⟨p, ?_, ?_⟩
      · rw [houtput, List.length_append]
        omega
      · rw [hjoined, heq, houtput, List.take_append_of_le_length hp,
          List.drop_append_of_le_length hp, List.append_assoc]
    · intro hbad
      rcases hbad with hrepeats | hbusy
      · refine ⟨hnext, fun hnodup => hrepeats.2 ?_⟩
        rw [hjoined] at hnodup
        exact (List.nodup_append.mp hnodup).1
      · cases hlive.symm.trans (snapshot_of_not_quiet hbusy).2
  · have hattach : a = .snapshot ∧ s.client = .subscribed →
        (s.Joins → s.Quiet a → (machine.step s a).1.Joins) ∧
          (s.Repeats ∨ ¬ s.Quiet a → (machine.step s a).1.Repeats) := by
      rintro ⟨rfl, hclient⟩
      obtain ⟨hquiet, hbusy⟩ := snapshot_joins h hclient
      refine ⟨fun _ => hquiet, fun hbad => ?_⟩
      rcases hbad with hrepeats | hb
      · exact absurd hrepeats.1 hlive
      · exact hbusy hb
    rcases step_attach h a hkeeps hlive with hnext | hsnapshot
    · refine ⟨fun _ _ hl => absurd hl hnext, fun hbad => ?_⟩
      rcases hbad with hrepeats | hbusy
      · exact absurd hrepeats.1 hlive
      · exact (hattach (snapshot_of_not_quiet hbusy)).2 (Or.inr hbusy)
    · exact hattach hsnapshot

theorem run_joins {s : Pty} (h : s.Sound) {as : List PtyAction}
    (hall : machine.AllSteps KeepsReading s as) :
    (machine.run s as).1.Sound ∧
      (s.Joins → machine.AllSteps Quiet s as → (machine.run s as).1.Joins) ∧
      (s.Repeats ∨ ¬ machine.AllSteps Quiet s as → (machine.run s as).1.Repeats) := by
  induction as generalizing s with
  | nil => exact ⟨h, fun hjoins _ => hjoins, fun hbad => hbad.resolve_right fun hn => hn trivial⟩
  | cons a as ih =>
      obtain ⟨hjoins, hrepeats⟩ := step_joins h a hall.1
      obtain ⟨hsound, hrest, hworse⟩ := ih (step_sound h a hall.1) hall.2
      refine ⟨hsound, fun hj hquiet => hrest (hjoins hj hquiet.1) hquiet.2, fun hbad => hworse ?_⟩
      rcases hbad with hr | hbusy
      · exact Or.inl (hrepeats (Or.inl hr))
      · by_cases hfirst : s.Quiet a
        · exact Or.inr fun hq => hbusy ⟨hfirst, hq⟩
        · exact Or.inl (hrepeats (Or.inr hfirst))

/-- A client that keeps reading and has caught up holds the last 65536 bytes before some
point and everything behind it, without a repeat, exactly when nothing was underway as
it copied the ring. -/
theorem seamless_iff_quiet (as : List PtyAction) (hkeeps : machine.AllSteps KeepsReading start as)
    (hcaught : (machine.run start as).1.CaughtUp) :
    (machine.run start as).1.Seamless ↔ machine.AllSteps Quiet start as := by
  obtain ⟨hsound, hjoins, hrepeats⟩ := run_joins start_sound hkeeps
  obtain ⟨hlive, hunsent, hqueue⟩ := hcaught
  have hjoined : (machine.run start as).1.joined = (machine.run start as).1.received := by
    rw [joined, (underway_eq_nil_iff hsound).mpr ⟨hunsent, hqueue⟩, List.append_nil]
  constructor
  · intro hseamless
    by_contra hbusy
    obtain ⟨p, hp, heq⟩ := hseamless
    refine (hrepeats (Or.inr hbusy)).2 ?_
    rw [hjoined, heq, recent_take_append_drop _ hp]
    exact hsound.nodup.sublist (List.drop_sublist _ _)
  · intro hquiet
    have hstart : start.Joins := fun hl => by cases hl
    obtain ⟨p, hp, heq⟩ := hjoins hstart hquiet hlive
    exact ⟨p, hp, by rw [← hjoined, heq]⟩

/-- A client that comes between the ring and the channel gets a byte twice. -/
def amidChunk : List PtyAction := [.read [0x61], .accept, .snapshot, .send, .recv]

theorem amidChunk_repeats :
    machine.AllSteps KeepsReading start amidChunk ∧
      (machine.run start amidChunk).1.CaughtUp ∧ ¬ (machine.run start amidChunk).1.Seamless := by
  refine ⟨by decide, ⟨rfl, rfl, rfl⟩, fun hseamless => ?_⟩
  obtain ⟨p, hp, heq⟩ := hseamless
  have hreceived : (machine.run start amidChunk).1.received.length = 2 := rfl
  have houtput : (machine.run start amidChunk).1.output.length = 1 := rfl
  have hlen := congrArg List.length heq
  rw [recent_take_append_drop _ hp, List.length_drop] at hlen
  omega

def betweenChunks : List PtyAction :=
  [.read [0x61], .send, .accept, .snapshot, .read [0x62], .send, .recv]

theorem betweenChunks_seamless : (machine.run start betweenChunks).1.Seamless :=
  (seamless_iff_quiet betweenChunks (by decide) ⟨rfl, rfl, rfl⟩).mpr (by decide)

end Pty

end Caiman.Api
