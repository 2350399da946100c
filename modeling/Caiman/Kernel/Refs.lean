import Caiman.Kernel.Net

/-!
# References

A context points to its uplink and to its program. The program's reference is taken
when the program is attached and dropped when it is replaced, detached or deleted. The
uplink's reference is dropped as soon as the context is stored.
-/

namespace Caiman.Kernel

open Lib

/-- Every context has a reference of its own on its uplink, and no other is left. -/
def UplinksHeld (s : NetModule) (events : List Event) : Prop :=
  ∀ dev, events.count (.devGet dev) =
    events.count (.devPut dev) + s.table.countP fun c => c.uplink == dev

/-- Every context has a reference of its own on its program, and no other is left. -/
def ProgramsHeld (s : NetModule) (events : List Event) : Prop :=
  ∀ prog, events.count (.progGet prog) =
    events.count (.progPut prog) + s.table.countP fun c => c.xdpProg == some prog

/-- Nothing is dropped more often than it has been taken by then. -/
def NeverOverdropped (events : List Event) : Prop :=
  ∀ pre, pre <+: events →
    (∀ dev, pre.count (.devPut dev) ≤ pre.count (.devGet dev)) ∧
      ∀ prog, pre.count (.progPut prog) ≤ pre.count (.progGet prog)

section

variable {k : Answers} {s t : NetModule} {cmd : Command} {events : List Event}

theorem Effect.devices (h : Effect k s cmd t events) (dev : NetDevice) :
    events.count (.devGet dev) = events.count (.devPut dev) ∧
      ∀ pre, pre <+: events → pre.count (.devPut dev) ≤ pre.count (.devGet dev) := by
  cases h with
  | refused _ _ _ hneutral =>
      cases hneutral <;> simp [Machine.forall_prefix_cons, List.count_cons]
  | store _ _ _ _ => simp [Machine.forall_prefix_cons, List.count_cons]
  | @attach _ _ _ _ ctx =>
      cases ctx.xdpProg <;> simp [Machine.forall_prefix_cons]
  | @detach _ _ _ ctx =>
      cases ctx.xdpProg <;> simp [Machine.forall_prefix_cons]
  | @delete _ _ _ ctx =>
      cases ctx.xdpProg <;> simp [Machine.forall_prefix_cons]

theorem Effect.table_of_stored (h : Effect k s cmd t events) {ctx : Ctx}
    (hstored : stored k cmd = some ctx) : t.table = ctx :: s.table := by
  cases h with
  | refused hnone _ _ _ =>
      rw [hnone] at hstored
      cases hstored
  | store hsome _ _ _ =>
      rw [hsome] at hstored
      cases hstored
      rfl
  | attach _ _ hnone _ =>
      rw [hnone] at hstored
      cases hstored
  | detach _ => cases hstored
  | delete _ => cases hstored

theorem Effect.table_empty (h : Effect k s cmd t events) (hs : s.table = [])
    (hstored : stored k cmd = none) : t.table = [] := by
  have hnone : ∀ {vmId front ctx back}, ¬ Found s vmId front ctx back := by
    intro vmId front ctx back hfound
    have htable := hfound.table
    rw [hs] at htable
    simp at htable
  cases h with
  | refused _ _ _ _ => exact hs
  | store hsome _ _ _ =>
      rw [hsome] at hstored
      cases hstored
  | attach hfound _ _ _ => exact absurd hfound hnone
  | detach hfound => exact absurd hfound hnone
  | delete hfound => exact absurd hfound hnone

def NetModule.pointers (s : NetModule) (prog : BpfProg) : Nat :=
  s.table.countP fun c => c.xdpProg == some prog

theorem Found.pointers {vmId : UInt32} {front back : List Ctx} {ctx : Ctx}
    (h : Found s vmId front ctx back) (prog : BpfProg) :
    s.pointers prog = front.countP (fun c => c.xdpProg == some prog) +
      (back.countP (fun c => c.xdpProg == some prog) +
        if ctx.xdpProg = some prog then 1 else 0) := by
  unfold NetModule.pointers
  rw [h.table, List.countP_append, List.countP_cons]
  simp only [beq_iff_eq]

/-- A command leaves a reference for each context that points to the program, and drops
none that is not held or has just been taken. -/
theorem Effect.programs (h : Effect k s cmd t events) (prog : BpfProg) :
    events.count (.progGet prog) + s.pointers prog =
        events.count (.progPut prog) + t.pointers prog ∧
      ∀ pre, pre <+: events →
        pre.count (.progPut prog) ≤ pre.count (.progGet prog) + s.pointers prog := by
  cases h with
  | refused _ _ _ hneutral =>
      cases hneutral <;> simp [Machine.forall_prefix_cons, List.count_cons]
  | store _ hprog _ _ =>
      simp [Machine.forall_prefix_cons, NetModule.pointers, hprog]
  | @attach _ _ _ _ ctx _ hfound _ _ _ =>
      rw [hfound.pointers]
      cases ctx.xdpProg <;>
        simp [Machine.forall_prefix_cons, List.count_cons, List.countP_cons, NetModule.pointers] <;>
        omega
  | @detach _ _ _ ctx hfound =>
      rw [hfound.pointers]
      cases ctx.xdpProg <;>
        simp [Machine.forall_prefix_cons, List.count_cons, NetModule.pointers]
      omega
  | @delete _ _ _ ctx hfound =>
      rw [hfound.pointers]
      cases ctx.xdpProg <;>
        simp [Machine.forall_prefix_cons, List.count_cons, NetModule.pointers]
      omega

end

/-- For every sequence of commands, failing ones included: program references are taken
and dropped as contexts come to point to programs and cease to, and nothing is dropped
more often than taken. The same holds of uplinks exactly when no context is ever stored:
the reference on its uplink is gone when the command returns. -/
theorem reference_discipline_iff (attached : NetDevice → Option BpfProg)
    (as : List (Command × Answers)) :
    ((∀ pre, pre <+: as →
      UplinksHeld (netlink.run (.new attached) pre).1 (netlink.run (.new attached) pre).2 ∧
      ProgramsHeld (netlink.run (.new attached) pre).1 (netlink.run (.new attached) pre).2 ∧
      NeverOverdropped (netlink.run (.new attached) pre).2) ↔
        ∀ a ∈ as, stored a.2 a.1 = none) ∧
    ∀ pre, pre <+: as →
      ProgramsHeld (netlink.run (.new attached) pre).1 (netlink.run (.new attached) pre).2 ∧
      NeverOverdropped (netlink.run (.new attached) pre).2 := by
  have hprograms : ∀ pre,
      ProgramsHeld (netlink.run (.new attached) pre).1 (netlink.run (.new attached) pre).2 :=
    fun pre prog => netlink.run_account (· == .progGet prog) (· == .progPut prog)
      (fun s => s.pointers prog) (fun s a => ((effect_step s a).programs prog).1)
      (.new attached) pre
  have hdevices : ∀ pre dev, (netlink.run (.new attached) pre).2.count (.devGet dev) =
      (netlink.run (.new attached) pre).2.count (.devPut dev) :=
    fun pre dev => netlink.run_account (· == .devGet dev) (· == .devPut dev) (fun _ => 0)
      (fun s a => ((effect_step s a).devices dev).1) (.new attached) pre
  have honce : ∀ pre, NeverOverdropped (netlink.run (.new attached) pre).2 := by
    intro pre events hevents
    constructor
    · intro dev
      exact netlink.run_covered (· == .devGet dev) (· == .devPut dev) (fun _ => 0)
        (fun s a => ((effect_step s a).devices dev).1)
        (fun s a => ((effect_step s a).devices dev).2) _ pre hevents
    · intro prog
      exact netlink.run_covered (· == .progGet prog) (· == .progPut prog)
        (fun s => s.pointers prog) (fun s a => ((effect_step s a).programs prog).1)
        (fun s a => ((effect_step s a).programs prog).2) _ pre hevents
  refine ⟨⟨?_, ?_⟩, fun pre _ => ⟨hprograms pre, honce pre⟩⟩
  · intro h a ha
    obtain ⟨pre, post, rfl⟩ := List.append_of_mem ha
    cases hstored : stored a.2 a.1 with
    | none => rfl
    | some ctx =>
        -- the context is there and the balance of its uplink is even
        have hheld := (h (pre ++ [a]) ⟨post, by simp⟩).1 ctx.uplink
        rw [hdevices, netlink.run_append] at hheld
        have htable := (effect_step (netlink.run (.new attached) pre).1 a).table_of_stored hstored
        simp only [Machine.run_cons, Machine.run_nil, htable, List.countP_cons] at hheld
        simp at hheld
  · intro hnone pre hpre
    have hall : netlink.AllSteps (fun _ a => stored a.2 a.1 = none) (.new attached) as :=
      netlink.allSteps_iff_split.mpr fun _ _ _ has => hnone _ (by simp [has])
    have hempty := netlink.prefixes_invariant (I := fun s => s.table = [])
      (fun s a hs ha => (effect_step s a).table_empty hs ha) rfl hall hpre
    refine ⟨?_, hprograms pre, honce pre⟩
    intro dev
    rw [hdevices, hempty]
    rfl

/-- A VM is added: nothing holds its uplink. -/
theorem added_uplink_unheld :
    let r := netlink.run (.new fun _ => none) [addVm 7]
    (r.1.table.map Ctx.uplink = [⟨1⟩] ∧
      r.2.count (.devGet ⟨1⟩) = 1 ∧ r.2.count (.devPut ⟨1⟩) = 1) ∧ ¬ UplinksHeld r.1 r.2 := by
  intro r
  refine ⟨by decide, ?_⟩
  intro h
  exact absurd (h ⟨1⟩) (by decide)

end Caiman.Kernel
