import Caiman.Kernel.Net

/-!
# Programs on an uplink

Every context keeps the program it has put on its uplink. A device holds one program
only, so contexts that share an uplink put their programs in each other's place.
-/

namespace Caiman.Kernel

open Lib

/-- The program of a context is the one on its uplink. -/
def NetModule.Independent (s : NetModule) : Prop :=
  ∀ c ∈ s.table, ∀ prog, c.xdpProg = some prog → s.attached c.uplink = some prog

def NetModule.others (s : NetModule) (vmId : UInt32) : List Ctx :=
  s.table.eraseP fun c => c.vmId == vmId

/-- A program that is put on an uplink is that of every other context there that has one;
when the program of an uplink is taken away, no other context there has one. -/
structure NetModule.Exclusive (s : NetModule) (a : Command × Answers) : Prop where
  attach : ∀ ctx prog, installed a.2 s a.1 = some (ctx, prog) → ∀ c ∈ s.others ctx.vmId,
    c.uplink = ctx.uplink → ∀ other, c.xdpProg = some other → other = prog
  remove : ∀ ctx, uninstalled a.2 s a.1 = some ctx → ∀ c ∈ s.others ctx.vmId,
    c.uplink = ctx.uplink → c.xdpProg = none

theorem exclusive_of_none {s : NetModule} {a : Command × Answers}
    (hinstalled : installed a.2 s a.1 = none) (huninstalled : uninstalled a.2 s a.1 = none) :
    s.Exclusive a := by
  constructor
  · intro ctx prog h
    rw [hinstalled] at h
    cases h
  · intro ctx h
    rw [huninstalled] at h
    cases h

section

variable {s : NetModule} {vmId : UInt32} {front back : List Ctx} {ctx : Ctx}

theorem Found.others (h : Found s vmId front ctx back) : s.others ctx.vmId = front ++ back :=
  h.eraseP

theorem Found.mem_of_other (h : Found s vmId front ctx back) {c : Ctx} (hc : c ∈ front ++ back) :
    c ∈ s.table := by
  rw [h.table]
  rcases List.mem_append.mp hc with hfront | hback
  · exact List.mem_append_left _ hfront
  · exact List.mem_append_right _ (List.mem_cons_of_mem ctx hback)

theorem NetModule.Independent.update_iff (hs : s.Independent) (h : Found s vmId front ctx back)
    (dev : NetDevice) (on : Option BpfProg) :
    (∀ c ∈ front ++ back, ∀ prog, c.xdpProg = some prog →
      Function.update s.attached dev on c.uplink = some prog) ↔
    ∀ c ∈ front ++ back, c.uplink = dev → ∀ prog, c.xdpProg = some prog → on = some prog := by
  constructor
  · intro hall c hc hdev prog hprog
    have hnow := hall c hc prog hprog
    rw [hdev, Function.update_self] at hnow
    exact hnow
  · intro hall c hc prog hprog
    by_cases hdev : c.uplink = dev
    · rw [hdev, Function.update_self]
      exact hall c hc hdev prog hprog
    · rw [Function.update_of_ne hdev]
      exact hs c (h.mem_of_other hc) prog hprog

theorem uninstalled_eq (h : Found s vmId front ctx back) {k : Answers} {cmd : Command}
    (hcmd : cmd = .xdpDetach (some vmId) ∨ cmd = .vmDel (some vmId)) :
    uninstalled k s cmd = none ∨ uninstalled k s cmd = some ctx := by
  rcases hcmd with rfl | rfl
  all_goals
    simp only [uninstalled, h.ctxFind]
    split
    · exact Or.inr rfl
    · exact Or.inl rfl

theorem NetModule.Independent.bared_iff (hs : s.Independent) (h : Found s vmId front ctx back)
    {k : Answers} {cmd : Command}
    (hcmd : cmd = .xdpDetach (some vmId) ∨ cmd = .vmDel (some vmId)) :
    (∀ c ∈ front ++ back, ∀ prog, c.xdpProg = some prog →
      s.bared (uninstalled k s cmd) c.uplink = some prog) ↔ s.Exclusive (cmd, k) := by
  have hinstalled : installed k s cmd = none := by rcases hcmd with rfl | rfl <;> rfl
  rcases uninstalled_eq h hcmd (k := k) with hnone | hsome
  · refine iff_of_true ?_ (exclusive_of_none hinstalled hnone)
    intro c hc prog hprog
    rw [hnone]
    exact hs c (h.mem_of_other hc) prog hprog
  · rw [hsome]
    simp only [NetModule.bared]
    rw [hs.update_iff h]
    constructor
    · intro hall
      constructor
      · intro other prog hother
        rw [hinstalled] at hother
        cases hother
      · intro other hother c hc hdev
        rw [hsome] at hother
        cases hother
        rw [h.others] at hc
        cases hprog : c.xdpProg with
        | none => rfl
        | some prog => cases hall c hc hdev prog hprog
    · intro hexclusive c hc hdev prog hprog
      have hnone := hexclusive.remove ctx hsome c (h.others.symm ▸ hc) hdev
      rw [hnone] at hprog
      cases hprog

end

theorem NetModule.new_independent (attached : NetDevice → Option BpfProg) :
    (NetModule.new attached).Independent := by
  intro c hc
  cases hc

theorem independent_iff_others {front back : List Ctx} {ctx : Ctx}
    {attached : NetDevice → Option BpfProg}
    (hctx : ∀ prog, ctx.xdpProg = some prog → attached ctx.uplink = some prog) :
    NetModule.Independent ⟨front ++ ctx :: back, attached⟩ ↔
      ∀ c ∈ front ++ back, ∀ prog, c.xdpProg = some prog → attached c.uplink = some prog := by
  unfold NetModule.Independent
  simp only [List.mem_append, List.mem_cons]
  constructor
  · intro h c hc
    exact h c (hc.imp_right Or.inr)
  · intro h c hc
    rcases hc with hfront | rfl | hback
    · exact h c (Or.inl hfront)
    · exact hctx
    · exact h c (Or.inr hback)

theorem step_independent_iff (s : NetModule) (a : Command × Answers) (hs : s.Independent) :
    (netlink.step s a).1.Independent ↔ s.Exclusive a := by
  have heffect := effect_step s a
  generalize (netlink.step s a).1 = t at heffect ⊢
  generalize (netlink.step s a).2 = events at heffect
  obtain ⟨cmd, k⟩ := a
  cases heffect with
  | refused _ hinstalled huninstalled _ =>
      exact iff_of_true hs (exclusive_of_none hinstalled huninstalled)
  | store _ hprog hinstalled huninstalled =>
      refine iff_of_true ?_ (exclusive_of_none hinstalled huninstalled)
      intro c hc prog hc'
      rcases List.mem_cons.mp hc with rfl | hold
      · rw [hprog] at hc'
        cases hc'
      · exact hs c hold prog hc'
  | @attach _ vmId front back ctx prog hfound hinstalled _ huninstalled =>
      have hown : ∀ other, some prog = some other →
          Function.update s.attached ctx.uplink (some prog) ctx.uplink = some other := by
        intro other hother
        rw [Function.update_self]
        exact hother
      rw [independent_iff_others hown, hs.update_iff hfound]
      constructor
      · intro hall
        constructor
        · intro other prog' hother c hc hdev q hq
          rw [hinstalled] at hother
          cases hother
          rw [hfound.others] at hc
          exact (Option.some.inj (hall c hc hdev q hq)).symm
        · intro other hother
          rw [huninstalled] at hother
          cases hother
      · intro hexclusive c hc hdev q hq
        rw [hexclusive.attach ctx prog hinstalled c (hfound.others.symm ▸ hc) hdev q hq]
  | detach hfound =>
      rw [independent_iff_others (fun _ h => by cases h)]
      exact hs.bared_iff hfound (Or.inl rfl)
  | delete hfound => exact hs.bared_iff hfound (Or.inr rfl)

/-- For every sequence of commands: the program of every context is on its uplink, in
every state, exactly when every command that puts one there or takes one away leaves the
other contexts on that uplink what they have. -/
theorem attachments_independent_iff (attached : NetDevice → Option BpfProg)
    (as : List (Command × Answers)) :
    (∀ pre, pre <+: as → (netlink.run (.new attached) pre).1.Independent) ↔
      netlink.AllSteps NetModule.Exclusive (.new attached) as :=
  netlink.prefixes_iff_allSteps step_independent_iff (NetModule.new_independent attached) as

/-- Two VMs on one uplink attach a program each, of different paths; and the second one
goes away again. -/
theorem attach_and_delete_disturb_neighbour :
    let both := [addVm 7, addVm 8, (.xdpAttach (some 7) (some [47, 97]), obliging),
      (.xdpAttach (some 8) (some [47, 97, 98]), obliging)]
    ¬ (netlink.run (.new fun _ => none) both).1.Independent ∧
      ¬ (netlink.run (.new fun _ => none)
        (both ++ [(.vmDel (some 8), obliging)])).1.Independent := by
  intro both
  constructor
  · intro h
    have hown := h ⟨7, [2, 0, 0, 0, 0, 1], ⟨1⟩, some ⟨2⟩⟩ (by decide) ⟨2⟩ rfl
    exact absurd hown (by decide)
  · intro h
    have hown := h ⟨7, [2, 0, 0, 0, 0, 1], ⟨1⟩, some ⟨2⟩⟩ (by decide) ⟨2⟩ rfl
    exact absurd hown (by decide)

end Caiman.Kernel
