import Mathlib.Data.List.Nodup
import Caiman.Kernel.Net

/-!
# Context table

A context is found by the id of its VM, and the table is declared for
`KVM_NET_MAX_VMS` of them. Storing a context looks at neither.
-/

namespace Caiman.Kernel

open Lib

/-- No two contexts of one VM, and no more than the table is declared for. -/
structure NetModule.Orderly (s : NetModule) : Prop where
  unique : (s.table.map Ctx.vmId).Nodup
  bounded : s.table.length ≤ kvmNetMaxVms

/-- A context that is stored is of a VM that has none yet, and there is room for it. -/
def NetModule.Admits (s : NetModule) (a : Command × Answers) : Prop :=
  ∀ ctx, stored a.2 a.1 = some ctx →
    (∀ c ∈ s.table, c.vmId ≠ ctx.vmId) ∧ s.table.length < kvmNetMaxVms

/-- A successful `VM_DEL` in the run leaves no context of the VM. -/
def DeletesFully (s : NetModule) (as : List (Command × Answers)) : Prop :=
  ∀ pre vmId k post, as = pre ++ (.vmDel (some vmId), k) :: post →
    Event.ret (.ok ()) ∈ (netlink.step (netlink.run s pre).1 (.vmDel (some vmId), k)).2 →
    (netlink.step (netlink.run s pre).1 (.vmDel (some vmId), k)).1.ctxFind vmId = none

theorem NetModule.new_orderly (attached : NetDevice → Option BpfProg) :
    (NetModule.new attached).Orderly :=
  ⟨List.nodup_nil, Nat.zero_le _⟩

theorem NetModule.orderly_store_iff {s : NetModule} (hs : s.Orderly) (ctx : Ctx) :
    NetModule.Orderly { s with table := ctx :: s.table } ↔
      (∀ c ∈ s.table, c.vmId ≠ ctx.vmId) ∧ s.table.length < kvmNetMaxVms := by
  constructor
  · intro h
    have hnodup := h.unique
    rw [List.map_cons, List.nodup_cons] at hnodup
    refine ⟨?_, h.bounded⟩
    intro c hc heq
    exact hnodup.1 (heq ▸ List.mem_map_of_mem hc)
  · intro h
    refine ⟨?_, h.2⟩
    rw [List.map_cons, List.nodup_cons]
    refine ⟨?_, hs.unique⟩
    intro hmem
    obtain ⟨c, hc, heq⟩ := List.mem_map.mp hmem
    exact h.1 c hc heq

theorem NetModule.Orderly.setProg {s : NetModule} (hs : s.Orderly) {vmId : UInt32}
    {front back : List Ctx} {ctx : Ctx} (hfound : Found s vmId front ctx back)
    (prog : Option BpfProg) (attached : NetDevice → Option BpfProg) :
    NetModule.Orderly ⟨front ++ { ctx with xdpProg := prog } :: back, attached⟩ := by
  have hunique := hs.unique
  have hbounded := hs.bounded
  rw [hfound.table] at hunique hbounded
  constructor
  · simpa using hunique
  · simpa using hbounded

theorem step_orderly_iff (s : NetModule) (a : Command × Answers) (hs : s.Orderly) :
    (netlink.step s a).1.Orderly ↔ s.Admits a := by
  have hquiet : stored a.2 a.1 = none → s.Admits a := by
    intro hnone ctx hctx
    rw [hnone] at hctx
    cases hctx
  have heffect := effect_step s a
  generalize (netlink.step s a).1 = t at heffect ⊢
  generalize (netlink.step s a).2 = events at heffect
  obtain ⟨cmd, k⟩ := a
  cases heffect with
  | refused hstored _ _ _ => exact iff_of_true hs (hquiet hstored)
  | @store _ ctx hstored _ _ _ =>
      rw [NetModule.orderly_store_iff hs]
      constructor
      · intro h other hother
        rw [hstored] at hother
        cases hother
        exact h
      · intro h
        exact h ctx hstored
  | attach hfound _ hstored _ => exact iff_of_true (hs.setProg hfound _ _) (hquiet hstored)
  | detach hfound => exact iff_of_true (hs.setProg hfound _ _) (hquiet rfl)
  | @delete _ front back ctx hfound =>
      have hsub : (front ++ back).Sublist s.table := by
        rw [hfound.table]
        exact (List.Sublist.refl front).append (List.sublist_cons_self ctx back)
      refine iff_of_true ⟨?_, ?_⟩ (hquiet rfl)
      · exact hs.unique.sublist (hsub.map Ctx.vmId)
      · exact Nat.le_trans hsub.length_le hs.bounded

theorem ctxFind_delete {s : NetModule} (hs : s.Orderly) {vmId : UInt32} {k : Answers}
    (hret : Event.ret (.ok ()) ∈ (netlink.step s (.vmDel (some vmId), k)).2) :
    (netlink.step s (.vmDel (some vmId), k)).1.ctxFind vmId = none := by
  have heffect := effect_step s (.vmDel (some vmId), k)
  generalize (netlink.step s (.vmDel (some vmId), k)).1 = t at heffect ⊢
  generalize (netlink.step s (.vmDel (some vmId), k)).2 = events at heffect hret
  cases heffect with
  | refused _ _ _ hneutral => cases hneutral <;> simp at hret
  | store hstored _ _ _ => cases hstored
  | attach _ hinstalled _ _ => cases hinstalled
  | @delete _ front back ctx hfound =>
      have hunique := hs.unique
      rw [hfound.table, List.map_append, List.map_cons] at hunique
      have holder := List.nodup_middle.mp hunique
      rw [List.nodup_cons, hfound.own] at holder
      apply List.find?_eq_none.mpr
      intro c hc heq
      apply holder.1
      rw [← List.map_append, ← show c.vmId = vmId by simpa using heq]
      exact List.mem_map_of_mem hc

/-- For every sequence of commands: there are never two contexts of one VM nor more than
`KVM_NET_MAX_VMS`, and a VM that is deleted is not found, exactly when every context that
is stored is of a VM that has none and finds room. -/
theorem table_unique_iff (attached : NetDevice → Option BpfProg) (as : List (Command × Answers)) :
    ((∀ pre, pre <+: as → (netlink.run (.new attached) pre).1.Orderly) ∧
      DeletesFully (.new attached) as) ↔
    netlink.AllSteps NetModule.Admits (.new attached) as := by
  have hiff := netlink.prefixes_iff_allSteps step_orderly_iff (NetModule.new_orderly attached) as
  constructor
  · intro h
    exact hiff.mp h.1
  · intro hall
    have horderly := hiff.mpr hall
    refine ⟨horderly, ?_⟩
    intro pre vmId k post has hret
    exact ctxFind_delete (horderly pre ⟨_, has.symm⟩) hret

/-- The VMM of a VM comes back after a crash and adds it once more. When it is deleted,
the first context is found. -/
theorem added_twice_stays :
    let as := [addVm 7, addVm 7, (.vmDel (some 7), obliging)]
    ¬ (netlink.run (.new fun _ => none) (as.take 2)).1.Orderly ∧
      ((netlink.run (.new fun _ => none) as).1.ctxFind 7).isSome = true ∧
      ¬ DeletesFully (.new fun _ => none) as := by
  intro as
  refine ⟨?_, by decide, ?_⟩
  · intro h
    exact absurd h.unique (by decide)
  · intro h
    have hnone := h [addVm 7, addVm 7] 7 obliging [] rfl (List.mem_singleton.mpr rfl)
    exact absurd hnone (by decide)

end Caiman.Kernel
