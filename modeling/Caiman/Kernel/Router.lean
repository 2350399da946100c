import Caiman.Lib.Percpu
import Caiman.Microseg.Xdp
import Mathlib.Algebra.Group.InjSurj
import Mathlib.Data.UInt

/-!
# The router

`xdp_vm_router` on the bytes of a frame and the content of its maps, on any CPU, with the maps
filled from outside between the frames. What it counts for a tap are the frames for the VM, also
those that no device takes.
-/

namespace Caiman.Kernel.Router

open Lib Microseg

/-! ## The program -/

@[ext]
structure VmStats where
  rxPackets : UInt64
  rxBytes : UInt64
  deriving DecidableEq, Repr

/-- The maps that the router looks a frame up in. -/
structure RouterMaps where
  macToIfindex : List UInt8 → Option UInt32
  txPort : UInt32 → Bool

/-- `bpf_redirect_map(&tx_port, ifindex, XDP_PASS)` -/
def RouterMaps.redirectMap (maps : RouterMaps) (ifindex : UInt32) : XdpAction :=
  if maps.txPort ifindex then .redirect ifindex else .pass

/-- The counters of a tap with a frame of this length. -/
def countReceived (vmRxStats : UInt32 → Option VmStats) (ifindex : UInt32) (len : Nat) :
    UInt32 → Option VmStats :=
  Function.update vmRxStats ifindex
    ((vmRxStats ifindex).map fun st => ⟨st.rxPackets + 1, st.rxBytes + UInt64.ofNat len⟩)

def xdpVmRouter (maps : RouterMaps) (vmRxStats : UInt32 → Option VmStats) (frame : List UInt8) :
    XdpAction × (UInt32 → Option VmStats) :=
  if frame.length < ethHlen then (.aborted, vmRxStats)
  else
    match maps.macToIfindex (hDest frame) with
    | none => (.pass, vmRxStats)
    | some ifindex =>
        (maps.redirectMap ifindex, countReceived vmRxStats ifindex frame.length)

def RouterMaps.tapOf (maps : RouterMaps) (frame : List UInt8) : Option UInt32 :=
  if frame.length < ethHlen then none else maps.macToIfindex (hDest frame)

/-! ## Frame after frame -/

structure State (Cpu : Type) where
  maps : RouterMaps
  vmRxStats : Percpu Cpu UInt32 VmStats

inductive Action (Cpu : Type)
  | frame (cpu : Cpu) (bytes : List UInt8)
  /-- The maps are filled anew from user space. -/
  | load (maps : RouterMaps)

/-- What became of a frame: the tap it was for, its length and what the program returned. -/
structure Routed where
  tap : Option UInt32
  len : Nat
  action : XdpAction
  deriving DecidableEq, Repr

variable {Cpu : Type} [DecidableEq Cpu]

def step (s : State Cpu) : Action Cpu → State Cpu × List Routed
  | .frame cpu bytes =>
      let result := xdpVmRouter s.maps (s.vmRxStats.view cpu) bytes
      ({ s with vmRxStats := s.vmRxStats.put cpu result.2 },
        [⟨s.maps.tapOf bytes, bytes.length, result.1⟩])
  | .load maps => ({ s with maps := maps }, [])

def router : Machine (State Cpu) (Action Cpu) Routed where
  step := step

/-! ## What is counted -/

instance : Zero VmStats := ⟨⟨0, 0⟩⟩

instance : Add VmStats := ⟨fun a b => ⟨a.rxPackets + b.rxPackets, a.rxBytes + b.rxBytes⟩⟩

instance : SMul Nat VmStats := ⟨fun n a => ⟨n • a.rxPackets, n • a.rxBytes⟩⟩

instance : AddCommMonoid VmStats :=
  Function.Injective.addCommMonoid (fun st => (st.rxPackets, st.rxBytes))
    (fun _ _ h => VmStats.ext (congrArg Prod.fst h) (congrArg Prod.snd h)) rfl (fun _ _ => rfl) (fun _ _ => rfl)

def received (ifindex : UInt32) (routed : List Routed) : List Routed :=
  routed.filter fun r => r.tap = some ifindex

def tally (ifindex : UInt32) (routed : List Routed) : VmStats where
  rxPackets := UInt64.ofNat (received ifindex routed).length
  rxBytes := UInt64.ofNat ((received ifindex routed).map Routed.len).sum

theorem tally_append (ifindex : UInt32) (rs rs' : List Routed) :
    tally ifindex (rs ++ rs') = tally ifindex rs + tally ifindex rs' := by
  rw [tally, received, List.filter_append, List.length_append, List.map_append, List.sum_append,
    UInt64.ofNat_add, UInt64.ofNat_add]
  rfl

theorem tally_of_ne {ifindex : UInt32} {r : Routed} (h : r.tap ≠ some ifindex) :
    tally ifindex [r] = 0 := by
  rw [tally, received, List.filter_cons_of_neg (by simpa using h)]
  rfl

theorem tally_of_eq {ifindex : UInt32} {r : Routed} (h : r.tap = some ifindex) :
    tally ifindex [r] = ⟨1, UInt64.ofNat r.len⟩ := by
  rw [tally, received, List.filter_cons_of_pos (by simpa using h)]
  simp

theorem xdpVmRouter_of_none {maps : RouterMaps} {frame : List UInt8}
    (h : maps.tapOf frame = none) (vmRxStats : UInt32 → Option VmStats) :
    (xdpVmRouter maps vmRxStats frame).2 = vmRxStats ∧
      ∀ ifindex, (xdpVmRouter maps vmRxStats frame).1 ≠ .redirect ifindex := by
  unfold RouterMaps.tapOf at h
  unfold xdpVmRouter
  split
  · exact ⟨rfl, fun _ hbad => by cases hbad⟩
  · rename_i hlong
    rw [if_neg hlong] at h
    rw [h]
    exact ⟨rfl, fun _ hbad => by cases hbad⟩

theorem xdpVmRouter_of_some {maps : RouterMaps} {frame : List UInt8} {ifindex : UInt32}
    (h : maps.tapOf frame = some ifindex) (vmRxStats : UInt32 → Option VmStats) :
    xdpVmRouter maps vmRxStats frame =
      (maps.redirectMap ifindex, countReceived vmRxStats ifindex frame.length) := by
  unfold RouterMaps.tapOf at h
  unfold xdpVmRouter
  split
  · rename_i hshort
    rw [if_pos hshort] at h
    cases h
  · rename_i hlong
    rw [if_neg hlong] at h
    rw [h]

theorem counted_of_frame (maps : RouterMaps) (vmRxStats : UInt32 → Option VmStats)
    (frame : List UInt8) (ifindex : UInt32) (action : XdpAction) :
    (xdpVmRouter maps vmRxStats frame).2 ifindex =
      (vmRxStats ifindex).map fun st =>
        st + tally ifindex [⟨maps.tapOf frame, frame.length, action⟩] := by
  cases htap : maps.tapOf frame with
  | none =>
      rw [(xdpVmRouter_of_none htap vmRxStats).1, tally_of_ne (by simp)]
      simp
  | some tap =>
      simp only [xdpVmRouter_of_some htap vmRxStats, countReceived]
      by_cases heq : ifindex = tap
      · rw [heq, Function.update_self, tally_of_eq rfl]
        rfl
      · rw [Function.update_of_ne heq, tally_of_ne (by simpa using Ne.symm heq)]
        simp

variable [Fintype Cpu]

theorem step_total (s : State Cpu) (a : Action Cpu) (ifindex : UInt32) :
    (router.step s a).1.vmRxStats.total ifindex =
      (s.vmRxStats.total ifindex).map fun st => st + tally ifindex (router.step s a).2 := by
  cases a with
  | frame cpu bytes => exact Percpu.total_put _ _ (counted_of_frame _ _ _ _ _)
  | load maps =>
      have hnone : tally ifindex (router.step s (.load maps : Action Cpu)).2 = 0 := rfl
      rw [hnone]
      simp [router, step]

/-! ## What is redirected -/

/-- A frame is redirected to the tap it is for and to no other, and a frame for a tap that is not
redirected goes to the kernel. -/
def Routed.Lawful (r : Routed) : Prop :=
  (∀ ifindex, r.action = .redirect ifindex → r.tap = some ifindex) ∧
    ∀ ifindex, r.tap = some ifindex → r.action = .redirect ifindex ∨ r.action = .pass

omit [Fintype Cpu] in
theorem step_lawful (s : State Cpu) (a : Action Cpu) : ∀ r ∈ (router.step s a).2, r.Lawful := by
  cases a with
  | load maps =>
      intro r hr
      cases hr
  | frame cpu bytes =>
      intro r hr
      cases List.mem_singleton.mp hr
      cases htap : s.maps.tapOf bytes with
      | none =>
          constructor
          · intro ifindex hredirect
            exact absurd hredirect ((xdpVmRouter_of_none htap _).2 ifindex)
          · intro ifindex hsome
            cases hsome
      | some tap =>
          simp only [Routed.Lawful, xdpVmRouter_of_some htap, RouterMaps.redirectMap]
          constructor
          · intro ifindex hredirect
            split at hredirect
            · cases hredirect
              rfl
            · cases hredirect
          · intro ifindex hsome
            cases hsome
            split
            · exact Or.inl rfl
            · exact Or.inr rfl

theorem received_length {routed : List Routed} (h : ∀ r ∈ routed, r.Lawful) (ifindex : UInt32) :
    (received ifindex routed).length =
      routed.countP (fun r => r.action = .redirect ifindex) +
        routed.countP (fun r => r.tap = some ifindex ∧ r.action = .pass) := by
  induction routed with
  | nil => rfl
  | cons r routed ih =>
      have hrest := ih fun r hr => h r (List.mem_cons_of_mem _ hr)
      obtain ⟨hto, hfor⟩ := h r List.mem_cons_self
      simp only [received] at hrest
      simp only [received, List.filter_cons, List.countP_cons]
      by_cases htap : r.tap = some ifindex
      · rcases hfor ifindex htap with hredirect | hpass
        · simp [htap, hredirect, hrest]
          omega
        · simp [htap, hpass, hrest]
          omega
      · have hother : r.action ≠ .redirect ifindex := fun hbad => htap (hto ifindex hbad)
        simp [htap, hother, hrest]

end Caiman.Kernel.Router
