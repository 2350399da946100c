import Caiman.Lib.History
import Caiman.Kernel.Router

/-!
# Denied traffic

`xdp_microseg_enforce` on frame after frame, on any CPU, while the policy engine fills the maps
and the reader of the audit ring makes room or does not. Beside it runs the router that the
program replaces.
-/

namespace Caiman.Microseg.Enforcer

open Lib Kernel.Router

/-! ## Frame after frame -/

/-- The maps that the policy engine and the CNI plugin fill. -/
structure PolicyMaps extends RouterMaps where
  identityMap : List UInt8 → Option UInt32
  policyMap : PolicyMap
  defaultPolicyMap : DefaultPolicyMap

structure State (Cpu : Type) where
  maps : PolicyMaps
  denyStatsMap : Percpu Cpu UInt32 DenyStats

inductive Action (Cpu : Type)
  | frame (cpu : Cpu) (bytes : List UInt8) (ringFree : Bool)
  /-- The maps are filled anew from user space. -/
  | load (maps : PolicyMaps)

/-- What became of a frame: the identity it came from, its length, whether the ring had room, what
the program returned and what it audited. -/
structure Enforced where
  srcId : UInt32
  len : Nat
  ringFree : Bool
  action : XdpAction
  audit : List AuditEvent
  deriving DecidableEq, Repr

variable {Cpu : Type} [DecidableEq Cpu]

/-- The maps as the program finds them on a CPU. -/
def State.on (s : State Cpu) (cpu : Cpu) (ringFree : Bool) : BpfMaps where
  identityMap := s.maps.identityMap
  policyMap := s.maps.policyMap
  defaultPolicyMap := s.maps.defaultPolicyMap
  denyStatsMap := s.denyStatsMap.view cpu
  macToIfindex := s.maps.macToIfindex
  txPort := s.maps.txPort
  ringFree := ringFree

def enforced (maps : BpfMaps) (frame : List UInt8) : Enforced where
  srcId := maps.identity (hSource frame)
  len := frame.length
  ringFree := maps.ringFree
  action := (xdpMicrosegEnforce maps frame).action
  audit := (xdpMicrosegEnforce maps frame).audit

def step (s : State Cpu) : Action Cpu → State Cpu × List Enforced
  | .frame cpu bytes ringFree =>
      let maps := s.on cpu ringFree
      ({ s with denyStatsMap := s.denyStatsMap.put cpu (xdpMicrosegEnforce maps bytes).denyStatsMap },
        [enforced maps bytes])
  | .load maps => ({ s with maps := maps }, [])

def enforcer : Machine (State Cpu) (Action Cpu) Enforced where
  step := step

/-! ## What one frame comes to -/

theorem enforce_cases (maps : BpfMaps) (frame : List UInt8) :
    ((xdpMicrosegEnforce maps frame).action = .drop ∧
      (xdpMicrosegEnforce maps frame).denyStatsMap =
        maps.countDenied (maps.identity (hSource frame)) frame.length ∧
      ∃ proto srcIp dstIp dstPort, (xdpMicrosegEnforce maps frame).audit =
        emitAudit maps frame proto srcIp dstIp dstPort Verdict.deny.code) ∨
    ((xdpMicrosegEnforce maps frame).action ≠ .drop ∧
      (xdpMicrosegEnforce maps frame).denyStatsMap = maps.denyStatsMap ∧
      ∀ ev ∈ (xdpMicrosegEnforce maps frame).audit, ev.verdict ≠ Verdict.deny.code) := by
  have hthrough : maps.allowRedirect frame ≠ .drop := by
    intro hdrop
    have hlets := allowRedirect_letsThrough maps frame
    rw [hdrop] at hlets
    cases hlets
  unfold xdpMicrosegEnforce
  split
  · exact Or.inr ⟨by simp, rfl, by simp⟩
  · cases parse frame with
    | notIp => exact Or.inr ⟨hthrough, rfl, by simp⟩
    | aborted => exact Or.inr ⟨by simp, rfl, by simp⟩
    | ip proto srcIp dstIp dstPort =>
        dsimp only
        split
        · rename_i hdeny
          exact Or.inl ⟨rfl, rfl, proto, srcIp, dstIp, dstPort, by rw [hdeny]⟩
        · rename_i hother
          split
          · refine Or.inr ⟨hthrough, rfl, ?_⟩
            intro ev hev
            unfold emitAudit at hev
            split at hev
            · cases List.mem_singleton.mp hev
              exact hother
            · cases hev
          · exact Or.inr ⟨hthrough, rfl, by simp⟩

/-! ## What is counted -/

instance : Zero DenyStats := ⟨⟨0, 0⟩⟩

instance : Add DenyStats := ⟨fun a b => ⟨a.packets + b.packets, a.bytes + b.bytes⟩⟩

instance : SMul Nat DenyStats := ⟨fun n a => ⟨n • a.packets, n • a.bytes⟩⟩

theorem denyStats_injective : Function.Injective fun st : DenyStats => (st.packets, st.bytes) := by
  intro a b h
  cases a
  cases b
  cases h
  rfl

instance : AddCommMonoid DenyStats :=
  Function.Injective.addCommMonoid _ denyStats_injective rfl (fun _ _ => rfl) (fun _ _ => rfl)

def dropped (srcId : UInt32) (es : List Enforced) : List Enforced :=
  es.filter fun e => e.srcId = srcId ∧ e.action = .drop

def tally (srcId : UInt32) (es : List Enforced) : DenyStats where
  packets := UInt64.ofNat (dropped srcId es).length
  bytes := UInt64.ofNat ((dropped srcId es).map Enforced.len).sum

theorem tally_append (srcId : UInt32) (es es' : List Enforced) :
    tally srcId (es ++ es') = tally srcId es + tally srcId es' := by
  rw [tally, dropped, List.filter_append, List.length_append, List.map_append, List.sum_append,
    UInt64.ofNat_add, UInt64.ofNat_add]
  rfl

theorem tally_of_not {srcId : UInt32} {e : Enforced} (h : ¬ (e.srcId = srcId ∧ e.action = .drop)) :
    tally srcId [e] = 0 := by
  rw [tally, dropped, List.filter_cons_of_neg (by simpa using h)]
  rfl

theorem tally_of_dropped {srcId : UInt32} {e : Enforced} (hsrc : e.srcId = srcId)
    (hdrop : e.action = .drop) : tally srcId [e] = ⟨1, UInt64.ofNat e.len⟩ := by
  rw [tally, dropped, List.filter_cons_of_pos (by simp [hsrc, hdrop])]
  simp

theorem counted_of_frame (maps : BpfMaps) (frame : List UInt8) (srcId : UInt32) :
    (xdpMicrosegEnforce maps frame).denyStatsMap srcId =
      (maps.denyStatsMap srcId).map fun st => st + tally srcId [enforced maps frame] := by
  rcases enforce_cases maps frame with ⟨hdrop, hcount, -⟩ | ⟨hother, hsame, -⟩
  · rw [hcount, BpfMaps.countDenied]
    by_cases hsrc : srcId = maps.identity (hSource frame)
    · have htally : tally (maps.identity (hSource frame)) [enforced maps frame] =
          ⟨1, UInt64.ofNat frame.length⟩ := tally_of_dropped rfl hdrop
      rw [hsrc, Function.update_self, htally]
      rfl
    · have hnot : tally srcId [enforced maps frame] = 0 :=
        tally_of_not fun h => hsrc h.1.symm
      rw [Function.update_of_ne hsrc, hnot]
      simp
  · have hnot : tally srcId [enforced maps frame] = 0 := tally_of_not fun h => hother h.2
    rw [hsame, hnot]
    simp

/-! ## What is audited -/

def deniedAudits (srcId : UInt32) (es : List Enforced) : List AuditEvent :=
  (es.flatMap Enforced.audit).filter fun ev => ev.srcId = srcId ∧ ev.verdict = Verdict.deny.code

/-- Every frame that is dropped while the ring has room is audited once, under the identity it
came from, and no other frame is audited as denied. -/
def Enforced.Lawful (e : Enforced) : Prop :=
  ∀ srcId, (deniedAudits srcId [e]).length = (dropped srcId [e]).countP Enforced.ringFree

theorem enforced_lawful (maps : BpfMaps) (frame : List UInt8) : (enforced maps frame).Lawful := by
  intro srcId
  rcases enforce_cases maps frame with ⟨hdrop, -, proto, srcIp, dstIp, dstPort, haudit⟩ |
    ⟨hother, -, hnone⟩
  · cases hfree : maps.ringFree with
    | false =>
        rw [emitAudit, hfree, if_neg (by decide)] at haudit
        have hempty : deniedAudits srcId [enforced maps frame] = [] := by
          simp [deniedAudits, enforced, haudit]
        rw [hempty, List.length_nil, eq_comm, List.countP_eq_zero]
        intro e he
        cases List.mem_singleton.mp (List.mem_of_mem_filter he)
        simp [enforced, hfree]
    | true =>
        rw [emitAudit, hfree, if_pos rfl] at haudit
        by_cases hsrc : maps.identity (hSource frame) = srcId
        · simp [deniedAudits, dropped, enforced, haudit, hdrop, hfree, hsrc]
        · simp [deniedAudits, dropped, enforced, haudit, hsrc]
  · have hkept : dropped srcId [enforced maps frame] = [] := by
      simp [dropped, enforced, hother]
    rw [hkept, List.countP_nil, List.length_eq_zero_iff, deniedAudits, List.filter_eq_nil_iff]
    intro ev hev
    have haudited : ev ∈ (xdpMicrosegEnforce maps frame).audit := by simpa [enforced] using hev
    simp [hnone ev haudited]

theorem step_lawful (s : State Cpu) (a : Action Cpu) : ∀ e ∈ (enforcer.step s a).2, e.Lawful := by
  cases a with
  | frame cpu bytes ringFree =>
      intro e he
      cases List.mem_singleton.mp he
      exact enforced_lawful _ _
  | load maps =>
      intro e he
      cases he

theorem deniedAudits_length {es : List Enforced} (h : ∀ e ∈ es, e.Lawful) (srcId : UInt32) :
    (deniedAudits srcId es).length = (dropped srcId es).countP Enforced.ringFree := by
  induction es with
  | nil => rfl
  | cons e es ih =>
      have hfirst := h e List.mem_cons_self srcId
      have hrest := ih fun e' he' => h e' (List.mem_cons_of_mem _ he')
      have haudits : deniedAudits srcId (e :: es) =
          deniedAudits srcId [e] ++ deniedAudits srcId es := by
        simp [deniedAudits]
      have hdropped : dropped srcId (e :: es) = dropped srcId [e] ++ dropped srcId es := by
        rw [dropped, dropped, dropped, ← List.filter_append]
        rfl
      rw [haudits, hdropped, List.length_append, List.countP_append, hfirst, hrest]

variable [Fintype Cpu]

theorem step_total (s : State Cpu) (a : Action Cpu) (srcId : UInt32) :
    (enforcer.step s a).1.denyStatsMap.total srcId =
      (s.denyStatsMap.total srcId).map fun st => st + tally srcId (enforcer.step s a).2 := by
  cases a with
  | frame cpu bytes ringFree => exact Percpu.total_put _ _ (counted_of_frame _ _ _)
  | load maps =>
      have hnone : tally srcId (enforcer.step s (.load maps : Action Cpu)).2 = 0 := rfl
      rw [hnone]
      simp [enforcer, step]

/-- Over every run, on whichever CPUs the frames come in and however the policy changes in
between: what the counters of an identity gain, summed over the CPUs, is the frames from it that
were dropped and their bytes, and each of these that found room in the ring is audited, once. -/
theorem denied_accounted (s : State Cpu) (as : List (Action Cpu)) (srcId : UInt32) :
    (enforcer.run s as).1.denyStatsMap.total srcId =
        ((s.denyStatsMap.total srcId).map fun st =>
          ⟨st.packets + UInt64.ofNat (dropped srcId (enforcer.run s as).2).length,
            st.bytes +
              UInt64.ofNat ((dropped srcId (enforcer.run s as).2).map Enforced.len).sum⟩) ∧
      (deniedAudits srcId (enforcer.run s as).2).length =
        (dropped srcId (enforcer.run s as).2).countP Enforced.ringFree := by
  constructor
  · exact enforcer.run_total State.denyStatsMap (fun _ => rfl) tally_append
      step_total s as srcId
  · exact deniedAudits_length
      (enforcer.forall_mem_run_iff.mpr (enforcer.allSteps_of step_lawful s as)) srcId

/-! ## The router it replaces -/

omit [DecidableEq Cpu] [Fintype Cpu]

/-- The same traffic and the same redirect maps, for the router. -/
def Action.toRouter : Action Cpu → Kernel.Router.Action Cpu
  | .frame cpu bytes _ => .frame cpu bytes
  | .load maps => .load maps.toRouterMaps

/-- The frame went where the router sends it, or nowhere. -/
def Restricts (e : Enforced) (r : Routed) : Prop :=
  e.len = r.len ∧ (e.action = r.action ∨ e.action = .drop ∨ e.action = .aborted)

theorem allowRedirect_eq (s : State Cpu) [DecidableEq Cpu] (cpu : Cpu) (ringFree : Bool)
    {frame : List UInt8} (hlong : ¬ frame.length < ethHlen)
    (vmRxStats : UInt32 → Option VmStats) :
    (s.on cpu ringFree).allowRedirect frame =
      (xdpVmRouter s.maps.toRouterMaps vmRxStats frame).1 := by
  rw [xdpVmRouter, if_neg hlong, BpfMaps.allowRedirect]
  simp only [State.on]
  cases s.maps.macToIfindex (hDest frame) with
  | none => rfl
  | some ifindex => rfl

theorem enforced_restricts [DecidableEq Cpu] (s : State Cpu) (cpu : Cpu) (ringFree : Bool)
    (frame : List UInt8) (vmRxStats : UInt32 → Option VmStats) (tap : Option UInt32) :
    Restricts (enforced (s.on cpu ringFree) frame)
      ⟨tap, frame.length, (xdpVmRouter s.maps.toRouterMaps vmRxStats frame).1⟩ := by
  refine ⟨rfl, ?_⟩
  simp only [enforced, xdpMicrosegEnforce]
  split
  · exact Or.inr (Or.inr rfl)
  · rename_i hlong
    have hway := allowRedirect_eq s cpu ringFree hlong vmRxStats
    cases parse frame with
    | notIp => exact Or.inl hway
    | aborted => exact Or.inr (Or.inr rfl)
    | ip proto srcIp dstIp dstPort =>
        dsimp only
        split
        · exact Or.inr (Or.inl rfl)
        · split
          · exact Or.inl hway
          · exact Or.inl hway

/-- On the same frames and redirect maps, whatever the policies, each frame is sent where the
router sends it, dropped or aborted. -/
theorem restricts_router [DecidableEq Cpu] (s : State Cpu)
    (vmRxStats : Percpu Cpu UInt32 VmStats) (as : List (Action Cpu)) :
    List.Forall₂ Restricts (enforcer.run s as).2
      (router.run ⟨s.maps.toRouterMaps, vmRxStats⟩ (as.map Action.toRouter)).2 := by
  refine enforcer.run_forall₂ router (f := Action.toRouter)
    (R := fun s s' => s'.maps = s.maps.toRouterMaps) ?_ rfl as
  intro s s' a hmaps
  cases a with
  | frame cpu bytes ringFree =>
      refine ⟨List.Forall₂.cons ?_ List.Forall₂.nil, hmaps⟩
      rw [hmaps]
      exact enforced_restricts s cpu ringFree bytes _ _
  | load maps => exact ⟨List.Forall₂.nil, rfl⟩

end Caiman.Microseg.Enforcer
