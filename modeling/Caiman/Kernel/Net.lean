import Mathlib.Data.List.Basic
import Caiman.Lib.Run

/-!
# Kernel module

The netlink commands of `caiman_net`: the table of VM contexts, the XDP programs on
the uplinks, and the references that are taken and dropped on the way. The family
runs one command at a time. What the rest of the kernel answers stands in the action.
-/

namespace Caiman.Kernel

open Lib

inductive Errno
  | einval | enodev | enomem | enoent | eopnotsupp
  | other (code : Nat)
  deriving DecidableEq, Repr

structure NetDevice where
  addr : Nat
  deriving DecidableEq, Repr

structure BpfProg where
  addr : Nat
  deriving DecidableEq, Repr

inductive XdpMode
  | unspec | drv | skb
  deriving DecidableEq, Repr

structure Ctx where
  vmId : UInt32
  mac : List UInt8
  uplink : NetDevice
  xdpProg : Option BpfProg
  deriving DecidableEq, Repr

/-- The contexts with the newest first: that is the order in which a bucket is
searched. Each device has at most one program. -/
structure NetModule where
  table : List Ctx
  attached : NetDevice → Option BpfProg

namespace NetModule

/-- The module is loaded; others may have put programs on the devices. -/
def new (attached : NetDevice → Option BpfProg) : NetModule := ⟨[], attached⟩

def ctxFind (s : NetModule) (vmId : UInt32) : Option Ctx := s.table.find? fun c => c.vmId == vmId

/-- `ctx->xdp_prog` of the context that is found. -/
def setProg (s : NetModule) (vmId : UInt32) (prog : Option BpfProg) : NetModule :=
  { s with table := s.table.replaceF fun c =>
      if c.vmId = vmId then some { c with xdpProg := prog } else none }

end NetModule

structure Answers where
  devGetByName : List UInt8 → Option NetDevice
  kzalloc : Bool
  bpfProgGetTypePath : List UInt8 → Except Errno BpfProg
  devXdpAttach : NetDevice → Option BpfProg → XdpMode → Except Errno Unit

inductive Event
  | devGet (dev : NetDevice)
  | devPut (dev : NetDevice)
  | progGet (prog : BpfProg)
  | progPut (prog : BpfProg)
  | ret (code : Except Errno Unit)
  deriving DecidableEq

def ethAlen : Nat := 6
def ifnamsiz : Nat := 16
def pathMax : Nat := 4096
def kvmNetMaxVms : Nat := 256

/-- `nla_memcpy`: what is missing is zero. -/
def nlaMemcpy (attr : List UInt8) (count : Nat) : List UInt8 :=
  attr.take count ++ List.replicate (count - attr.length) 0

def nlaStrlcpy (attr : List UInt8) (size : Nat) : List UInt8 :=
  (attr.takeWhile fun b => b != 0).take (size - 1)

section

variable (k : Answers) (s : NetModule)

/-- A program replaces the one on the device; none removes it. -/
def devXdpAttach (dev : NetDevice) (prog : Option BpfProg) (mode : XdpMode) :
    NetModule × Except Errno Unit :=
  match k.devXdpAttach dev prog mode with
  | .ok () => ({ s with attached := Function.update s.attached dev prog }, .ok ())
  | .error err => (s, .error err)

/-! ## Contexts -/

def ctxAlloc (vmId : UInt32) (mac : List UInt8) (uplink : NetDevice) :
    NetModule × Except Errno Unit :=
  if k.kzalloc then ({ s with table := ⟨vmId, mac, uplink, none⟩ :: s.table }, .ok ())
  else (s, .error .enomem)

def ctxFree (ctx : Ctx) : NetModule × List Event :=
  ({ s with table := s.table.eraseP fun c => c.vmId == ctx.vmId },
    match ctx.xdpProg with
    | some prog => [.progPut prog]
    | none => [])

/-! ## Programs -/

/-- Native first, then generic. -/
def xdpAttach (ctx : Ctx) (bpfObjPath : List UInt8) : NetModule × List Event :=
  match k.bpfProgGetTypePath bpfObjPath with
  | .error err => (s, [.ret (.error err)])
  | .ok prog =>
      let native := devXdpAttach k s ctx.uplink (some prog) .drv
      let next :=
        match native.2 with
        | .error .eopnotsupp => devXdpAttach k native.1 ctx.uplink (some prog) .skb
        | _ => native
      match next.2 with
      | .error err => (next.1, [.progGet prog, .progPut prog, .ret (.error err)])
      | .ok () =>
          (next.1.setProg ctx.vmId (some prog),
            .progGet prog :: (ctx.xdpProg.toList.map .progPut ++ [.ret (.ok ())]))

/-- With the context as it is left. An error of the removal is ignored. -/
def xdpDetach (ctx : Ctx) : NetModule × Ctx × List Event :=
  match ctx.xdpProg with
  | none => (s, ctx, [])
  | some prog =>
      ((devXdpAttach k s ctx.uplink none .unspec).1.setProg ctx.vmId none,
        { ctx with xdpProg := none }, [.progPut prog])

/-! ## Commands -/

def cmdVmAdd (vmId : Option UInt32) (mac uplink : Option (List UInt8)) : NetModule × List Event :=
  match vmId, mac, uplink with
  | some vmId, some mac, some uplink =>
      match k.devGetByName (nlaStrlcpy uplink ifnamsiz) with
      | none => (s, [.ret (.error .enodev)])
      | some dev =>
          let next := ctxAlloc k s vmId (nlaMemcpy mac ethAlen) dev
          (next.1, [.devGet dev, .devPut dev, .ret next.2])
  | _, _, _ => (s, [.ret (.error .einval)])

def cmdVmDel (vmId : Option UInt32) : NetModule × List Event :=
  match vmId with
  | none => (s, [.ret (.error .einval)])
  | some vmId =>
      match s.ctxFind vmId with
      | none => (s, [.ret (.error .enoent)])
      | some ctx =>
          let detached := xdpDetach k s ctx
          let freed := ctxFree detached.1 detached.2.1
          (freed.1, detached.2.2 ++ freed.2 ++ [.ret (.ok ())])

def cmdXdpAttach (vmId : Option UInt32) (bpfObj : Option (List UInt8)) :
    NetModule × List Event :=
  match vmId, bpfObj with
  | some vmId, some bpfObj =>
      match s.ctxFind vmId with
      | none => (s, [.ret (.error .enoent)])
      | some ctx => xdpAttach k s ctx (nlaStrlcpy bpfObj pathMax)
  | _, _ => (s, [.ret (.error .einval)])

def cmdXdpDetach (vmId : Option UInt32) : NetModule × List Event :=
  match vmId with
  | none => (s, [.ret (.error .einval)])
  | some vmId =>
      match s.ctxFind vmId with
      | none => (s, [.ret (.error .enoent)])
      | some ctx =>
          let detached := xdpDetach k s ctx
          (detached.1, detached.2.2 ++ [.ret (.ok ())])

end

/-- A message, by the attributes it has. -/
inductive Command
  | vmAdd (vmId : Option UInt32) (mac uplink : Option (List UInt8))
  | vmDel (vmId : Option UInt32)
  | xdpAttach (vmId : Option UInt32) (bpfObj : Option (List UInt8))
  | xdpDetach (vmId : Option UInt32)

def netlink : Machine NetModule (Command × Answers) Event where
  step s
    | (.vmAdd vmId mac uplink, k) => cmdVmAdd k s vmId mac uplink
    | (.vmDel vmId, k) => cmdVmDel k s vmId
    | (.xdpAttach vmId bpfObj, k) => cmdXdpAttach k s vmId bpfObj
    | (.xdpDetach vmId, k) => cmdXdpDetach k s vmId

def obliging : Answers where
  devGetByName _ := some ⟨1⟩
  kzalloc := true
  bpfProgGetTypePath path := .ok ⟨path.length⟩
  devXdpAttach _ _ _ := .ok ()

def addVm (vmId : UInt32) : Command × Answers :=
  (.vmAdd (some vmId) (some [2, 0, 0, 0, 0, 1]) (some [101, 116, 104, 48]), obliging)

/-! ## What a command does -/

def stored (k : Answers) : Command → Option Ctx
  | .vmAdd (some vmId) (some mac) (some uplink) =>
      match k.devGetByName (nlaStrlcpy uplink ifnamsiz) with
      | some dev => if k.kzalloc then some ⟨vmId, nlaMemcpy mac ethAlen, dev, none⟩ else none
      | none => none
  | _ => none

/-- The program goes on the device, natively or generically. -/
def Answers.attaches (k : Answers) (dev : NetDevice) (prog : BpfProg) : Bool :=
  match k.devXdpAttach dev (some prog) .drv with
  | .ok () => true
  | .error .eopnotsupp => (k.devXdpAttach dev (some prog) .skb).isOk
  | .error _ => false

/-- The context whose uplink a command puts a program on. -/
def installed (k : Answers) (s : NetModule) : Command → Option (Ctx × BpfProg)
  | .xdpAttach (some vmId) (some bpfObj) =>
      match s.ctxFind vmId, k.bpfProgGetTypePath (nlaStrlcpy bpfObj pathMax) with
      | some ctx, .ok prog => if k.attaches ctx.uplink prog then some (ctx, prog) else none
      | _, _ => none
  | _ => none

/-- The context whose uplink a command leaves without a program. -/
def uninstalled (k : Answers) (s : NetModule) : Command → Option Ctx
  | .xdpDetach (some vmId) | .vmDel (some vmId) =>
      match s.ctxFind vmId with
      | some ctx =>
          if ctx.xdpProg.isSome && (k.devXdpAttach ctx.uplink none .unspec).isOk then some ctx
          else none
      | none => none
  | _ => none

/-- The programs on the devices after a command that takes one away. -/
def NetModule.bared (s : NetModule) : Option Ctx → NetDevice → Option BpfProg
  | some ctx => Function.update s.attached ctx.uplink none
  | none => s.attached

/-- The context that is found lies between the newer ones, which are of other VMs, and
the older ones. -/
structure Found (s : NetModule) (vmId : UInt32) (front : List Ctx) (ctx : Ctx) (back : List Ctx) :
    Prop where
  table : s.table = front ++ ctx :: back
  own : ctx.vmId = vmId
  newer : ∀ c ∈ front, c.vmId ≠ vmId

/-- Nothing is done, and what has been taken is dropped again. -/
inductive Neutral : List Event → Prop
  | plain (err : Errno) : Neutral [.ret (.error err)]
  | device (dev : NetDevice) (err : Errno) : Neutral [.devGet dev, .devPut dev, .ret (.error err)]
  | program (prog : BpfProg) (err : Errno) :
      Neutral [.progGet prog, .progPut prog, .ret (.error err)]

/-- All that a command can do, with the references it takes and drops. -/
inductive Effect (k : Answers) (s : NetModule) : Command → NetModule → List Event → Prop
  | refused {cmd : Command} {events : List Event} (hstored : stored k cmd = none)
      (hinstalled : installed k s cmd = none) (huninstalled : uninstalled k s cmd = none)
      (hneutral : Neutral events) : Effect k s cmd s events
  | store {cmd : Command} {ctx : Ctx} (hstored : stored k cmd = some ctx)
      (hprog : ctx.xdpProg = none)
      (hinstalled : installed k s cmd = none) (huninstalled : uninstalled k s cmd = none) :
      Effect k s cmd { s with table := ctx :: s.table }
        [.devGet ctx.uplink, .devPut ctx.uplink, .ret (.ok ())]
  | attach {cmd : Command} {vmId : UInt32} {front back : List Ctx} {ctx : Ctx} {prog : BpfProg}
      (hfound : Found s vmId front ctx back) (hinstalled : installed k s cmd = some (ctx, prog))
      (hstored : stored k cmd = none) (huninstalled : uninstalled k s cmd = none) :
      Effect k s cmd
        ⟨front ++ { ctx with xdpProg := some prog } :: back,
          Function.update s.attached ctx.uplink (some prog)⟩
        (.progGet prog :: (ctx.xdpProg.toList.map .progPut ++ [.ret (.ok ())]))
  | detach {vmId : UInt32} {front back : List Ctx} {ctx : Ctx}
      (hfound : Found s vmId front ctx back) :
      Effect k s (.xdpDetach (some vmId))
        ⟨front ++ { ctx with xdpProg := none } :: back,
          s.bared (uninstalled k s (.xdpDetach (some vmId)))⟩
        (ctx.xdpProg.toList.map .progPut ++ [.ret (.ok ())])
  | delete {vmId : UInt32} {front back : List Ctx} {ctx : Ctx}
      (hfound : Found s vmId front ctx back) :
      Effect k s (.vmDel (some vmId))
        ⟨front ++ back, s.bared (uninstalled k s (.vmDel (some vmId)))⟩
        (ctx.xdpProg.toList.map .progPut ++ [.ret (.ok ())])

namespace NetModule

variable {s : NetModule} {vmId : UInt32}

theorem exists_found {ctx : Ctx} (h : s.ctxFind vmId = some ctx) :
    ∃ front back, Found s vmId front ctx back := by
  obtain ⟨hid, front, back, htable, hnewer⟩ := List.find?_eq_some_iff_append.mp h
  refine ⟨front, back, htable, by simpa using hid, ?_⟩
  intro c hc
  simpa using hnewer c hc

end NetModule

namespace Found

variable {s : NetModule} {vmId : UInt32} {front back : List Ctx} {ctx : Ctx}

theorem ctxFind (h : Found s vmId front ctx back) : s.ctxFind vmId = some ctx := by
  apply List.find?_eq_some_iff_append.mpr
  refine ⟨by simpa using h.own, front, back, h.table, ?_⟩
  intro c hc
  simpa using h.newer c hc

theorem setProg (h : Found s vmId front ctx back) (prog : Option BpfProg) :
    (s.setProg ctx.vmId prog).table = front ++ { ctx with xdpProg := prog } :: back := by
  have hskip : ∀ l : List Ctx, (∀ c ∈ l, c.vmId ≠ vmId) →
      (l ++ ctx :: back).replaceF (fun c =>
        if c.vmId = ctx.vmId then some { c with xdpProg := prog } else none) =
          l ++ { ctx with xdpProg := prog } :: back := by
    intro l hl
    induction l with
    | nil => simp
    | cons c l ih =>
        have hc : c.vmId ≠ ctx.vmId := by
          rw [h.own]
          exact hl c List.mem_cons_self
        simp only [List.cons_append, List.replaceF, if_neg hc]
        rw [ih fun d hd => hl d (List.mem_cons_of_mem c hd)]
  simp only [NetModule.setProg, h.table]
  exact hskip front h.newer

theorem eraseP (h : Found s vmId front ctx back) :
    s.table.eraseP (fun c => c.vmId == ctx.vmId) = front ++ back := by
  rw [h.table, h.own, List.eraseP_append_right _ (fun c hc => by simpa using h.newer c hc),
    List.eraseP_cons_of_pos (by simpa using h.own)]

end Found

section

variable (k : Answers) {s : NetModule} {vmId : UInt32} {front back : List Ctx} {ctx : Ctx}

theorem xdpAttach_eq (s : NetModule) (ctx : Ctx) (bpfObj : List UInt8) {prog : BpfProg}
    (hprog : k.bpfProgGetTypePath bpfObj = .ok prog) :
    (k.attaches ctx.uplink prog = true ∧ xdpAttach k s ctx bpfObj =
      (NetModule.setProg { s with attached := Function.update s.attached ctx.uplink (some prog) }
          ctx.vmId (some prog),
        .progGet prog :: (ctx.xdpProg.toList.map .progPut ++ [.ret (.ok ())]))) ∨
    (k.attaches ctx.uplink prog = false ∧ ∃ err, xdpAttach k s ctx bpfObj =
      (s, [.progGet prog, .progPut prog, .ret (.error err)])) := by
  unfold xdpAttach Answers.attaches devXdpAttach
  rw [hprog]
  dsimp only
  cases hdrv : k.devXdpAttach ctx.uplink (some prog) .drv with
  | ok u => exact Or.inl ⟨rfl, rfl⟩
  | error err =>
      cases err with
      | eopnotsupp =>
          cases hskb : k.devXdpAttach ctx.uplink (some prog) .skb with
          | ok u => exact Or.inl ⟨by simp [Except.isOk, Except.toBool], by simp⟩
          | error err =>
              exact Or.inr ⟨by simp [Except.isOk, Except.toBool], err, by simp⟩
      | _ => exact Or.inr ⟨rfl, _, rfl⟩

theorem xdpDetach_eq (h : Found s vmId front ctx back) :
    (xdpDetach k s ctx).1 = ⟨front ++ { ctx with xdpProg := none } :: back,
      s.bared (uninstalled k s (.xdpDetach (some vmId)))⟩ ∧
    (xdpDetach k s ctx).2.1 = { ctx with xdpProg := none } ∧
    (xdpDetach k s ctx).2.2 = ctx.xdpProg.toList.map .progPut := by
  have hcleared := h.setProg none
  simp only [NetModule.setProg] at hcleared
  simp only [xdpDetach, uninstalled, h.ctxFind]
  cases hprog : ctx.xdpProg with
  | none =>
      have hctx : { ctx with xdpProg := none } = ctx := by rw [← hprog]
      rw [hctx, ← h.table]
      simp [NetModule.bared]
  | some prog =>
      simp only [devXdpAttach]
      cases hremoved : k.devXdpAttach ctx.uplink none .unspec with
      | ok u =>
          simp [NetModule.bared, NetModule.setProg, Except.isOk, Except.toBool, hcleared]
      | error err =>
          simp [NetModule.bared, NetModule.setProg, Except.isOk, Except.toBool, hcleared]

end

theorem effect_step (s : NetModule) (a : Command × Answers) :
    Effect a.2 s a.1 (netlink.step s a).1 (netlink.step s a).2 := by
  obtain ⟨cmd, k⟩ := a
  cases cmd with
  | vmAdd vmId mac uplink =>
      cases vmId with
      | none => exact .refused rfl rfl rfl (.plain _)
      | some vmId =>
          cases mac with
          | none => exact .refused rfl rfl rfl (.plain _)
          | some mac =>
              cases uplink with
              | none => exact .refused rfl rfl rfl (.plain _)
              | some uplink =>
                  simp only [netlink, cmdVmAdd, ctxAlloc]
                  cases hdev : k.devGetByName (nlaStrlcpy uplink ifnamsiz) with
                  | none => exact .refused (by simp [stored, hdev]) rfl rfl (.plain _)
                  | some dev =>
                      cases hmem : k.kzalloc with
                      | false =>
                          exact .refused (by simp [stored, hdev, hmem]) rfl rfl (.device dev _)
                      | true =>
                          exact .store (by simp [stored, hdev, hmem]) rfl rfl rfl
  | vmDel vmId =>
      cases vmId with
      | none => exact .refused rfl rfl rfl (.plain _)
      | some vmId =>
          simp only [netlink, cmdVmDel]
          cases hfind : s.ctxFind vmId with
          | none => exact .refused rfl rfl (by simp [uninstalled, hfind]) (.plain _)
          | some ctx =>
              obtain ⟨front, back, hfound⟩ := s.exists_found hfind
              obtain ⟨hstate, hctx, hevents⟩ := xdpDetach_eq k hfound
              have hrest :
                  Found (xdpDetach k s ctx).1 vmId front { ctx with xdpProg := none } back :=
                ⟨congrArg NetModule.table hstate, hfound.own, hfound.newer⟩
              have herase := hrest.eraseP
              rw [hstate] at herase
              dsimp only at herase ⊢
              simp only [hstate, hctx, hevents, ctxFree, herase, List.append_nil]
              exact .delete hfound
  | xdpAttach vmId bpfObj =>
      cases vmId with
      | none => exact .refused rfl rfl rfl (.plain _)
      | some vmId =>
          cases bpfObj with
          | none => exact .refused rfl rfl rfl (.plain _)
          | some bpfObj =>
              simp only [netlink, cmdXdpAttach]
              cases hfind : s.ctxFind vmId with
              | none => exact .refused rfl (by simp [installed, hfind]) rfl (.plain _)
              | some ctx =>
                  obtain ⟨front, back, hfound⟩ := s.exists_found hfind
                  dsimp only
                  cases hprog : k.bpfProgGetTypePath (nlaStrlcpy bpfObj pathMax) with
                  | error err =>
                      have hevents : xdpAttach k s ctx (nlaStrlcpy bpfObj pathMax) =
                          (s, [.ret (.error err)]) := by simp [xdpAttach, hprog]
                      rw [hevents]
                      exact .refused rfl (by simp [installed, hfind, hprog]) rfl (.plain err)
                  | ok prog =>
                      rcases xdpAttach_eq k s ctx _ hprog with ⟨hon, heq⟩ | ⟨hoff, err, heq⟩
                      · have hset := (Found.mk hfound.table hfound.own hfound.newer : Found
                          { s with attached := Function.update s.attached ctx.uplink (some prog) }
                          vmId front ctx back).setProg (some prog)
                        rw [heq]
                        simp only [NetModule.setProg] at hset ⊢
                        rw [hset]
                        exact .attach hfound (by simp [installed, hfind, hprog, hon]) rfl rfl
                      · rw [heq]
                        exact .refused rfl (by simp [installed, hfind, hprog, hoff]) rfl
                          (.program prog err)
  | xdpDetach vmId =>
      cases vmId with
      | none => exact .refused rfl rfl rfl (.plain _)
      | some vmId =>
          simp only [netlink, cmdXdpDetach]
          cases hfind : s.ctxFind vmId with
          | none => exact .refused rfl rfl (by simp [uninstalled, hfind]) (.plain _)
          | some ctx =>
              obtain ⟨front, back, hfound⟩ := s.exists_found hfind
              obtain ⟨hstate, -, hevents⟩ := xdpDetach_eq k hfound
              dsimp only
              rw [hstate, hevents]
              exact .detach hfound

end Caiman.Kernel
