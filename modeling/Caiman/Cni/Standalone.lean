import Caiman.Api.Tap
import Caiman.Cni.Ipam
import Caiman.Lib.Triple

/-!
# ADD of `caiman-cni`

The steps that connect a VM: the bridge, the route to the outside, an address and a
tap. Every command that is run is put on record with how it exited.
-/

namespace Caiman.Cni

open Lib

/-! ## Commands and the host -/

inductive NetMode
  | nat
  | bridge
  | none
  deriving DecidableEq, Repr

/-- `CAIMAN_NET_MODE` -/
def NetMode.fromEnv : Option String → NetMode
  | some "bridge" => .bridge
  | some "none" => .none
  | _ => .nat

def bridgeName : String := "caiman0"

def bridgeIp : String := "10.100.0.1/24"

inductive Command
  | addBridge
  | bridgeUp
  | bridgeAddr
  | sysctlForward
  | checkMasquerade (uplink : String)
  | masquerade (uplink : String)
  | forwardOut (uplink : String)
  | forwardIn (uplink : String)
  | showLink (uplink : String)
  | joinBridge (uplink : String)
  | delTap (name : String)
  | addTap (name : String)
  | tapUp (name : String)
  | tapMaster (name : String)
  deriving DecidableEq, Repr

namespace Command

def args : Command → List String
  | addBridge => ["ip", "link", "add", bridgeName, "type", "bridge"]
  | bridgeUp => ["ip", "link", "set", bridgeName, "up"]
  | bridgeAddr => ["ip", "addr", "add", bridgeIp, "dev", bridgeName]
  | sysctlForward => ["sysctl", "-w", "net.ipv4.ip_forward=1"]
  | checkMasquerade uplink =>
      ["iptables", "-t", "nat", "-C", "POSTROUTING", "-s", "10.100.0.0/24", "-o", uplink, "-j",
        "MASQUERADE"]
  | masquerade uplink =>
      ["iptables", "-t", "nat", "-A", "POSTROUTING", "-s", "10.100.0.0/24", "-o", uplink, "-j",
        "MASQUERADE"]
  | forwardOut uplink => ["iptables", "-A", "FORWARD", "-i", bridgeName, "-o", uplink, "-j", "ACCEPT"]
  | forwardIn uplink =>
      ["iptables", "-A", "FORWARD", "-i", uplink, "-o", bridgeName, "-m", "state", "--state",
        "RELATED,ESTABLISHED", "-j", "ACCEPT"]
  | showLink uplink => ["bridge", "link", "show", "dev", uplink]
  | joinBridge uplink => ["ip", "link", "set", uplink, "master", bridgeName]
  | delTap name => ["ip", "link", "del", name]
  | addTap name => ["ip", "tuntap", "add", "dev", name, "mode", "tap"]
  | tapUp name => ["ip", "link", "set", name, "up"]
  | tapMaster name => ["ip", "link", "set", name, "master", bridgeName]

def text (c : Command) : String := " ".intercalate c.args

/-- The `ip` commands, but for the removal of a tap that need not be there. -/
def Counts : Command → Bool
  | addBridge | bridgeUp | bridgeAddr | joinBridge _ | addTap _ | tapUp _ | tapMaster _ => true
  | sysctlForward | checkMasquerade _ | masquerade _ | forwardOut _ | forwardIn _ | showLink _
  | delTap _ => false

end Command

inductive Exit
  | notRun
  | failed
  | succeeded
  deriving DecidableEq, Repr

/-- What becomes of the file of the allocations when it is written. -/
inductive Save
  | written
  | refused
  /-- opened, which empties it, and not written whole -/
  | cut
  deriving DecidableEq, Repr

/-- The environment of one ADD, and how the host answers. -/
structure Outside where
  netMode : Option String
  /-- `detect_uplink` -/
  uplink : String
  /-- `/proc/sys/net/ipv4/ip_forward` can be written -/
  ipForward : Bool
  /-- `bridge link show` prints the uplink -/
  linkShown : Bool
  exit : Command → Exit
  save : Save

structure Host where
  /-- `/sys/class/net/caiman0` -/
  bridge : Bool
  taps : List String
  allocations : Option Allocations
  ran : List (Command × Exit)

def Host.after (h : Host) : Command → Host
  | .addBridge => { h with bridge := true }
  | .delTap name => { h with taps := h.taps.filter (· ≠ name) }
  | .addTap name => { h with taps := name :: h.taps }
  | _ => h

inductive Stop
  | error (message : String)
  | panic
  deriving DecidableEq, Repr

/-- What runs commands on the host. -/
abbrev Action (α : Type) := EStateM Stop Host α

section Steps

variable (out : Outside)

def exec (c : Command) : Action Exit := do
  let exit := out.exit c
  modify fun h =>
    let h := if exit = .succeeded then h.after c else h
    { h with ran := h.ran ++ [(c, exit)] }
  return exit

/-- `run` of `bridge.rs` -/
def runChecked (c : Command) : Action Unit := do
  match ← exec out c with
  | .succeeded => return ()
  | .failed => throw (.error ("command failed: " ++ c.text))
  | .notRun => throw (.error ("failed to run: " ++ c.text))

/-- `run_ok` -/
def runOk (c : Command) : Action Unit := do
  let _ ← exec out c

/-- `run` of `tap.rs`: the exit status is not looked at. -/
def runTap (c : Command) : Action Unit := do
  match ← exec out c with
  | .notRun => throw (.error ("failed: " ++ c.text))
  | _ => return ()

def ensureBridge : Action Unit := do
  if (← get).bridge then pure ()
  else
    runChecked out .addBridge
    runChecked out .bridgeUp
    runChecked out .bridgeAddr

/-- The rule is added unless the check has found it. -/
def addMasquerade (uplink : String) (check : Exit) : Action Unit :=
  if check = .succeeded then pure () else runChecked out (.masquerade uplink)

def ensureNat (uplink : String) : Action Unit :=
  if out.ipForward then do
    runOk out .sysctlForward
    let check ← exec out (.checkMasquerade uplink)
    addMasquerade out uplink check
    runOk out (.forwardOut uplink)
    runOk out (.forwardIn uplink)
  else throw (.error "cannot enable ip_forward")

def ensureBridgeMode (uplink : String) : Action Unit := do
  ensureBridge out
  let check ← exec out (.showLink uplink)
  if check ≠ .notRun ∧ out.linkShown then pure () else runOk out (.joinBridge uplink)

def ensureMode (mode : NetMode) : Action Unit :=
  match mode with
  | .nat => ensureNat out out.uplink
  | .bridge => ensureBridgeMode out out.uplink
  | .none => pure ()

/-- `save_allocations`: no error is reported. -/
def Host.save (h : Host) (table : Allocations) : Host :=
  match out.save with
  | .written => { h with allocations := some table }
  | .refused => h
  | .cut => { h with allocations := none }

/-- `ipam::allocate` on the file. -/
def allocateIp (vmId : String) : Action AllocatedIp := do
  match allocate (loadAllocations (← get).allocations) vmId with
  | .error e => throw (.error e)
  | .ok (ip, none) => pure ip
  | .ok (ip, some table) =>
      modify fun h => h.save out table
      pure ip

def createTap (name : String) : Action Unit := do
  runOk out (.delTap name)
  runTap out (.addTap name)
  runTap out (.tapUp name)
  runTap out (.tapMaster name)

def connectTap (vmId : String) : Action Unit :=
  match tapName vmId with
  | none => throw .panic
  | some name => createTap out name

def add (vmId : String) : Action String := do
  ensureBridge out
  ensureMode out (NetMode.fromEnv out.netMode)
  let alloc ← allocateIp out vmId
  connectTap out vmId
  return "ip=" ++ alloc.ip ++ "::" ++ alloc.gateway ++ ":255.255.255.0::eth0:none"

end Steps

/-! ## The command -/

structure CniResult where
  cniVersion : String
  interface : String
  address : String
  gateway : String
  nameservers : List String
  deriving DecidableEq, Repr

/-- What ADD prints: the result, and the line on the standard error. -/
structure Printed where
  result : CniResult
  ipConfig : Option String
  deriving DecidableEq, Repr

/-- The result is made of the tap's name and of a second look at the file. -/
def report (h : Host) (vmId ipConfig : String) : Option Printed :=
  (tapName vmId).map fun name =>
    { result :=
        { cniVersion := "1.0.0"
          interface := name
          address := resultAddress h.allocations vmId
          gateway := "10.100.0.1"
          nameservers := ["1.1.1.1", "8.8.8.8"] }
      ipConfig := if ipConfig = "" then none else some ("CAIMAN_IP_CONFIG=" ++ ipConfig) }

def runAdd (out : Outside) (vmId : String) (h : Host) : EStateM.Result Stop Host String :=
  (add out vmId).run { h with ran := [] }

/-- `main` for ADD. A panic ends the process before anything is printed. -/
def mainAdd (out : Outside) (vmId : String) (h : Host) : Option Printed × Host :=
  match runAdd out vmId h with
  | .ok ipConfig h' => (report h' vmId ipConfig, h')
  | .error (.error _) h' => (report h' vmId "", h')
  | .error .panic h' => (none, h')

/-- Every command that counts among those that were run has succeeded. -/
def Host.Good (h : Host) : Prop := ∀ r ∈ h.ran, r.1.Counts → r.2 = .succeeded

/-- All steps of `standalone::add` have succeeded: it returned, each of its `ip` commands
exited with success, and the address is on record. -/
def Completed (out : Outside) (vmId : String) (h : Host) : Prop :=
  ∃ ipConfig h', runAdd out vmId h = .ok ipConfig h' ∧ h'.Good ∧
    vmId ∈ loadAllocations h'.allocations

/-- ADD does everything or nothing, and reports the address on record. -/
structure AllOrNothing (out : Outside) (vmId : String) (h : Host) : Prop where
  nothing : ¬ Completed out vmId h →
    (mainAdd out vmId h).1 = none ∧
      loadAllocations (mainAdd out vmId h).2.allocations = loadAllocations h.allocations ∧
      ∀ name, tapName vmId = some name → name ∉ (mainAdd out vmId h).2.taps
  recorded : ∀ printed, (mainAdd out vmId h).1 = some printed →
    ∃ ip, (loadAllocations (mainAdd out vmId h).2.allocations).lookup vmId = some ip ∧
      printed.result.address = ip ++ "/24"

/-! ## What the steps need -/

section Needs

variable (out : Outside)

def BridgeUp (b : Bool) : Prop :=
  b = true ∨ out.exit .addBridge = .succeeded ∧ out.exit .bridgeUp = .succeeded ∧
    out.exit .bridgeAddr = .succeeded

/-- What `ensure_nat` insists on. -/
def Routed : Prop :=
  NetMode.fromEnv out.netMode = .nat →
    out.ipForward = true ∧
      (out.exit (.checkMasquerade out.uplink) = .succeeded ∨
        out.exit (.masquerade out.uplink) = .succeeded)

def Joined : Prop :=
  NetMode.fromEnv out.netMode = .bridge →
    (out.exit (.showLink out.uplink) ≠ .notRun ∧ out.linkShown = true) ∨
      out.exit (.joinBridge out.uplink) = .succeeded

def Available (allocs : Allocations) (vmId : String) : Prop :=
  vmId ∈ allocs ∨ ∃ ip ∈ pool, ip ∉ used allocs

def TapMade (vmId : String) : Prop :=
  ∃ name, tapName vmId = some name ∧ out.exit (.addTap name) = .succeeded ∧
    out.exit (.tapUp name) = .succeeded ∧ out.exit (.tapMaster name) = .succeeded

end Needs

/-! ## Specifications -/

structure At (a : Option Allocations) (b : Bool) (c : Prop) (h : Host) : Prop where
  allocations : h.allocations = a
  bridge : h.bridge = b
  good : h.Good ↔ c

/-- An error for want of `p`, with the allocations untouched. -/
structure FailsFor (p : Prop) (a : Option Allocations) (e : Stop) (h : Host) : Prop where
  noPanic : e ≠ .panic
  allocations : h.allocations = a
  want : ¬ p

section Specs

variable {out : Outside} {a : Option Allocations} {b : Bool} {c : Prop}
  {E : Stop → Host → Prop}

omit a b c in
theorem after_fields (h : Host) (cmd : Command) :
    (h.after cmd).allocations = h.allocations ∧ (h.after cmd).ran = h.ran ∧
      (h.after cmd).bridge = (h.bridge || cmd = .addBridge) := by
  cases cmd <;> simp [Host.after]

omit out E in
theorem At.congr {c' : Prop} {h : Host} (hat : At a b c h) (hc : c ↔ c') : At a b c' h :=
  ⟨hat.allocations, hat.bridge, hat.good.trans hc⟩

theorem exec_spec (cmd : Command) :
    Triple (At a b c) (exec out cmd)
      (fun e h => At a (b || (cmd = .addBridge ∧ out.exit cmd = .succeeded))
        (c ∧ (cmd.Counts → out.exit cmd = .succeeded)) h ∧ e = out.exit cmd) E := by
  intro h hat
  let h₁ := if out.exit cmd = .succeeded then h.after cmd else h
  have hrun : (exec out cmd).run h =
      .ok (out.exit cmd) { h₁ with ran := h₁.ran ++ [(cmd, out.exit cmd)] } := rfl
  have hfields : h₁.allocations = h.allocations ∧ h₁.ran = h.ran ∧
      h₁.bridge = (h.bridge || (cmd = .addBridge ∧ out.exit cmd = .succeeded)) := by
    obtain ⟨hallocations, hran, hbridge⟩ := after_fields h cmd
    by_cases hexit : out.exit cmd = .succeeded
    · simp only [h₁, if_pos hexit, hallocations, hran, hbridge, hexit, and_true]
    · simp [h₁, hexit]
  obtain ⟨hallocations, hran, hbridge⟩ := hfields
  rw [hrun]
  refine ⟨⟨hallocations.trans hat.allocations, ?_, ?_⟩, rfl⟩
  · rw [← hat.bridge]
    exact hbridge
  · rw [← hat.good, Host.Good, Host.Good, hran]
    simp [or_imp, forall_and]

theorem exec_keepsBridge (cmd : Command) (hcmd : decide (cmd = .addBridge) = false) :
    Triple (At a b c) (exec out cmd)
      (fun e h => At a b (c ∧ (cmd.Counts → out.exit cmd = .succeeded)) h ∧
        e = out.exit cmd) E := by
  apply (exec_spec cmd).imp_ok
  intro e h hpost
  simpa [of_decide_eq_false hcmd] using hpost

theorem exec_quiet {cmd : Command} (hcounts : cmd.Counts = false) :
    Triple (At a b c) (exec out cmd) (fun e h => At a b c h ∧ e = out.exit cmd) E := by
  have hcmd : decide (cmd = .addBridge) = false := by
    apply decide_eq_false
    intro heq
    rw [heq] at hcounts
    cases hcounts
  apply (exec_keepsBridge cmd hcmd).imp_ok
  intro e h hpost
  exact ⟨hpost.1.congr (by simp [hcounts]), hpost.2⟩

theorem runOk_quiet {cmd : Command} (hcounts : cmd.Counts = false) :
    Triple (At a b c) (runOk out cmd) (fun _ => At a b c) E :=
  Triple.step (exec_quiet hcounts) fun _ _ => Triple.pure fun _ h => h

omit out E in
theorem throw_failsFor {α : Type} {p : Prop} {Q : α → Host → Prop} (hp : ¬ p)
    (message : String) :
    Triple (At a b c) (throw (.error message) : Action α) Q (FailsFor p a) := by
  apply Triple.throw
  intro h hat
  refine ⟨?_, hat.allocations, hp⟩
  intro hpanic
  cases hpanic

theorem runChecked_spec (cmd : Command) :
    Triple (At a b c) (runChecked out cmd)
      (fun _ h => At a (b || decide (cmd = .addBridge)) c h ∧ out.exit cmd = .succeeded)
      (FailsFor (out.exit cmd = .succeeded) a) := by
  apply Triple.step (exec_spec cmd)
  intro e he
  subst he
  cases hexit : out.exit cmd with
  | succeeded =>
      apply Triple.pure
      intro h hat
      simp only [and_true, implies_true] at hat
      exact ⟨hat, rfl⟩
  | failed => exact throw_failsFor (fun hok => nomatch hok) _
  | notRun => exact throw_failsFor (fun hok => nomatch hok) _

theorem runTap_spec (cmd : Command) (hcmd : decide (cmd = .addBridge) = false)
    (hcounts : cmd.Counts) :
    Triple (At a b c) (runTap out cmd) (fun _ => At a b (c ∧ out.exit cmd = .succeeded))
      (FailsFor (out.exit cmd = .succeeded) a) := by
  apply Triple.step (exec_keepsBridge cmd hcmd)
  intro e he
  subst he
  simp only [hcounts, forall_const]
  cases out.exit cmd with
  | succeeded => exact Triple.pure fun _ h => h
  | failed => exact Triple.pure fun _ h => h
  | notRun => exact throw_failsFor (fun hok => nomatch hok) _

omit out b c E in
theorem FailsFor.mono {p q : Prop} {e : Stop} {h : Host} (hfail : FailsFor p a e h)
    (hpq : q → p) : FailsFor q a e h :=
  ⟨hfail.noPanic, hfail.allocations, fun hq => hfail.want (hpq hq)⟩

theorem ensureBridge_spec :
    Triple (At a b c) (ensureBridge out) (fun _ h => At a true c h ∧ BridgeUp out b)
      (FailsFor (BridgeUp out b) a) := by
  have hget : Triple (At a b c) (get : Action Host) (fun s h => At a b c h ∧ s.bridge = b)
      (FailsFor (BridgeUp out b) a) := fun h hat => ⟨hat, hat.bridge⟩
  apply Triple.step hget
  intro s hs
  rw [hs]
  cases b with
  | true => exact Triple.pure fun h hat => ⟨hat, .inl rfl⟩
  | false =>
      have hup : BridgeUp out false → out.exit .addBridge = .succeeded ∧
          out.exit .bridgeUp = .succeeded ∧ out.exit .bridgeAddr = .succeeded := by
        intro h
        rcases h with h | h
        · cases h
        · exact h
      apply Triple.step ((runChecked_spec .addBridge).imp_error
        fun _ _ h => h.mono fun hb => (hup hb).1)
      intro _ hadd
      apply Triple.step ((runChecked_spec .bridgeUp).imp_error
        fun _ _ h => h.mono fun hb => (hup hb).2.1)
      intro _ hset
      apply ((runChecked_spec .bridgeAddr).imp_error fun _ _ h =>
        h.mono fun hb => (hup hb).2.2).imp_ok
      intro _ h hat
      exact ⟨hat.1, .inr ⟨hadd, hset, hat.2⟩⟩

theorem ensureNat_spec (hnat : NetMode.fromEnv out.netMode = .nat) :
    Triple (At a b c) (ensureNat out out.uplink) (fun _ h => At a b c h ∧ Routed out)
      (FailsFor (Routed out) a) := by
  apply Triple.ite
  · intro hforward
    apply Triple.bind (runOk_quiet rfl)
    intro _
    apply Triple.step (exec_quiet rfl)
    intro check hcheck
    apply Triple.step (R := At a b c) (p := fun _ => Routed out)
    · apply Triple.ite
      · intro hfound
        exact Triple.pure fun h hat => ⟨hat, fun _ => ⟨hforward, .inl (hcheck ▸ hfound)⟩⟩
      · intro hmissing
        apply (runChecked_spec _).conseq (fun _ h => h)
        · intro _ h hpost
          exact ⟨by simpa using hpost.1, fun _ => ⟨hforward, .inr hpost.2⟩⟩
        · intro e h hfail
          apply hfail.mono
          intro hrouted
          exact (hrouted hnat).2.resolve_left (hcheck ▸ hmissing)
    · intro _ hrouted
      apply Triple.bind (runOk_quiet rfl)
      intro _
      exact (runOk_quiet rfl).imp_ok fun _ _ h => ⟨h, hrouted⟩
  · intro hforward
    exact throw_failsFor (fun hrouted => hforward (hrouted hnat).1) _

theorem ensureBridgeMode_spec (hbridge : NetMode.fromEnv out.netMode = .bridge) :
    Triple (At a true c) (ensureBridgeMode out out.uplink) (fun _ => At a true (c ∧ Joined out))
      (FailsFor (Routed out) a) := by
  apply Triple.step (ensureBridge_spec.imp_error fun _ _ h => h.mono fun _ => .inl rfl)
  intro _ _
  apply Triple.step (exec_quiet rfl)
  intro check hcheck
  subst hcheck
  apply Triple.ite
  · intro hshown
    apply Triple.pure
    intro h hat
    exact hat.congr ⟨fun hc => ⟨hc, fun _ => .inl hshown⟩, fun hc => hc.1⟩
  · intro hmissing
    apply Triple.step (exec_keepsBridge (.joinBridge out.uplink) rfl)
    intro _ _
    apply Triple.pure
    intro h hat
    apply hat.congr
    apply and_congr_right
    intro _
    constructor
    · exact fun hjoin _ => .inr (hjoin rfl)
    · exact fun hjoined _ => (hjoined hbridge).resolve_left hmissing

theorem ensureMode_spec :
    Triple (At a true c) (ensureMode out (NetMode.fromEnv out.netMode))
      (fun _ h => At a true (c ∧ Joined out) h ∧ Routed out) (FailsFor (Routed out) a) := by
  have hjoined : NetMode.fromEnv out.netMode ≠ .bridge → (c ↔ c ∧ Joined out) :=
    fun hmode => ⟨fun hc => ⟨hc, fun h => absurd h hmode⟩, fun hc => hc.1⟩
  cases hmode : NetMode.fromEnv out.netMode with
  | nat =>
      apply (ensureNat_spec hmode).imp_ok
      intro _ h hpost
      exact ⟨hpost.1.congr (hjoined (by rw [hmode]; decide)), hpost.2⟩
  | bridge =>
      apply (ensureBridgeMode_spec hmode).imp_ok
      intro _ h hpost
      exact ⟨hpost, fun hnat => (by rw [hmode] at hnat; cases hnat)⟩
  | none =>
      apply Triple.pure
      intro h hat
      exact ⟨hat.congr (hjoined (by rw [hmode]; decide)),
        fun hnat => (by rw [hmode] at hnat; cases hnat)⟩

def allocationsAfter (out : Outside) (vmId : String) (a : Option Allocations) :
    Option Allocations :=
  match allocate (loadAllocations a) vmId with
  | .ok (_, some table) =>
      match out.save with
      | .written => some table
      | .refused => a
      | .cut => none
  | _ => a

theorem allocateIp_spec (vmId : String) :
    Triple (At a b c) (allocateIp out vmId)
      (fun _ h => At (allocationsAfter out vmId a) b c h ∧ Available (loadAllocations a) vmId)
      (FailsFor (Available (loadAllocations a) vmId) a) := by
  have havailable : (allocate (loadAllocations a) vmId).isOk = true ↔
      Available (loadAllocations a) vmId := by
    rw [← Bool.not_eq_false, allocate_isOk_iff.not, Available]
    simp only [not_and_or, not_not, not_forall, exists_prop]
  have hget : Triple (At a b c) (get : Action Host) (fun s h => At a b c h ∧ s.allocations = a)
      (FailsFor (Available (loadAllocations a) vmId) a) := fun h hat => ⟨hat, hat.allocations⟩
  apply Triple.step hget
  intro s hs
  rw [hs]
  cases hallocate : allocate (loadAllocations a) vmId with
  | error e =>
      rw [hallocate] at havailable
      exact throw_failsFor (fun hav => nomatch havailable.mpr hav) _
  | ok reply =>
      rw [hallocate] at havailable
      have hav := havailable.mp rfl
      obtain ⟨ip, saved⟩ := reply
      cases saved with
      | none =>
          apply Triple.pure
          intro h hat
          rw [allocationsAfter, hallocate]
          exact ⟨hat, hav⟩
      | some table =>
          apply Triple.bind (Q := fun _ => At (allocationsAfter out vmId a) b c)
          · intro h hat
            have hsave : (h.save out table).allocations = allocationsAfter out vmId a ∧
                (h.save out table).bridge = h.bridge ∧ (h.save out table).ran = h.ran := by
              rw [allocationsAfter, hallocate, Host.save]
              cases out.save with
              | written => exact ⟨rfl, rfl, rfl⟩
              | refused => exact ⟨hat.allocations, rfl, rfl⟩
              | cut => exact ⟨rfl, rfl, rfl⟩
            obtain ⟨hallocations, hbridge, hran⟩ := hsave
            refine ⟨hallocations, hbridge.trans hat.bridge, ?_⟩
            rw [← hat.good, Host.Good, Host.Good, hran]
          · intro _
            exact Triple.pure fun h hat => ⟨hat, hav⟩

theorem connectTap_spec (vmId : String) :
    Triple (At a b c) (connectTap out vmId)
      (fun _ h => At a b (c ∧ TapMade out vmId) h ∧ tapName vmId ≠ none)
      (fun e h => (e = .panic ↔ tapName vmId = none) ∧ h.allocations = a ∧
        ¬ TapMade out vmId) := by
  cases hname : tapName vmId with
  | none =>
      rw [connectTap, hname]
      apply Triple.throw
      intro h hat
      refine ⟨⟨fun _ => rfl, fun _ => rfl⟩, hat.allocations, ?_⟩
      intro hmade
      obtain ⟨name, hsome, -⟩ := hmade
      rw [hname] at hsome
      cases hsome
  | some name =>
      have hmade : TapMade out vmId ↔ out.exit (.addTap name) = .succeeded ∧
          out.exit (.tapUp name) = .succeeded ∧ out.exit (.tapMaster name) = .succeeded := by
        simp only [TapMade, hname, Option.some.injEq, exists_eq_left']
      have hfails : ∀ {cmd : Command}, (TapMade out vmId → out.exit cmd = .succeeded) →
          ∀ e h, FailsFor (out.exit cmd = .succeeded) a e h →
            (e = .panic ↔ some name = none) ∧ h.allocations = a ∧ ¬ TapMade out vmId := by
        intro cmd hcmd e h hfail
        refine ⟨⟨fun hpanic => absurd hpanic hfail.noPanic, fun hnone => nomatch hnone⟩,
          hfail.allocations, ?_⟩
        exact fun hm => hfail.want (hcmd hm)
      rw [connectTap, hname]
      apply Triple.bind (runOk_quiet rfl)
      intro _
      apply Triple.bind ((runTap_spec (.addTap name) rfl rfl).imp_error
        (hfails fun hm => (hmade.mp hm).1))
      intro _
      apply Triple.bind ((runTap_spec (.tapUp name) rfl rfl).imp_error
        (hfails fun hm => (hmade.mp hm).2.1))
      intro _
      apply ((runTap_spec (.tapMaster name) rfl rfl).imp_error
        (hfails fun hm => (hmade.mp hm).2.2)).imp_ok
      intro _ h hat
      refine ⟨hat.congr ?_, fun hnone => nomatch hnone⟩
      rw [hmade, and_assoc, and_assoc]

def Reached (out : Outside) (vmId : String) (a : Option Allocations) (b : Bool) : Prop :=
  BridgeUp out b ∧ Routed out ∧ Available (loadAllocations a) vmId

theorem add_spec (vmId : String) :
    Triple (At a b c) (add out vmId)
      (fun _ h => At (allocationsAfter out vmId a) true ((c ∧ Joined out) ∧ TapMade out vmId) h ∧
        Reached out vmId a b ∧ tapName vmId ≠ none)
      (fun e h => FailsFor (Reached out vmId a b) a e h ∨
        Reached out vmId a b ∧ (e = .panic ↔ tapName vmId = none) ∧
          h.allocations = allocationsAfter out vmId a ∧ ¬ TapMade out vmId) := by
  apply Triple.step (ensureBridge_spec.imp_error fun _ _ h =>
    .inl (h.mono fun hreached => hreached.1))
  intro _ hbridge
  apply Triple.step (ensureMode_spec.imp_error fun _ _ h =>
    .inl (h.mono fun hreached => hreached.2.1))
  intro _ hrouted
  apply Triple.step ((allocateIp_spec vmId).imp_error fun _ _ h =>
    .inl (h.mono fun hreached => hreached.2.2))
  intro alloc havailable
  have hreached : Reached out vmId a b := ⟨hbridge, hrouted, havailable⟩
  apply Triple.step ((connectTap_spec vmId).imp_error fun _ _ h =>
    .inr ⟨hreached, h⟩)
  intro _ hname
  exact Triple.pure fun h hat => ⟨hat, hreached, hname⟩

end Specs

/-! ## When ADD is all or nothing -/

section Main

variable {out : Outside} {vmId : String} {h : Host}

theorem loadAllocations_some (table : Allocations) : loadAllocations (some table) = table := rfl

theorem loadAllocations_none : loadAllocations none = ∅ := rfl

/-- There is a new address to put on record. -/
def Recordable (allocs : Allocations) (vmId : String) : Prop :=
  vmId ∉ allocs ∧ ∃ ip ∈ pool, ip ∉ used allocs

theorem allocationsAfter_of_recordable (out : Outside) {a : Option Allocations}
    (h : Recordable (loadAllocations a) vmId) :
    ∃ ip, allocationsAfter out vmId a =
      match out.save with
      | .written => some ((loadAllocations a).insert vmId ip)
      | .refused => a
      | .cut => none := by
  obtain ⟨hmem, ip, hip, hfree⟩ := h
  rw [allocationsAfter, allocate, AList.lookup_eq_none.mpr hmem]
  cases hfind : pool.find? fun ip => decide (ip ∉ used (loadAllocations a)) with
  | none => exact absurd (decide_eq_true hfree) (List.find?_eq_none.mp hfind ip hip)
  | some next => exact ⟨ipv4Text next, rfl⟩

theorem allocationsAfter_of_not_recordable {a : Option Allocations}
    (h : ¬ Recordable (loadAllocations a) vmId) : allocationsAfter out vmId a = a := by
  rw [allocationsAfter, allocate]
  cases hlookup : (loadAllocations a).lookup vmId with
  | some ip => rfl
  | none =>
      cases hfind : pool.find? fun ip => decide (ip ∉ used (loadAllocations a)) with
      | none => rfl
      | some next =>
          have hfree := List.find?_some hfind
          exact absurd ⟨AList.lookup_eq_none.mp hlookup, next, List.mem_of_find?_eq_some hfind,
            of_decide_eq_true hfree⟩ h

theorem mem_allocationsAfter {a : Option Allocations} :
    vmId ∈ loadAllocations (allocationsAfter out vmId a) ↔
      vmId ∈ loadAllocations a ∨ Recordable (loadAllocations a) vmId ∧ out.save = .written := by
  by_cases hrec : Recordable (loadAllocations a) vmId
  · obtain ⟨ip, hafter⟩ := allocationsAfter_of_recordable out hrec
    have hmem := hrec.1
    rw [hafter]
    cases out.save with
    | written => simp [loadAllocations_some, hrec]
    | refused => simp [hmem]
    | cut => simp [loadAllocations_none, hmem]
  · rw [allocationsAfter_of_not_recordable hrec]
    simp [hrec]

def Overwrites (out : Outside) (allocs : Allocations) : Prop :=
  out.save = .written ∨ out.save = .cut ∧ allocs ≠ ∅

theorem allocationsAfter_same {a : Option Allocations} :
    loadAllocations (allocationsAfter out vmId a) = loadAllocations a ↔
      ¬ (Recordable (loadAllocations a) vmId ∧ Overwrites out (loadAllocations a)) := by
  by_cases hrec : Recordable (loadAllocations a) vmId
  · obtain ⟨ip, hafter⟩ := allocationsAfter_of_recordable out hrec
    have hinsert : (loadAllocations a).insert vmId ip ≠ loadAllocations a := by
      intro heq
      apply hrec.1
      rw [← heq, AList.mem_insert]
      exact .inl rfl
    rw [hafter, Overwrites]
    cases out.save with
    | written => simp [loadAllocations_some, hrec, hinsert]
    | refused => simp
    | cut => simp [loadAllocations_none, hrec, eq_comm]
  · rw [allocationsAfter_of_not_recordable hrec]
    simp [hrec]

structure StepsSucceed (out : Outside) (vmId : String) (h : Host) : Prop where
  bridgeUp : BridgeUp out h.bridge
  routed : Routed out
  joined : Joined out
  recorded : vmId ∈ loadAllocations h.allocations ∨
    Recordable (loadAllocations h.allocations) vmId ∧ out.save = .written
  tapMade : TapMade out vmId

theorem runAdd_cases (out : Outside) (vmId : String) (h : Host) :
    (∃ ipConfig h', runAdd out vmId h = .ok ipConfig h' ∧
        h'.allocations = allocationsAfter out vmId h.allocations ∧
        (h'.Good ↔ Joined out ∧ TapMade out vmId) ∧
        Reached out vmId h.allocations h.bridge ∧ tapName vmId ≠ none) ∨
      ∃ e h', runAdd out vmId h = .error e h' ∧
        (FailsFor (Reached out vmId h.allocations h.bridge) h.allocations e h' ∨
          Reached out vmId h.allocations h.bridge ∧ (e = .panic ↔ tapName vmId = none) ∧
            h'.allocations = allocationsAfter out vmId h.allocations ∧ ¬ TapMade out vmId) := by
  have hstart : At h.allocations h.bridge True { h with ran := [] } := by
    refine ⟨rfl, rfl, ?_⟩
    simp [Host.Good]
  cases hrun : runAdd out vmId h with
  | ok ipConfig h' =>
      obtain ⟨hat, hreached, hname⟩ := (add_spec vmId).ok hstart hrun
      refine .inl ⟨ipConfig, h', rfl, hat.allocations, ?_, hreached, hname⟩
      rw [hat.good, true_and]
  | error e h' => exact .inr ⟨e, h', rfl, (add_spec vmId).error hstart hrun⟩

theorem StepsSucceed.reached (hs : StepsSucceed out vmId h) :
    Reached out vmId h.allocations h.bridge :=
  ⟨hs.bridgeUp, hs.routed, hs.recorded.imp_right fun hnew => hnew.1.2⟩

theorem completed_iff : Completed out vmId h ↔ StepsSucceed out vmId h := by
  constructor
  · intro hcompleted
    obtain ⟨ipConfig, h', hrun, hgood, hmem⟩ := hcompleted
    rcases runAdd_cases out vmId h with
      ⟨_, h₁, hrun₁, hafter, hgood₁, hreached, -⟩ | ⟨_, _, hrun₁, -⟩
    · cases hrun.symm.trans hrun₁
      obtain ⟨hjoined, hmade⟩ := hgood₁.mp hgood
      rw [hafter, mem_allocationsAfter] at hmem
      exact ⟨hreached.1, hreached.2.1, hjoined, hmem, hmade⟩
    · cases hrun.symm.trans hrun₁
  · intro hs
    rcases runAdd_cases out vmId h with
      ⟨ipConfig, h', hrun, hafter, hgood, -⟩ | ⟨_, _, _, hfail | ⟨-, -, -, hnot⟩⟩
    · refine ⟨ipConfig, h', hrun, hgood.mpr ⟨hs.joined, hs.tapMade⟩, ?_⟩
      rw [hafter, mem_allocationsAfter]
      exact hs.recorded
    · exact absurd hs.reached hfail.want
    · exact absurd hs.tapMade hnot

theorem mainAdd_prints (out : Outside) (h : Host) {name : String}
    (hname : tapName vmId = some name) :
    ∃ printed, (mainAdd out vmId h).1 = some printed ∧
      printed.result.address = resultAddress (mainAdd out vmId h).2.allocations vmId := by
  have hreport : ∀ h' ipConfig, ∃ printed, report h' vmId ipConfig = some printed ∧
      printed.result.address = resultAddress h'.allocations vmId := by
    intro h' ipConfig
    rw [report, hname]
    exact ⟨_, rfl, rfl⟩
  rw [mainAdd]
  rcases runAdd_cases out vmId h with ⟨ipConfig, h', hrun, -⟩ | ⟨e, h', hrun, hfail⟩
  · rw [hrun]
    exact hreport h' ipConfig
  · have hpanic : e ≠ .panic := by
      rcases hfail with hfail | ⟨-, hpanic, -⟩
      · exact hfail.noPanic
      · rw [hname] at hpanic
        exact fun he => nomatch hpanic.mp he
    rw [hrun]
    cases e with
    | error message => exact hreport h' ""
    | panic => exact absurd rfl hpanic

theorem mainAdd_of_tapName_none (out : Outside) (h : Host) (hname : tapName vmId = none) :
    (mainAdd out vmId h).1 = none ∧
      (loadAllocations (mainAdd out vmId h).2.allocations = loadAllocations h.allocations ↔
        ¬ (BridgeUp out h.bridge ∧ Routed out ∧
          Recordable (loadAllocations h.allocations) vmId ∧
          Overwrites out (loadAllocations h.allocations))) := by
  have hreport : ∀ h' ipConfig, report h' vmId ipConfig = none := by
    intro h' ipConfig
    rw [report, hname]
    rfl
  rcases runAdd_cases out vmId h with ⟨_, _, _, _, _, _, hsome⟩ | ⟨e, h', hrun, hfail⟩
  · exact absurd hname hsome
  · have hmain : (mainAdd out vmId h).1 = none ∧ (mainAdd out vmId h).2 = h' := by
      rw [mainAdd, hrun]
      cases e with
      | error message => exact ⟨hreport h' "", rfl⟩
      | panic => exact ⟨rfl, rfl⟩
    rw [hmain.2]
    refine ⟨hmain.1, ?_⟩
    rcases hfail with hfail | ⟨hreached, -, hafter, -⟩
    · rw [hfail.allocations]
      refine ⟨fun _ hchanged => hfail.want ?_, fun _ => rfl⟩
      exact ⟨hchanged.1, hchanged.2.1, .inr hchanged.2.2.1.2⟩
    · rw [hafter, allocationsAfter_same]
      simp [hreached.1, hreached.2.1]

theorem StepsSucceed.named (hs : StepsSucceed out vmId h) : tapName vmId ≠ none := by
  obtain ⟨name, hname, -⟩ := hs.tapMade
  rw [hname]
  intro hnone
  cases hnone

theorem allOrNothing_of_tapName_none (hname : tapName vmId = none) :
    AllOrNothing out vmId h ↔
      ¬ (BridgeUp out h.bridge ∧ Routed out ∧
        Recordable (loadAllocations h.allocations) vmId ∧
        Overwrites out (loadAllocations h.allocations)) := by
  obtain ⟨hprinted, hsame⟩ := mainAdd_of_tapName_none out h hname
  rw [← hsame]
  constructor
  · intro hall
    have hnot : ¬ Completed out vmId h := fun hc => (completed_iff.mp hc).named hname
    exact (hall.nothing hnot).2.1
  · intro hunchanged
    constructor
    · intro _
      refine ⟨hprinted, hunchanged, ?_⟩
      intro name hsome
      rw [hname] at hsome
      cases hsome
    · intro printed hsome
      rw [hprinted] at hsome
      cases hsome

theorem allOrNothing_of_tapName_some {name : String} (hname : tapName vmId = some name) :
    AllOrNothing out vmId h ↔ StepsSucceed out vmId h := by
  obtain ⟨printed, hprinted, haddress⟩ := mainAdd_prints out h hname
  rw [← completed_iff]
  constructor
  · intro hall
    by_contra hnot
    have hundone := hall.nothing hnot
    rw [hprinted] at hundone
    cases hundone.1
  · intro hcompleted
    refine ⟨fun hnot => absurd hcompleted hnot, ?_⟩
    intro printed' hprinted'
    cases hprinted.symm.trans hprinted'
    obtain ⟨ipConfig, h', hrun, -, hmem⟩ := hcompleted
    have hstate : (mainAdd out vmId h).2 = h' := by rw [mainAdd, hrun]
    obtain ⟨ip, hip⟩ := Option.isSome_iff_exists.mp (AList.lookup_isSome.mpr hmem)
    rw [hstate] at haddress ⊢
    refine ⟨ip, hip, ?_⟩
    rw [haddress, resultAddress, hip, Option.getD_some]

/-- ADD is all or nothing when nothing goes wrong, and when the VM id is cut inside a
character before a new address is on record: that panic is the only failure reported. -/
theorem add_allOrNothing_iff (out : Outside) (vmId : String) (h : Host) :
    AllOrNothing out vmId h ↔
      StepsSucceed out vmId h ∨
        tapName vmId = none ∧
          ¬ (BridgeUp out h.bridge ∧ Routed out ∧
            Recordable (loadAllocations h.allocations) vmId ∧
            Overwrites out (loadAllocations h.allocations)) := by
  cases hname : tapName vmId with
  | none =>
      have hnot : ¬ StepsSucceed out vmId h := fun hs => hs.named hname
      rw [allOrNothing_of_tapName_none hname, or_iff_right hnot]
      exact (and_iff_right rfl).symm
  | some name =>
      rw [allOrNothing_of_tapName_some hname, or_iff_left]
      intro hnone
      cases hnone.1

def noTuntap : Outside where
  netMode := none
  uplink := "eth0"
  ipForward := true
  linkShown := false
  exit
    | .checkMasquerade _ => .failed
    | .delTap _ => .failed
    | .addTap _ => .failed
    | .tapUp _ => .failed
    | .tapMaster _ => .failed
    | _ => .succeeded
  save := .written

def freshHost : Host := ⟨false, [], none, []⟩

/-- ADD reports an address for a VM that has no tap, and keeps it. -/
theorem noTuntap_reports :
    ((mainAdd noTuntap "vm-1" freshHost).1.map fun p => p.result.address) =
        some "10.100.0.2/24" ∧
      (mainAdd noTuntap "vm-1" freshHost).2.taps = [] ∧
      ¬ AllOrNothing noTuntap "vm-1" freshHost := by
  refine ⟨by decide +kernel, by decide +kernel, ?_⟩
  intro hall
  have hnot : ¬ Completed noTuntap "vm-1" freshHost := by
    rw [completed_iff]
    intro hs
    obtain ⟨name, -, hadd, -⟩ := hs.tapMade
    cases hadd
  obtain ⟨printed, hprinted, -⟩ :=
    mainAdd_prints noTuntap freshHost (by decide : tapName "vm-1" = some "caimvm-1")
  rw [(hall.nothing hnot).1] at hprinted
  cases hprinted

end Main

end Caiman.Cni
