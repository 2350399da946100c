import Caiman.Lib.Triple
import Caiman.Lib.Utf8
import Mathlib.Algebra.Group.Nat.Defs

/-!
# Fetching a disk over SSH

`acquire_disk` runs `cat` on the hypervisor and writes what comes out of it to a staging file.
What the SSH library and the local files answer is left open, call by call; the messages of the
channel come in any order until it closes.
-/

namespace Caiman.Bridge

open Lib

inductive SshAuth
  | key (path : String) (passphrase : Option String)
  | password (pw : String)
  deriving DecidableEq, Repr

structure SshTarget where
  host : String
  port : UInt16
  user : String
  auth : SshAuth
  expectedHostFingerprint : Option String
  deriving DecidableEq, Repr

/-- The errors of the library and of the local files by their text. -/
inductive AcquireError
  | io (text : String)
  | ssh (text : String)
  | key (text : String)
  | authFailed
  | remoteCommandFailed (code : UInt32) (stderr : String)
  deriving DecidableEq, Repr

inductive ChannelMsg
  | data (data : List UInt8)
  | extendedData (data : List UInt8) (ext : UInt32)
  | exitStatus (exitStatus : UInt32)
  | other
  deriving DecidableEq, Repr

/-- What each call outside of the function comes back with, and what `channel.wait` gives one by
one until it gives `None`. A write is told what the file holds already. -/
structure Calls where
  connect : Except String Unit
  loadSecretKey : Except String Unit
  bestSupportedRsaHash : Except String Unit
  authenticate : Except String Bool
  channelOpenSession : Except String Unit
  exec : Except String Unit
  createDirAll : Except String Unit
  create : Except String Unit
  messages : List ChannelMsg
  writeAll : List UInt8 → List UInt8 → Except String Unit
  flush : Except String Unit

/-- The commands the remote host has been sent and the local staging file. -/
structure Acquisition where
  commands : List String
  staging : Option (List UInt8)
  deriving DecidableEq, Repr

def stderrCaptureCap : Nat := 8 * 1024

def shellSingleQuote (s : String) : String :=
  (s.toList.foldl (fun out ch => if ch = '\'' then out ++ "'\\''" else out.push ch) "'").push '\''

/-- `format!("cat {}", shell_single_quote(remote_path))` -/
def catCommand (remotePath : String) : String := "cat " ++ shellSingleQuote remotePath

def hasParent (path : String) : Bool := path.toList.any (· ≠ '/')

abbrev Acquire := EStateM AcquireError Acquisition

/-- `call?`, the error converted. -/
def attempt {α : Type} (err : String → AcquireError) : Except String α → Acquire α
  | .ok a => pure a
  | .error text => throw (err text)

def authenticate (calls : Calls) (auth : SshAuth) : Acquire Unit := do
  match auth with
  | .key _ _ => do
      attempt .key calls.loadSecretKey
      attempt .ssh calls.bestSupportedRsaHash
  | .password _ => pure ()
  let success ← attempt .ssh calls.authenticate
  if success then pure () else throw .authFailed

def startCommand (calls : Calls) (target : SshTarget) (remotePath : String) : Acquire Unit := do
  attempt .ssh calls.connect
  authenticate calls target.auth
  attempt .ssh calls.channelOpenSession
  attempt .ssh calls.exec
  modify fun s => { s with commands := s.commands ++ [catCommand remotePath] }

def createStaging (calls : Calls) (localStaging : String) : Acquire Unit := do
  if hasParent localStaging then attempt .io calls.createDirAll else pure ()
  attempt .io calls.create
  modify fun s => { s with staging := some [] }

/-- `out.write_all(data)`. No file grows to 2^63 bytes. -/
def writeStaging (calls : Calls) (data : List UInt8) : Acquire Unit := do
  let out := (← get).staging.getD []
  attempt .io (calls.writeAll out data)
  if 2 ^ 63 ≤ out.length + data.length then throw (.io "File too large (os error 27)")
  else modify fun s => { s with staging := some (out ++ data) }

structure Received where
  written : UInt64
  stderrBuf : List UInt8
  exitCode : Option UInt32
  deriving DecidableEq, Repr

def onMessage (calls : Calls) (r : Received) : ChannelMsg → Acquire Received
  | .data data => do
      writeStaging calls data
      pure { r with written := r.written + UInt64.ofNat data.length }
  | .extendedData data ext =>
      if ext = 1 ∧ r.stderrBuf.length < stderrCaptureCap then
        let room := stderrCaptureCap - r.stderrBuf.length
        let take := min room data.length
        pure { r with stderrBuf := r.stderrBuf ++ data.take take }
      else pure r
  | .exitStatus exitStatus => pure { r with exitCode := some exitStatus }
  | .other => pure r

/-- The `match` on the exit code at the end. -/
def verdict (r : Received) : Acquire UInt64 :=
  match r.exitCode with
  | some code =>
      if code = 0 then pure r.written
      else throw (.remoteCommandFailed code (fromUtf8Lossy r.stderrBuf))
  | none => throw (.remoteCommandFailed 0xFFFFFFFF (fromUtf8Lossy r.stderrBuf))

def acquireDisk (calls : Calls) (target : SshTarget) (remotePath localStaging : String) :
    Acquire UInt64 := do
  startCommand calls target remotePath
  createStaging calls localStaging
  let r ← calls.messages.foldlM (onMessage calls) ⟨0, [], none⟩
  attempt .io calls.flush
  verdict r

/-! ## What the channel carries -/

def ChannelMsg.payload : ChannelMsg → List UInt8
  | .data bytes => bytes
  | _ => []

def ChannelMsg.stderr : ChannelMsg → List UInt8
  | .extendedData bytes ext => if ext = 1 then bytes else []
  | _ => []

def ChannelMsg.status : ChannelMsg → Option UInt32
  | .exitStatus code => some code
  | _ => none

def payloads (msgs : List ChannelMsg) : List UInt8 := msgs.flatMap ChannelMsg.payload

def stderrOf (msgs : List ChannelMsg) : List UInt8 := msgs.flatMap ChannelMsg.stderr

def lastStatus (msgs : List ChannelMsg) : Option UInt32 :=
  (msgs.filterMap ChannelMsg.status).getLast?

def Received.after (msgs : List ChannelMsg) : Received where
  written := UInt64.ofNat (payloads msgs).length
  stderrBuf := (stderrOf msgs).take stderrCaptureCap
  exitCode := lastStatus msgs

theorem payloads_append (seen : List ChannelMsg) (m : ChannelMsg) :
    payloads (seen ++ [m]) = payloads seen ++ m.payload := by
  simp [payloads]

theorem stderrOf_append (seen : List ChannelMsg) (m : ChannelMsg) :
    stderrOf (seen ++ [m]) = stderrOf seen ++ m.stderr := by
  simp [stderrOf]

theorem lastStatus_append (seen : List ChannelMsg) (m : ChannelMsg) :
    lastStatus (seen ++ [m]) = m.status.or (lastStatus seen) := by
  unfold lastStatus
  rw [List.filterMap_append, List.getLast?_append]
  cases hstatus : m.status with
  | none => simp [hstatus]
  | some code => simp [hstatus]

theorem take_cap (pre data : List UInt8) (cap : Nat) :
    (if (pre.take cap).length < cap then
        pre.take cap ++ data.take (min (cap - (pre.take cap).length) data.length)
      else pre.take cap) = (pre ++ data).take cap := by
  rw [List.take_append, List.length_take]
  by_cases hfull : pre.length < cap
  · have hall : pre.take cap = pre := List.take_of_length_le (by omega)
    rw [if_pos (by omega), hall, Nat.min_eq_right (Nat.le_of_lt hfull)]
    by_cases hfit : data.length ≤ cap - pre.length
    · rw [Nat.min_eq_right hfit, List.take_length, List.take_of_length_le hfit]
    · rw [Nat.min_eq_left (by omega)]
  · have hnone : cap - pre.length = 0 := by omega
    rw [if_neg (by omega), hnone, List.take_zero, List.append_nil]

/-! ## The loop -/

/-- With these messages through, the staging file holds the data of them all. -/
def Streaming (commands : List String) (seen : List ChannelMsg) (r : Received)
    (s : Acquisition) : Prop :=
  r = .after seen ∧ s = ⟨commands, some (payloads seen)⟩ ∧ (payloads seen).length < 2 ^ 63

variable (calls : Calls) (commands : List String)

/-- The file takes the data: the call comes back without an error, and the file stays below
the largest size there is. -/
def Calls.Takes (out data : List UInt8) : Prop :=
  calls.writeAll out data = .ok () ∧ out.length + data.length < 2 ^ 63

/-- No call on the staging file fails: not for the directory and the file, not for what arrives
of data where it arrives, and not for the flush. -/
structure Calls.LocalSucceeds (localStaging : String) : Prop where
  createDirAll : hasParent localStaging = true → calls.createDirAll = .ok ()
  create : calls.create = .ok ()
  writeAll : ∀ seen data rest, calls.messages = seen ++ .data data :: rest →
    calls.Takes (payloads seen) data
  flush : calls.flush = .ok ()

variable {calls} {E : AcquireError → Acquisition → Prop}

theorem attempt_ok {P : Acquisition → Prop} {err : String → AcquireError}
    {result : Except String Unit} (h : result = .ok ()) :
    Triple P (attempt err result) (fun _ => P) E := by
  rw [h]
  exact Triple.pure fun _ hs => hs

theorem writeStaging_spec {out data : List UInt8} (h : calls.Takes out data) :
    Triple (fun s => s = ⟨commands, some out⟩) (writeStaging calls data)
      (fun _ s => s = ⟨commands, some (out ++ data)⟩) E := by
  unfold writeStaging
  apply Triple.get
  rintro s rfl
  apply Triple.bind (attempt_ok h.1)
  intro _
  apply Triple.ite
  · exact fun hlong => absurd h.2 (Nat.not_lt.mpr hlong)
  · intro _
    apply Triple.modify
    rintro s rfl
    rfl

theorem streaming_quiet {seen : List ChannelMsg} {m : ChannelMsg} {r : Received}
    {s : Acquisition} (hs : Streaming commands seen (.after seen) s) (hm : m.payload = [])
    (hr : r = ⟨UInt64.ofNat (payloads seen).length,
      (stderrOf seen ++ m.stderr).take stderrCaptureCap, m.status.or (lastStatus seen)⟩) :
    Streaming commands (seen ++ [m]) r s := by
  obtain ⟨-, rfl, hlen⟩ := hs
  have hpayload : payloads (seen ++ [m]) = payloads seen := by
    rw [payloads_append, hm, List.append_nil]
  refine ⟨?_, by rw [hpayload], by rw [hpayload]; exact hlen⟩
  rw [hr, Received.after, hpayload, stderrOf_append, lastStatus_append]

/-- A turn of the loop. Only data is written, and only the error stream's share is capped. -/
theorem onMessage_spec {seen : List ChannelMsg} {m : ChannelMsg}
    (htakes : ∀ data, m = .data data → calls.Takes (payloads seen) data) (r : Received) :
    Triple (Streaming commands seen r) (onMessage calls r m)
      (Streaming commands (seen ++ [m])) E := by
  intro s hs
  obtain rfl := hs.1
  cases m with
  | data bytes =>
      have htake := htakes bytes rfl
      have hwrite : Triple (fun s => s = ⟨commands, some (payloads seen)⟩)
          (onMessage calls (.after seen) (.data bytes))
          (Streaming commands (seen ++ [.data bytes])) E := by
        apply Triple.bind (writeStaging_spec commands htake)
        intro _
        apply Triple.pure
        rintro s rfl
        have hpayload : payloads (seen ++ [.data bytes]) = payloads seen ++ bytes :=
          payloads_append seen _
        refine ⟨?_, by rw [hpayload], by rw [hpayload, List.length_append]; exact htake.2⟩
        rw [Received.after, Received.after, hpayload, stderrOf_append, lastStatus_append,
          List.length_append, UInt64.ofNat_add]
        simp [ChannelMsg.stderr, ChannelMsg.status]
      exact hwrite s hs.2.1
  | extendedData bytes ext =>
      have hcap := take_cap (stderrOf seen) bytes stderrCaptureCap
      simp only [onMessage]
      by_cases hext : ext = 1
      · have hstderr : (ChannelMsg.extendedData bytes ext).stderr = bytes := if_pos hext
        by_cases hroom : (Received.after seen).stderrBuf.length < stderrCaptureCap
        · have hkept : (Received.after seen).stderrBuf ++ bytes.take
              (min (stderrCaptureCap - (Received.after seen).stderrBuf.length) bytes.length) =
                (stderrOf seen ++ bytes).take stderrCaptureCap := (if_pos hroom).symm.trans hcap
          rw [if_pos ⟨hext, hroom⟩]
          refine streaming_quiet commands hs rfl ?_
          rw [hkept, hstderr]
          rfl
        · have hkept : (Received.after seen).stderrBuf =
              (stderrOf seen ++ bytes).take stderrCaptureCap := (if_neg hroom).symm.trans hcap
          rw [if_neg fun h => hroom h.2]
          refine streaming_quiet commands hs rfl ?_
          rw [hstderr, ← hkept]
          rfl
      · have hstderr : (ChannelMsg.extendedData bytes ext).stderr = [] := if_neg hext
        rw [if_neg fun h => hext h.1]
        refine streaming_quiet commands hs rfl ?_
        rw [hstderr, List.append_nil]
        rfl
  | exitStatus code =>
      refine streaming_quiet commands hs rfl ?_
      simp [ChannelMsg.stderr, ChannelMsg.status, Received.after]
  | other =>
      refine streaming_quiet commands hs rfl ?_
      simp [ChannelMsg.stderr, ChannelMsg.status, Received.after]

/-! ## The whole call -/

variable (calls)

/-- Everything up to the command goes through. -/
structure Calls.Started (auth : SshAuth) : Prop where
  connect : calls.connect = .ok ()
  key : (∃ path passphrase, auth = .key path passphrase) →
    calls.loadSecretKey = .ok () ∧ calls.bestSupportedRsaHash = .ok ()
  authenticate : calls.authenticate = .ok true
  channel : calls.channelOpenSession = .ok ()
  exec : calls.exec = .ok ()

theorem startCommand_run {target : SshTarget} (h : calls.Started target.auth)
    (remotePath : String) (s : Acquisition) :
    (startCommand calls target remotePath).run s =
      .ok () { s with commands := s.commands ++ [catCommand remotePath] } := by
  unfold startCommand authenticate
  rw [h.connect, h.channel, h.exec, h.authenticate]
  cases hauth : target.auth with
  | key path passphrase =>
      obtain ⟨hkey, hhash⟩ := h.key ⟨path, passphrase, hauth⟩
      rw [hkey, hhash]
      rfl
  | password pw => rfl

variable {calls} {localStaging : String}

theorem createStaging_spec (h : calls.LocalSucceeds localStaging) :
    Triple (fun s => s = ⟨commands, none⟩) (createStaging calls localStaging)
      (fun _ s => s = ⟨commands, some []⟩) E := by
  have hcreate : Triple (fun s => s = ⟨commands, none⟩) (do
      attempt AcquireError.io calls.create
      modify fun s => { s with staging := some [] })
      (fun _ s => s = ⟨commands, some []⟩) E := by
    apply Triple.bind (attempt_ok h.create)
    intro _
    apply Triple.modify
    rintro s rfl
    rfl
  unfold createStaging
  apply Triple.ite
  · intro hparent
    exact Triple.bind (attempt_ok (h.createDirAll hparent)) fun _ => hcreate
  · exact fun _ => hcreate

/-- Once the messages are through the last status decides. -/
def Concluded (msgs : List ChannelMsg) (n : UInt64) (s : Acquisition) : Prop :=
  s = ⟨commands, some (payloads msgs)⟩ ∧ lastStatus msgs = some 0 ∧
    n.toNat = (payloads msgs).length

/-- The messages are through and the last status is not 0. -/
def Stopped (msgs : List ChannelMsg) (e : AcquireError) (s : Acquisition) : Prop :=
  s = ⟨commands, some (payloads msgs)⟩ ∧ lastStatus msgs ≠ some 0 ∧
    e = .remoteCommandFailed ((lastStatus msgs).getD 0xFFFFFFFF)
      (fromUtf8Lossy ((stderrOf msgs).take stderrCaptureCap))

theorem verdict_spec (msgs : List ChannelMsg) (r : Received) :
    Triple (Streaming commands msgs r) (verdict r) (Concluded commands msgs)
      (Stopped commands msgs) := by
  intro s hs
  obtain ⟨rfl, rfl, hlen⟩ := hs
  unfold verdict
  have hexit : (Received.after msgs).exitCode = lastStatus msgs := rfl
  rw [hexit]
  cases hlast : lastStatus msgs with
  | none => exact ⟨rfl, by rw [hlast]; simp, by rw [hlast]; rfl⟩
  | some code =>
      dsimp only
      by_cases hcode : code = 0
      · rw [if_pos hcode]
        refine ⟨rfl, by rw [hlast, hcode], ?_⟩
        exact UInt64.toNat_ofNat_of_lt' (Nat.lt_trans hlen (by decide))
      · rw [if_neg hcode]
        exact ⟨rfl, by rw [hlast]; simpa using hcode, by rw [hlast]; rfl⟩

theorem streaming_spec (h : calls.LocalSucceeds localStaging) :
    Triple (fun s => s = ⟨commands, none⟩) (do
        createStaging calls localStaging
        let r ← calls.messages.foldlM (onMessage calls) ⟨0, [], none⟩
        attempt .io calls.flush
        verdict r)
      (Concluded commands calls.messages) (Stopped commands calls.messages) := by
  apply Triple.bind (createStaging_spec commands h)
  intro _
  have hloop : Triple (Streaming commands [] ⟨0, [], none⟩)
      (calls.messages.foldlM (onMessage calls) ⟨0, [], none⟩)
      (Streaming commands calls.messages) (Stopped commands calls.messages) := by
    apply Triple.foldlM
    intro seen m rest hsplit
    apply onMessage_spec commands
    rintro data rfl
    exact h.writeAll seen data rest hsplit
  have hbegin (s : Acquisition) (hs : s = ⟨commands, some []⟩) :
      Streaming commands [] ⟨0, [], none⟩ s := ⟨rfl, hs, by decide⟩
  apply Triple.bind (hloop.conseq hbegin (fun _ _ hs => hs) fun _ _ he => he)
  intro r
  apply Triple.bind (attempt_ok h.flush)
  intro _
  exact verdict_spec commands calls.messages r

variable (calls)

/-- Whatever the messages and their order, when the calls on the staging file succeed: it holds
the data of them all, and the last exit status decides what is returned, none counting as a
failure. -/
theorem acquisition_accounts (target : SshTarget) (remotePath localStaging : String)
    (hstart : calls.Started target.auth) (hlocal : calls.LocalSucceeds localStaging) :
    let run := (acquireDisk calls target remotePath localStaging).run ⟨[], none⟩
    let final := ⟨[catCommand remotePath], some (payloads calls.messages)⟩
    (lastStatus calls.messages = some 0 →
        ∃ n, run = .ok n final ∧ n.toNat = (payloads calls.messages).length) ∧
      (lastStatus calls.messages ≠ some 0 →
        run = .error (.remoteCommandFailed ((lastStatus calls.messages).getD 0xFFFFFFFF)
          (fromUtf8Lossy ((stderrOf calls.messages).take 8192))) final) := by
  intro run final
  have hspec := streaming_spec [catCommand remotePath] hlocal _ rfl
  have hrun : run = EStateM.run (do
      createStaging calls localStaging
      let r ← calls.messages.foldlM (onMessage calls) ⟨0, [], none⟩
      attempt .io calls.flush
      verdict r) ⟨[catCommand remotePath], none⟩ := by
    simp only [run, acquireDisk, EStateM.run_bind, startCommand_run calls hstart]
    rfl
  rw [← hrun] at hspec
  cases hresult : run with
  | ok n s =>
      rw [hresult] at hspec
      obtain ⟨rfl, hlast, hn⟩ := hspec
      exact ⟨fun _ => ⟨n, rfl, hn⟩, fun hnot => absurd hlast hnot⟩
  | error e s =>
      rw [hresult] at hspec
      obtain ⟨rfl, hlast, rfl⟩ := hspec
      exact ⟨fun hzero => absurd hzero hlast, fun _ => rfl⟩

/-- Error output below the cap that is text is returned as it was written. -/
theorem stderr_text {msgs : List ChannelMsg} {text : List Char}
    (htext : stderrOf msgs = text.flatMap String.utf8EncodeChar)
    (hfit : (stderrOf msgs).length ≤ stderrCaptureCap) :
    fromUtf8Lossy ((stderrOf msgs).take stderrCaptureCap) = String.ofList text := by
  rw [List.take_of_length_le hfit, htext, fromUtf8Lossy_encoded]

def sampleCalls (messages : List ChannelMsg) : Calls where
  connect := .ok ()
  loadSecretKey := .error "no key"
  bestSupportedRsaHash := .error "no key"
  authenticate := .ok true
  channelOpenSession := .ok ()
  exec := .ok ()
  createDirAll := .ok ()
  create := .ok ()
  messages := messages
  writeAll := fun _ _ => .ok ()
  flush := .ok ()

def sampleTarget : SshTarget := ⟨"pve", 22, "root", .password "secret", none⟩

theorem started_sample (messages : List ChannelMsg) :
    (sampleCalls messages).Started sampleTarget.auth := by
  refine ⟨rfl, ?_, rfl, rfl, rfl⟩
  rintro ⟨path, passphrase, h⟩
  cases h

theorem localSucceeds_sample {messages : List ChannelMsg}
    (h : (payloads messages).length < 2 ^ 63) (localStaging : String) :
    (sampleCalls messages).LocalSucceeds localStaging := by
  refine ⟨fun _ => rfl, rfl, ?_, rfl⟩
  intro seen data rest hsplit
  have hmessages : messages = seen ++ .data data :: rest := hsplit
  refine ⟨rfl, ?_⟩
  rw [hmessages, payloads, List.flatMap_append, List.flatMap_cons, List.length_append,
    List.length_append] at h
  exact Nat.lt_of_le_of_lt (Nat.add_le_add_left (Nat.le_add_right _ _) _) h

/-- A disk in two pieces with the status between them, one of which the last status is not 0,
and one without a status. -/
theorem acquisition_accounts_sample :
    (∃ n, (acquireDisk (sampleCalls [.data [1, 2], .extendedData [33] 1, .exitStatus 0, .data [3],
        .other]) sampleTarget "/disk" "/staging/disk").run ⟨[], none⟩ =
      .ok n ⟨[catCommand "/disk"], some [1, 2, 3]⟩ ∧ n.toNat = 3) ∧
    (acquireDisk (sampleCalls [.exitStatus 0, .data [1], .extendedData [33] 1,
        .extendedData [34] 2, .exitStatus 3, .data [2]]) sampleTarget "/disk" "/staging/disk").run
          ⟨[], none⟩ =
      .error (.remoteCommandFailed 3 (fromUtf8Lossy [33])) ⟨[catCommand "/disk"], some [1, 2]⟩ ∧
    (acquireDisk (sampleCalls [.data [1]]) sampleTarget "/disk" "/staging/disk").run ⟨[], none⟩ =
      .error (.remoteCommandFailed 0xFFFFFFFF (fromUtf8Lossy []))
        ⟨[catCommand "/disk"], some [1]⟩ := by
  refine ⟨?_, ?_, ?_⟩
  · exact (acquisition_accounts _ sampleTarget "/disk" "/staging/disk" (started_sample _)
      (localSucceeds_sample (by decide) _)).1 rfl
  · exact (acquisition_accounts _ sampleTarget "/disk" "/staging/disk" (started_sample _)
      (localSucceeds_sample (by decide) _)).2 (by decide)
  · exact (acquisition_accounts _ sampleTarget "/disk" "/staging/disk" (started_sample _)
      (localSucceeds_sample (by decide) _)).2 (by decide)

end Caiman.Bridge
