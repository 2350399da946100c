import Caiman.Lib.Bytes
import Caiman.Microseg.Lookup

/-!
# XDP program

`xdp_microseg_enforce` on the bytes of a frame and the content of its maps: what
it parses, the verdict it looks up, and what it returns, counts and audits. The
time in an audit event is left out.
-/

namespace Caiman.Microseg

open Lib

/-! ## Bytes of a frame -/

/-- Past the end of the frame there is nothing to read, and nothing reads there. -/
def byteAt (bytes : List UInt8) (i : Nat) : UInt8 := bytes.getD i 0

def be16At (bytes : List UInt8) (i : Nat) : UInt16 :=
  UInt16.ofNat ((byteAt bytes i).toNat * 256 + (byteAt bytes (i + 1)).toNat)

@[simp] theorem byteAt_drop (bytes : List UInt8) (n i : Nat) :
    byteAt (bytes.drop n) i = byteAt bytes (n + i) := by
  simp [byteAt, List.getD_eq_getElem?_getD]

@[simp] theorem be16At_drop (bytes : List UInt8) (n i : Nat) :
    be16At (bytes.drop n) i = be16At bytes (n + i) := by
  simp [be16At, Nat.add_assoc]

def ethPIp : UInt16 := 0x0800
def ethPIpv6 : UInt16 := 0x86DD
def ipprotoTcp : UInt8 := 6
def ipprotoUdp : UInt8 := 17

def ethHlen : Nat := 14

def hDest (frame : List UInt8) : List UInt8 := frame.take 6

def hSource (frame : List UInt8) : List UInt8 := (frame.drop 6).take 6

def hProto (frame : List UInt8) : UInt16 := be16At frame 12

/-! ## Maps -/

structure DenyStats where
  packets : UInt64
  bytes : UInt64
  deriving DecidableEq, Repr

structure AuditEvent where
  srcId : UInt32
  dstId : UInt32
  srcMac : List UInt8
  dstMac : List UInt8
  srcIp : UInt32
  dstIp : UInt32
  dstPort : UInt16
  proto : UInt8
  verdict : UInt8
  ruleId : UInt32
  deriving DecidableEq, Repr

/-- What the program finds in its maps. `ringFree` says whether the audit ring has
room for an event. -/
structure BpfMaps where
  identityMap : List UInt8 → Option UInt32
  policyMap : PolicyMap
  defaultPolicyMap : DefaultPolicyMap
  denyStatsMap : UInt32 → Option DenyStats
  macToIfindex : List UInt8 → Option UInt32
  txPort : UInt32 → Bool
  ringFree : Bool

/-- `IDENTITY_UNKNOWN` is 0. -/
def BpfMaps.identity (maps : BpfMaps) (mac : List UInt8) : UInt32 := (maps.identityMap mac).getD 0

inductive XdpAction
  | aborted
  | drop
  | pass
  | redirect (ifindex : UInt32)
  deriving DecidableEq, Repr

/-- The action, the counters after it and what was audited. -/
structure XdpResult where
  action : XdpAction
  denyStatsMap : UInt32 → Option DenyStats
  audit : List AuditEvent

/-! ## Parsing -/

/-- What the L3/L4 parse comes to. -/
inductive Parsed
  | notIp
  | aborted
  | ip (proto : UInt8) (srcIp dstIp : UInt32) (dstPort : UInt16)
  deriving DecidableEq, Repr

/-- Offset of the transport header: `ihl` 32-bit words into the IP header. -/
def l4Offset (frame : List UInt8) : Nat := ethHlen + (byteAt frame ethHlen &&& 0x0F).toNat * 4

/-- A 32-bit load, in the byte order of the host. -/
def load32 (frame : List UInt8) (i : Nat) : UInt32 :=
  UInt32.ofNat (leNat ((frame.drop i).take 4))

def parseIp (frame : List UInt8) : Parsed :=
  if frame.length < ethHlen + 20 then .aborted
  else
    let proto := byteAt frame (ethHlen + 9)
    let srcIp := load32 frame (ethHlen + 12)
    let dstIp := load32 frame (ethHlen + 16)
    let l4 := l4Offset frame
    if proto = ipprotoTcp then
      if frame.length < l4 + 20 then .aborted else .ip proto srcIp dstIp (be16At frame (l4 + 2))
    else if proto = ipprotoUdp then
      if frame.length < l4 + 8 then .aborted else .ip proto srcIp dstIp (be16At frame (l4 + 2))
    else .ip proto srcIp dstIp 0

def parse (frame : List UInt8) : Parsed :=
  if hProto frame ≠ ethPIp ∧ hProto frame ≠ ethPIpv6 then .notIp
  else if hProto frame = ethPIp then parseIp frame
  -- an IPv6 header is not looked at
  else .ip 0 0 0 0

/-! ## The program -/

def emitAudit (maps : BpfMaps) (frame : List UInt8) (proto : UInt8) (srcIp dstIp : UInt32)
    (dstPort : UInt16) (verdict : UInt8) : List AuditEvent :=
  if maps.ringFree then
    [{ srcId := maps.identity (hSource frame)
       dstId := maps.identity (hDest frame)
       srcMac := hSource frame
       dstMac := hDest frame
       srcIp := srcIp
       dstIp := dstIp
       dstPort := dstPort
       proto := proto
       verdict := verdict
       ruleId := 0 }]
  else []

def BpfMaps.countDenied (maps : BpfMaps) (srcId : UInt32) (pktLen : Nat) :
    UInt32 → Option DenyStats :=
  Function.update maps.denyStatsMap srcId
    ((maps.denyStatsMap srcId).map fun st => ⟨st.packets + 1, st.bytes + UInt64.ofNat pktLen⟩)

/-- A MAC that is not a VM's goes to the kernel stack, and so does a tap that is not
in the device map. -/
def BpfMaps.allowRedirect (maps : BpfMaps) (frame : List UInt8) : XdpAction :=
  match maps.macToIfindex (hDest frame) with
  | none => .pass
  | some ifindex => if maps.txPort ifindex then .redirect ifindex else .pass

/-- The verdict on a flow between the MAC addresses of the frame. -/
def BpfMaps.verdict (maps : BpfMaps) (frame : List UInt8) (proto : UInt8) (dstPort : UInt16) :
    UInt8 :=
  lookupVerdict maps.policyMap maps.defaultPolicyMap (maps.identity (hSource frame))
    (maps.identity (hDest frame)) proto dstPort

def xdpMicrosegEnforce (maps : BpfMaps) (frame : List UInt8) : XdpResult :=
  if frame.length < ethHlen then ⟨.aborted, maps.denyStatsMap, []⟩
  else
    match parse frame with
    | .notIp => ⟨maps.allowRedirect frame, maps.denyStatsMap, []⟩
    | .aborted => ⟨.aborted, maps.denyStatsMap, []⟩
    | .ip proto srcIp dstIp dstPort =>
        let verdict := maps.verdict frame proto dstPort
        if verdict = Verdict.deny.code then
          ⟨.drop, maps.countDenied (maps.identity (hSource frame)) frame.length,
            emitAudit maps frame proto srcIp dstIp dstPort verdict⟩
        else if verdict = Verdict.log.code then
          ⟨maps.allowRedirect frame, maps.denyStatsMap,
            emitAudit maps frame proto srcIp dstIp dstPort verdict⟩
        else ⟨maps.allowRedirect frame, maps.denyStatsMap, []⟩

/-- The frame is redirected to a tap or passed to the kernel. -/
def XdpAction.letsThrough : XdpAction → Bool
  | .pass => true
  | .redirect _ => true
  | _ => false

theorem allowRedirect_letsThrough (maps : BpfMaps) (frame : List UInt8) :
    (maps.allowRedirect frame).letsThrough = true := by
  unfold BpfMaps.allowRedirect
  split
  · rfl
  · split <;> rfl

theorem letsThrough_iff (maps : BpfMaps) (frame : List UInt8) :
    (xdpMicrosegEnforce maps frame).action.letsThrough = true ↔
      ethHlen ≤ frame.length ∧
        match parse frame with
        | .notIp => True
        | .aborted => False
        | .ip proto _ _ dstPort => maps.verdict frame proto dstPort ≠ Verdict.deny.code := by
  unfold xdpMicrosegEnforce
  by_cases hlen : frame.length < ethHlen
  · simp [hlen, XdpAction.letsThrough]
  · have hle : ethHlen ≤ frame.length := Nat.le_of_not_lt hlen
    rw [if_neg hlen]
    cases parse frame with
    | notIp => simp [hle, allowRedirect_letsThrough]
    | aborted => simp [XdpAction.letsThrough]
    | ip proto srcIp dstIp dstPort =>
        dsimp only
        split
        · rename_i hdeny
          simp [XdpAction.letsThrough, hdeny]
        · rename_i hother
          split <;> simp [hle, allowRedirect_letsThrough, hother]

end Caiman.Microseg
