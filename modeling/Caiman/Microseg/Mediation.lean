import Caiman.Microseg.Xdp
import Mathlib.Data.List.GetD

/-!
# Mediation

Whether a frame is judged by what it carries. The protocol and the port a receiver
would see are defined here on their own: behind any number of VLAN tags, past the
options of IPv4 and the extension headers of IPv6, inside the length the IP header
gives, and in a first fragment. A port that cannot be told is 0, which no rule
with a port matches.
-/

namespace Caiman.Microseg

/-! ## What a frame carries -/

/-- 802.1Q and 802.1ad. -/
def isVlanTag (etherType : UInt16) : Bool := etherType == 0x8100 || etherType == 0x88A8

/-- The type and the payload behind the tags, from the bytes at the type field. -/
def untagged : List UInt8 → Option (UInt16 × List UInt8)
  | a :: b :: rest =>
      let etherType := UInt16.ofNat (a.toNat * 256 + b.toNat)
      if isVlanTag etherType then
        match rest with
        | _ :: _ :: inner => untagged inner
        | _ => none
      else some (etherType, rest)
  | _ => none

def hasPorts (proto : UInt8) : Bool := proto == ipprotoTcp || proto == ipprotoUdp

/-- The port of a transport header, if it is long enough to hold one. -/
def portOf (proto : UInt8) (header : List UInt8) : UInt16 :=
  if hasPorts proto = true ∧ 4 ≤ header.length then be16At header 2 else 0

/-- Words in the header, total length and fragment offset of an IPv4 packet. -/
def ihl (packet : List UInt8) : Nat := (byteAt packet 0 &&& 0x0F).toNat

def totalLength (packet : List UInt8) : Nat := (be16At packet 2).toNat

def fragmentOffset (packet : List UInt8) : UInt16 := be16At packet 6 &&& 0x1FFF

/-- The transport header of an IPv4 packet: in the first fragment, behind a header of
at least five words, and inside the packet's length. -/
def ipv4Transport (packet : List UInt8) : List UInt8 :=
  if 5 ≤ ihl packet ∧ fragmentOffset packet = 0 then
    (packet.take (totalLength packet)).drop (ihl packet * 4)
  else []

def ipv4Carries (packet : List UInt8) : Option (UInt8 × UInt16) :=
  if packet.length < 20 then none
  else some (byteAt packet 9, portOf (byteAt packet 9) (ipv4Transport packet))

/-- Extension headers that give their length in units of eight bytes. -/
def isExtension (next : UInt8) : Bool :=
  next == 0 || next == 43 || next == 60 || next == 135 || next == 139 || next == 140

/-- The upper-layer protocol and its port behind the extension headers. A chain that
is cut off ends with the header that is missing. -/
def upperLayer : Nat → UInt8 → List UInt8 → UInt8 × UInt16
  | 0, next, payload => (next, portOf next payload)
  | fuel + 1, next, payload =>
      let size :=
        if isExtension next then ((byteAt payload 1).toNat + 1) * 8
        else if next = 51 then ((byteAt payload 1).toNat + 2) * 4
        else if next = 44 then 8
        else 0
      if size = 0 then (next, portOf next payload)
      else if payload.length < size then (next, 0)
      else if next = 44 ∧ be16At payload 2 >>> 3 ≠ 0 then (byteAt payload 0, 0)
      else upperLayer fuel (byteAt payload 0) (payload.drop size)

def ipv6Carries (packet : List UInt8) : Option (UInt8 × UInt16) :=
  if packet.length < 40 then none
  else
    let payload := (packet.drop 40).take (be16At packet 4).toNat
    some (upperLayer payload.length (byteAt packet 6) payload)

/-- The true protocol and port of the IP packet in the frame. -/
def carries (frame : List UInt8) : Option (UInt8 × UInt16) :=
  match untagged (frame.drop 12) with
  | none => none
  | some (etherType, payload) =>
      if etherType = ethPIp then ipv4Carries payload
      else if etherType = ethPIpv6 then ipv6Carries payload
      else none

/-- If the frame carries an IP packet and is let through, the verdict on what it
carries is not denial. -/
def Mediated (maps : BpfMaps) (frame : List UInt8) : Prop :=
  ∀ proto dstPort, carries frame = some (proto, dstPort) →
    (xdpMicrosegEnforce maps frame).action.letsThrough = true →
      maps.verdict frame proto dstPort ≠ Verdict.deny.code

/-! ## Seen against true -/

/-- The program drops the frame or judges it by its true protocol and port. -/
def SeenTrue (frame : List UInt8) (proto : UInt8) (dstPort : UInt16) : Prop :=
  match parse frame with
  | .notIp => False
  | .aborted => True
  | .ip seenProto _ _ seenPort => seenProto = proto ∧ seenPort = dstPort

def bareMaps (policyMap : PolicyMap) : BpfMaps where
  identityMap _ := none
  policyMap := policyMap
  defaultPolicyMap _ := none
  denyStatsMap _ := none
  macToIfindex _ := none
  txPort _ := false
  ringFree := false

/-- One protocol and port are allowed and another denied, for every pair of
identities. -/
def allowOnly (seen other : UInt8 × UInt16) : PolicyMap := fun k =>
  if k.proto = seen.1 ∧ k.dstPort = seen.2 then some ⟨Verdict.allow.code, 0, 0, 0⟩
  else if k.proto = other.1 ∧ k.dstPort = other.2 then some ⟨Verdict.deny.code, 0, 0, 0⟩
  else none

theorem verdict_allowOnly_seen (frame : List UInt8) (seen other : UInt8 × UInt16) :
    (bareMaps (allowOnly seen other)).verdict frame seen.1 seen.2 = Verdict.allow.code := by
  simp [BpfMaps.verdict, lookupVerdict, bareMaps, allowOnly]

theorem verdict_allowOnly_other (frame : List UInt8) (seen other : UInt8 × UInt16)
    (hne : ¬ (other.1 = seen.1 ∧ other.2 = seen.2)) :
    (bareMaps (allowOnly seen other)).verdict frame other.1 other.2 = Verdict.deny.code := by
  simp [BpfMaps.verdict, lookupVerdict, bareMaps, allowOnly, hne]

theorem length_of_carries {frame : List UInt8} {l4 : UInt8 × UInt16}
    (h : carries frame = some l4) : ethHlen ≤ frame.length := by
  unfold carries at h
  cases huntagged : untagged (frame.drop 12) with
  | none => simp [huntagged] at h
  | some p =>
      unfold untagged at huntagged
      split at huntagged
      · rename_i a b rest hbytes
        have hlen := congrArg List.length hbytes
        simp only [List.length_drop, List.length_cons] at hlen
        unfold ethHlen
        omega
      · cases huntagged

/-- Whatever the maps hold, exactly when the frame is not IP, is dropped unparsed, or
is seen as what it is. -/
theorem mediated_iff_seenTrue (frame : List UInt8) :
    (∀ maps, Mediated maps frame) ↔
      ∀ proto dstPort, carries frame = some (proto, dstPort) → SeenTrue frame proto dstPort := by
  constructor
  · intro h proto dstPort hcarries
    have hlen := length_of_carries hcarries
    unfold SeenTrue
    cases hparse : parse frame with
    | aborted => trivial
    | notIp =>
        -- nothing is looked up, not even in maps that deny everything
        have hthrough : (xdpMicrosegEnforce (bareMaps fun _ => none) frame).action.letsThrough =
            true := by
          rw [letsThrough_iff, hparse]
          exact ⟨hlen, trivial⟩
        exact h _ proto dstPort hcarries hthrough rfl
    | ip seenProto srcIp dstIp seenPort =>
        by_contra hother
        have hne : ¬ (proto = seenProto ∧ dstPort = seenPort) :=
          fun heq => hother ⟨heq.1.symm, heq.2.symm⟩
        have hthrough : (xdpMicrosegEnforce
            (bareMaps (allowOnly (seenProto, seenPort) (proto, dstPort)))
              frame).action.letsThrough = true := by
          rw [letsThrough_iff, hparse]
          refine ⟨hlen, ?_⟩
          dsimp only
          rw [verdict_allowOnly_seen frame (seenProto, seenPort)]
          decide
        exact h _ proto dstPort hcarries hthrough
          (verdict_allowOnly_other frame (seenProto, seenPort) (proto, dstPort) hne)
  · intro h maps proto dstPort hcarries hthrough
    have hseen := h proto dstPort hcarries
    rw [letsThrough_iff] at hthrough
    unfold SeenTrue at hseen
    cases hparse : parse frame with
    | notIp => simp [hparse] at hseen
    | aborted => simp [hparse] at hthrough
    | ip seenProto srcIp dstIp seenPort =>
        rw [hparse] at hseen hthrough
        obtain ⟨rfl, rfl⟩ := hseen
        exact hthrough.2

/-! ## Untagged frames -/

theorem isVlanTag_ip : isVlanTag ethPIp = false := by decide

theorem untagged_of_not_tag {frame : List UInt8} (hlen : ethHlen ≤ frame.length)
    (h : isVlanTag (hProto frame) = false) :
    untagged (frame.drop 12) = some (hProto frame, frame.drop ethHlen) := by
  have hbytes : frame.drop 12 = byteAt frame 12 :: byteAt frame 13 :: frame.drop ethHlen := by
    unfold ethHlen at hlen
    have h12 : byteAt frame 12 = frame[12] := List.getD_eq_getElem _ _ _
    have h13 : byteAt frame 13 = frame[13] := List.getD_eq_getElem _ _ _
    rw [h12, h13, List.drop_eq_getElem_cons (by omega : 12 < frame.length),
      List.drop_eq_getElem_cons (by omega : 12 + 1 < frame.length)]
    rfl
  rw [hbytes]
  unfold untagged
  dsimp only
  rw [if_neg (by simpa [hProto, be16At] using h)]
  rfl

theorem byteAt_take {bytes : List UInt8} {n i : Nat} (h : i < n) :
    byteAt (bytes.take n) i = byteAt bytes i := by
  simp [byteAt, List.getD_eq_getElem?_getD, h]

theorem be16At_take {bytes : List UInt8} {n i : Nat} (h : i + 1 < n) :
    be16At (bytes.take n) i = be16At bytes i := by
  unfold be16At
  rw [byteAt_take (by omega), byteAt_take h]

def l4HeaderSize (proto : UInt8) : Nat := if proto = ipprotoTcp then 20 else 8

/-- The port bytes lie in a first fragment, behind a header of at least five words and
inside the packet's length. -/
def PortInPacket (packet : List UInt8) : Prop :=
  5 ≤ ihl packet ∧ fragmentOffset packet = 0 ∧ ihl packet * 4 + 4 ≤ totalLength packet

instance (packet : List UInt8) : Decidable (PortInPacket packet) :=
  inferInstanceAs (Decidable (_ ∧ _ ∧ _))

theorem portOf_ipv4Transport {packet : List UInt8} {proto : UInt8} (hports : hasPorts proto = true)
    (hroom : ihl packet * 4 + 4 ≤ packet.length) :
    portOf proto (ipv4Transport packet) =
      if PortInPacket packet then be16At packet (ihl packet * 4 + 2) else 0 := by
  unfold portOf ipv4Transport
  by_cases hfirst : 5 ≤ ihl packet ∧ fragmentOffset packet = 0
  · have hlen : 4 ≤ ((packet.take (totalLength packet)).drop (ihl packet * 4)).length ↔
        ihl packet * 4 + 4 ≤ totalLength packet := by
      rw [List.length_drop, List.length_take]
      omega
    rw [if_pos hfirst]
    by_cases htotal : ihl packet * 4 + 4 ≤ totalLength packet
    · have hin : PortInPacket packet := ⟨hfirst.1, hfirst.2, htotal⟩
      rw [if_pos ⟨hports, hlen.mpr htotal⟩, if_pos hin, be16At_drop, be16At_take (by omega)]
    · have hout : ¬ PortInPacket packet := fun h => htotal h.2.2
      rw [if_neg (fun h => htotal (hlen.mp h.2)), if_neg hout]
  · have hout : ¬ PortInPacket packet := fun h => hfirst ⟨h.1, h.2.1⟩
    rw [if_neg hfirst, if_neg hout]
    simp

/-- The frame has no ports, or its transport header is cut off, or its port lies in
the packet, or the bytes taken for the port are 0. -/
def PlainIpv4 (frame : List UInt8) : Prop :=
  hasPorts (byteAt frame (ethHlen + 9)) = false ∨
    frame.length < l4Offset frame + l4HeaderSize (byteAt frame (ethHlen + 9)) ∨
    PortInPacket (frame.drop ethHlen) ∨ be16At frame (l4Offset frame + 2) = 0

instance (frame : List UInt8) : Decidable (PlainIpv4 frame) :=
  inferInstanceAs (Decidable (_ ∨ _ ∨ _ ∨ _))

theorem parseIp_eq {frame : List UInt8} (hlen : ethHlen + 20 ≤ frame.length) :
    parseIp frame =
      if hasPorts (byteAt frame (ethHlen + 9)) = true then
        if frame.length < l4Offset frame + l4HeaderSize (byteAt frame (ethHlen + 9)) then .aborted
        else .ip (byteAt frame (ethHlen + 9)) (load32 frame (ethHlen + 12))
          (load32 frame (ethHlen + 16)) (be16At frame (l4Offset frame + 2))
      else .ip (byteAt frame (ethHlen + 9)) (load32 frame (ethHlen + 12))
        (load32 frame (ethHlen + 16)) 0 := by
  unfold parseIp hasPorts l4HeaderSize
  rw [if_neg (by omega)]
  dsimp only
  by_cases htcp : byteAt frame (ethHlen + 9) = ipprotoTcp
  · simp [htcp]
  · by_cases hudp : byteAt frame (ethHlen + 9) = ipprotoUdp
    · simp [hudp, show ipprotoUdp ≠ ipprotoTcp by decide]
    · simp [htcp, hudp]

theorem seenTrue_ipv4_iff {frame : List UInt8} {proto : UInt8} {dstPort : UInt16}
    (htype : hProto frame = ethPIp)
    (hcarries : ipv4Carries (frame.drop ethHlen) = some (proto, dstPort)) :
    SeenTrue frame proto dstPort ↔ PlainIpv4 frame := by
  unfold ipv4Carries at hcarries
  by_cases hshort : (frame.drop ethHlen).length < 20
  · rw [if_pos hshort] at hcarries
    cases hcarries
  rw [if_neg hshort] at hcarries
  obtain ⟨rfl, rfl⟩ := Prod.mk.inj (Option.some.inj hcarries)
  have hlen : ethHlen + 20 ≤ frame.length := by
    rw [List.length_drop] at hshort
    omega
  unfold SeenTrue parse PlainIpv4
  rw [if_neg (by simp [htype]), if_pos htype, parseIp_eq hlen]
  simp only [byteAt_drop]
  cases hports : hasPorts (byteAt frame (ethHlen + 9)) with
  | false => simp [portOf, hports]
  | true =>
      by_cases hcut : frame.length < l4Offset frame + l4HeaderSize (byteAt frame (ethHlen + 9))
      · simp [hcut]
      · have hl4 : l4Offset frame = ethHlen + ihl (frame.drop ethHlen) * 4 := by
          simp [l4Offset, ihl]
        have hsize : 8 ≤ l4HeaderSize (byteAt frame (ethHlen + 9)) := by
          unfold l4HeaderSize
          split <;> omega
        have hroom : ihl (frame.drop ethHlen) * 4 + 4 ≤ (frame.drop ethHlen).length := by
          rw [List.length_drop]
          omega
        rw [portOf_ipv4Transport hports hroom, be16At_drop, ← Nat.add_assoc, ← hl4]
        simp only [if_true, hcut, if_false, false_or, true_and, Bool.true_eq_false]
        by_cases hin : PortInPacket (frame.drop ethHlen)
        · simp [hin]
        · simp [hin]

/-- For every frame: it is let through only as what it carries, whatever the maps
hold, exactly when it carries no IP packet, or is an untagged IPv4 frame whose
protocol and port are read where they are, or an untagged IPv6 frame whose protocol
and port are 0. -/
theorem complete_mediation_iff (frame : List UInt8) :
    (∀ maps, Mediated maps frame) ↔
      carries frame = none ∨ (hProto frame = ethPIp ∧ PlainIpv4 frame) ∨
        (hProto frame = ethPIpv6 ∧ carries frame = some (0, 0)) := by
  rw [mediated_iff_seenTrue]
  cases hcarries : carries frame with
  | none => simp
  | some l4 =>
      obtain ⟨proto, dstPort⟩ := l4
      have hlen := length_of_carries hcarries
      have hone : (∀ p d, some (proto, dstPort) = some (p, d) → SeenTrue frame p d) ↔
          SeenTrue frame proto dstPort := by
        constructor
        · intro h
          exact h proto dstPort rfl
        · intro h p d heq
          cases heq
          exact h
      rw [hone]
      by_cases hip : hProto frame = ethPIp
      · have hpacket : ipv4Carries (frame.drop ethHlen) = some (proto, dstPort) := by
          rw [← hcarries, carries, untagged_of_not_tag hlen (hip ▸ isVlanTag_ip)]
          simp [hip]
        rw [seenTrue_ipv4_iff hip hpacket]
        simp [hip, show ethPIp ≠ ethPIpv6 by decide]
      · by_cases hipv6 : hProto frame = ethPIpv6
        · have hparse : parse frame = .ip 0 0 0 0 := by
            unfold parse
            rw [if_neg (by simp [hipv6]), if_neg hip]
          unfold SeenTrue
          rw [hparse]
          simp only [hipv6, show ¬ ethPIpv6 = ethPIp by decide, false_and, false_or, true_and,
            Option.some.injEq, Prod.mk.injEq, reduceCtorEq]
          exact ⟨fun h => ⟨h.1.symm, h.2.symm⟩, fun h => ⟨h.1.symm, h.2.symm⟩⟩
        · have hparse : parse frame = .notIp := by
            unfold parse
            rw [if_pos ⟨hip, hipv6⟩]
          unfold SeenTrue
          rw [hparse]
          simp [hip, hipv6]

def sshHeader : List UInt8 :=
  [4, 210, 0, 22, 0, 0, 0, 0, 0, 0, 0, 0, 80, 2, 0, 0, 0, 0, 0, 0]

def taggedSsh : List UInt8 :=
  List.replicate 12 0 ++ [0x81, 0, 0, 1, 8, 0] ++
    [0x45, 0, 0, 40, 0, 0, 0, 0, 64, 6, 0, 0, 10, 100, 0, 2, 10, 100, 0, 3] ++ sshHeader

def ipv6Ssh : List UInt8 :=
  List.replicate 12 0 ++ [0x86, 0xDD] ++ [0x60, 0, 0, 0, 0, 20, 6, 64] ++ List.replicate 32 0 ++
    sshHeader

/-- A tagged frame goes through maps that allow nothing, and SSH over IPv6 through
maps that allow everything but SSH. -/
theorem tagged_and_ipv6_unmediated :
    ¬ Mediated (bareMaps fun _ => none) taggedSsh ∧
      ¬ Mediated (bareMaps (allowOnly (0, 0) (6, 22))) ipv6Ssh := by
  constructor
  · intro h
    exact h 6 22 (by decide +kernel) (by decide +kernel) (by decide +kernel)
  · intro h
    exact h 6 22 (by decide +kernel) (by decide +kernel) (by decide +kernel)

end Caiman.Microseg
