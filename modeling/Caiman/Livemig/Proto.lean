import Caiman.Lib.Bytes
import Caiman.Lib.Json
import Caiman.Lib.Stream

/-!
# Migration wire protocol

Messages between the two nodes: a four-byte type, a four-byte length, both
big-endian, and the payload. The receiver reads the header, then as many bytes
as it names, and looks at the type only then.
-/

namespace Caiman.Livemig

open Lib

inductive MsgType
  | hello | ready | page | pause | vcpuState | done | running | error
  deriving DecidableEq, Repr

namespace MsgType

def toU32 : MsgType → UInt32
  | hello => 1
  | ready => 2
  | page => 3
  | pause => 4
  | vcpuState => 5
  | done => 6
  | running => 7
  | error => 8

def tryFrom (v : UInt32) : Option MsgType :=
  if v = 1 then some hello
  else if v = 2 then some ready
  else if v = 3 then some page
  else if v = 4 then some pause
  else if v = 5 then some vcpuState
  else if v = 6 then some done
  else if v = 7 then some running
  else if v = 8 then some error
  else none

@[simp] theorem tryFrom_toU32 (t : MsgType) : tryFrom t.toU32 = some t := by
  cases t <;> rfl

end MsgType

structure Msg where
  type : MsgType
  payload : List UInt8
  deriving DecidableEq, Repr

/-! ## Sending -/

def sendMsg (m : Msg) : List UInt8 :=
  beBytes 4 m.type.toU32.toNat ++ beBytes 4 (UInt32.ofNat m.payload.length).toNat ++ m.payload

/-- A call of one of the senders. -/
inductive Send
  | msg (type : MsgType) (payload : List UInt8)
  | hello (config : Json.Value)
  | ready
  | page (gpa : UInt64) (data : List UInt8)
  | pause
  | vcpuState (state : Json.Value)
  | done
  | running

def Send.toMsg (json : Json.Codec) : Send → Msg
  | .msg type payload => ⟨type, payload⟩
  | .hello config => ⟨.hello, json.toVec config⟩
  | .ready => ⟨.ready, []⟩
  | .page gpa data => ⟨.page, beBytes 8 gpa.toNat ++ data⟩
  | .pause => ⟨.pause, []⟩
  | .vcpuState state => ⟨.vcpuState, json.toVec state⟩
  | .done => ⟨.done, []⟩
  | .running => ⟨.running, []⟩

/-! ## Receiving -/

inductive RecvError
  | header
  | payload
  | unknown (v : UInt32)
  deriving DecidableEq, Repr

/-- `read_exact` on the bytes that are still to come. -/
def readExact (n : Nat) (stream : List UInt8) : Option (List UInt8 × List UInt8) :=
  if n ≤ stream.length then some (stream.take n, stream.drop n) else none

def recvMsg (stream : List UInt8) : Except RecvError (Msg × List UInt8) :=
  match readExact 8 stream with
  | none => .error .header
  | some (header, stream) =>
      let msgType := UInt32.ofNat (beNat (header.take 4))
      let payloadLen := UInt32.ofNat (beNat (header.drop 4))
      match (if 0 < payloadLen then readExact payloadLen.toNat stream else some ([], stream)) with
      | none => .error .payload
      | some (payload, stream) =>
          match MsgType.tryFrom msgType with
          | none => .error (.unknown msgType)
          | some t => .ok (⟨t, payload⟩, stream)

theorem readExact_append {n : Nat} {bytes : List UInt8} (h : bytes.length = n)
    (rest : List UInt8) : readExact n (bytes ++ rest) = some (bytes, rest) := by
  subst h
  simp [readExact]

theorem readExact_some {n : Nat} {stream bytes rest : List UInt8}
    (h : readExact n stream = some (bytes, rest)) : stream = bytes ++ rest ∧ bytes.length = n := by
  unfold readExact at h
  split at h
  · rename_i hle
    cases h
    exact ⟨(List.take_append_drop n stream).symm, by simpa using hle⟩
  · cases h

theorem recvMsg_progress {stream rest : List UInt8} {m : Msg}
    (h : recvMsg stream = .ok (m, rest)) : rest.length < stream.length := by
  unfold recvMsg at h
  split at h
  · cases h
  · rename_i header tail hheader
    obtain ⟨rfl, hlen⟩ := readExact_some hheader
    have htail : rest.length ≤ tail.length := by
      dsimp only at h
      split at h
      · cases h
      · rename_i payload left hpayload
        split at h
        · cases h
        · cases h
          split at hpayload
          · obtain ⟨rfl, -⟩ := readExact_some hpayload
            simp
          · cases hpayload
            exact Nat.le_refl _
    rw [List.length_append, hlen]
    omega

def receiver : Decoder Msg UInt8 RecvError where
  decode := recvMsg
  progress := recvMsg_progress

def recvAll (stream : List UInt8) : List Msg × RecvError := receiver.all stream

/-! ## Round trip -/

theorem sendMsg_length (m : Msg) : (sendMsg m).length = 8 + m.payload.length := by
  rw [sendMsg, List.length_append, List.length_append, beBytes_length, beBytes_length]

theorem recvMsg_header (t : MsgType) {n : Nat} (hn : n < 2 ^ 32) (tail : List UInt8) :
    recvMsg (beBytes 4 t.toU32.toNat ++ beBytes 4 n ++ tail) =
      if n ≤ tail.length then .ok (⟨t, tail.take n⟩, tail.drop n) else .error .payload := by
  have hread : readExact 8 (beBytes 4 t.toU32.toNat ++ beBytes 4 n ++ tail) =
      some (beBytes 4 t.toU32.toNat ++ beBytes 4 n, tail) := readExact_append (by simp) tail
  have htype : UInt32.ofNat (beNat ((beBytes 4 t.toU32.toNat ++ beBytes 4 n).take 4)) =
      t.toU32 := by
    rw [List.take_left' (beBytes_length _ _), beNat_beBytes (by simpa using t.toU32.toNat_lt)]
    exact UInt32.ofNat_toNat
  have hlen : UInt32.ofNat (beNat ((beBytes 4 t.toU32.toNat ++ beBytes 4 n).drop 4)) =
      UInt32.ofNat n := by
    rw [List.drop_left' (beBytes_length _ _), beNat_beBytes (by simpa using hn)]
  have hnat : (UInt32.ofNat n).toNat = n := UInt32.toNat_ofNat_of_lt' hn
  unfold recvMsg
  rw [hread]
  simp only [htype, hlen, MsgType.tryFrom_toU32]
  by_cases hpos : 0 < UInt32.ofNat n
  · rw [if_pos hpos, hnat, readExact]
    by_cases hle : n ≤ tail.length
    · simp [hle]
    · simp [hle]
  · have hzero : n = 0 := by
      rw [UInt32.lt_iff_toNat_lt, hnat] at hpos
      simpa using hpos
    subst hzero
    simp

theorem recvMsg_sendMsg {m : Msg} (hm : m.payload.length < 2 ^ 32) (rest : List UInt8) :
    recvMsg (sendMsg m ++ rest) = .ok (m, rest) := by
  rw [sendMsg, UInt32.toNat_ofNat_of_lt' hm, List.append_assoc _ m.payload, recvMsg_header _ hm]
  simp

/-- A message cut short is never taken for a message. -/
theorem recvMsg_cut {m : Msg} (hm : m.payload.length < 2 ^ 32) {front : List UInt8}
    (hfront : front <+: sendMsg m) (hne : front ≠ sendMsg m) :
    ∃ e, recvMsg front = .error e ∧ (e = .header ∨ e = .payload) := by
  have hlt : front.length < 8 + m.payload.length := by
    rw [← sendMsg_length]
    exact lt_of_le_of_ne hfront.length_le fun h => hne (hfront.eq_of_length h)
  by_cases hheader : front.length < 8
  · refine ⟨.header, ?_, Or.inl rfl⟩
    unfold recvMsg readExact
    rw [if_neg (Nat.not_le.mpr hheader)]
  · -- the header is whole and the payload is not
    rw [sendMsg, UInt32.toNat_ofNat_of_lt' hm] at hfront
    have hwhole : beBytes 4 m.type.toU32.toNat ++ beBytes 4 m.payload.length <+: front := by
      refine List.prefix_of_prefix_length_le (List.prefix_append _ _) hfront ?_
      simpa using Nat.not_lt.mp hheader
    obtain ⟨tail, rfl⟩ := hwhole
    have htail : ¬ m.payload.length ≤ tail.length := by
      simp only [List.length_append, beBytes_length] at hlt
      omega
    refine ⟨.payload, ?_, Or.inr rfl⟩
    rw [recvMsg_header _ hm, if_neg htail]

theorem receiver_undoes : receiver.Undoes sendMsg (fun m => m.payload.length < 2 ^ 32)
    (fun e => e = .header ∨ e = .payload) where
  whole hm rest := recvMsg_sendMsg hm rest
  cut hm _ hfront hne := recvMsg_cut hm hfront hne
  empty := ⟨.header, rfl, Or.inl rfl⟩

def wire (json : Json.Codec) (sends : List Send) : List UInt8 :=
  (sends.map (·.toMsg json)).flatMap sendMsg

/-- Whatever was sent is received, and a stream cut anywhere gives the messages
that end before the cut and then an error of a short read. -/
theorem framing_round_trip (json : Json.Codec) (sends : List Send)
    (hfit : ∀ send ∈ sends, (send.toMsg json).payload.length < 2 ^ 32) :
    (recvAll (wire json sends)).1 = sends.map (·.toMsg json) ∧
      ∀ front, front <+: wire json sends → front ≠ wire json sends →
        Decoder.Complete sendMsg (sends.map (·.toMsg json)) front (recvAll front).1 ∧
          ((recvAll front).2 = .header ∨ (recvAll front).2 = .payload) := by
  have hvalid : ∀ m ∈ sends.map (·.toMsg json), m.payload.length < 2 ^ 32 := by
    intro m hm
    obtain ⟨send, hsend, rfl⟩ := List.mem_map.mp hm
    exact hfit send hsend
  constructor
  · exact receiver_undoes.all_encoded hvalid
  · intro front hfront _
    exact receiver_undoes.all_prefix hvalid hfront

/-- A page whose data looks like a DONE header, between two other messages; the
stream is cut one byte before the end of the page. -/
theorem framing_round_trip_lookalike :
    let json : Json.Codec := .knowing (fun _ => []) [.object []]
    let sends : List Send := [.hello (.object []), .page 0x1000 [0, 0, 0, 6, 0, 0, 0, 0], .done]
    (wire json sends).length = 42 ∧
      Decoder.Complete sendMsg (sends.map (·.toMsg json))
        ((wire json sends).take 33) (recvAll ((wire json sends).take 33)).1 := by
  intro json sends
  refine ⟨by decide, ?_⟩
  exact ((framing_round_trip json sends (by decide)).2 _ (List.take_prefix _ _)
    (by decide)).1

end Caiman.Livemig
