import Caiman.Lib.History
import Mathlib.Logic.Function.Basic

/-!
# Console clients

What a browser types goes over a WebSocket to `handle_console`, from there over a Unix socket to
the console task of the VM, and by a channel that all clients share to the thread that writes to
the PTY. What the PTY puts out comes back over the same sockets. Bytes carry no client in the
channel; here a chunk is kept with the client it came from.
-/

namespace Caiman.Api.Console

open Lib

inductive Message
  | binary (data : List UInt8)
  | text (content : String)
  | ping
  | pong
  | close

/-- What `handle_console` writes to the Unix socket. -/
def Message.payload : Message → List UInt8
  | .binary data => data
  | .text content => content.toUTF8.toList
  | _ => []

inductive Relay
  | away
  | serving
  | ended
  deriving DecidableEq, Repr

variable {Client : Type} [DecidableEq Client]

/-- `toTask` and `toRelay` are the two directions of a client's Unix socket, `channel` the
`mpsc` channel to the write thread. -/
structure State (Client : Type) where
  relay : Client → Relay
  toTask : Client → List UInt8
  channel : List (Client × List UInt8)
  toRelay : Client → List UInt8

def State.new : State Client where
  relay _ := .away
  toTask _ := []
  channel := []
  toRelay _ := []

inductive Action (Client : Type)
  | connect (c : Client)
  /-- A message arrives, of which the socket takes so many bytes. -/
  | message (c : Client) (msg : Message) (accepted : Nat)
  | hangup (c : Client)
  /-- The console task reads what there is, up to its buffer. -/
  | read (c : Client) (available : Nat)
  /-- `libc::write`, and how many bytes it took. -/
  | write (taken : Nat)
  /-- The console task sends a client what the PTY put out. -/
  | put (c : Client) (data : List UInt8)
  /-- The relay reads what there is, up to its buffer, and sends it to the browser. -/
  | send (c : Client) (available : Nat) (ok : Bool)

inductive Event (Client : Type)
  | accepted (c : Client) (data : List UInt8)
  | refused (c : Client) (data : List UInt8)
  | wrote (c : Client) (data lost : List UInt8)
  | sent (c : Client) (data : List UInt8)
  | unsent (c : Client) (data : List UInt8)
  | putOut (c : Client) (data : List UInt8)
  deriving DecidableEq, Repr

/-- `[0u8; 256]` in the console task -/
def taskBuf : Nat := 256

/-- `[0u8; 1024]` in `handle_console` -/
def relayBuf : Nat := 1024

def step (s : State Client) : Action Client → State Client × List (Event Client)
  | .connect c =>
      match s.relay c with
      | .away => ({ s with relay := Function.update s.relay c .serving }, [])
      | _ => (s, [])
  | .message c msg accepted =>
      match s.relay c with
      | .serving =>
          let front := msg.payload.take accepted
          let back := msg.payload.drop accepted
          let s := { s with toTask := Function.update s.toTask c (s.toTask c ++ front) }
          if back = [] then (s, [.accepted c front])
          -- `write_all` fails: the loop is left
          else
            ({ s with relay := Function.update s.relay c .ended },
              [.accepted c front, .refused c back])
      | _ => (s, [])
  | .hangup c =>
      match s.relay c with
      | .serving => ({ s with relay := Function.update s.relay c .ended }, [])
      | _ => (s, [])
  | .read c available =>
      let n := min available taskBuf
      let chunk := (s.toTask c).take n
      if chunk = [] then (s, [])
      else
        ({ s with
            toTask := Function.update s.toTask c ((s.toTask c).drop n)
            channel := s.channel ++ [(c, chunk)] }, [])
  | .write taken =>
      match s.channel with
      | (c, chunk) :: rest =>
          ({ s with channel := rest }, [.wrote c (chunk.take taken) (chunk.drop taken)])
      | [] => (s, [])
  | .put c data =>
      match s.relay c with
      | .serving =>
          ({ s with toRelay := Function.update s.toRelay c (s.toRelay c ++ data) },
            [.putOut c data])
      | _ => (s, [])
  | .send c available ok =>
      match s.relay c with
      | .serving =>
          let n := min available relayBuf
          let chunk := (s.toRelay c).take n
          let s := { s with toRelay := Function.update s.toRelay c ((s.toRelay c).drop n) }
          if ok then (s, [.sent c chunk])
          else ({ s with relay := Function.update s.relay c .ended }, [.unsent c chunk])
      | _ => (s, [])

def console : Machine (State Client) (Action Client) (Event Client) where
  step := step

/-! ## What a client typed -/

/-- What the Unix socket took from the relay of the client. -/
def typed (c : Client) : Event Client → List UInt8
  | .accepted c' data => if c' = c then data else []
  | _ => []

/-- What came to the write thread from the client, written or not. -/
def handled (c : Client) : Event Client → List UInt8
  | .wrote c' data lost => if c' = c then data ++ lost else []
  | _ => []

def written (c : Client) : Event Client → List UInt8
  | .wrote c' data _ => if c' = c then data else []
  | _ => []

/-- What of a client's is between the relay and the write thread. -/
def State.underway (c : Client) (s : State Client) : List UInt8 :=
  (s.channel.flatMap fun chunk => if chunk.1 = c then chunk.2 else []) ++ s.toTask c

theorem step_underway (c : Client) (s : State Client) (a : Action Client) :
    s.underway c ++ (console.step s a).2.flatMap (typed c) =
      (console.step s a).2.flatMap (handled c) ++ (console.step s a).1.underway c := by
  cases a with
  | connect c' =>
      simp only [console, step]
      split <;> simp [State.underway]
  | hangup c' =>
      simp only [console, step]
      split <;> simp [State.underway]
  | put c' data =>
      simp only [console, step]
      split <;> simp [State.underway, typed, handled]
  | send c' available ok =>
      simp only [console, step]
      split
      · split <;> simp [State.underway, typed, handled]
      · simp
  | message c' msg accepted =>
      simp only [console, step]
      split
      · by_cases hc : c' = c
        · subst hc
          split <;> simp [State.underway, typed, handled]
        · split <;> simp [State.underway, typed, handled, hc, Function.update_of_ne (Ne.symm hc)]
      · simp
  | read c' available =>
      simp only [console, step]
      split
      · simp
      · by_cases hc : c' = c
        · subst hc
          simp [State.underway]
        · simp [State.underway, hc, Function.update_of_ne (Ne.symm hc)]
  | write taken =>
      simp only [console, step]
      cases hchannel : s.channel with
      | nil => simp
      | cons chunk rest =>
          by_cases hc : chunk.1 = c
          · simp [State.underway, typed, handled, hchannel, hc]
          · simp [State.underway, typed, handled, hchannel, hc]

def Event.Short (c : Client) : Event Client → Prop
  | .wrote c' _ lost => c' = c ∧ lost ≠ []
  | _ => False

theorem written_length_le (c : Client) (es : List (Event Client)) :
    (es.flatMap (written c)).length ≤ (es.flatMap (handled c)).length ∧
      ((es.flatMap (written c)).length = (es.flatMap (handled c)).length →
        ∀ e ∈ es, ¬ e.Short c) := by
  induction es with
  | nil => simp
  | cons e es ih =>
      obtain ⟨hle, hall⟩ := ih
      have hfirst : (written c e).length ≤ (handled c e).length ∧
          ((written c e).length = (handled c e).length → ¬ e.Short c) := by
        cases e with
        | wrote c' data lost =>
            simp only [written, handled, Event.Short]
            split
            · rename_i hc
              simp [hc]
            · rename_i hc
              simp [hc]
        | _ => simp [written, handled, Event.Short]
      simp only [List.flatMap_cons, List.length_append]
      refine ⟨by omega, ?_⟩
      intro hsame e' he'
      cases he' with
      | head => exact hfirst.2 (by omega)
      | tail _ he' => exact hall (by omega) e' he'

theorem written_of_whole {c : Client} {es : List (Event Client)} (h : ∀ e ∈ es, ¬ e.Short c) :
    es.flatMap (written c) = es.flatMap (handled c) := by
  induction es with
  | nil => rfl
  | cons e es ih =>
      rw [List.flatMap_cons, List.flatMap_cons, ih fun e' he' => h e' (List.mem_cons_of_mem _ he')]
      congr 1
      have hfirst := h e List.mem_cons_self
      cases e with
      | wrote c' data lost =>
          simp only [written, handled]
          split
          · rename_i hc
            have hlost : lost = [] := by
              by_contra hne
              exact hfirst ⟨hc, hne⟩
            rw [hlost, List.append_nil]
          · rfl
      | _ => rfl

def output (c : Client) : Event Client → List UInt8
  | .putOut c' data => if c' = c then data else []
  | _ => []

def relayed (c : Client) : Event Client → List UInt8
  | .sent c' data => if c' = c then data else []
  | .unsent c' data => if c' = c then data else []
  | _ => []

def shown (c : Client) : Event Client → List UInt8
  | .sent c' data => if c' = c then data else []
  | _ => []

theorem step_toRelay (c : Client) (s : State Client) (a : Action Client) :
    s.toRelay c ++ (console.step s a).2.flatMap (output c) =
      (console.step s a).2.flatMap (relayed c) ++ (console.step s a).1.toRelay c := by
  cases a with
  | connect c' =>
      simp only [console, step]
      split <;> simp
  | hangup c' =>
      simp only [console, step]
      split <;> simp
  | message c' msg accepted =>
      simp only [console, step]
      split
      · split <;> simp [output, relayed]
      · simp
  | read c' available =>
      simp only [console, step]
      split <;> simp
  | write taken =>
      simp only [console, step]
      split <;> simp [output, relayed]
  | put c' data =>
      simp only [console, step]
      split
      · by_cases hc : c' = c
        · subst hc
          simp [output, relayed]
        · simp [output, relayed, hc, Function.update_of_ne (Ne.symm hc)]
      · simp
  | send c' available ok =>
      simp only [console, step]
      split
      · by_cases hc : c' = c
        · subst hc
          split <;> simp [output, relayed]
        · split <;> simp [output, relayed, hc, Function.update_of_ne (Ne.symm hc)]
      · simp

/-- The browser was sent the front of what the relay read, and all of it as long as the relay
serves. -/
structure Shown (c : Client) (past : List (Event Client)) (s : State Client) : Prop where
  front : past.flatMap (shown c) <+: past.flatMap (relayed c)
  all : s.relay c ≠ .ended → past.flatMap (shown c) = past.flatMap (relayed c)

section Shown

variable {c : Client} {past : List (Event Client)} {s s' : State Client}

theorem Shown.extend (h : Shown c past s) {es : List (Event Client)}
    (hes : es.flatMap (shown c) = es.flatMap (relayed c))
    (hold : s.relay c = .ended → es.flatMap (shown c) = [])
    (hrelay : s'.relay c ≠ .ended → s.relay c ≠ .ended) : Shown c (past ++ es) s' := by
  constructor
  · rw [List.flatMap_append, List.flatMap_append, ← hes]
    by_cases hended : s.relay c = .ended
    · rw [hold hended, List.append_nil, List.append_nil]
      exact h.front
    · simp only [h.all hended, List.prefix_rfl]
  · intro hserving
    rw [List.flatMap_append, List.flatMap_append, h.all (hrelay hserving), hes]

theorem Shown.quiet (h : Shown c past s) {es : List (Event Client)}
    (hshown : es.flatMap (shown c) = []) (hrelayed : es.flatMap (relayed c) = [])
    (hrelay : s'.relay c ≠ .ended → s.relay c ≠ .ended) : Shown c (past ++ es) s' :=
  h.extend (hshown.trans hrelayed.symm) (fun _ => hshown) hrelay

theorem update_ended {c' : Client} {before after : Relay} (hbefore : s.relay c' = before)
    (hnot : before ≠ .ended) : Function.update s.relay c' after c ≠ .ended → s.relay c ≠ .ended := by
  intro h
  by_cases hc : c = c'
  · rwa [hc, hbefore]
  · rwa [Function.update_of_ne hc] at h

theorem step_shown (h : Shown c past s) (a : Action Client) :
    Shown c (past ++ (console.step s a).2) (console.step s a).1 := by
  cases a with
  | connect c' =>
      simp only [console, step]
      cases hrelay : s.relay c' with
      | away => exact h.quiet rfl rfl (update_ended hrelay (by decide))
      | serving => exact h.quiet rfl rfl id
      | ended => exact h.quiet rfl rfl id
  | hangup c' =>
      simp only [console, step]
      cases hrelay : s.relay c' with
      | serving => exact h.quiet rfl rfl (update_ended hrelay (by decide))
      | away => exact h.quiet rfl rfl id
      | ended => exact h.quiet rfl rfl id
  | message c' msg accepted =>
      simp only [console, step]
      cases hrelay : s.relay c' with
      | serving =>
          dsimp only
          split
          · exact h.quiet rfl rfl id
          · exact h.quiet rfl rfl (update_ended hrelay (by decide))
      | away => exact h.quiet rfl rfl id
      | ended => exact h.quiet rfl rfl id
  | read c' available =>
      simp only [console, step]
      split
      · exact h.quiet rfl rfl id
      · exact h.quiet rfl rfl id
  | write taken =>
      simp only [console, step]
      split
      · exact h.quiet rfl rfl id
      · exact h.quiet rfl rfl id
  | put c' data =>
      simp only [console, step]
      split
      · exact h.quiet rfl rfl id
      · exact h.quiet rfl rfl id
  | send c' available ok =>
      simp only [console, step]
      cases hrelay : s.relay c' with
      | away => exact h.quiet rfl rfl id
      | ended => exact h.quiet rfl rfl id
      | serving =>
          dsimp only
          split
          · refine h.extend rfl ?_ id
            intro hended
            have hc : c' ≠ c := by
              intro hc
              rw [← hc, hrelay] at hended
              cases hended
            simp [shown, hc]
          · by_cases hc : c' = c
            · -- the chunk that could not be sent is the last that was read
              have hall := h.all (by rw [← hc, hrelay]; decide)
              constructor
              · simp [shown, relayed, hc, hall]
              · intro hserving
                exact absurd (by simp [hc]) hserving
            · refine h.quiet rfl (by simp [relayed, hc]) (update_ended hrelay (by decide))

end Shown

/-- Over every run: the browser was sent the front of what the console task sent to the client's
socket, in order, and as long as the relay serves all but what the socket still holds. -/
theorem shown_in_order (as : List (Action Client)) (c : Client) :
    (console.run .new as).2.flatMap (shown c) <+: (console.run .new as).2.flatMap (output c) ∧
      ((console.run .new as).1.relay c ≠ .ended →
        (console.run .new as).2.flatMap (shown c) ++ (console.run .new as).1.toRelay c =
          (console.run .new as).2.flatMap (output c)) := by
  have hfifo := console.run_fifo (step_toRelay c) .new as
  have hstart : (State.new : State Client).toRelay c = [] := rfl
  rw [hstart, List.nil_append] at hfifo
  have hnew : Shown c [] (.new : State Client) := ⟨List.prefix_rfl, fun _ => rfl⟩
  have hshown := console.run_related (R := Shown c) (P := fun _ _ => True)
    (fun _ _ a h _ => step_shown h a) hnew (console.allSteps_of (fun _ _ => trivial) _ as)
  rw [hfifo]
  constructor
  · exact hshown.front.trans (List.prefix_append _ _)
  · intro hserving
    rw [hshown.all hserving]

end Caiman.Api.Console
