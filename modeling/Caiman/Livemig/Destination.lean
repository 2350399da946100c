import Caiman.Lib.Run
import Caiman.Livemig.Proto

/-!
# Destination side

`receive_migration` on the messages of one connection. It insists on a HELLO
first and then takes messages in any order until a DONE.
-/

namespace Caiman.Livemig

open Lib

/-- Where the destination stands. `returned` carries whether it returned `Ok`. -/
inductive DestPc
  | handshake
  | receive
  | returned (ok : Bool)
  deriving DecidableEq, Repr

/-- `running` is set once RUNNING has been reported. -/
structure Destination where
  pc : DestPc
  pagesReceived : UInt64
  running : Bool
  deriving DecidableEq, Repr

namespace Destination

def new : Destination := ⟨.handshake, 0, false⟩

def giveUp (d : Destination) : Destination := { d with pc := .returned false }

/-- The destination on one message, with what it answers. -/
def handle (json : Json.Codec) (d : Destination) (m : Msg) : Destination × List Msg :=
  match d.pc with
  | .handshake =>
      if m.type = .hello ∧ (json.fromSlice m.payload).isSome then
        ({ d with pc := .receive }, [Send.ready.toMsg json])
      else (d.giveUp, [])
  | .receive =>
      match m.type with
      | .page =>
          -- a shorter payload is dropped without a word
          if 8 ≤ m.payload.length then ({ d with pagesReceived := d.pagesReceived + 1 }, [])
          else (d, [])
      | .pause => (d, [])
      | .vcpuState => if (json.fromSlice m.payload).isSome then (d, []) else (d.giveUp, [])
      | .done => ({ d with pc := .returned true, running := true }, [Send.running.toMsg json])
      | _ => (d, [])
  | .returned _ => (d, [])

def machine (json : Json.Codec) : Machine Destination Msg Msg where
  step := handle json

end Destination

end Caiman.Livemig
