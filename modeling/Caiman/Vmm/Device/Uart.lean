import Mathlib.Data.Nat.Bitwise
import Caiman.Vmm.Device.Console

/-!
# Output of the UART

One UART whose guest writes and reads any register, while bytes of stdin are put into
the receive buffer and the output is flushed from outside. What reaches stdout and what
still waits is what the guest wrote to the transmit register.
-/

namespace Caiman.Vmm

open Lib

namespace Serial

inductive UartAction
  | write (port : UInt16) (data : UInt8)
  | read (port : UInt16)
  | receive (b : UInt8)
  | flush
  deriving DecidableEq, Repr

def machine : Machine Serial UartAction SerialEvent where
  step s
    | .write port data => s.writePort port data
    | .read port => (s.readPort port).2
    | .receive b => (s.receive b, [])
    | .flush => s.flush

/-- The UART as it is made, with or without an eventfd attached to it. -/
def start (irqfd : Bool) : Serial := { new with irqfd := irqfd }

/-- The divisor latch is in front of the first two registers, as bit 7 of the last write
to the line control register has it. -/
def latched (dlab : Bool) : UartAction → Bool
  | .write port data => if port = serialBase + 3 then data.toNat.testBit 7 else dlab
  | _ => dlab

/-- The byte written to the transmit register, if one is. -/
def thrWrite (dlab : Bool) : UartAction → List UInt8
  | .write port data => if port = serialBase ∧ dlab = false then [data] else []
  | _ => []

def thrWrites : Bool → List UartAction → List UInt8
  | _, [] => []
  | dlab, a :: as => thrWrite dlab a ++ thrWrites (latched dlab a) as

/-- Less than 64 bytes wait, and no newline among them. -/
def Buffered (s : Serial) : Prop := s.output.length < 64 ∧ 10 ∉ s.output

theorem flush_buffered (s : Serial) : s.flush.1.Buffered := by
  rw [Buffered, (flush_account s).2]
  exact ⟨by decide, List.not_mem_nil⟩

theorem transmitByte_buffered {s : Serial} (h : s.Buffered) (b : UInt8) :
    (s.transmitByte b).1.Buffered := by
  obtain ⟨hlen, hline⟩ := h
  simp only [transmitByte]
  split
  · exact flush_buffered _
  · rename_i hkept
    rw [not_or, Nat.not_le] at hkept
    refine ⟨hkept.2, ?_⟩
    intro hmem
    rcases List.mem_append.mp hmem with hold | hnew
    · exact hline hold
    · exact hkept.1 (List.mem_singleton.mp hnew).symm

theorem Buffered.congr {s t : Serial} (h : s.Buffered) (hout : t.output = s.output) :
    t.Buffered := by
  rwa [Buffered, hout]

theorem writePort_buffered {s : Serial} (h : s.Buffered) (port : UInt16) (data : UInt8) :
    (s.writePort port data).1.Buffered := by
  by_cases hport : s.AtData port
  · rw [writePort_data hport]
    exact (transmitByte_buffered h data).congr rfl
  · rcases writePort_other hport data with hw | ⟨_, _, _, _, _, _, hw⟩
    · rw [hw]
      exact h.congr rfl
    · rw [hw]
      exact h.congr rfl

theorem step_buffered (s : Serial) (a : UartAction) (h : s.Buffered) :
    (machine.step s a).1.Buffered := by
  cases a with
  | write port data => exact writePort_buffered h port data
  | read port => exact h.congr (readPort_account s port).2
  | receive b => exact h.congr rfl
  | flush => exact flush_buffered s

/-! ## Divisor latch -/

theorem sub_serialBase_iff {port : UInt16} (reg : UInt16) :
    port - serialBase = reg ↔ port = serialBase + reg := by
  constructor
  · intro h
    rw [← h, UInt16.add_comm, UInt16.sub_add_cancel]
  · intro h
    rw [h, UInt16.add_comm, UInt16.add_sub_cancel]

theorem dlab_bit (data : UInt8) : (data &&& 0x80 != 0) = data.toNat.testBit 7 := by
  have hbit : (data &&& 0x80).toNat = (data.toNat.testBit 7).toNat * 2 ^ 7 := by
    rw [UInt8.toNat_and]
    exact Nat.and_two_pow _ 7
  cases h : data.toNat.testBit 7 with
  | true =>
      rw [bne_iff_ne, ne_eq, ← UInt8.toNat_inj, hbit, h]
      decide
  | false =>
      rw [bne_eq_false_iff_eq, ← UInt8.toNat_inj, hbit, h]
      rfl

theorem flush_dlab (s : Serial) : s.flush.1.dlab = s.dlab := by
  unfold flush
  split <;> rfl

theorem transmitByte_dlab (s : Serial) (b : UInt8) : (s.transmitByte b).1.dlab = s.dlab := by
  simp only [transmitByte]
  split
  · exact flush_dlab _
  · rfl

theorem writePort_dlab (s : Serial) (port : UInt16) (data : UInt8) :
    (s.writePort port data).1.dlab = latched s.dlab (.write port data) := by
  rw [latched]
  by_cases hport : port = serialBase + 3
  · have hreg : port - serialBase = 3 := (sub_serialBase_iff 3).mpr hport
    rw [if_pos hport, writePort, hreg]
    exact dlab_bit data
  · have hreg : port - serialBase ≠ 3 := fun h => hport ((sub_serialBase_iff 3).mp h)
    rw [if_neg hport]
    unfold writePort
    split
    · split
      · rfl
      · exact transmitByte_dlab s data
    · split <;> rfl
    · rfl
    · rename_i h
      exact absurd h hreg
    all_goals rfl

theorem readPort_dlab (s : Serial) (port : UInt16) : (s.readPort port).2.1.dlab = s.dlab := by
  by_cases h : s.AtData port
  · rw [readPort_data h]
    rfl
  · rcases readPort_other h with hr | ⟨-, -, hr⟩
    · rw [hr]
    · rw [hr]

theorem step_dlab (s : Serial) (a : UartAction) :
    (machine.step s a).1.dlab = latched s.dlab a := by
  cases a with
  | write port data => exact writePort_dlab s port data
  | read port => exact readPort_dlab s port
  | receive b => rfl
  | flush => exact flush_dlab s

/-! ## Account -/

theorem step_account (s : Serial) (a : UartAction) :
    printed (machine.step s a).2 ++ (machine.step s a).1.output =
      s.output ++ thrWrite s.dlab a := by
  cases a with
  | write port data => exact writePort_account s port data
  | read port =>
      obtain ⟨hprinted, hout⟩ := readPort_account s port
      change printed (s.readPort port).2.2 ++ (s.readPort port).2.1.output = _
      rw [hprinted, hout]
      exact (List.append_nil _).symm
  | receive b => exact (List.append_nil _).symm
  | flush =>
      obtain ⟨hprinted, hempty⟩ := flush_account s
      change printed s.flush.2 ++ s.flush.1.output = _
      rw [hprinted, hempty]
      rfl

theorem run_account (s : Serial) (as : List UartAction) :
    printed (machine.run s as).2 ++ (machine.run s as).1.output =
      s.output ++ thrWrites s.dlab as := by
  induction as generalizing s with
  | nil => exact (List.append_nil _).symm
  | cons a as ih =>
      rw [Machine.run_cons, printed_append, List.append_assoc, ih, ← List.append_assoc,
        step_account, step_dlab, List.append_assoc]
      rfl

/-- Whatever the guest does to the registers, and whenever stdin arrives or the output is
flushed: what was printed, followed by what waits, is what was written to the transmit
register, and what waits is less than 64 bytes without a newline. -/
theorem output_accounted (irqfd : Bool) (as : List UartAction) :
    let r := machine.run (start irqfd) as
    printed r.2 ++ r.1.output = thrWrites false as ∧ r.1.output.length < 64 ∧ 10 ∉ r.1.output := by
  have hstart : (start irqfd).Buffered := ⟨Nat.zero_lt_succ 63, List.not_mem_nil⟩
  exact ⟨run_account (start irqfd) as, machine.run_inductive step_buffered hstart as⟩

end Serial

end Caiman.Vmm
