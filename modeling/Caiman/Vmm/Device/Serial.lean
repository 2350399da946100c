import Caiman.Lib.Run

/-!
# 16550A UART

Registers of `ttyS0`. `transmit_byte` collects guest output and hands it to
stdout on a newline or when 64 bytes are waiting; `update_irq` derives the
interrupt identification register and pulses the irqfd.
-/

namespace Caiman.Vmm

def serialBase : UInt16 := 0x3f8

def lsrDr : UInt8 := 0x01
def lsrThre : UInt8 := 0x20
def lsrTemt : UInt8 := 0x40

def ierRdi : UInt8 := 0x01
def ierThri : UInt8 := 0x02

def iirNoInt : UInt8 := 0x01
def iirThri : UInt8 := 0x02
def iirRdi : UInt8 := 0x04

/-- What the UART does to its surroundings: a write to the irqfd, or bytes
handed to stdout. -/
inductive SerialEvent
  | irqfd
  | stdout (bytes : List UInt8)
  deriving DecidableEq, Repr

structure Serial where
  rbr : UInt8
  ier : UInt8
  iir : UInt8
  lcr : UInt8
  mcr : UInt8
  lsr : UInt8
  msr : UInt8
  scr : UInt8
  dll : UInt8
  dlm : UInt8
  dlab : Bool
  output : List UInt8
  /-- an eventfd is attached -/
  irqfd : Bool
  deriving DecidableEq, Repr

namespace Serial

def new : Serial where
  rbr := 0
  ier := 0
  iir := iirNoInt
  lcr := 0
  mcr := 0
  lsr := lsrThre ||| lsrTemt
  msr := 0
  scr := 0
  dll := 0
  dlm := 0
  dlab := false
  output := []
  irqfd := false

def updateIrq (s : Serial) : Serial × List SerialEvent :=
  let iir :=
    if s.ier &&& ierThri ≠ 0 ∧ s.lsr &&& lsrThre ≠ 0 then iirThri
    else if s.ier &&& ierRdi ≠ 0 ∧ s.lsr &&& lsrDr ≠ 0 then iirRdi
    else iirNoInt
  ({ s with iir := iir }, if iir ≠ iirNoInt ∧ s.irqfd = true then [.irqfd] else [])

def flush (s : Serial) : Serial × List SerialEvent :=
  if s.output = [] then (s, []) else ({ s with output := [] }, [.stdout s.output])

def transmitByte (s : Serial) (b : UInt8) : Serial × List SerialEvent :=
  let s := { s with output := s.output ++ [b] }
  if b = 10 ∨ 64 ≤ s.output.length then s.flush else (s, [])

def writePort (s : Serial) (port : UInt16) (data : UInt8) : Serial × List SerialEvent :=
  match port - serialBase with
  | 0 =>
      if s.dlab then ({ s with dll := data }, [])
      else
        let (s, sent) := s.transmitByte data
        let s := { s with lsr := s.lsr &&& ~~~lsrThre }
        let s := { s with lsr := s.lsr &&& ~~~lsrTemt }
        let s := { s with lsr := s.lsr ||| (lsrThre ||| lsrTemt) }
        let (s, pulse) := s.updateIrq
        (s, sent ++ pulse)
  | 1 => if s.dlab then ({ s with dlm := data }, []) else { s with ier := data }.updateIrq
  | 2 => (s, [])
  | 3 => ({ s with lcr := data, dlab := data &&& 0x80 != 0 }, [])
  | 4 => ({ s with mcr := data }, [])
  | 7 => ({ s with scr := data }, [])
  | _ => (s, [])

def readPort (s : Serial) (port : UInt16) : UInt8 × Serial × List SerialEvent :=
  match port - serialBase with
  | 0 =>
      if s.dlab then (s.dll, s, [])
      else (s.rbr, { s with lsr := s.lsr &&& ~~~lsrDr }.updateIrq)
  | 1 => (if s.dlab then s.dlm else s.ier, s, [])
  | 2 => (s.iir, if s.iir = iirThri then { s with iir := iirNoInt } else s, [])
  | 3 => (s.lcr, s, [])
  | 4 => (s.mcr, s, [])
  | 5 => (s.lsr, s, [])
  | 6 => (s.msr, s, [])
  | 7 => (s.scr, s, [])
  | _ => (0xFF, s, [])

/-! ## Register by register -/

def dataReady (s : Serial) : Prop := s.lsr &&& lsrDr ≠ 0

def rdiEnabled (s : Serial) : Prop := s.ier &&& ierRdi ≠ 0

def thriEnabled (s : Serial) : Prop := s.ier &&& ierThri ≠ 0

instance (s : Serial) : Decidable s.dataReady := inferInstanceAs (Decidable (_ ≠ _))
instance (s : Serial) : Decidable s.rdiEnabled := inferInstanceAs (Decidable (_ ≠ _))
instance (s : Serial) : Decidable s.thriEnabled := inferInstanceAs (Decidable (_ ≠ _))

/-- The access reaches the receive buffer or the transmit register, not the
divisor latch. -/
def AtData (s : Serial) (port : UInt16) : Prop := port = serialBase ∧ s.dlab = false

instance (s : Serial) (port : UInt16) : Decidable (s.AtData port) :=
  inferInstanceAs (Decidable (_ ∧ _))

/-- The line status after a byte is sent: empty, busy and empty again. -/
def resent (lsr : UInt8) : UInt8 :=
  ((lsr &&& ~~~lsrThre) &&& ~~~lsrTemt) ||| (lsrThre ||| lsrTemt)

theorem resent_dr (lsr : UInt8) : resent lsr &&& lsrDr = lsr &&& lsrDr := by
  have hmask : ~~~lsrThre &&& (~~~lsrTemt &&& lsrDr) = lsrDr := by decide
  have hset : (lsrThre ||| lsrTemt) &&& lsrDr = 0 := by decide
  have hdistrib : ∀ x y z : UInt8, (x ||| y) &&& z = (x &&& z) ||| (y &&& z) :=
    fun _ _ _ => UInt8.eq_of_toBitVec_eq BitVec.and_or_distrib_right
  rw [resent, hdistrib, hset, UInt8.or_zero, UInt8.and_assoc, UInt8.and_assoc, hmask]

theorem clear_dr (lsr : UInt8) : (lsr &&& ~~~lsrDr) &&& lsrDr = 0 := by
  rw [UInt8.and_assoc, show ~~~lsrDr &&& lsrDr = 0 by decide, UInt8.and_zero]

theorem set_dr (lsr : UInt8) : (lsr ||| lsrDr) &&& lsrDr ≠ 0 := by
  have hbit : ((lsr ||| lsrDr) &&& lsrDr).toBitVec[0] = true := by simp [lsrDr]
  intro h
  rw [h] at hbit
  cases hbit

theorem atData_iff {s : Serial} {port : UInt16} :
    s.AtData port ↔ port - serialBase = 0 ∧ s.dlab = false := by
  have hport : port - serialBase = 0 ↔ port = serialBase := by
    constructor
    · intro h
      rw [← UInt16.sub_add_cancel port serialBase, h, UInt16.zero_add]
    · intro h
      rw [h, UInt16.sub_self]
  rw [AtData, hport]

theorem writePort_data {s : Serial} {port : UInt16} (h : s.AtData port) (data : UInt8) :
    s.writePort port data =
      (({ (s.transmitByte data).1 with lsr := resent (s.transmitByte data).1.lsr }).updateIrq.1,
        (s.transmitByte data).2 ++
          ({ (s.transmitByte data).1 with
            lsr := resent (s.transmitByte data).1.lsr }).updateIrq.2) := by
  obtain ⟨hport, hdlab⟩ := atData_iff.mp h
  simp only [writePort, hport, hdlab, resent]
  rfl

theorem writePort_other {s : Serial} {port : UInt16} (h : ¬ s.AtData port) (data : UInt8) :
    s.writePort port data = { s with ier := data }.updateIrq ∨
      ∃ lcr mcr scr dll dlm dlab, s.writePort port data =
        ({ s with
            lcr := lcr, mcr := mcr, scr := scr, dll := dll, dlm := dlm, dlab := dlab }, []) := by
  unfold writePort
  split
  · rename_i hport
    cases hdlab : s.dlab with
    | true => exact Or.inr ⟨_, _, _, _, _, _, by rw [if_pos rfl]⟩
    | false => exact absurd (atData_iff.mpr ⟨hport, hdlab⟩) h
  · cases hdlab : s.dlab with
    | true => exact Or.inr ⟨_, _, _, _, _, _, by rw [if_pos rfl]⟩
    | false => exact Or.inl (by rw [if_neg Bool.false_ne_true])
  all_goals exact Or.inr ⟨_, _, _, _, _, _, rfl⟩

theorem readPort_data {s : Serial} {port : UInt16} (h : s.AtData port) :
    s.readPort port = (s.rbr, { s with lsr := s.lsr &&& ~~~lsrDr }.updateIrq) := by
  obtain ⟨hport, hdlab⟩ := atData_iff.mp h
  simp only [readPort, hport, hdlab]
  rfl

theorem readPort_other {s : Serial} {port : UInt16} (h : ¬ s.AtData port) :
    (s.readPort port).2 = (s, []) ∨
      port - serialBase = 2 ∧ s.iir = iirThri ∧
        (s.readPort port).2 = ({ s with iir := iirNoInt }, []) := by
  unfold readPort
  split
  · rename_i hport
    cases hdlab : s.dlab with
    | true => exact Or.inl rfl
    | false => exact absurd (atData_iff.mpr ⟨hport, hdlab⟩) h
  · exact Or.inl rfl
  · rename_i hport
    by_cases hiir : s.iir = iirThri
    · exact Or.inr ⟨hport, hiir, by rw [if_pos hiir]⟩
    · exact Or.inl (by rw [if_neg hiir])
  all_goals exact Or.inl rfl

/-! ## Output -/

def printed (es : List SerialEvent) : List UInt8 :=
  es.flatMap fun
    | .stdout bytes => bytes
    | .irqfd => []

@[simp] theorem printed_nil : printed [] = [] := rfl

@[simp] theorem printed_append (es fs : List SerialEvent) :
    printed (es ++ fs) = printed es ++ printed fs := List.flatMap_append

@[simp] theorem printed_updateIrq (s : Serial) : printed s.updateIrq.2 = [] := by
  have hpulse : ∀ p : Prop, [Decidable p] → printed (if p then [.irqfd] else []) = [] := by
    intro p _
    split <;> rfl
  exact hpulse _

@[simp] theorem output_updateIrq (s : Serial) : s.updateIrq.1.output = s.output := rfl

theorem flush_account (s : Serial) : printed s.flush.2 = s.output ∧ s.flush.1.output = [] := by
  unfold flush
  split
  · rename_i h
    exact ⟨h.symm, h⟩
  · exact ⟨List.append_nil _, rfl⟩

theorem transmitByte_account (s : Serial) (b : UInt8) :
    printed (s.transmitByte b).2 ++ (s.transmitByte b).1.output = s.output ++ [b] := by
  simp only [transmitByte]
  split
  · obtain ⟨hprinted, hempty⟩ := flush_account { s with output := s.output ++ [b] }
    rw [hprinted, hempty, List.append_nil]
  · rfl

theorem writePort_account (s : Serial) (port : UInt16) (data : UInt8) :
    printed (s.writePort port data).2 ++ (s.writePort port data).1.output =
      s.output ++ if s.AtData port then [data] else [] := by
  by_cases h : s.AtData port
  · rw [writePort_data h, if_pos h]
    simp [transmitByte_account]
  · rw [if_neg h]
    rcases writePort_other h data with hw | ⟨_, _, _, _, _, _, hw⟩
    · rw [hw]
      simp
    · rw [hw]
      simp

theorem readPort_account (s : Serial) (port : UInt16) :
    printed (s.readPort port).2.2 = [] ∧ (s.readPort port).2.1.output = s.output := by
  by_cases h : s.AtData port
  · rw [readPort_data h]
    exact ⟨printed_updateIrq _, rfl⟩
  · rcases readPort_other h with hr | ⟨-, -, hr⟩
    · rw [hr]
      exact ⟨rfl, rfl⟩
    · rw [hr]
      exact ⟨rfl, rfl⟩

/-! ## Input -/

theorem transmitByte_input (s : Serial) (b : UInt8) :
    (s.transmitByte b).1.rbr = s.rbr ∧ (s.transmitByte b).1.lsr = s.lsr := by
  simp only [transmitByte, flush]
  split
  · split <;> exact ⟨rfl, rfl⟩
  · exact ⟨rfl, rfl⟩

theorem writePort_input (s : Serial) (port : UInt16) (data : UInt8) :
    (s.writePort port data).1.rbr = s.rbr ∧
      ((s.writePort port data).1.dataReady ↔ s.dataReady) := by
  by_cases h : s.AtData port
  · rw [writePort_data h]
    obtain ⟨hrbr, hlsr⟩ := transmitByte_input s data
    refine ⟨hrbr, ?_⟩
    change resent (s.transmitByte data).1.lsr &&& lsrDr ≠ 0 ↔ _
    rw [resent_dr, hlsr, dataReady]
  · rcases writePort_other h data with hw | ⟨_, _, _, _, _, _, hw⟩
    · rw [hw]
      exact ⟨rfl, Iff.rfl⟩
    · rw [hw]
      exact ⟨rfl, Iff.rfl⟩

theorem readPort_input (s : Serial) (port : UInt16) :
    (s.readPort port).2.1.rbr = s.rbr ∧
      ((s.readPort port).2.1.dataReady ↔ s.dataReady ∧ ¬ s.AtData port) := by
  by_cases h : s.AtData port
  · rw [readPort_data h]
    refine ⟨rfl, iff_of_false ?_ (fun hr => hr.2 h)⟩
    exact fun hready => hready (clear_dr s.lsr)
  · rcases readPort_other h with hr | ⟨-, -, hr⟩
    · rw [hr]
      exact ⟨rfl, (and_iff_left h).symm⟩
    · rw [hr]
      exact ⟨rfl, (and_iff_left h).symm⟩

end Serial

end Caiman.Vmm
