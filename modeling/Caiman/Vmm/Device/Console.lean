import Caiman.Vmm.Device.Serial

/-!
# Console input

The `serial-stdin` thread puts each byte of stdin into the receive buffer under
the lock, sets data-ready and the interrupt identification itself, and pulses
the irqfd four times, a millisecond apart, before the next byte. It looks at
neither the line status nor the interrupt enables. The guest's port accesses
fall between its steps in any order.
-/

namespace Caiman.Vmm

open Lib

/-- What the thread does to the UART with a byte of stdin. -/
def Serial.receive (s : Serial) (b : UInt8) : Serial :=
  { s with rbr := b, lsr := s.lsr ||| 0x01, iir := 0x04 }

/-- `stdin` is what the thread has not injected yet, `pulses` the irqfd writes
still due for the last byte. -/
structure Console where
  serial : Serial
  stdin : List UInt8
  pulses : Nat
  deriving DecidableEq, Repr

inductive ConsoleAction
  | write (port : UInt16) (data : UInt8)
  | read (port : UInt16)
  | stdinThread
  deriving DecidableEq, Repr

inductive ConsoleEvent
  | serial (e : SerialEvent)
  /-- the guest read the receive buffer -/
  | received (b : UInt8)
  deriving DecidableEq, Repr

namespace Console

/-- The UART as `main` sets it up, and what will arrive on stdin. -/
def start (stdin : List UInt8) : Console where
  serial := { Serial.new with irqfd := true }
  stdin := stdin
  pulses := 0

def stdinStep (s : Console) : Console × List ConsoleEvent :=
  match s.pulses, s.stdin with
  | pulses + 1, _ => ({ s with pulses := pulses }, [.serial .irqfd])
  | 0, b :: rest => ({ serial := s.serial.receive b, stdin := rest, pulses := 4 }, [])
  | 0, [] => (s, [])

def readStep (s : Console) (port : UInt16) : Console × List ConsoleEvent :=
  let (v, serial, es) := s.serial.readPort port
  ({ s with serial := serial },
    es.map .serial ++ if s.serial.AtData port then [.received v] else [])

def writeStep (s : Console) (port : UInt16) (data : UInt8) : Console × List ConsoleEvent :=
  let (serial, es) := s.serial.writePort port data
  ({ s with serial := serial }, es.map .serial)

def machine : Machine Console ConsoleAction ConsoleEvent where
  step s
    | .write port data => s.writeStep port data
    | .read port => s.readStep port
    | .stdinThread => s.stdinStep

/-- The thread's next step puts a byte into the receive buffer. -/
def Injects (s : Console) : Prop := s.pulses = 0 ∧ s.stdin ≠ []

instance (s : Console) : Decidable s.Injects := inferInstanceAs (Decidable (_ ∧ _))

theorem stdinStep_cases (s : Console) :
    (¬ s.Injects ∧ ∃ pulses es, s.stdinStep = ({ s with pulses := pulses }, es) ∧
      es ⊆ [.serial .irqfd]) ∨
    ∃ b rest, s.pulses = 0 ∧ s.stdin = b :: rest ∧
      s.stdinStep = ({ serial := s.serial.receive b, stdin := rest, pulses := 4 }, []) := by
  unfold stdinStep
  split
  · rename_i pulses _ h
    exact Or.inl ⟨fun hi => by simp [hi.1] at h, _, _, rfl, fun _ => id⟩
  · rename_i b rest hp hs
    exact Or.inr ⟨b, rest, hp, hs, rfl⟩
  · rename_i hs
    exact Or.inl ⟨fun hi => hi.2 hs, s.pulses, [], rfl, List.nil_subset _⟩

end Console

/-! ## Interrupt identification -/

namespace Serial

/-- Data waiting with its interrupt enabled is reported, and no interrupt is
reported whose cause is absent or disabled. -/
structure Truthful (s : Serial) : Prop where
  pending : s.dataReady → s.rdiEnabled → s.iir ≠ iirNoInt
  rdi : s.iir = iirRdi → s.dataReady ∧ s.rdiEnabled
  thri : s.iir = iirThri → s.thriEnabled

theorem updateIrq_iir (s : Serial) :
    (s.thriEnabled ∧ s.updateIrq.1.iir = iirThri) ∨
      (s.rdiEnabled ∧ s.dataReady ∧ s.updateIrq.1.iir = iirRdi) ∨
      (¬ (s.rdiEnabled ∧ s.dataReady) ∧ s.updateIrq.1.iir = iirNoInt) := by
  by_cases hthri : s.ier &&& ierThri ≠ 0 ∧ s.lsr &&& lsrThre ≠ 0
  · exact Or.inl ⟨hthri.1, if_pos hthri⟩
  · by_cases hrdi : s.ier &&& ierRdi ≠ 0 ∧ s.lsr &&& lsrDr ≠ 0
    · exact Or.inr (Or.inl ⟨hrdi.1, hrdi.2, (if_neg hthri).trans (if_pos hrdi)⟩)
    · exact Or.inr (Or.inr ⟨hrdi, (if_neg hthri).trans (if_neg hrdi)⟩)

theorem updateIrq_truthful (s : Serial) : s.updateIrq.1.Truthful := by
  rcases s.updateIrq_iir with ⟨hen, hiir⟩ | ⟨hen, hdata, hiir⟩ | ⟨hnone, hiir⟩
  · constructor
    · intro _ _
      rw [hiir]
      decide
    · intro h
      rw [hiir] at h
      cases h
    · exact fun _ => hen
  · constructor
    · intro _ _
      rw [hiir]
      decide
    · exact fun _ => ⟨hdata, hen⟩
    · intro h
      rw [hiir] at h
      cases h
  · constructor
    · exact fun hdata hen => absurd ⟨hen, hdata⟩ hnone
    · intro h
      rw [hiir] at h
      cases h
    · intro h
      rw [hiir] at h
      cases h

theorem Truthful.congr {s t : Serial} (hs : s.Truthful) (hier : t.ier = s.ier)
    (hlsr : t.lsr = s.lsr) (hiir : t.iir = s.iir) : t.Truthful := by
  constructor
  · simpa only [dataReady, rdiEnabled, hier, hlsr, hiir] using hs.pending
  · simpa only [dataReady, rdiEnabled, hier, hlsr, hiir] using hs.rdi
  · simpa only [thriEnabled, hier, hiir] using hs.thri

theorem start_truthful (stdin : List UInt8) : (Console.start stdin).serial.Truthful := by
  constructor
  · intro h
    have hempty : ¬ (lsrThre ||| lsrTemt) &&& lsrDr ≠ 0 := by decide
    exact absurd h hempty
  · intro h
    cases h
  · intro h
    cases h

theorem writePort_truthful {s : Serial} (hs : s.Truthful) (port : UInt16) (data : UInt8) :
    (s.writePort port data).1.Truthful := by
  by_cases h : s.AtData port
  · rw [writePort_data h]
    exact updateIrq_truthful _
  · rcases writePort_other h data with hw | ⟨_, _, _, _, _, _, hw⟩
    · rw [hw]
      exact updateIrq_truthful _
    · rw [hw]
      exact hs.congr rfl rfl rfl

/-- The read reports and drops a transmitter interrupt. -/
def ClearsThri (s : Serial) (port : UInt16) : Prop :=
  port - serialBase = 2 ∧ s.iir = iirThri

instance (s : Serial) (port : UInt16) : Decidable (s.ClearsThri port) :=
  inferInstanceAs (Decidable (_ ∧ _))

/-- A read of the interrupt identification that drops a transmitter interrupt does
not look for data waiting behind it. -/
theorem readPort_truthful {s : Serial} (hs : s.Truthful) (port : UInt16) :
    (s.readPort port).2.1.Truthful ↔
      (s.ClearsThri port → ¬ (s.dataReady ∧ s.rdiEnabled)) := by
  by_cases h : s.AtData port
  · rw [readPort_data h]
    refine iff_of_true (updateIrq_truthful _) ?_
    intro hclears
    have hzero := hclears.1
    rw [(atData_iff.mp h).1] at hzero
    cases hzero
  · rcases readPort_other h with hr | ⟨hport, hiir, hr⟩
    · rw [hr]
      refine iff_of_true hs ?_
      intro hclears
      have hread : (s.readPort port).2.1.iir = iirNoInt := by
        simp only [readPort, hclears.1, hclears.2, if_pos]
      rw [hr, hclears.2] at hread
      cases hread
    · rw [hr]
      constructor
      · intro ht _ hdata
        exact ht.pending hdata.1 hdata.2 rfl
      · intro hquiet
        constructor
        · exact fun hdata hen => absurd ⟨hdata, hen⟩ (hquiet ⟨hport, hiir⟩)
        · intro h
          cases h
        · intro h
          cases h

/-- The injection claims a receive interrupt whether or not it is enabled. -/
theorem receive_truthful (s : Serial) (b : UInt8) :
    (s.receive b).Truthful ↔ s.rdiEnabled := by
  constructor
  · exact fun h => (h.rdi rfl).2
  · intro hen
    constructor
    · intro _ _ h
      cases h
    · exact fun _ => ⟨set_dr s.lsr, hen⟩
    · intro h
      cases h

end Serial

namespace Console

/-- The step is not one of the two that set the interrupt identification without
`update_irq`: an injection with the receive interrupt disabled, or a read that drops a
transmitter interrupt while data waits with its interrupt enabled. -/
def Sound (s : Console) : ConsoleAction → Prop
  | .write _ _ => True
  | .read port => s.serial.ClearsThri port → ¬ (s.serial.dataReady ∧ s.serial.rdiEnabled)
  | .stdinThread => s.Injects → s.serial.rdiEnabled

instance (s : Console) (a : ConsoleAction) : Decidable (s.Sound a) := by
  cases a <;> unfold Sound <;> infer_instance

theorem step_truthful (s : Console) (a : ConsoleAction) (hs : s.serial.Truthful) :
    (machine.step s a).1.serial.Truthful ↔ s.Sound a := by
  cases a with
  | write port data => exact iff_of_true (Serial.writePort_truthful hs port data) trivial
  | read port => exact Serial.readPort_truthful hs port
  | stdinThread =>
      rcases s.stdinStep_cases with ⟨hnone, _, _, hstep, -⟩ | ⟨b, rest, hp, hin, hstep⟩
      · change s.stdinStep.1.serial.Truthful ↔ _
        rw [hstep]
        exact iff_of_true hs (fun hi => absurd hi hnone)
      · have hinjects : s.Injects := ⟨hp, by rw [hin]; exact List.cons_ne_nil _ _⟩
        change s.stdinStep.1.serial.Truthful ↔ (s.Injects → _)
        rw [hstep, Serial.receive_truthful, forall_prop_of_true hinjects]

/-- Along every interleaving of guest accesses and injections, the interrupt
identification stays truthful exactly as long as every step is sound. -/
theorem truthful_iff_sound (stdin : List UInt8) (as : List ConsoleAction) :
    (∀ pre, pre <+: as → (machine.run (start stdin) pre).1.serial.Truthful) ↔
      machine.AllSteps Sound (start stdin) as :=
  machine.prefixes_iff_allSteps step_truthful (Serial.start_truthful stdin) as

/-- With both interrupts enabled, a byte arrives behind a transmitter interrupt that
the guest then acknowledges. -/
def maskedInput : List ConsoleAction :=
  [.write (serialBase + 1) 0x03, .stdinThread, .write (serialBase + 1) 0x03, .read (serialBase + 2)]

theorem maskedInput_silent :
    ¬ ∀ pre, pre <+: maskedInput → (machine.run (start [0x61]) pre).1.serial.Truthful := by
  intro h
  exact (h maskedInput (List.prefix_refl _)).pending (by decide) (by decide) (by decide)

end Console

end Caiman.Vmm
