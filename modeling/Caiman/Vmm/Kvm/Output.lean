import Caiman.Vmm.Kvm.Vcpu

/-!
# Console output at VM exit

Guest output waits in the UART until a newline, a 64th byte or the flush behind
`run_loop`. Only the first byte of an OUT is transmitted. Nothing comes back to
the flush from the power-off port, from a dataplane thread that takes the process
down, or when the process is ended from outside.
-/

namespace Caiman.Vmm

open Lib Blk Net

namespace Process

open Devices

variable {s : Process} {as : List VmmAction}

def printedBy : VmmEvent → List UInt8
  | .serial (.stdout bytes) => bytes
  | _ => []

def transmittedBy : VmmEvent → List UInt8
  | .transmitted bytes => bytes
  | _ => []

def printed (es : List VmmEvent) : List UInt8 := es.flatMap printedBy

/-- What the guest wrote to the transmit register with DLAB clear. -/
def transmitted (es : List VmmEvent) : List UInt8 := es.flatMap transmittedBy

/-- The process is gone, or every vCPU thread is past its flush. -/
def Stopped (s : Process) : Prop := s.ended ≠ none ∨ ∀ id < s.cpus, s.phase id = .left

def Runs (s : Process) (id : Nat) : Prop :=
  s.ended = none ∧ id < s.cpus ∧ s.phase id = .running

/-- The dataplane of the block device panics in its next step, as with a queue of size 0, or
leaves its mapping. -/
def BlkHalts (s : Process) (io : Transfer) : Prop :=
  ∃ blk ∈ s.devices.vblk, ∃ why, ((s.blkSystem blk).dataplaneStep io).1.pc = .halted why

def NetHalts (s : Process) (packet : List UInt8) : Prop :=
  ∃ why, (s.netSystem.dataplaneStep packet).1.pc = .halted why

/-- An OUT to the transmit register carries one byte, and no output waits when the power-off
port is written, when a dataplane goes down and when the process is ended from outside. -/
def Spares (s : Process) : VmmAction → Prop
  | .vcpu id (.exit (.ioOut port _ rest)) => s.Runs id →
      (s.devices.serial.AtData port → rest = []) ∧
      (port = powerOff → s.devices.serial.output = [])
  | .blkDataplane io => s.ended = none → s.BlkHalts io → s.devices.serial.output = []
  | .netDataplane packet => s.ended = none → s.NetHalts packet → s.devices.serial.output = []
  | .kill => s.ended = none → s.devices.serial.output = []
  | _ => True

instance (s : Process) (id : Nat) : Decidable (s.Runs id) :=
  inferInstanceAs (Decidable (_ ∧ _ ∧ _))

instance (pc : BlkPc) : Decidable (∃ why, pc = .halted why) :=
  match pc with
  | .halted why => .isTrue ⟨why, rfl⟩
  | .wait | .poll | .serve _ _ | .complete _ _ | .inject => .isFalse nofun

instance (pc : NetPc) : Decidable (∃ why, pc = .halted why) :=
  match pc with
  | .halted why => .isTrue ⟨why, rfl⟩
  | .tx _ | .rx | .inject | .sleep => .isFalse nofun

instance (s : Process) (io : Transfer) : Decidable (s.BlkHalts io) :=
  inferInstanceAs (Decidable (∃ blk ∈ s.devices.vblk, _))

instance (s : Process) (packet : List UInt8) : Decidable (s.NetHalts packet) :=
  inferInstanceAs (Decidable (∃ _, _))

instance (s : Process) (a : VmmAction) : Decidable (s.Spares a) := by
  unfold Spares
  split <;> infer_instance

/-- Output on its way to stdout. A process that is gone holds none. -/
def waiting (s : Process) : List UInt8 :=
  if s.ended = none then s.devices.serial.output else []

/-- The selector of the network device names a queue, so that no register access panics. -/
def Selects (s : Process) : Prop :=
  s.devices.vnet.queueSel = 0 ∨ s.devices.vnet.queueSel = 1

end Process

/-! ## Devices -/

namespace Net.NetState

theorem mmioWrite_selects {s : NetState} (hsel : s.queueSel = 0 ∨ s.queueSel = 1)
    (offset : UInt64) (val : UInt32) :
    ∃ s', s.mmioWrite offset val = .ok s' ∧ (s'.queueSel = 0 ∨ s'.queueSel = 1) := by
  have hqueue : ∀ f, ∃ s', s.onQueue f = .ok s' ∧ (s'.queueSel = 0 ∨ s'.queueSel = 1) := by
    intro f
    obtain ⟨i, hi⟩ := onQueue_eq hsel f
    exact ⟨_, hi, hsel⟩
  unfold mmioWrite
  cases Reg.decode offset with
  | none => exact ⟨s, rfl, hsel⟩
  | some r =>
      cases r
      case driverFeatures =>
          dsimp only
          split <;> exact ⟨_, rfl, hsel⟩
      case queueSel => exact ⟨_, rfl, and_one_eq val⟩
      all_goals first
        | exact hqueue _
        | exact ⟨_, rfl, hsel⟩

theorem mmioRead_selects {s : NetState} (hsel : s.queueSel = 0 ∨ s.queueSel = 1)
    (offset : UInt64) : ∃ val, s.mmioRead offset = .ok val := by
  have hindex : ∃ i, queueIndex s.queueSel = .ok i := by
    rcases hsel with h | h
    · exact ⟨0, by rw [h]; rfl⟩
    · exact ⟨1, by rw [h]; rfl⟩
  obtain ⟨i, hi⟩ := hindex
  unfold mmioRead
  cases Reg.decode offset with
  | none =>
      dsimp only
      split
      · split <;> exact ⟨_, rfl⟩
      · exact ⟨_, rfl⟩
  | some r =>
      cases r
      case devFeatures =>
          dsimp only
          split <;> exact ⟨_, rfl⟩
      case queueReady => exact ⟨_, by rw [hi]; rfl⟩
      all_goals exact ⟨_, rfl⟩

end Net.NetState

theorem Net.NetSystem.dataplaneStep_queueSel (s : NetSystem) (packet : List UInt8) :
    (s.dataplaneStep packet).1.state.queueSel = s.state.queueSel := by
  unfold dataplaneStep
  cases s.pc with
  | tx locked =>
      rcases s.txStep_cases with
        ⟨why, h⟩ | h | ⟨head, q, -, ⟨why, buf, h⟩ | ⟨chain, buf, added, q', mem, -, -, -, h⟩⟩
      all_goals simp only [h, withQueue]
  | rx =>
      rcases s.rxStep_cases packet with
        ⟨why, h⟩ | h | ⟨frame, head, q, -, -, ⟨why, mem, h⟩ |
          ⟨chain, written, mem, -, -, ⟨-, h⟩ | ⟨-, added, q', mem', -, h⟩⟩⟩
      all_goals simp only [h, withQueue]
  | inject => rfl
  | sleep => rfl
  | halted why => rfl

namespace Process

open Devices

variable {s : Process} {as : List VmmAction} {d d' : Devices} {es : List VmmEvent}

@[simp] theorem printed_append (es fs : List VmmEvent) :
    printed (es ++ fs) = printed es ++ printed fs := List.flatMap_append

@[simp] theorem printed_serial (es : List SerialEvent) :
    printed (es.map .serial) = Serial.printed es := by
  induction es with
  | nil => rfl
  | cons e es ih =>
      change printedBy (.serial e) ++ printed (es.map .serial) = Serial.printed ([e] ++ es)
      rw [ih, Serial.printed_append]
      cases e with
      | irqfd => rfl
      | stdout bytes => simp [printedBy, Serial.printed]

@[simp] theorem transmitted_serial (es : List SerialEvent) :
    transmitted (es.map .serial) = [] := by
  induction es with
  | nil => rfl
  | cons e es ih => exact ih

theorem transmitted_kicks (n : Nat) : transmitted (List.replicate n .kick) = [] :=
  List.flatMap_eq_nil_iff.mpr fun e he => by
    rw [List.eq_of_mem_replicate he]
    rfl

theorem printed_kicks (n : Nat) : printed (List.replicate n .kick) = [] :=
  List.flatMap_eq_nil_iff.mpr fun e he => by
    rw [List.eq_of_mem_replicate he]
    rfl

@[simp] theorem transmitted_dataplane (es : List Event) :
    transmitted (es.map .dataplane) = [] := by
  induction es with
  | nil => rfl
  | cons e es ih => exact ih

@[simp] theorem printed_dataplane (es : List Event) : printed (es.map .dataplane) = [] := by
  induction es with
  | nil => rfl
  | cons e es ih => exact ih

theorem atSerial_base : atSerial serialBase = true := by decide

theorem atPci_base : atPci serialBase = false := by decide

/-- The bytes of an OUT to the transmit register behind the first. -/
def unsent (d : Devices) : VcpuExit → List UInt8
  | .ioOut port _ rest => if d.serial.AtData port then rest else []
  | _ => []

/-- A handler that returns passes on what the exit brought but for `unsent`, and adds no
transmitted bytes of its own. -/
structure Passes (d : Devices) (e : VcpuExit) (d' : Devices) (es : List VmmEvent) : Prop where
  output : ∃ kept, printed es ++ d'.serial.output = d.serial.output ++ kept ∧
    sent d e = kept ++ unsent d e
  quiet : transmitted es = []
  selects : d'.vnet.queueSel = 0 ∨ d'.vnet.queueSel = 1

theorem passes_of_same {e : VcpuExit} (hsel : d'.vnet.queueSel = 0 ∨ d'.vnet.queueSel = 1)
    (hserial : d'.serial = d.serial) (hprinted : printed es = []) (hquiet : transmitted es = [])
    (hsent : sent d e = []) (hunsent : unsent d e = []) : Passes d e d' es where
  output := ⟨[], by rw [hprinted, hserial]; simp, by rw [hsent, hunsent]; rfl⟩
  quiet := hquiet
  selects := hsel

theorem handleIoOut_passes (hsel : d.vnet.queueSel = 0 ∨ d.vnet.queueSel = 1) {port : UInt16}
    {first : UInt8} {rest : List UInt8} (h : d.handleIoOut port first rest = .ok (d', es)) :
    Passes d (.ioOut port first rest) d' es := by
  have hother : atSerial port = false ∨ atPci port = true → ¬ d.serial.AtData port := by
    intro hnot hat
    rw [hat.1, atSerial_base, atPci_base] at hnot
    rcases hnot with hnot | hnot <;> cases hnot
  unfold handleIoOut at h
  split at h
  · rename_i hpci
    cases h
    exact passes_of_same hsel rfl rfl rfl (if_neg (hother (Or.inr hpci)))
      (if_neg (hother (Or.inr hpci)))
  · split at h
    · cases h
      refine ⟨⟨if d.serial.AtData port then [first] else [], ?_, ?_⟩, transmitted_serial _, hsel⟩
      · rw [printed_serial]
        exact d.serial.writePort_account port first
      · simp only [sent, unsent]
        split <;> rfl
    · rename_i hserial
      rw [Bool.not_eq_true] at hserial
      split at h
      · cases h
      · cases h
        exact passes_of_same hsel rfl rfl rfl (if_neg (hother (Or.inl hserial)))
          (if_neg (hother (Or.inl hserial)))

theorem handleIoOut_error {port : UInt16} {first : UInt8} {rest : List UInt8} {ending : Ending}
    (h : d.handleIoOut port first rest = .error ending) : port = powerOff := by
  unfold handleIoOut at h
  split at h
  · cases h
  · split at h
    · cases h
    · split at h
      · assumption
      · cases h

theorem handleIoIn_passes (hsel : d.vnet.queueSel = 0 ∨ d.vnet.queueSel = 1) (port : UInt16)
    (buf : List UInt8) :
    Passes d (.ioIn port buf) (d.handleIoIn port buf).2.1 (d.handleIoIn port buf).2.2 := by
  unfold handleIoIn
  split
  · exact passes_of_same hsel rfl rfl rfl rfl rfl
  · split
    · obtain ⟨hprinted, houtput⟩ := d.serial.readPort_account port
      refine ⟨⟨[], ?_, rfl⟩, transmitted_serial _, hsel⟩
      rw [printed_serial, hprinted, List.append_nil]
      exact houtput
    · exact passes_of_same hsel rfl rfl rfl rfl rfl

theorem deviceWrite_passes (hsel : d.vnet.queueSel = 0 ∨ d.vnet.queueSel = 1) {addr : UInt64}
    {data : List UInt8} (hnone : sent d (.mmioWrite addr data) = []) :
    ∃ d' es, d.deviceWrite addr data = .ok (d', es) ∧ Passes d (.mmioWrite addr data) d' es := by
  have hnet : ∃ d' es, d.netWrite addr data = .ok (d', es) ∧
      Passes d (.mmioWrite addr data) d' es := by
    unfold netWrite
    split
    · obtain ⟨vnet, hwrite, hnext⟩ := NetState.mmioWrite_selects hsel (addr - virtioNetMmioBase)
        (val32 data)
      rw [hwrite]
      exact ⟨_, _, rfl, passes_of_same hnext rfl rfl rfl hnone rfl⟩
    · exact ⟨_, _, rfl, passes_of_same hsel rfl rfl rfl hnone rfl⟩
  unfold deviceWrite
  split
  · split
    · exact ⟨_, _, rfl, passes_of_same hsel rfl (printed_kicks _) (transmitted_kicks _) hnone rfl⟩
    · exact hnet
  · exact hnet

theorem handleMmioWrite_passes (hsel : d.vnet.queueSel = 0 ∨ d.vnet.queueSel = 1)
    (addr : UInt64) (data : List UInt8) :
    ∃ d' es, d.handleMmioWrite addr data = .ok (d', es) ∧
      Passes d (.mmioWrite addr data) d' es := by
  cases data with
  | nil =>
      refine deviceWrite_passes hsel ?_
      simp only [sent]
      split <;> rfl
  | cons b rest =>
      simp only [handleMmioWrite]
      by_cases hpage : inUart addr = true
      · rw [if_pos hpage]
        refine ⟨_, _, rfl, ⟨if d.serial.AtData serialBase then [b] else [], ?_, ?_⟩,
          transmitted_serial _, hsel⟩
        · rw [printed_serial]
          exact d.serial.writePort_account serialBase b
        · simp only [sent, unsent, hpage, true_and, Serial.AtData]
          split <;> rfl
      · rw [if_neg hpage]
        exact deviceWrite_passes hsel (if_neg fun h => hpage h.1)

theorem handleMmioRead_ok (hsel : d.vnet.queueSel = 0 ∨ d.vnet.queueSel = 1) (addr : UInt64)
    (buf : List UInt8) : ∃ vals, d.handleMmioRead addr buf = .ok vals := by
  have hnet : ∃ vals, d.netRead addr buf = .ok vals := by
    unfold netRead
    split
    · obtain ⟨val, hread⟩ := NetState.mmioRead_selects hsel (addr - virtioNetMmioBase)
      exact ⟨_, by rw [hread]⟩
    · exact ⟨_, rfl⟩
  unfold handleMmioRead
  split
  · split
    · exact ⟨_, rfl⟩
    · exact hnet
  · exact hnet

theorem handle_passes (hsel : d.vnet.queueSel = 0 ∨ d.vnet.queueSel = 1) {e : VcpuExit}
    (h : handle d e = some (.ok (d', es))) : Passes d e d' es := by
  cases e with
  | ioIn port buf =>
      have hpass := handleIoIn_passes hsel port buf
      rwa [Except.ok.inj (Option.some.inj h)] at hpass
  | ioOut port first rest => exact handleIoOut_passes hsel (Option.some.inj h)
  | mmioRead addr buf =>
      obtain ⟨vals, hread⟩ := handleMmioRead_ok hsel addr buf
      simp only [handle, hread, Except.map] at h
      cases h
      exact passes_of_same hsel rfl rfl rfl rfl rfl
  | mmioWrite addr data =>
      obtain ⟨d₁, es₁, hwrite, hpass⟩ := handleMmioWrite_passes hsel addr data
      simp only [handle, hwrite] at h
      cases h
      exact hpass
  | hlt =>
      cases h
      exact passes_of_same hsel rfl rfl rfl rfl rfl
  | shutdown => cases h
  | systemEvent event => cases h
  | other =>
      cases h
      exact passes_of_same hsel rfl rfl rfl rfl rfl

theorem handle_error (hsel : d.vnet.queueSel = 0 ∨ d.vnet.queueSel = 1) {e : VcpuExit}
    {ending : Ending} (h : handle d e = some (.error ending)) :
    ∃ first rest, e = .ioOut powerOff first rest := by
  cases e with
  | ioIn port buf => cases h
  | ioOut port first rest => exact ⟨first, rest, by rw [handleIoOut_error (Option.some.inj h)]⟩
  | mmioRead addr buf =>
      obtain ⟨vals, hread⟩ := handleMmioRead_ok hsel addr buf
      simp only [handle, hread, Except.map] at h
      cases h
  | mmioWrite addr data =>
      obtain ⟨d₁, es₁, hwrite, -⟩ := handleMmioWrite_passes hsel addr data
      simp only [handle, hwrite] at h
      cases h
  | hlt => cases h
  | shutdown => cases h
  | systemEvent event => cases h
  | other => cases h

/-! ## Steps -/

theorem Spares.of_not_runs {id : Nat} {run : KvmRun} (h : ¬ s.Runs id) :
    s.Spares (.vcpu id run) := by
  cases run with
  | interrupted => trivial
  | failed => trivial
  | exit e =>
      cases e with
      | ioOut port first rest => exact fun hruns => absurd hruns h
      | _ => trivial

/-- Nothing is lost in the step if it spares the output, something is if not. -/
structure Accounted (s : Process) (a : VmmAction) (next : Process × List VmmEvent) : Prop where
  kept : s.Spares a → s.waiting ++ transmitted next.2 = printed next.2 ++ next.1.waiting
  lost : ¬ s.Spares a →
    (printed next.2 ++ next.1.waiting).length < (s.waiting ++ transmitted next.2).length

theorem accounted_idle {a : VmmAction} {next : Process} (hspares : s.Spares a)
    (hwait : next.waiting = s.waiting) : Accounted s a (next, []) where
  kept _ := by
    rw [hwait]
    exact List.append_nil _
  lost h := absurd hspares h

theorem stdin_accounted (hlive : s.ended = none) :
    Accounted s .stdinThread (machine.step s .stdinThread) := by
  have hstep : machine.step s .stdinThread =
      ({ s with devices := { s.devices with console := s.devices.console.stdinStep.1 } },
        s.devices.console.stdinStep.2.flatMap consoleEvent) := by
    simp only [machine, hlive]
  have hquiet : ∀ es : List ConsoleEvent, es ⊆ [.serial .irqfd] →
      printed (es.flatMap consoleEvent) = [] ∧ transmitted (es.flatMap consoleEvent) = [] := by
    intro es hes
    have hall : ∀ e ∈ es.flatMap consoleEvent, e = .serial .irqfd := by
      intro e he
      obtain ⟨c, hc, hmem⟩ := List.mem_flatMap.mp he
      rw [List.mem_singleton.mp (hes hc)] at hmem
      exact List.mem_singleton.mp hmem
    constructor
    · exact List.flatMap_eq_nil_iff.mpr fun e he => by rw [hall e he]; rfl
    · exact List.flatMap_eq_nil_iff.mpr fun e he => by rw [hall e he]; rfl
  have hmain : printed (s.devices.console.stdinStep.2.flatMap consoleEvent) = [] ∧
      transmitted (s.devices.console.stdinStep.2.flatMap consoleEvent) = [] ∧
      s.devices.console.stdinStep.1.serial.output = s.devices.serial.output := by
    rcases s.devices.console.stdinStep_cases with ⟨-, _, es, hcase, hes⟩ | ⟨b, rest, -, -, hcase⟩
    · rw [hcase]
      exact ⟨(hquiet es hes).1, (hquiet es hes).2, rfl⟩
    · rw [hcase]
      exact ⟨rfl, rfl, rfl⟩
  obtain ⟨hprinted, htransmitted, houtput⟩ := hmain
  rw [hstep]
  constructor
  · intro _
    rw [hprinted, htransmitted, List.append_nil]
    simp only [waiting, hlive, if_true, List.nil_append]
    exact houtput.symm
  · exact fun h => absurd trivial h

theorem powerOff_not_data (d : Devices) : ¬ d.serial.AtData powerOff := by
  intro h
  exact absurd h.1 (by decide)

theorem spares_iff_unsent {id : Nat} (hruns : s.Runs id) {e : VcpuExit}
    (h : handle s.devices e = some (.ok (d', es))) :
    s.Spares (.vcpu id (.exit e)) ↔ unsent s.devices e = [] := by
  cases e with
  | ioOut port first rest =>
      have hport : port ≠ powerOff := by
        rintro rfl
        have hends : s.devices.handleIoOut powerOff first rest = .error .exited := rfl
        simp only [handle, hends] at h
        cases h
      simp only [Spares, hruns, true_implies, hport, false_implies, and_true, unsent]
      by_cases hat : s.devices.serial.AtData port
      · simp [hat]
      · simp [hat]
  | ioIn port buf => exact iff_of_true trivial rfl
  | mmioRead addr buf => exact iff_of_true trivial rfl
  | mmioWrite addr data => exact iff_of_true trivial rfl
  | hlt => exact iff_of_true trivial rfl
  | shutdown => exact iff_of_true trivial rfl
  | systemEvent event => exact iff_of_true trivial rfl
  | other => exact iff_of_true trivial rfl

theorem spares_of_waitsForNet {id : Nat} {e : VcpuExit} (h : s.waitsForNet e = true) :
    s.Spares (.vcpu id (.exit e)) := by
  cases e with
  | ioOut port first rest => cases h
  | _ => trivial

theorem exit_accounted (hsel : s.Selects) {id : Nat} (hruns : s.Runs id) (e : VcpuExit) :
    Accounted s (.vcpu id (.exit e)) (s.runStep id (.exit e)) := by
  have hwait : s.waiting = s.devices.serial.output := if_pos hruns.1
  by_cases hlock : s.waitsForNet e = true
  · simp only [runStep, if_pos hlock]
    exact accounted_idle (spares_of_waitsForNet hlock) rfl
  cases h : handle s.devices e with
  | none =>
      have hspares : s.Spares (.vcpu id (.exit e)) := by
        cases e with
        | ioOut port first rest => cases h
        | _ => trivial
      simp only [runStep, if_neg hlock, h]
      exact accounted_idle hspares rfl
  | some result =>
      cases result with
      | error ending =>
          obtain ⟨first, rest, rfl⟩ := handle_error hsel h
          have hspares : s.Spares (.vcpu id (.exit (.ioOut powerOff first rest))) ↔
              s.devices.serial.output = [] := by
            simp only [Spares, hruns, true_implies, powerOff_not_data, false_implies, true_and]
          simp only [runStep, if_neg hlock, h]
          constructor
          · intro hs
            rw [hwait, hspares.mp hs]
            rfl
          · intro hs
            have hlost : s.devices.serial.output ≠ [] := fun hempty => hs (hspares.mpr hempty)
            rw [hwait]
            change 0 < (s.devices.serial.output ++ []).length
            rw [List.append_nil]
            exact List.length_pos_iff.mpr hlost
      | ok pair =>
          obtain ⟨devices, es⟩ := pair
          have hpass := handle_passes hsel h
          obtain ⟨kept, hkept, hsent⟩ := hpass.output
          have hnext : ({ s with
              devices := devices
              disk := { s.disk with kick := s.disk.kick + es.count .kick } } : Process).waiting =
                devices.serial.output := if_pos hruns.1
          have hin : transmitted (.transmitted (sent s.devices e) :: es) = sent s.devices e := by
            change sent s.devices e ++ transmitted es = _
            rw [hpass.quiet, List.append_nil]
          have hout : printed (.transmitted (sent s.devices e) :: es) = printed es := rfl
          simp only [runStep, if_neg hlock, h]
          constructor
          · intro hs
            rw [(spares_iff_unsent hruns h).mp hs, List.append_nil] at hsent
            rw [hin, hout, hwait, hnext, hsent, hkept]
          · intro hs
            have hlost : unsent s.devices e ≠ [] :=
              fun he => hs ((spares_iff_unsent hruns h).mpr he)
            have hpos := List.length_pos_iff.mpr hlost
            rw [hin, hout, hwait, hnext, hsent, hkept]
            simp only [List.length_append]
            omega

theorem flush_accounted {a : VmmAction} {id : Nat} (hlive : s.ended = none)
    (hspares : s.Spares a) : Accounted s a (s.flushStep id) where
  kept _ := by
    obtain ⟨hprinted, hempty⟩ := s.devices.serial.flush_account
    have hwait : s.waiting = s.devices.serial.output := if_pos hlive
    have hnext : (s.flushStep id).1.waiting = [] := (if_pos hlive).trans hempty
    rw [hwait, hnext]
    simp only [flushStep, printed_serial, transmitted_serial, hprinted]
  lost h := absurd hspares h

/-- A step outside of the vCPUs that ends the process loses what waits, and no other one does. -/
theorem ends_accounted {a : VmmAction} {next : Process} {es : List VmmEvent} {ends : Prop}
    (hlive : s.ended = none) (hspares : s.Spares a ↔ (ends → s.devices.serial.output = []))
    (hquiet : printed es = [] ∧ transmitted es = [])
    (hgone : ends → next.ended ≠ none)
    (hstays : ¬ ends → next.ended = none ∧ next.devices.serial = s.devices.serial) :
    Accounted s a (next, es) := by
  have hwait : s.waiting = s.devices.serial.output := if_pos hlive
  by_cases hends : ends
  · have hnext : next.waiting = [] := if_neg (hgone hends)
    constructor
    · intro h
      rw [hquiet.1, hquiet.2, hnext, hwait, hspares.mp h hends]
    · intro h
      have hlost : s.devices.serial.output ≠ [] := fun hempty => h (hspares.mpr fun _ => hempty)
      rw [hquiet.1, hquiet.2, hnext, hwait, List.append_nil, List.append_nil]
      exact List.length_pos_iff.mpr hlost
  · obtain ⟨hnone, hserial⟩ := hstays hends
    have hnext : next.waiting = s.waiting := by
      rw [hwait, waiting, if_pos hnone, hserial]
    constructor
    · intro _
      rw [hquiet.1, hquiet.2, hnext, List.append_nil, List.nil_append]
    · exact fun h => absurd (hspares.mpr fun h' => absurd h' hends) h

theorem withBlk_ended (s : Process) (b : BlkSystem) :
    (s.withBlk b).ended = none ↔ s.ended = none ∧ ¬ ∃ why, b.pc = .halted why := by
  simp only [withBlk]
  cases b.pc with
  | halted why => simp
  | _ => simp

theorem withNet_ended (s : Process) (n : NetSystem) :
    (s.withNet n).ended = none ↔ s.ended = none ∧ ¬ ∃ why, n.pc = .halted why := by
  simp only [withNet]
  cases n.pc with
  | halted why => simp
  | _ => simp

theorem blkStep_accounted (hlive : s.ended = none) (io : Transfer) :
    Accounted s (.blkDataplane io) (s.blkStep io) := by
  have hspares : s.Spares (.blkDataplane io) ↔
      (s.BlkHalts io → s.devices.serial.output = []) := by
    simp only [Spares, hlive, true_implies]
  cases hblk : s.devices.vblk with
  | none =>
      have hnever : ¬ s.BlkHalts io := by
        rintro ⟨blk, hmem, -⟩
        rw [hblk] at hmem
        cases hmem
      simp only [blkStep, hblk]
      exact accounted_idle (hspares.mpr fun h => absurd h hnever) rfl
  | some blk =>
      have hhalts : s.BlkHalts io ↔
          ∃ why, ((s.blkSystem blk).dataplaneStep io).1.pc = .halted why := by
        simp only [BlkHalts, hblk, Option.mem_some_iff, exists_eq_left']
      simp only [blkStep, hblk]
      refine ends_accounted hlive hspares ⟨printed_dataplane _, transmitted_dataplane _⟩ ?_ ?_
      · intro h hnone
        exact ((withBlk_ended _ _).mp hnone).2 (hhalts.mp h)
      · intro h
        exact ⟨(withBlk_ended _ _).mpr ⟨hlive, fun hh => h (hhalts.mpr hh)⟩, rfl⟩

theorem netStep_accounted (hlive : s.ended = none) (packet : List UInt8) :
    Accounted s (.netDataplane packet) (s.netStep packet) := by
  have hspares : s.Spares (.netDataplane packet) ↔
      (s.NetHalts packet → s.devices.serial.output = []) := by
    simp only [Spares, hlive, true_implies]
  refine ends_accounted hlive hspares ⟨printed_dataplane _, transmitted_dataplane _⟩ ?_ ?_
  · intro h hnone
    exact ((withNet_ended _ _).mp hnone).2 h
  · intro h
    exact ⟨(withNet_ended _ _).mpr ⟨hlive, h⟩, rfl⟩

theorem step_accounted (hsel : s.Selects) (a : VmmAction) :
    Accounted s a (machine.step s a) := by
  cases hended : s.ended with
  | some ending =>
      have hstep : machine.step s a = (s, []) := by simp only [machine, hended]
      have hgone : s.ended ≠ none := by
        rw [hended]
        exact Option.some_ne_none ending
      rw [hstep]
      refine accounted_idle ?_ rfl
      cases a with
      | stdinThread => trivial
      | vcpu id run => exact Spares.of_not_runs fun hruns => absurd hruns.1 hgone
      | store addr data => trivial
      | blkDataplane io => exact fun h => absurd h hgone
      | netDataplane packet => exact fun h => absurd h hgone
      | kill => exact fun h => absurd h hgone
  | none =>
      cases a with
      | stdinThread => exact stdin_accounted hended
      | vcpu id run =>
          by_cases hid : id < s.cpus
          · cases hphase : s.phase id with
            | running =>
                have hstep : machine.step s (.vcpu id run) = s.runStep id run := by
                  simp only [machine, hended, if_pos hid, hphase]
                rw [hstep]
                cases run with
                | exit e => exact exit_accounted hsel ⟨hended, hid, hphase⟩ e
                | interrupted => exact accounted_idle trivial rfl
                | failed => exact accounted_idle trivial rfl
            | leaving =>
                have hstep : machine.step s (.vcpu id run) = s.flushStep id := by
                  simp only [machine, hended, if_pos hid, hphase]
                rw [hstep]
                refine flush_accounted hended (Spares.of_not_runs fun hruns => ?_)
                cases hphase.symm.trans hruns.2.2
            | left =>
                have hstep : machine.step s (.vcpu id run) = (s, []) := by
                  simp only [machine, hended, if_pos hid, hphase]
                rw [hstep]
                refine accounted_idle (Spares.of_not_runs fun hruns => ?_) rfl
                cases hphase.symm.trans hruns.2.2
          · have hstep : machine.step s (.vcpu id run) = (s, []) := by
              simp only [machine, hended, if_neg hid]
            rw [hstep]
            exact accounted_idle (Spares.of_not_runs fun hruns => hid hruns.2.1) rfl
      | store addr data =>
          have hstep : machine.step s (.store addr data) =
              ({ s with mem := s.mem.store addr data }, []) := by simp only [machine, hended]
          rw [hstep]
          exact accounted_idle trivial rfl
      | blkDataplane io =>
          simp only [machine, hended]
          exact blkStep_accounted hended io
      | netDataplane packet =>
          simp only [machine, hended]
          exact netStep_accounted hended packet
      | kill =>
          simp only [machine, hended]
          have hspares : s.Spares .kill ↔ (True → s.devices.serial.output = []) := by
            simp only [Spares, hended, true_implies]
          refine ends_accounted hended hspares ⟨rfl, rfl⟩ ?_ ?_
          · exact fun _ h => nomatch h
          · exact fun h => absurd trivial h

/-- The selector is sound, and output waits only while some vCPU still has its flush
before it. -/
structure Sound (s : Process) : Prop where
  selects : s.Selects
  drains : s.ended = none → s.devices.serial.output ≠ [] → ∃ id < s.cpus, s.phase id ≠ .left

theorem boot_sound (stdin : List UInt8) (mac : Fin 6 → UInt8) (vblk : Option BlkState)
    (mem : GuestMemory) (image : Image) (cpus : Nat) :
    (boot stdin mac vblk mem image cpus).Sound where
  selects := Or.inl rfl
  drains _ h := absurd rfl h

theorem runStep_sound (hs : s.Sound) {id : Nat} (hruns : s.Runs id) (run : KvmRun) :
    (s.runStep id run).1.Sound := by
  have hleaving : (s.moveTo id .leaving).Sound := by
    refine ⟨hs.selects, fun _ _ => ⟨id, hruns.2.1, ?_⟩⟩
    change Function.update s.phase id .leaving id ≠ .left
    rw [Function.update_self]
    intro h
    cases h
  cases run with
  | interrupted => exact hs
  | failed => exact hleaving
  | exit e =>
      by_cases hlock : s.waitsForNet e = true
      · simp only [runStep, if_pos hlock]
        exact hs
      cases h : handle s.devices e with
      | none =>
          simp only [runStep, if_neg hlock, h]
          exact hleaving
      | some result =>
          cases result with
          | error ending =>
              simp only [runStep, if_neg hlock, h]
              exact ⟨hs.selects, fun hnone => by cases hnone⟩
          | ok pair =>
              simp only [runStep, if_neg hlock, h]
              refine ⟨(handle_passes hs.selects h).selects, fun _ _ => ⟨id, hruns.2.1, ?_⟩⟩
              intro hleft
              cases hruns.2.2.symm.trans hleft

theorem Sound.same {next : Process} (hs : s.Sound) (hselects : next.Selects)
    (hserial : next.devices.serial = s.devices.serial) (hcpus : next.cpus = s.cpus)
    (hphase : next.phase = s.phase) (hended : next.ended = none → s.ended = none) :
    next.Sound where
  selects := hselects
  drains hnone hwaits := by
    rw [hserial] at hwaits
    rw [hcpus, hphase]
    exact hs.drains (hended hnone) hwaits

theorem blkStep_sound (hs : s.Sound) (io : Transfer) : (s.blkStep io).1.Sound := by
  cases hblk : s.devices.vblk with
  | none =>
      simp only [blkStep, hblk]
      exact hs
  | some blk =>
      simp only [blkStep, hblk]
      exact hs.same hs.selects rfl rfl rfl fun hnone => ((withBlk_ended _ _).mp hnone).1

theorem netStep_sound (hs : s.Sound) (packet : List UInt8) : (s.netStep packet).1.Sound := by
  refine hs.same ?_ rfl rfl rfl fun hnone => ((withNet_ended _ _).mp hnone).1
  have hsel := s.netSystem.dataplaneStep_queueSel packet
  show (s.netSystem.dataplaneStep packet).1.state.queueSel = 0 ∨
    (s.netSystem.dataplaneStep packet).1.state.queueSel = 1
  rw [hsel]
  exact hs.selects

theorem step_sound (s : Process) (a : VmmAction) (hs : s.Sound) : (machine.step s a).1.Sound := by
  cases hended : s.ended with
  | some ending =>
      have hstep : machine.step s a = (s, []) := by simp only [machine, hended]
      rw [hstep]
      exact hs
  | none =>
      cases a with
      | stdinThread =>
          have houtput : s.devices.console.stdinStep.1.serial.output = s.devices.serial.output := by
            rcases s.devices.console.stdinStep_cases with ⟨-, _, _, hcase, -⟩ | ⟨_, _, -, -, hcase⟩
            · rw [hcase]
            · rw [hcase]
              rfl
          simp only [machine, hended]
          refine ⟨hs.selects, fun _ hwaits => hs.drains hended ?_⟩
          rw [← houtput]
          exact hwaits
      | vcpu id run =>
          simp only [machine, hended]
          split
          · rename_i hid
            split
            · rename_i hphase
              exact runStep_sound hs ⟨hended, hid, hphase⟩ run
            · exact ⟨hs.selects, fun _ h => absurd s.devices.serial.flush_account.2 h⟩
            · exact hs
          · exact hs
      | store addr data =>
          simp only [machine, hended]
          exact hs.same hs.selects rfl rfl rfl fun _ => hended
      | blkDataplane io =>
          simp only [machine, hended]
          exact blkStep_sound hs io
      | netDataplane packet =>
          simp only [machine, hended]
          exact netStep_sound hs packet
      | kill =>
          simp only [machine, hended]
          exact ⟨hs.selects, fun hnone => nomatch hnone⟩

/-- On every run that ends with the VMM stopped, stdout got every byte the guest
transmitted, in order, exactly when no OUT to the transmit register carried more than
one byte and nothing was waiting when the process was ended otherwise than by its vCPUs
leaving their loops. -/
theorem printed_eq_transmitted_iff (stdin : List UInt8) (mac : Fin 6 → UInt8)
    (vblk : Option BlkState) (mem : GuestMemory) (image : Image) (cpus : Nat)
    (as : List VmmAction)
    (hstop : (machine.run (boot stdin mac vblk mem image cpus) as).1.Stopped) :
    printed (machine.run (boot stdin mac vblk mem image cpus) as).2 =
        transmitted (machine.run (boot stdin mac vblk mem image cpus) as).2 ↔
      machine.AllSteps Spares (boot stdin mac vblk mem image cpus) as := by
  have hsound := boot_sound stdin mac vblk mem image cpus
  have hselects :
      machine.AllSteps (fun s _ => s.Selects) (boot stdin mac vblk mem image cpus) as :=
    machine.allSteps_iff_split.mpr fun pre _ _ _ =>
      (machine.run_inductive step_sound hsound pre).selects
  have hlast : (machine.run (boot stdin mac vblk mem image cpus) as).1.waiting = [] := by
    have hend := machine.run_inductive step_sound hsound as
    unfold waiting
    split
    · rename_i hnone
      by_contra hwaits
      obtain ⟨id, hid, hphase⟩ := hend.drains hnone hwaits
      rcases hstop with hended | hleft
      · exact hended hnone
      · exact hphase (hleft id hid)
    · rfl
  have hrun := machine.run_conserves transmittedBy printedBy waiting
    (fun s a hsel => (step_accounted hsel a).kept) (fun s a hsel => (step_accounted hsel a).lost)
    hselects
  have hfirst : (boot stdin mac vblk mem image cpus).waiting = [] := rfl
  rw [hlast, hfirst, List.append_nil, List.nil_append] at hrun
  exact eq_comm.trans hrun

/-- One vCPU prints a byte and powers the machine off. -/
def lastWords : List VmmAction :=
  [.vcpu 0 (.exit (.ioOut serialBase 0x61 [])), .vcpu 0 (.exit (.ioOut powerOff 0 []))]

theorem lastWords_lost :
    (machine.run (boot [] (fun _ => 0) none .twoMib [] 1) lastWords).1.Stopped ∧
      printed (machine.run (boot [] (fun _ => 0) none .twoMib [] 1) lastWords).2 = [] ∧
      transmitted (machine.run (boot [] (fun _ => 0) none .twoMib [] 1) lastWords).2 = [0x61] := by
  refine ⟨Or.inl ?_, ?_, ?_⟩ <;> decide +kernel

/-- One vCPU prints a byte, gives the block queue the size 0 and a head, and kicks. -/
def zeroSized : List VmmAction :=
  .store 0x1002 [1, 0] :: .vcpu 0 (.exit (.ioOut serialBase 0x61 [])) ::
    ([(Reg.queueNum.offset, 0), (Reg.queueAvailLo.offset, 0x1000), (Reg.queueReady.offset, 1),
      (Reg.queueNotify.offset, 0)] : List (UInt64 × UInt32)).map (fun w =>
        .vcpu 0 (.exit (.mmioWrite (virtioBlkMmioBase + w.1) (leBytes 4 w.2.toNat)))) ++
    [.blkDataplane none, .blkDataplane none]

example :
    (machine.run (boot [] (fun _ => 0) (some (.new 1 false)) .twoMib [] 1) zeroSized).1.ended =
        some .aborted ∧
      printed (machine.run (boot [] (fun _ => 0) (some (.new 1 false)) .twoMib [] 1)
        zeroSized).2 = [] ∧
      transmitted (machine.run (boot [] (fun _ => 0) (some (.new 1 false)) .twoMib [] 1)
        zeroSized).2 = [0x61] := by
  decide +kernel

/-- One vCPU prints a byte and shuts down, beside a pass of the network device. -/
def orderly : List VmmAction :=
  [.vcpu 0 (.exit (.ioOut serialBase 0x61 [])), .netDataplane [], .netDataplane [],
    .vcpu 0 (.exit .shutdown), .vcpu 0 .interrupted]

theorem orderly_prints :
    printed (machine.run (boot [] (fun _ => 0) none .twoMib [] 1) orderly).2 =
      transmitted (machine.run (boot [] (fun _ => 0) none .twoMib [] 1) orderly).2 :=
  (printed_eq_transmitted_iff [] (fun _ => 0) none .twoMib [] 1 orderly
    (Or.inr fun id hid => by
      rw [Nat.lt_one_iff.mp hid]
      decide +kernel)).mpr (by decide +kernel)

end Process

end Caiman.Vmm
