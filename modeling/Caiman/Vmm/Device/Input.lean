import Caiman.Vmm.Device.Console

/-!
# Delivery of console input

The receive buffer holds one byte. A guest that reads it only after seeing
data-ready takes each byte at most once; the thread that fills it does not wait
for the guest.
-/

namespace Caiman.Vmm

open Lib

namespace Console

variable {s : Console} {as : List ConsoleAction}

/-- The byte the guest read from the receive buffer, if it read one. -/
def taken : ConsoleEvent → List UInt8
  | .received b => [b]
  | .serial _ => []

def received (es : List ConsoleEvent) : List UInt8 := es.flatMap taken

@[simp] theorem received_append (es fs : List ConsoleEvent) :
    received (es ++ fs) = received es ++ received fs := List.flatMap_append

@[simp] theorem received_serial (es : List SerialEvent) : received (es.map .serial) = [] := by
  induction es with
  | nil => rfl
  | cons e es ih => exact ih

/-- The byte in the receive buffer that the guest has not read. -/
def pending (s : Console) : List UInt8 := if s.serial.dataReady then [s.serial.rbr] else []

def TakesByte (s : Console) : ConsoleAction → Prop
  | .read port => s.serial.AtData port
  | _ => False

/-- The guest has seen data-ready in the line status since it last took a byte. -/
def look (s : Console) (seen : Bool) : ConsoleAction → Bool
  | .read port =>
      if s.serial.AtData port then false
      else if port - serialBase = 5 then (s.serial.readPort port).1 &&& lsrDr != 0
      else seen
  | _ => seen

/-- The guest reads the receive buffer only after seeing data-ready. -/
def Disciplined : Console → Bool → List ConsoleAction → Prop
  | _, _, [] => True
  | s, seen, a :: as =>
      (s.TakesByte a → seen = true) ∧ Disciplined (machine.step s a).1 (s.look seen a) as

instance (s : Console) : ∀ a : ConsoleAction, Decidable (s.TakesByte a)
  | .read port => inferInstanceAs (Decidable (s.serial.AtData port))
  | .write _ _ => instDecidableFalse
  | .stdinThread => instDecidableFalse

instance decidableDisciplined :
    ∀ (s : Console) (seen : Bool) (as : List ConsoleAction), Decidable (Disciplined s seen as)
  | _, _, [] => isTrue trivial
  | s, seen, a :: as =>
      have := decidableDisciplined (machine.step s a).1 (s.look seen a) as
      inferInstanceAs (Decidable (_ ∧ _))

def ReadsReady (s : Console) (a : ConsoleAction) : Prop := s.TakesByte a → s.serial.dataReady

def FindsEmpty (s : Console) : ConsoleAction → Prop
  | .stdinThread => s.Injects → ¬ s.serial.dataReady
  | _ => True

instance (s : Console) : ∀ a : ConsoleAction, Decidable (s.FindsEmpty a)
  | .stdinThread => inferInstanceAs (Decidable (s.Injects → ¬ s.serial.dataReady))
  | .write _ _ => instDecidableTrue
  | .read _ => instDecidableTrue

theorem pending_congr {s t : Console} (hrbr : t.serial.rbr = s.serial.rbr)
    (hready : t.serial.dataReady ↔ s.serial.dataReady) : t.pending = s.pending := by
  simp only [pending, hrbr, hready]

theorem look_ready {seen : Bool} (hseen : seen = true → s.serial.dataReady) (a : ConsoleAction)
    (hlook : s.look seen a = true) : (machine.step s a).1.serial.dataReady := by
  cases a with
  | write port data => exact (s.serial.writePort_input port data).2.mpr (hseen hlook)
  | read port =>
      have hread : ¬ s.serial.AtData port ∧ s.serial.dataReady := by
        simp only [look] at hlook
        split at hlook
        · cases hlook
        · rename_i hport
          refine ⟨hport, ?_⟩
          split at hlook
          · rename_i hlsr
            have hval : (s.serial.readPort port).1 = s.serial.lsr := by
              simp only [Serial.readPort, hlsr]
            rw [hval, bne_iff_ne] at hlook
            exact hlook
          · exact hseen hlook
      exact (s.serial.readPort_input port).2.mpr ⟨hread.2, hread.1⟩
  | stdinThread =>
      change s.stdinStep.1.serial.dataReady
      rcases s.stdinStep_cases with ⟨-, _, _, hstep, -⟩ | ⟨b, rest, -, -, hstep⟩
      · rw [hstep]
        exact hseen hlook
      · rw [hstep]
        exact Serial.set_dr _

theorem readsReady_of_disciplined {seen : Bool} (hseen : seen = true → s.serial.dataReady)
    (h : Disciplined s seen as) : machine.AllSteps ReadsReady s as := by
  induction as generalizing s seen with
  | nil => trivial
  | cons a as ih => exact ⟨fun ht => hseen (h.1 ht), ih (look_ready hseen a) h.2⟩

/-! ## Accounts -/

/-- What has been read, waits to be read or has not been injected. -/
def ahead (s : Console) : List UInt8 := s.pending ++ s.stdin

theorem write_delivers (s : Console) (port : UInt16) (data : UInt8) :
    received (s.writeStep port data).2 = [] ∧ (s.writeStep port data).1.ahead = s.ahead := by
  obtain ⟨hrbr, hready⟩ := s.serial.writePort_input port data
  have hpending : (s.writeStep port data).1.pending = s.pending := pending_congr hrbr hready
  refine ⟨received_serial _, ?_⟩
  rw [ahead, ahead, hpending]
  rfl

theorem read_delivers (s : Console) (port : UInt16) (htakes : s.ReadsReady (.read port)) :
    received (s.readStep port).2 ++ (s.readStep port).1.ahead = s.ahead := by
  obtain ⟨hrbr, hready⟩ := s.serial.readPort_input port
  have hevents : received (s.readStep port).2 =
      if s.serial.AtData port then [(s.serial.readPort port).1] else [] := by
    simp only [readStep, received_append, received_serial]
    split <;> rfl
  have hstdin : (s.readStep port).1.stdin = s.stdin := rfl
  rw [hevents, ahead, ahead, hstdin, ← List.append_assoc]
  congr 1
  by_cases h : s.serial.AtData port
  · have hempty : (s.readStep port).1.pending = [] := if_neg fun hr => (hready.mp hr).2 h
    have hvalue : (s.serial.readPort port).1 = s.serial.rbr := by rw [Serial.readPort_data h]
    rw [if_pos h, hempty, hvalue, pending, if_pos (htakes h)]
    rfl
  · rw [if_neg h]
    exact pending_congr hrbr (hready.trans (and_iff_left h))

theorem inject_delivers (s : Console) :
    received s.stdinStep.2 = [] ∧
      (s.FindsEmpty .stdinThread → s.stdinStep.1.ahead = s.ahead) ∧
      (¬ s.FindsEmpty .stdinThread → s.stdinStep.1.ahead.length < s.ahead.length) := by
  rcases s.stdinStep_cases with ⟨hnone, pulses, es, hstep, hes⟩ | ⟨b, rest, hp, hin, hstep⟩
  · refine ⟨?_, ?_, ?_⟩
    · rw [hstep]
      refine List.flatMap_eq_nil_iff.mpr ?_
      intro e he
      rw [List.mem_singleton.mp (hes he), taken]
    · intro _
      rw [hstep]
      rfl
    · intro hfull
      exact absurd (fun hi => absurd hi hnone) hfull
  · have hinjects : s.Injects := ⟨hp, by rw [hin]; exact List.cons_ne_nil _ _⟩
    have hnext : s.stdinStep.1.ahead = b :: rest := by
      have hready : (s.serial.receive b).dataReady := Serial.set_dr _
      rw [hstep, ahead, pending, if_pos hready]
      rfl
    refine ⟨by rw [hstep]; rfl, ?_, ?_⟩
    · intro hempty
      rw [hnext, ahead, pending, if_neg (hempty hinjects), hin]
      rfl
    · intro hfull
      have hready : s.serial.dataReady := by
        by_contra hne
        exact hfull fun _ => hne
      rw [hnext, ahead, pending, if_pos hready, hin]
      simp

theorem step_delivers (s : Console) (a : ConsoleAction) (htakes : s.ReadsReady a) :
    (s.FindsEmpty a → received (machine.step s a).2 ++ (machine.step s a).1.ahead = s.ahead) ∧
      (¬ s.FindsEmpty a →
        (received (machine.step s a).2 ++ (machine.step s a).1.ahead).length < s.ahead.length) := by
  cases a with
  | write port data =>
      obtain ⟨hevents, hahead⟩ := s.write_delivers port data
      refine ⟨fun _ => ?_, fun hfull => absurd trivial hfull⟩
      change received (s.writeStep port data).2 ++ _ = _
      rw [hevents]
      exact hahead
  | read port =>
      exact ⟨fun _ => s.read_delivers port htakes, fun hfull => absurd trivial hfull⟩
  | stdinThread =>
      obtain ⟨hevents, hclear, hfull⟩ := s.inject_delivers
      change (_ → received s.stdinStep.2 ++ s.stdinStep.1.ahead = _) ∧
        (_ → (received s.stdinStep.2 ++ s.stdinStep.1.ahead).length < _)
      rw [hevents]
      exact ⟨hclear, hfull⟩

private theorem no_other_input (es : List ConsoleEvent) :
    es.flatMap (fun _ => ([] : List UInt8)) = [] :=
  List.flatMap_eq_nil_iff.mpr fun _ _ => rfl

theorem run_delivers (hall : machine.AllSteps ReadsReady s as) :
    s.ahead = received (machine.run s as).2 ++ (machine.run s as).1.ahead ↔
      machine.AllSteps FindsEmpty s as := by
  have hgood : ∀ s a, ReadsReady s a → FindsEmpty s a →
      s.ahead ++ (machine.step s a).2.flatMap (fun _ => ([] : List UInt8)) =
        received (machine.step s a).2 ++ (machine.step s a).1.ahead := by
    intro s a htakes hclear
    rw [no_other_input, List.append_nil]
    exact ((s.step_delivers a htakes).1 hclear).symm
  have hbad : ∀ s a, ReadsReady s a → ¬ FindsEmpty s a →
      (received (machine.step s a).2 ++ (machine.step s a).1.ahead).length <
        (s.ahead ++ (machine.step s a).2.flatMap (fun _ => ([] : List UInt8))).length := by
    intro s a htakes hfull
    rw [no_other_input, List.append_nil]
    exact (s.step_delivers a htakes).2 hfull
  have hrun := machine.run_conserves _ taken ahead hgood hbad hall
  rw [no_other_input, List.append_nil] at hrun
  exact hrun

/-- When the guest has read until no byte waits after the last injection, it has read
exactly the bytes of stdin if and only if every injection found the receive buffer
empty. -/
theorem received_eq_stdin_iff (stdin : List UInt8) (as : List ConsoleAction)
    (hguest : Disciplined (start stdin) false as)
    (hinjected : (machine.run (start stdin) as).1.stdin = [])
    (hdrained : ¬ (machine.run (start stdin) as).1.serial.dataReady) :
    received (machine.run (start stdin) as).2 = stdin ↔
      machine.AllSteps FindsEmpty (start stdin) as := by
  have hready : machine.AllSteps ReadsReady (start stdin) as :=
    readsReady_of_disciplined (fun h => by cases h) hguest
  have hempty : ¬ (start stdin).serial.dataReady := by
    change ¬ (lsrThre ||| lsrTemt) &&& lsrDr ≠ 0
    decide
  have hfirst : (start stdin).ahead = stdin := by
    rw [ahead, pending, if_neg hempty]
    rfl
  have hlast : (machine.run (start stdin) as).1.ahead = [] := by
    rw [ahead, pending, if_neg hdrained, hinjected]
    rfl
  rw [eq_comm, ← run_delivers hready, hfirst, hlast, List.append_nil]

/-- Two bytes of stdin while the guest is away, then a guest that looks and reads. -/
def lateGuest : List ConsoleAction :=
  List.replicate 6 .stdinThread ++ [.read (serialBase + 5), .read serialBase]

theorem lateGuest_loses :
    Disciplined (start [0x61, 0x62]) false lateGuest ∧
      (machine.run (start [0x61, 0x62]) lateGuest).1.stdin = [] ∧
      ¬ (machine.run (start [0x61, 0x62]) lateGuest).1.serial.dataReady ∧
      received (machine.run (start [0x61, 0x62]) lateGuest).2 = [0x62] := by
  refine ⟨?_, ?_, ?_, ?_⟩ <;> decide +kernel

/-- A guest that reads the first byte before the second is injected. -/
def promptGuest : List ConsoleAction :=
  [.stdinThread, .read (serialBase + 5), .read serialBase] ++ List.replicate 5 .stdinThread ++
    [.read (serialBase + 5), .read serialBase]

theorem promptGuest_receives :
    received (machine.run (start [0x61, 0x62]) promptGuest).2 = [0x61, 0x62] :=
  (received_eq_stdin_iff [0x61, 0x62] promptGuest (by decide +kernel) (by decide +kernel)
    (by decide +kernel)).mpr (by decide +kernel)

end Console

end Caiman.Vmm
