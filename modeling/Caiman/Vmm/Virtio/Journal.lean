import Caiman.Lib.Last
import Caiman.Vmm.Virtio.Transfer

/-!
# The block device as a store of bytes

The writes that succeed, in the order they reach the image, are a journal. The image is at any
time what it was opened as with the journal put over it, and a read that succeeds returns of each
byte what was put there last, whatever else the guest and the dataplane did in between.
-/

namespace Caiman.Vmm.Blk

open Lib

/-! ## The abstract disk -/

abbrev Disk := Nat → UInt8

structure Put where
  offset : Nat
  bytes : List UInt8
  deriving DecidableEq, Repr

def Put.byte? (w : Put) (x : Nat) : Option UInt8 :=
  if w.offset ≤ x then w.bytes[x - w.offset]? else none

def Disk.put (d : Disk) (w : Put) : Disk := fun x => (w.byte? x).getD (d x)

/-- A file reads as zero past its end. -/
def Image.disk (image : Image) : Disk := fun x => image.getD x 0

theorem foldl_put (d : Disk) (ws : List Put) (x : Nat) :
    ws.foldl Disk.put d x = (lastPut (Put.byte? · x) ws).getD (d x) := by
  have hstep (e : Disk) (w : Put) (_ : True) (_ : True) :
      True ∧ some (e.put w x) = (w.byte? x).or (some (e x)) :=
    ⟨trivial, by cases h : w.byte? x <;> simp [Disk.put, h]⟩
  have hlast := (read_foldl (fun e : Disk => some (e x)) hstep (s := d) trivial
    (fun w (_ : w ∈ ws) => trivial)).2
  cases h : lastPut (Put.byte? · x) ws with
  | none =>
      rw [h] at hlast
      exact Option.some.inj hlast
  | some v =>
      rw [h] at hlast
      exact Option.some.inj hlast

theorem splice_disk (image : Image) (offset : Nat) (bytes : List UInt8) :
    Image.disk (splice image offset bytes) = (Image.disk image).put ⟨offset, bytes⟩ := by
  funext x
  simp only [Image.disk, Disk.put, Put.byte?, splice_eq_overwrite, overwrite_getD]
  by_cases hoff : offset ≤ x
  · by_cases hend : x < offset + bytes.length
    · have hin : x - offset < bytes.length := by omega
      rw [if_pos ⟨hoff, hend⟩, if_pos hoff, List.getElem?_eq_getElem hin, Option.getD_some]
      exact List.getD_eq_getElem _ _ hin
    · rw [if_neg (by omega), if_pos hoff, List.getElem?_eq_none (by omega), Option.getD_none]
  · rw [if_neg (by omega), if_neg hoff, Option.getD_none]

/-! ## The journal -/

/-- What a step puts in the image: the buffer of a write that succeeds, as far as it is moved,
at the product of the sector and 512 in `u64`. -/
def stepPut (s : BlkSystem) : BlkAction → List Put
  | .dataplane io =>
      match s.pc with
      | .serve _ (hdrDesc :: dataDesc :: rest) =>
          match serve s.readOnly io s.mem s.image hdrDesc dataDesc
              (BlkSystem.statusDesc dataDesc rest) with
          | .ok (some c) =>
              if c.reqType = tOut ∧ c.status = sOk then
                [⟨(c.sector * sectorSize).toNat, putBytes s.readOnly io s.mem hdrDesc dataDesc⟩]
              else []
          | _ => []
      | _ => []
  | _ => []

def journal (s : BlkSystem) (as : List BlkAction) : List Put :=
  machine.track (fun s puts a => puts ++ stepPut s a) s [] as

theorem Served.image_disk {readOnly : Bool} {io : Transfer} {mem mid : GuestMemory} {image : Image}
    {hdrDesc dataDesc statusDesc : Descriptor} {c : Completion}
    (h : Served readOnly io mem image hdrDesc dataDesc statusDesc c mid) :
    Image.disk c.image =
      (if c.reqType = tOut ∧ c.status = sOk then
        [Put.mk (c.sector * sectorSize).toNat (putBytes readOnly io mem hdrDesc dataDesc)]
      else []).foldl Disk.put (Image.disk image) := by
  have hexec := execute_cases h.executed
  have htype := h.reqType
  have hsector := h.sector
  generalize hstatus : c.status = status at hexec
  generalize himage : c.image = image' at hexec
  cases hexec with
  | read k type =>
      have hin : c.reqType ≠ tOut := by
        rw [htype, type]
        decide
      rw [if_neg fun hboth => hin hboth.1]
      rfl
  | write k type writable moved seek ok =>
      rw [if_pos ⟨htype.trans type, rfl⟩, splice_disk, hsector]
      simp only [putBytes, moved, h.header, type, writable, seek, ok, and_self, if_true,
        List.foldl_cons, List.foldl_nil]
  | getId type =>
      have hid : c.reqType ≠ tOut := by
        rw [htype, type]
        decide
      rw [if_neg fun hboth => hid hboth.1]
      rfl
  | nothing status failed =>
      have hnot : ¬ (c.reqType = tOut ∧ status = sOk) := by
        intro hboth
        have herr := failed (Or.inr (htype.symm.trans hboth.1))
        rw [herr] at hboth
        exact absurd hboth.2 (by decide)
      rw [if_neg hnot]
      rfl

/-- Of the short chains, the completions and the polls none touches the image. -/
theorem dataplaneStep_image {s : BlkSystem} {io : Transfer}
    (h : ∀ head hdrDesc dataDesc rest, s.pc ≠ .serve head (hdrDesc :: dataDesc :: rest)) :
    (s.dataplaneStep io).1.image = s.image := by
  rcases s.dataplaneStep_effect io with
    ⟨kick, pc, hstep⟩ | ⟨-, q, pc, -, hstep⟩ | ⟨head, usedLen, added, q, mem, irqStatus, pc, -, hstep⟩ |
      ⟨head, hdrDesc, dataDesc, rest, c, hpc, -, -⟩
  · rw [hstep]
  · rw [hstep, BlkSystem.withQueue]
  · rw [hstep]
  · exact absurd hpc (h head hdrDesc dataDesc rest)

theorem serveStep_disk (s : BlkSystem) (io : Transfer) {head : UInt16}
    {hdrDesc dataDesc : Descriptor} {rest : List Descriptor}
    (hpc : s.pc = .serve head (hdrDesc :: dataDesc :: rest)) :
    Image.disk (s.dataplaneStep io).1.image =
      (stepPut s (.dataplane io)).foldl Disk.put (Image.disk s.image) := by
  simp only [BlkSystem.dataplaneStep, stepPut, hpc, BlkSystem.serveStep]
  cases hserve : serve s.readOnly io s.mem s.image hdrDesc dataDesc
      (BlkSystem.statusDesc dataDesc rest) with
  | error why => rfl
  | ok result =>
      cases result with
      | none => rfl
      | some c =>
          obtain ⟨mid, hserved⟩ := serve_served hserve
          exact hserved.image_disk

theorem step_disk (s : BlkSystem) (a : BlkAction) :
    Image.disk (machine.step s a).1.image = (stepPut s a).foldl Disk.put (Image.disk s.image) := by
  cases a with
  | mmioRead offset => rfl
  | mmioWrite offset val => rfl
  | store addr data => rfl
  | dataplane io =>
      cases hpc : s.pc with
      | serve head chain =>
          match chain with
          | hdrDesc :: dataDesc :: rest => exact serveStep_disk s io hpc
          | [] =>
              simp only [stepPut, hpc, List.foldl_nil]
              exact congrArg Image.disk (dataplaneStep_image (by simp [hpc]))
          | [_] =>
              simp only [stepPut, hpc, List.foldl_nil]
              exact congrArg Image.disk (dataplaneStep_image (by simp [hpc]))
      | wait | poll | complete | inject | halted =>
          simp only [stepPut, hpc, List.foldl_nil]
          exact congrArg Image.disk (dataplaneStep_image (by simp [hpc]))

theorem run_disk (s : BlkSystem) (as : List BlkAction) :
    Image.disk (machine.run s as).1.image = (journal s as).foldl Disk.put (Image.disk s.image) := by
  have hstep : ∀ (s' : BlkSystem) (puts : List Put) (a : BlkAction),
      Image.disk s'.image = puts.foldl Disk.put (Image.disk s.image) → True →
        Image.disk (machine.step s' a).1.image =
          (puts ++ stepPut s' a).foldl Disk.put (Image.disk s.image) := by
    intro s' puts a hs' _
    rw [step_disk, hs', List.foldl_append]
  exact machine.run_tracked
    (R := fun s' (puts : List Put) =>
      Image.disk s'.image = puts.foldl Disk.put (Image.disk s.image)) hstep rfl
    (machine.allSteps_of (fun _ _ => trivial) s as)

def BlkSystem.attempt (s : BlkSystem) (io : Transfer) (head : UInt16)
    (hdrDesc dataDesc : Descriptor) (rest : List Descriptor) : Attempt :=
  -- what the device takes the file for, up to its last whole sector
  { fileLen := s.state.sectorCount * sectorSize
    readOnly := s.readOnly
    io := io
    mem := s.mem
    queue := s.state.queue
    head := head
    hdrDesc := hdrDesc
    dataDesc := dataDesc
    rest := rest }

def writeThenRead : List BlkAction :=
  writeRun [] ++ [.dataplane none, .store 0x2010 (Descriptor.encode ⟨0x6000, 4, 3, 2⟩),
    .store 0x3000 [0, 0, 0, 0], .store 0x1002 [2, 0], .dataplane none]

end Caiman.Vmm.Blk
