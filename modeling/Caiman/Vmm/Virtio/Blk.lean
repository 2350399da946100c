import Caiman.Lib.Run
import Caiman.Vmm.Virtio.Mmio

/-!
# virtio-blk

Register file, request execution and dataplane of the block device. The vCPU
thread reaches the device through `mmio_read` and `mmio_write` and stores to
guest RAM at any time; the dataplane thread sleeps on the kick eventfd and then
drains the queue, taking the state lock once to fetch a head with its chain and
once more to complete it. A step of the dataplane here is one stretch of that
loop between lock operations, so that other actors' steps fall between them as
they do between the lock scopes.
-/

namespace Caiman.Vmm

open Lib

namespace Blk

def virtioDevBlk : UInt32 := 2
def virtioBlkFRo : UInt64 := (1 : UInt64) <<< 5
def sectorSize : UInt64 := 512
def queueNumMax : UInt32 := 128

def tIn : UInt32 := 0
def tOut : UInt32 := 1
def tFlush : UInt32 := 4
def tGetId : UInt32 := 8
def sOk : UInt8 := 0
def sIoerr : UInt8 := 1
def sUnsupp : UInt8 := 2

/-! ## Registers -/

structure BlkState where
  sectorCount : UInt64
  readOnly : Bool
  featuresSel : UInt32
  queueSel : UInt32
  status : UInt32
  irqStatus : UInt32
  queue : Virtqueue
  deriving DecidableEq, Repr

namespace BlkState

def new (sectorCount : UInt64) (readOnly : Bool) : BlkState where
  sectorCount := sectorCount
  readOnly := readOnly
  featuresSel := 0
  queueSel := 0
  status := 0
  irqStatus := 0
  queue := Virtqueue.new 128

def mmioRead (s : BlkState) (offset : UInt64) : UInt32 :=
  let features := virtioFVersion1 ||| if s.readOnly then virtioBlkFRo else 0
  match Reg.decode offset with
  | some .magic => virtioMagic
  | some .version => virtioVersion
  | some .deviceId => virtioDevBlk
  | some .vendorId => virtioVendor
  | some .devFeatures =>
      if s.featuresSel = 0 then features.toUInt32 else (features >>> 32).toUInt32
  | some .queueNumMax => queueNumMax
  | some .queueReady => s.queue.ready.toUInt32
  | some .irqStatus => s.irqStatus
  | some .status => s.status
  | some _ => 0
  | none =>
      if offset = 0x100 then (s.sectorCount &&& (0xFFFFFFFF : UInt64)).toUInt32
      else if offset = 0x104 then (s.sectorCount >>> 32).toUInt32
      else 0

def mmioWrite (s : BlkState) (offset : UInt64) (val : UInt32) : BlkState × Nat :=
  match Reg.decode offset with
  | some .featuresSel => ({ s with featuresSel := val }, 0)
  | some .queueSel => ({ s with queueSel := val }, 0)
  | some .queueNum => ({ s with queue := { s.queue with size := val.toUInt16 } }, 0)
  | some .queueReady => ({ s with queue := { s.queue with ready := val != 0 } }, 0)
  | some .irqAck => ({ s with irqStatus := s.irqStatus &&& ~~~val }, 0)
  | some .status => ({ s with status := val }, 0)
  | some .queueDescLo => ({ s with queue := s.queue.setDescTable val 0 }, 0)
  | some .queueDescHi => ({ s with queue := s.queue.setDescTable 0 val }, 0)
  | some .queueAvailLo => ({ s with queue := s.queue.setAvailRing val 0 }, 0)
  | some .queueAvailHi => ({ s with queue := s.queue.setAvailRing 0 val }, 0)
  | some .queueUsedLo => ({ s with queue := s.queue.setUsedRing val 0 }, 0)
  | some .queueUsedHi => ({ s with queue := s.queue.setUsedRing 0 val }, 0)
  | some .queueNotify => (s, 1)
  | _ => (s, 0)

end BlkState

/-! ## Image file

`read_at` and `write_at` are `pread` and `pwrite`: an offset past `i64::MAX` is
refused, a read stops at the end of the file, a write past the end extends it
with zeros, and either may move fewer bytes than asked for. The `Transfer` says
how the call went: `none` is an I/O error, `some k` moves at most `k` bytes.
-/

abbrev Image := List UInt8
abbrev Transfer := Option Nat

def readAt (image : Image) (len : Nat) (offset : UInt64) (io : Transfer) :
    Option (Nat × List UInt8) :=
  match io with
  | none => none
  | some k =>
      if isizeMax < offset.toNat then none
      else
        let got := (image.drop offset.toNat).take (min len k)
        some (got.length, got ++ List.replicate (len - got.length) 0)

/-- Overwrite from `offset` on; a hole before `offset` is filled with zeros. -/
def splice (image : Image) (offset : Nat) (put : List UInt8) : Image :=
  if put = [] then image
  else
    image.take offset ++ List.replicate (offset - image.length) 0 ++ put ++
      image.drop (offset + put.length)

def writeAt (image : Image) (buf : List UInt8) (offset : UInt64) (io : Transfer) :
    Option (Nat × Image) :=
  match io with
  | none => none
  | some k =>
      if isizeMax < offset.toNat then none
      else some ((buf.take k).length, splice image offset.toNat (buf.take k))

/-! ## Requests -/

/-- `b"caiman-blk-0        "` -/
def deviceId : List UInt8 :=
  [99, 97, 105, 109, 97, 110, 45, 98, 108, 107, 45, 48, 32, 32, 32, 32, 32, 32, 32, 32]

/-- The `match req_type` of the dataplane: status, memory and image after it.
Both byte counts and the result of the copy to the guest are dropped, as there. -/
def execute (readOnly : Bool) (io : Transfer) (mem : GuestMemory) (image : Image)
    (reqType : UInt32) (offset : UInt64) (dataDesc : Descriptor) :
    Exec (UInt8 × GuestMemory × Image) := do
  if reqType = tIn then
    if dataDesc.isWrite then
      match readAt image dataDesc.len.toNat offset io with
      | some (_, buf) => return (sOk, ← mem.writeSliceIgnored buf dataDesc.addr, image)
      | none => return (sIoerr, mem, image)
    else return (sIoerr, mem, image)
  else if reqType = tOut then
    if !readOnly then
      match ← mem.readSlice dataDesc.addr dataDesc.len.toUInt64 with
      | some buf =>
          match writeAt image buf offset io with
          | some (_, image) => return (sOk, mem, image)
          | none => return (sIoerr, mem, image)
      | none => return (sIoerr, mem, image)
    else return (sIoerr, mem, image)
  else if reqType = tFlush then return (sOk, mem, image)
  else if reqType = tGetId then
    if dataDesc.isWrite && 20 ≤ dataDesc.len then
      return (sOk, ← mem.writeSliceIgnored deviceId dataDesc.addr, image)
    else return (sOk, mem, image)
  else return (sUnsupp, mem, image)

structure Completion where
  reqType : UInt32
  sector : UInt64
  status : UInt8
  usedLen : UInt32
  mem : GuestMemory
  image : Image

/-- From the header read to the status byte, on a chain of at least two
descriptors. `none` is the `continue` of an unreadable header. -/
def serve (readOnly : Bool) (io : Transfer) (mem : GuestMemory) (image : Image)
    (hdrDesc dataDesc statusDesc : Descriptor) : Exec (Option Completion) := do
  match ← mem.readSlice hdrDesc.addr 16 with
  | none => return none
  | some hdrBytes =>
      let reqType := UInt32.ofNat (leNat (hdrBytes.take 4))
      let sector := UInt64.ofNat (leNat ((hdrBytes.drop 8).take 8))
      let offset := sector * sectorSize
      let (status, mem, image) ← execute readOnly io mem image reqType offset dataDesc
      let mem ← mem.writeSliceIgnored [status] statusDesc.addr
      let usedLen := if reqType = tIn then dataDesc.len else 0
      return some { reqType, sector, status, usedLen, mem, image }

theorem serve_eq_none_iff (readOnly : Bool) (io : Transfer) (mem : GuestMemory) (image : Image)
    (hdrDesc dataDesc statusDesc : Descriptor) :
    serve readOnly io mem image hdrDesc dataDesc statusDesc = .ok none ↔
      mem.readSlice hdrDesc.addr 16 = .ok none := by
  simp only [serve, bind, Except.bind, pure, Except.pure]
  cases hr : mem.readSlice hdrDesc.addr 16 with
  | error why => simp
  | ok header =>
      cases header with
      | none => simp
      | some hdrBytes =>
          simp only [Except.ok.injEq, reduceCtorEq, iff_false]
          intro h
          split at h
          · cases h
          · split at h <;> cases h

/-! ## Dataplane -/

/-- Where the dataplane thread stands between two of its lock operations. -/
inductive BlkPc
  /-- at `kickfd.read()` -/
  | wait
  /-- at the top of the inner loop -/
  | poll
  /-- a head and its chain in hand, no lock held -/
  | serve (head : UInt16) (chain : List Descriptor)
  /-- status byte written, about to lock for `add_used` -/
  | complete (head : UInt16) (usedLen : UInt32)
  /-- about to write `irqfd` -/
  | inject
  | halted (why : Halt)
  deriving DecidableEq, Repr

/-- The device with its dataplane thread, the guest RAM and the image file.
`kick` is the counter of the kick eventfd. -/
structure BlkSystem where
  readOnly : Bool
  state : BlkState
  mem : GuestMemory
  image : Image
  kick : Nat
  pc : BlkPc

namespace BlkSystem

/-- `VirtioBlk::new` and `start_dataplane` on an image file. -/
def new (image : Image) (readOnly : Bool) (mem : GuestMemory) : BlkSystem where
  readOnly := readOnly
  state := BlkState.new (UInt64.ofNat image.length / sectorSize) readOnly
  mem := mem
  image := image
  kick := 0
  pc := .wait

def withQueue (s : BlkSystem) (q : Virtqueue) : BlkSystem :=
  { s with state := { s.state with queue := q } }

/-- Top of the inner loop, under the lock: fetch a head and its chain. -/
def pollStep (s : BlkSystem) : BlkSystem × List Event :=
  if !s.state.queue.ready || s.state.queue.availRing = 0 then ({ s with pc := .wait }, [.idle])
  else
    match s.state.queue.nextAvail s.mem with
    | .error why => ({ s with pc := .halted why }, [])
    | .ok (none, _) => ({ s with pc := .wait }, [.idle])
    | .ok (some head, q) =>
        match q.readChain s.mem head with
        | .error why => ({ s.withQueue q with pc := .halted why }, [.take 0 head])
        | .ok chain => ({ s.withQueue q with pc := .serve head chain }, [.take 0 head])

/-- `chain[chain.len() - 1]`, for a chain that goes on after its header. -/
def statusDesc (dataDesc : Descriptor) (rest : List Descriptor) : Descriptor :=
  (dataDesc :: rest).getLast (List.cons_ne_nil _ _)

/-- The request itself, with no lock held, or the completion of a short chain. -/
def serveStep (s : BlkSystem) (io : Transfer) (head : UInt16) :
    List Descriptor → BlkSystem × List Event
  | hdrDesc :: dataDesc :: rest =>
      match Blk.serve s.readOnly io s.mem s.image hdrDesc dataDesc (statusDesc dataDesc rest) with
      | .error why => ({ s with pc := .halted why }, [])
      | .ok none => ({ s with pc := .poll }, [])
      | .ok (some c) =>
          ({ s with mem := c.mem, image := c.image, pc := .complete head c.usedLen },
            [.request c.reqType c.sector (hdrDesc :: dataDesc :: rest)])
  | _ =>
      match s.state.queue.addUsed s.mem head 0 with
      | .error why => ({ s with pc := .halted why }, [])
      | .ok (added, q, mem) =>
          ({ s.withQueue q with mem := mem, pc := .poll }, [.used 0 head 0 added])

/-- `add_used` and `irq_status |= 0x1` under the second lock. -/
def completeStep (s : BlkSystem) (head : UInt16) (usedLen : UInt32) : BlkSystem × List Event :=
  match s.state.queue.addUsed s.mem head usedLen with
  | .error why => ({ s with pc := .halted why }, [])
  | .ok (added, q, mem) =>
      ({ s with
          state := { s.state with queue := q, irqStatus := s.state.irqStatus ||| 0x1 }
          mem := mem
          pc := .inject },
        [.used 0 head usedLen added, .irqStatus])

def dataplaneStep (s : BlkSystem) (io : Transfer) : BlkSystem × List Event :=
  match s.pc with
  | .wait => if s.kick = 0 then (s, []) else ({ s with kick := 0, pc := .poll }, [])
  | .poll => s.pollStep
  | .serve head chain => s.serveStep io head chain
  | .complete head usedLen => s.completeStep head usedLen
  | .inject => ({ s with pc := .poll }, [.irqfd])
  | .halted _ => (s, [])

/-! ### What each step can do -/

theorem pollStep_cases (s : BlkSystem) :
    (∃ why, s.pollStep = ({ s with pc := .halted why }, [])) ∨
      ((s.state.queue.ready = true → s.state.queue.availRing ≠ 0 →
          ∃ q, s.state.queue.nextAvail s.mem = .ok (none, q)) ∧
        s.pollStep = ({ s with pc := .wait }, [.idle])) ∨
      ∃ head q, s.state.queue.ready = true ∧ s.state.queue.availRing ≠ 0 ∧
        s.state.queue.nextAvail s.mem = .ok (some head, q) ∧
        ((∃ why, s.pollStep = ({ s.withQueue q with pc := .halted why }, [.take 0 head])) ∨
          ∃ chain, q.readChain s.mem head = .ok chain ∧
            s.pollStep = ({ s.withQueue q with pc := .serve head chain }, [.take 0 head])) := by
  unfold pollStep
  by_cases hready : (!s.state.queue.ready || decide (s.state.queue.availRing = 0)) = true
  · rw [if_pos hready]
    refine Or.inr (Or.inl ⟨fun hr ha => ?_, rfl⟩)
    simp [hr, ha] at hready
  · rw [if_neg hready]
    have hr : s.state.queue.ready = true ∧ s.state.queue.availRing ≠ 0 := by simpa using hready
    cases hn : s.state.queue.nextAvail s.mem with
    | error why => exact Or.inl ⟨why, rfl⟩
    | ok pair =>
        rcases pair with ⟨_ | head, q⟩
        · exact Or.inr (Or.inl ⟨fun _ _ => ⟨q, rfl⟩, rfl⟩)
        · refine Or.inr (Or.inr ⟨head, q, hr.1, hr.2, rfl, ?_⟩)
          dsimp only
          cases hc : q.readChain s.mem head with
          | error why => exact Or.inl ⟨why, rfl⟩
          | ok chain => exact Or.inr ⟨chain, rfl, rfl⟩

theorem serveStep_short (s : BlkSystem) (io : Transfer) (head : UInt16) {chain : List Descriptor}
    (hc : chain.length < 2) :
    s.serveStep io head chain =
      match s.state.queue.addUsed s.mem head 0 with
      | .error why => ({ s with pc := .halted why }, [])
      | .ok (added, q, mem) =>
          ({ s.withQueue q with mem := mem, pc := .poll }, [.used 0 head 0 added]) := by
  match chain, hc with
  | [], _ => rfl
  | [_], _ => rfl

/-- A chain of fewer than two descriptors is completed with length zero; a longer
one is dropped when its header cannot be read and served otherwise. -/
theorem serveStep_cases (s : BlkSystem) (io : Transfer) (head : UInt16)
    (chain : List Descriptor) :
    (∃ why, s.serveStep io head chain = ({ s with pc := .halted why }, [])) ∨
      (∃ added q mem, chain.length < 2 ∧
        s.state.queue.addUsed s.mem head 0 = .ok (added, q, mem) ∧
        s.serveStep io head chain =
          ({ s.withQueue q with mem := mem, pc := .poll }, [.used 0 head 0 added])) ∨
      ∃ hdrDesc dataDesc rest, chain = hdrDesc :: dataDesc :: rest ∧
        (s.mem.readSlice hdrDesc.addr 16 = .ok none ∧
            s.serveStep io head chain = ({ s with pc := .poll }, []) ∨
          ∃ c, Blk.serve s.readOnly io s.mem s.image hdrDesc dataDesc
              (statusDesc dataDesc rest) = .ok (some c) ∧
            s.serveStep io head chain =
              ({ s with mem := c.mem, image := c.image, pc := .complete head c.usedLen },
                [.request c.reqType c.sector chain])) := by
  by_cases hc : chain.length < 2
  · rw [s.serveStep_short io head hc]
    cases ha : s.state.queue.addUsed s.mem head 0 with
    | error why => exact Or.inl ⟨why, rfl⟩
    | ok triple =>
        rcases triple with ⟨added, q, mem⟩
        exact Or.inr (Or.inl ⟨added, q, mem, hc, rfl, rfl⟩)
  · match chain, hc with
    | hdrDesc :: dataDesc :: rest, _ =>
        dsimp only [serveStep]
        cases hs : Blk.serve s.readOnly io s.mem s.image hdrDesc dataDesc
            (statusDesc dataDesc rest) with
        | error why => exact Or.inl ⟨why, rfl⟩
        | ok result =>
            refine Or.inr (Or.inr ⟨hdrDesc, dataDesc, rest, rfl, ?_⟩)
            cases result with
            | none => exact Or.inl ⟨(serve_eq_none_iff ..).mp hs, rfl⟩
            | some c => exact Or.inr ⟨c, hs, rfl⟩
    | [], hc => exact absurd (by simp) hc
    | [_], hc => exact absurd (by simp) hc

theorem completeStep_cases (s : BlkSystem) (head : UInt16) (usedLen : UInt32) :
    (∃ why, s.completeStep head usedLen = ({ s with pc := .halted why }, [])) ∨
      ∃ added q mem, s.state.queue.addUsed s.mem head usedLen = .ok (added, q, mem) ∧
        s.completeStep head usedLen =
          ({ s with
              state := { s.state with queue := q, irqStatus := s.state.irqStatus ||| 0x1 }
              mem := mem
              pc := .inject },
            [.used 0 head usedLen added, .irqStatus]) := by
  unfold completeStep
  cases ha : s.state.queue.addUsed s.mem head usedLen with
  | error why => exact Or.inl ⟨why, rfl⟩
  | ok triple =>
      rcases triple with ⟨added, q, mem⟩
      exact Or.inr ⟨added, q, mem, rfl, rfl⟩

theorem dataplaneStep_effect (s : BlkSystem) (io : Transfer) :
    (∃ kick pc, (s.dataplaneStep io).1 = { s with kick := kick, pc := pc }) ∨
      (∃ head q pc, s.state.queue.nextAvail s.mem = .ok (some head, q) ∧
        (s.dataplaneStep io).1 = { s.withQueue q with pc := pc }) ∨
      (∃ head usedLen added q mem irqStatus pc,
        s.state.queue.addUsed s.mem head usedLen = .ok (added, q, mem) ∧
        (s.dataplaneStep io).1 =
          { s with
            state := { s.state with queue := q, irqStatus := irqStatus }
            mem := mem
            pc := pc }) ∨
      ∃ head hdrDesc dataDesc rest c, s.pc = .serve head (hdrDesc :: dataDesc :: rest) ∧
        Blk.serve s.readOnly io s.mem s.image hdrDesc dataDesc
          (statusDesc dataDesc rest) = .ok (some c) ∧
        s.dataplaneStep io =
          ({ s with mem := c.mem, image := c.image, pc := .complete head c.usedLen },
            [.request c.reqType c.sector (hdrDesc :: dataDesc :: rest)]) := by
  unfold dataplaneStep
  cases hpc : s.pc with
  | wait =>
      refine Or.inl ⟨0, if s.kick = 0 then .wait else .poll, ?_⟩
      dsimp only
      split
      · rename_i hkick
        rw [← hpc, ← hkick]
      · rfl
  | poll =>
      rcases s.pollStep_cases with
        ⟨why, h⟩ | ⟨-, h⟩ | ⟨head, q, -, -, hnext, ⟨why, h⟩ | ⟨chain, -, h⟩⟩
      · exact Or.inl ⟨_, _, congrArg Prod.fst h⟩
      · exact Or.inl ⟨_, _, congrArg Prod.fst h⟩
      · exact Or.inr (Or.inl ⟨_, _, _, hnext, congrArg Prod.fst h⟩)
      · exact Or.inr (Or.inl ⟨_, _, _, hnext, congrArg Prod.fst h⟩)
  | serve head chain =>
      rcases s.serveStep_cases io head chain with
        ⟨why, h⟩ | ⟨added, q, mem, -, hadd, h⟩ |
          ⟨hdrDesc, dataDesc, rest, rfl, ⟨-, h⟩ | ⟨c, hserve, h⟩⟩
      · exact Or.inl ⟨_, _, congrArg Prod.fst h⟩
      · exact Or.inr (Or.inr (Or.inl ⟨_, _, _, _, _, _, _, hadd, congrArg Prod.fst h⟩))
      · exact Or.inl ⟨_, _, congrArg Prod.fst h⟩
      · exact Or.inr (Or.inr (Or.inr ⟨head, hdrDesc, dataDesc, rest, c, rfl, hserve, h⟩))
  | complete head usedLen =>
      rcases s.completeStep_cases head usedLen with ⟨why, h⟩ | ⟨added, q, mem, hadd, h⟩
      · exact Or.inl ⟨_, _, congrArg Prod.fst h⟩
      · exact Or.inr (Or.inr (Or.inl ⟨_, _, _, _, _, _, _, hadd, congrArg Prod.fst h⟩))
  | inject => exact Or.inl ⟨_, _, rfl⟩
  | halted why => exact Or.inl ⟨s.kick, s.pc, rfl⟩

end BlkSystem

/-- A vCPU reads or writes a register or stores to RAM, or the dataplane runs
until its next lock operation. -/
inductive BlkAction
  | mmioRead (offset : UInt64)
  | mmioWrite (offset : UInt64) (val : UInt32)
  | store (addr : Nat) (data : List UInt8)
  | dataplane (io : Transfer)
  deriving DecidableEq, Repr

def machine : Machine BlkSystem BlkAction Event where
  step s
    | .mmioRead offset => (s, [.read (s.state.mmioRead offset)])
    | .mmioWrite offset val =>
        let (state, kicks) := s.state.mmioWrite offset val
        ({ s with state := state, kick := s.kick + kicks }, [])
    | .store addr data => ({ s with mem := s.mem.store addr data }, [])
    | .dataplane io => s.dataplaneStep io

/-- A driver brings the queue up with its rings below 64 KiB, puts one chain at
the start of the table and the header's bytes at 0x3000, publishes head 0 and
notifies; then the dataplane runs one step for each transfer. -/
def requestRun (chain : List Descriptor) (header : List UInt8) (ios : List Transfer) :
    List BlkAction :=
  (bringUp 0x2000 0x1000 0x4000).map (fun w => .mmioWrite w.1 w.2) ++
    [.store 0x2000 (chain.flatMap Descriptor.encode), .store 0x3000 header,
      .store 0x1002 [1, 0], .mmioWrite Reg.queueNotify.offset 0] ++
    ios.map .dataplane

def flushRun : List BlkAction :=
  requestRun [⟨0x3000, 16, 1, 1⟩, ⟨0x5000, 1, 2, 0⟩] [4]
    [none, none, none, none, none, none]

end Blk

end Caiman.Vmm
