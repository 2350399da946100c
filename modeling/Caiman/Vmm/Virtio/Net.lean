import Caiman.Vmm.Virtio.Blk

/-!
# virtio-net

Register file and dataplane of the network device. The dataplane polls: each
pass drains the TX queue under one lock, asks the TAP for one frame, delivers it
to the RX queue under a second lock, and sleeps. The TX drain is not bounded by
the source, so a step is one TX chain and the lock stays held between the steps
of a drain: register accesses wait for it, stores to guest RAM do not.
-/

namespace Caiman.Vmm.Net

open Lib

def virtioDevNet : UInt32 := 1
def virtioNetFMac : UInt64 := (1 : UInt64) <<< 5
def queueNumMax : UInt32 := 256
def regConfig : UInt64 := 0x100

/-! ## Registers -/

/-- There are two queues, so an index may be written as a numeral. -/
instance twoQueues : NeZero 2 := ⟨Nat.succ_ne_zero 1⟩

/-- `queues[0]` is RX and `queues[1]` is TX. -/
structure NetState where
  mac : Fin 6 → UInt8
  deviceFeaturesSel : UInt32
  driverFeatures : UInt64
  queueSel : UInt32
  status : UInt32
  irqStatus : UInt32
  queues : Fin 2 → Virtqueue

/-- The queue a selector value names. The register only ever holds 0 or 1, which
is what keeps the indexing in bounds. -/
def queueIndex (sel : UInt32) : Exec (Fin 2) :=
  if sel = 0 then .ok 0 else if sel = 1 then .ok 1 else .error .panic

namespace NetState

def new (mac : Fin 6 → UInt8) : NetState where
  mac := mac
  deviceFeaturesSel := 0
  driverFeatures := 0
  queueSel := 0
  status := 0
  irqStatus := 0
  queues := fun _ => Virtqueue.new 256

def mmioRead (s : NetState) (offset : UInt64) : Exec UInt32 := do
  match Reg.decode offset with
  | some .magic => return virtioMagic
  | some .version => return virtioVersion
  | some .deviceId => return virtioDevNet
  | some .vendorId => return virtioVendor
  | some .devFeatures =>
      let features := virtioNetFMac ||| virtioFVersion1
      if s.deviceFeaturesSel = 0 then return features.toUInt32
      else return (features >>> 32).toUInt32
  | some .queueNumMax => return queueNumMax
  | some .queueReady =>
      let q ← queueIndex s.queueSel
      return (s.queues q).ready.toUInt32
  | some .irqStatus => return s.irqStatus
  | some .status => return s.status
  | some _ => return 0
  | none =>
      -- MAC address in config space
      if regConfig ≤ offset ∧ offset ≤ 0x105 then
        let i := (offset - regConfig).toNat
        if h : i < 6 then return (s.mac ⟨i, h⟩).toUInt32 else return 0
      else return 0

def onQueue (s : NetState) (f : Virtqueue → Virtqueue) : Exec NetState := do
  let q ← queueIndex s.queueSel
  return { s with queues := Function.update s.queues q (f (s.queues q)) }

def mmioWrite (s : NetState) (offset : UInt64) (val : UInt32) : Exec NetState :=
  match Reg.decode offset with
  | some .featuresSel => .ok { s with deviceFeaturesSel := val }
  | some .driverFeatures =>
      if s.driverFeatures = 0 then .ok { s with driverFeatures := val.toUInt64 }
      else .ok { s with driverFeatures := s.driverFeatures ||| (val.toUInt64 <<< 32) }
  | some .driverFeatSel => .ok s
  | some .queueSel => .ok { s with queueSel := val &&& 1 }
  | some .queueNum => s.onQueue fun q => { q with size := val.toUInt16 }
  | some .queueReady => s.onQueue fun q => { q with ready := val != 0 }
  | some .irqAck => .ok { s with irqStatus := s.irqStatus &&& ~~~val }
  | some .status => .ok { s with status := val }
  | some .queueDescLo => s.onQueue fun q => q.setDescTable val 0
  | some .queueDescHi => s.onQueue fun q => q.setDescTable 0 val
  | some .queueAvailLo => s.onQueue fun q => q.setAvailRing val 0
  | some .queueAvailHi => s.onQueue fun q => q.setAvailRing 0 val
  | some .queueUsedLo => s.onQueue fun q => q.setUsedRing val 0
  | some .queueUsedHi => s.onQueue fun q => q.setUsedRing 0 val
  | _ => .ok s

end NetState

/-! ## Frames -/

def txBufLen : Nat := 2048
def rxBufLen : Nat := 2048
def headerLen : Nat := 12

/-- Copy the device-readable descriptors of a chain to the TX buffer; `buf` is
its filled part. A descriptor that would overrun the buffer, or that cannot be
read, is skipped. -/
def gather (mem : GuestMemory) : List Descriptor → List UInt8 → Exec (List UInt8)
  | [], buf => .ok buf
  | desc :: chain, buf => do
      if !desc.isWrite && buf.length + desc.len.toNat ≤ txBufLen then
        match ← mem.readSlice desc.addr desc.len.toUInt64 with
        | some bytes => gather mem chain (buf ++ bytes)
        | none => gather mem chain buf
      else gather mem chain buf

/-- One read of the non-blocking TAP into the RX buffer: a longer packet is cut,
an empty or failed read is no frame. -/
def recv (packet : List UInt8) : Option (List UInt8) :=
  if packet = [] then none else some (packet.take rxBufLen)

/-- Header and frame into the first device-writable descriptor of the chain:
`written` and the memory after the loop. -/
def scatter (mem : GuestMemory) (frame : List UInt8) : List Descriptor → Exec (UInt32 × GuestMemory)
  | [] => .ok (0, mem)
  | desc :: chain => do
      if desc.isWrite then
        if 12 ≤ desc.len then
          let mem ← mem.writeSliceIgnored (List.replicate headerLen 0) desc.addr
          let dataLen := min frame.length (desc.len.toNat - headerLen)
          let mem ← mem.writeSliceIgnored (frame.take dataLen) (desc.addr + 12)
          return (UInt32.ofNat (headerLen + dataLen), mem)
        else return (0, mem)
      else scatter mem frame chain

/-! ## Dataplane -/

/-- Where the dataplane thread stands. `tx true` is inside the TX drain, with
the lock held. -/
inductive NetPc
  | tx (locked : Bool)
  | rx
  | inject
  | sleep
  | halted (why : Halt)
  deriving DecidableEq, Repr

structure NetSystem where
  state : NetState
  mem : GuestMemory
  pc : NetPc

namespace NetSystem

def new (mac : Fin 6 → UInt8) (mem : GuestMemory) : NetSystem where
  state := NetState.new mac
  mem := mem
  pc := .tx false

def withQueue (s : NetSystem) (i : Fin 2) (q : Virtqueue) : NetSystem :=
  { s with state := { s.state with queues := Function.update s.state.queues i q } }

/-- Send, if the chain holds more than the header. -/
def sent (buf : List UInt8) : List Event :=
  if headerLen < buf.length then [.send (buf.drop headerLen)] else []

theorem take_not_mem_sent (buf : List UInt8) (queue : Nat) (head : UInt16) :
    .take queue head ∉ sent buf := by
  unfold sent
  split <;> simp

theorem used_not_mem_sent (buf : List UInt8) (queue : Nat) (head : UInt16) (len : UInt32)
    (added : Bool) : .used queue head len added ∉ sent buf := by
  unfold sent
  split <;> simp

/-- One turn of `while let Some(head) = queues[1].next_avail(..)`. -/
def txStep (s : NetSystem) : NetSystem × List Event :=
  match (s.state.queues 1).nextAvail s.mem with
  | .error why => ({ s with pc := .halted why }, [])
  | .ok (none, _) => ({ s with pc := .rx }, [])
  | .ok (some head, q) =>
      match q.readChain s.mem head with
      | .error why => ({ s.withQueue 1 q with pc := .halted why }, [.take 1 head])
      | .ok chain =>
          match gather s.mem chain [] with
          | .error why => ({ s.withQueue 1 q with pc := .halted why }, [.take 1 head])
          | .ok buf =>
              match q.addUsed s.mem head (UInt32.ofNat buf.length) with
              | .error why =>
                  ({ s.withQueue 1 q with pc := .halted why }, .take 1 head :: sent buf)
              | .ok (added, q, mem) =>
                  ({ s.withQueue 1 q with mem := mem, pc := .tx true },
                    .take 1 head :: sent buf ++ [.used 1 head (UInt32.ofNat buf.length) added])

/-- One frame from the TAP, if there is one, to the RX queue. -/
def rxStep (s : NetSystem) (packet : List UInt8) : NetSystem × List Event :=
  match recv packet with
  | none => ({ s with pc := .sleep }, [.idle])
  | some frame =>
      match (s.state.queues 0).nextAvail s.mem with
      | .error why => ({ s with pc := .halted why }, [])
      | .ok (none, _) => ({ s with pc := .sleep }, [.idle])
      | .ok (some head, q) =>
          match q.readChain s.mem head with
          | .error why => ({ s.withQueue 0 q with pc := .halted why }, [.take 0 head])
          | .ok chain =>
              match scatter s.mem frame chain with
              | .error why => ({ s.withQueue 0 q with pc := .halted why }, [.take 0 head])
              | .ok (written, mem) =>
                  if 0 < written then
                    match q.addUsed mem head written with
                    | .error why =>
                        ({ s.withQueue 0 q with mem := mem, pc := .halted why }, [.take 0 head])
                    | .ok (added, q, mem) =>
                        ({ s.withQueue 0 q with
                            state := { (s.withQueue 0 q).state with
                              irqStatus := s.state.irqStatus ||| 0x1 }
                            mem := mem
                            pc := .inject },
                          [.take 0 head, .used 0 head written added, .irqStatus])
                  else
                    ({ s.withQueue 0 q with mem := mem, pc := .sleep }, [.take 0 head, .idle])

def dataplaneStep (s : NetSystem) (packet : List UInt8) : NetSystem × List Event :=
  match s.pc with
  | .tx _ => s.txStep
  | .rx => s.rxStep packet
  | .inject => ({ s with pc := .sleep }, [.irqfd, .idle])
  | .sleep => ({ s with pc := .tx false }, [])
  | .halted _ => (s, [])

/-! ### What each step can do -/

theorem txStep_cases (s : NetSystem) :
    (∃ why, s.txStep = ({ s with pc := .halted why }, [])) ∨
      s.txStep = ({ s with pc := .rx }, []) ∨
      ∃ head q, (s.state.queues 1).nextAvail s.mem = .ok (some head, q) ∧
        ((∃ why buf, s.txStep =
            ({ s.withQueue 1 q with pc := .halted why }, .take 1 head :: sent buf)) ∨
          ∃ chain buf added q' mem, q.readChain s.mem head = .ok chain ∧
            gather s.mem chain [] = .ok buf ∧
            q.addUsed s.mem head (UInt32.ofNat buf.length) = .ok (added, q', mem) ∧
            s.txStep =
              ({ s.withQueue 1 q' with mem := mem, pc := .tx true },
                .take 1 head :: sent buf ++
                  [.used 1 head (UInt32.ofNat buf.length) added])) := by
  unfold txStep
  cases hn : (s.state.queues 1).nextAvail s.mem with
  | error why => exact Or.inl ⟨why, rfl⟩
  | ok pair =>
      rcases pair with ⟨_ | head, q⟩
      · exact Or.inr (Or.inl rfl)
      · refine Or.inr (Or.inr ⟨head, q, rfl, ?_⟩)
        dsimp only
        cases hc : q.readChain s.mem head with
        | error why => exact Or.inl ⟨why, [], rfl⟩
        | ok chain =>
            dsimp only
            cases hg : gather s.mem chain [] with
            | error why => exact Or.inl ⟨why, [], rfl⟩
            | ok buf =>
                dsimp only
                cases ha : q.addUsed s.mem head (UInt32.ofNat buf.length) with
                | error why => exact Or.inl ⟨why, buf, rfl⟩
                | ok triple =>
                    rcases triple with ⟨added, q', mem⟩
                    exact Or.inr ⟨chain, buf, added, q', mem, rfl, hg, ha, rfl⟩

theorem rxStep_cases (s : NetSystem) (packet : List UInt8) :
    (∃ why, s.rxStep packet = ({ s with pc := .halted why }, [])) ∨
      s.rxStep packet = ({ s with pc := .sleep }, [.idle]) ∨
      ∃ frame head q, recv packet = some frame ∧
        (s.state.queues 0).nextAvail s.mem = .ok (some head, q) ∧
        ((∃ why mem, s.rxStep packet =
            ({ s.withQueue 0 q with mem := mem, pc := .halted why }, [.take 0 head])) ∨
          ∃ chain written mem, q.readChain s.mem head = .ok chain ∧
            scatter s.mem frame chain = .ok (written, mem) ∧
            ((¬ 0 < written ∧ s.rxStep packet =
                ({ s.withQueue 0 q with mem := mem, pc := .sleep }, [.take 0 head, .idle])) ∨
              (0 < written ∧ ∃ added q' mem',
                q.addUsed mem head written = .ok (added, q', mem') ∧
                s.rxStep packet =
                  ({ s.withQueue 0 q' with
                      state := { (s.withQueue 0 q').state with
                        irqStatus := s.state.irqStatus ||| 0x1 }
                      mem := mem'
                      pc := .inject },
                    [.take 0 head, .used 0 head written added, .irqStatus])))) := by
  unfold rxStep
  cases hp : recv packet with
  | none => exact Or.inr (Or.inl rfl)
  | some frame =>
      dsimp only
      cases hn : (s.state.queues 0).nextAvail s.mem with
      | error why => exact Or.inl ⟨why, rfl⟩
      | ok pair =>
          rcases pair with ⟨_ | head, q⟩
          · exact Or.inr (Or.inl rfl)
          · refine Or.inr (Or.inr ⟨frame, head, q, rfl, rfl, ?_⟩)
            dsimp only
            cases hc : q.readChain s.mem head with
            | error why => exact Or.inl ⟨why, s.mem, rfl⟩
            | ok chain =>
                dsimp only
                cases hs : scatter s.mem frame chain with
                | error why => exact Or.inl ⟨why, s.mem, rfl⟩
                | ok result =>
                    rcases result with ⟨written, mem⟩
                    dsimp only
                    by_cases hw : 0 < written
                    · rw [if_pos hw]
                      cases ha : q.addUsed mem head written with
                      | error why => exact Or.inl ⟨why, mem, rfl⟩
                      | ok triple =>
                          rcases triple with ⟨added, q', mem'⟩
                          exact Or.inr ⟨chain, written, mem, rfl, hs,
                            Or.inr ⟨hw, added, q', mem', ha, rfl⟩⟩
                    · rw [if_neg hw]
                      exact Or.inr ⟨chain, written, mem, rfl, hs, Or.inl ⟨hw, rfl⟩⟩

end NetSystem

/-- The first device-writable descriptor has room for the 12-byte header. -/
def deliverable (chain : List Descriptor) : Bool :=
  match chain.find? (·.isWrite) with
  | some desc => 12 ≤ desc.len
  | none => false

theorem scatter_written {mem mem' : GuestMemory} {frame : List UInt8} {written : UInt32} :
    ∀ {chain : List Descriptor}, scatter mem frame chain = .ok (written, mem') →
      (0 < written ↔ deliverable chain = true)
  | [], h => by
      simp only [scatter, Except.ok.injEq, Prod.mk.injEq] at h
      simp [deliverable, ← h.1]
  | desc :: chain, h => by
      simp only [scatter, bind, Except.bind, pure, Except.pure] at h
      by_cases hwrite : desc.isWrite = true
      · have hfind : (desc :: chain).find? (·.isWrite) = some desc := by simp [hwrite]
        rw [if_pos hwrite] at h
        by_cases hlen : 12 ≤ desc.len
        · have hpos : 0 < UInt32.ofNat
              (headerLen + min frame.length (desc.len.toNat - headerLen)) := by
            have hlt := desc.len.toNat_lt
            have h12 : 12 ≤ desc.len.toNat := UInt32.le_iff_toNat_le.mp hlen
            have hfit : headerLen + min frame.length (desc.len.toNat - headerLen) < UInt32.size := by
              simp only [headerLen, UInt32.size]
              omega
            rw [UInt32.lt_iff_toNat_lt, UInt32.toNat_ofNat_of_lt' hfit]
            simp only [headerLen, UInt32.toNat_zero]
            omega
          rw [if_pos hlen] at h
          split at h
          · cases h
          · split at h
            · cases h
            · simp only [Except.ok.injEq, Prod.mk.injEq] at h
              rw [← h.1]
              exact iff_of_true hpos (by simp [deliverable, hfind, hlen])
        · rw [if_neg hlen] at h
          simp only [Except.ok.injEq, Prod.mk.injEq] at h
          simp [deliverable, hfind, hlen, ← h.1]
      · have hfind : (desc :: chain).find? (·.isWrite) = chain.find? (·.isWrite) := by
          simp [hwrite]
        rw [if_neg hwrite] at h
        rw [deliverable, hfind]
        exact scatter_written h

inductive NetAction
  | mmioRead (offset : UInt64)
  | mmioWrite (offset : UInt64) (val : UInt32)
  | store (addr : Nat) (data : List UInt8)
  | dataplane (packet : List UInt8)
  deriving DecidableEq, Repr

/-- Register accesses take the state lock: they make no progress inside a drain
and a panic in one of them stops the process. -/
def machine : Machine NetSystem NetAction Event where
  step s
    | .mmioRead offset =>
        if s.pc = .tx true then (s, [])
        else
          match s.state.mmioRead offset with
          | .ok val => (s, [.read val])
          | .error why => ({ s with pc := .halted why }, [])
    | .mmioWrite offset val =>
        if s.pc = .tx true then (s, [])
        else
          match s.state.mmioWrite offset val with
          | .ok state => ({ s with state := state }, [])
          | .error why => ({ s with pc := .halted why }, [])
    | .store addr data => ({ s with mem := s.mem.store addr data }, [])
    | .dataplane packet => s.dataplaneStep packet

/-- A driver brings RX up with one buffer of `len` bytes and a three-byte frame
arrives; the pass ends at the next sleep. -/
def receiveRun (len : UInt32) : List NetAction :=
  (bringUp 0x2000 0x1000 0x4000).map (fun w => .mmioWrite w.1 w.2) ++
    [.store 0x2000 (Descriptor.encode ⟨0x3000, len, 2, 0⟩), .store 0x1002 [1, 0],
      .dataplane [], .dataplane [1, 2, 3], .dataplane []]

/-- A driver brings TX up and publishes one frame of eight bytes after its header;
no frame arrives in the same pass. -/
def transmitRun : List NetAction :=
  .mmioWrite Reg.queueSel.offset 1 ::
    (bringUp 0x2000 0x1000 0x4000).map (fun w => .mmioWrite w.1 w.2) ++
    [.store 0x2000 (Descriptor.encode ⟨0x3000, 20, 0, 0⟩), .store 0x1002 [1, 0],
      .dataplane [], .dataplane [], .dataplane []]

end Caiman.Vmm.Net
