import Caiman.Vmm.Virtio.Queue

/-!
# virtio-mmio registers and device events

What the block and the network device share: the register map of the virtio
MMIO transport, version 2, and the vocabulary in which their visible behaviour
is recorded.
-/

namespace Caiman.Vmm

def virtioMagic : UInt32 := 0x74726976
def virtioVersion : UInt32 := 2
def virtioVendor : UInt32 := 0x554D4551
def virtioFVersion1 : UInt64 := (1 : UInt64) <<< 32

/-- The `REG_*` offsets of the two devices. The block device has no driver
feature registers; it ignores those offsets like any other. -/
inductive Reg
  | magic | version | deviceId | vendorId
  | devFeatures | featuresSel | driverFeatures | driverFeatSel
  | queueSel | queueNumMax | queueNum | queueReady | queueNotify
  | irqStatus | irqAck | status
  | queueDescLo | queueDescHi | queueAvailLo | queueAvailHi | queueUsedLo | queueUsedHi
  deriving DecidableEq, Repr

namespace Reg

def offset : Reg → UInt64
  | magic => 0x000
  | version => 0x004
  | deviceId => 0x008
  | vendorId => 0x00C
  | devFeatures => 0x010
  | featuresSel => 0x014
  | driverFeatures => 0x020
  | driverFeatSel => 0x024
  | queueSel => 0x030
  | queueNumMax => 0x034
  | queueNum => 0x038
  | queueReady => 0x044
  | queueNotify => 0x050
  | irqStatus => 0x060
  | irqAck => 0x064
  | status => 0x070
  | queueDescLo => 0x080
  | queueDescHi => 0x084
  | queueAvailLo => 0x090
  | queueAvailHi => 0x094
  | queueUsedLo => 0x0A0
  | queueUsedHi => 0x0A4

def all : List Reg :=
  [magic, version, deviceId, vendorId, devFeatures, featuresSel, driverFeatures, driverFeatSel,
    queueSel, queueNumMax, queueNum, queueReady, queueNotify, irqStatus, irqAck, status,
    queueDescLo, queueDescHi, queueAvailLo, queueAvailHi, queueUsedLo, queueUsedHi]

def decode (off : UInt64) : Option Reg := all.find? fun r => r.offset == off

@[simp] theorem decode_offset (r : Reg) : decode r.offset = some r := by
  cases r <;> rfl

theorem decode_eq_some_iff {off : UInt64} {r : Reg} : decode off = some r ↔ off = r.offset := by
  constructor
  · intro h
    have := List.find?_some h
    simpa using (beq_iff_eq.mp this).symm
  · rintro rfl
    exact decode_offset r

end Reg

/-- The register writes with which a driver configures the selected queue, below
4 GiB, and makes it ready. -/
def bringUp (desc avail used : UInt32) : List (UInt64 × UInt32) :=
  [(Reg.queueDescLo.offset, desc), (Reg.queueAvailLo.offset, avail),
    (Reg.queueUsedLo.offset, used), (Reg.queueReady.offset, 1)]

/-- What the two dataplanes and the register reads do that can be seen from
outside. Queues are numbered as in the source: 0 is the block queue and net RX,
1 is net TX. `used` carries the return value of `add_used`. -/
inductive Event
  | read (val : UInt32)
  | take (queue : Nat) (head : UInt16)
  | used (queue : Nat) (head : UInt16) (len : UInt32) (added : Bool)
  | irqStatus
  | irqfd
  | idle
  | request (reqType : UInt32) (sector : UInt64) (chain : List Descriptor)
  | send (frame : List UInt8)
  deriving DecidableEq, Repr

end Caiman.Vmm
