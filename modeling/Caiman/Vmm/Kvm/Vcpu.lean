import Caiman.Vmm.Device.Console
import Caiman.Vmm.Device.Pci
import Caiman.Vmm.Virtio.QueueSize

/-!
# vCPU threads

`run_loop` enters the guest again and again and hands each exit to the device it
is for. All vCPU threads share the UART, the PCI bridge and the two virtio
devices. A vCPU leaves the loop on shutdown, on a system event or when `KVM_RUN`
fails, and then flushes the UART; the power-off port ends the process on the
spot. So does a dataplane thread that panics or leaves its mapping, as a panic
aborts in the release profile.
-/

namespace Caiman.Vmm

open Lib Blk Net

def virtioNetMmioBase : UInt64 := 0xD0000000
def virtioNetMmioSize : UInt64 := 0x1000
def virtioBlkMmioBase : UInt64 := 0xD0010000
def virtioBlkMmioSize : UInt64 := 0x1000

/-- Data of a port or memory write is never empty; `first` is its lowest byte.
The buffer of a read holds what was in the shared page. -/
inductive VcpuExit
  | ioIn (port : UInt16) (buf : List UInt8)
  | ioOut (port : UInt16) (first : UInt8) (rest : List UInt8)
  | mmioRead (addr : UInt64) (buf : List UInt8)
  | mmioWrite (addr : UInt64) (data : List UInt8)
  | hlt
  | shutdown
  | systemEvent (event : UInt32)
  | other
  deriving DecidableEq, Repr

/-- How one `KVM_RUN` comes back. -/
inductive KvmRun
  | exit (e : VcpuExit)
  | interrupted
  | failed
  deriving DecidableEq, Repr

/-- The process is gone: `std::process::exit`, a thread that panics or leaves its mapping, or
from outside of its threads. -/
inductive Ending
  | exited
  | aborted
  | killed
  deriving DecidableEq, Repr

inductive VmmEvent
  | serial (e : SerialEvent)
  /-- the block device's eventfd -/
  | kick
  /-- the guest stored these bytes in the transmit register -/
  | transmitted (bytes : List UInt8)
  /-- of a dataplane thread -/
  | dataplane (e : Event)
  deriving DecidableEq, Repr

structure Devices where
  console : Console
  vnet : NetState
  vblk : Option BlkState
  pci : PciHostBridge

namespace Devices

abbrev serial (d : Devices) : Serial := d.console.serial

def withSerial (d : Devices) (serial : Serial) : Devices :=
  { d with console := { d.console with serial := serial } }

def atPci (port : UInt16) : Bool := 0xCF8 ≤ port && port ≤ 0xCFF

def atSerial (port : UInt16) : Bool := serialBase ≤ port && port < serialBase + 8

def powerOff : UInt16 := 0x604

def handleIoOut (d : Devices) (port : UInt16) (first : UInt8) (rest : List UInt8) :
    Except Ending (Devices × List VmmEvent) :=
  if atPci port then .ok ({ d with pci := d.pci.writePort port (first :: rest) }, [])
  else if atSerial port then
    -- the rest of the data is dropped
    let (serial, es) := d.serial.writePort port first
    .ok (d.withSerial serial, es.map .serial)
  else if port = powerOff then .error .exited
  else .ok (d, [])

/-- The bytes the guest reads, and the devices after the read. -/
def handleIoIn (d : Devices) (port : UInt16) (buf : List UInt8) :
    List UInt8 × Devices × List VmmEvent :=
  if atPci port then (d.pci.readPort port buf, d, [])
  else if atSerial port then
    let (v, serial, es) := d.serial.readPort port
    (List.replicate buf.length v, d.withSerial serial, es.map .serial)
  else (buf, d, [])

/-- At most four bytes of a register value, over what the buffer held. -/
def putValue (buf : List UInt8) (val : UInt32) : List UInt8 :=
  (leBytes 4 val.toNat).take buf.length ++ buf.drop 4

def inBlk (addr : UInt64) : Bool :=
  virtioBlkMmioBase ≤ addr && addr < virtioBlkMmioBase + virtioBlkMmioSize

def inNet (addr : UInt64) : Bool :=
  virtioNetMmioBase ≤ addr && addr < virtioNetMmioBase + virtioNetMmioSize

/-- The page of the transmit-only UART. -/
def inUart (addr : UInt64) : Bool := 0x09000000 ≤ addr && addr < 0x09001000

def netRead (d : Devices) (addr : UInt64) (buf : List UInt8) : Except Ending (List UInt8) :=
  if inNet addr then
    match d.vnet.mmioRead (addr - virtioNetMmioBase) with
    | .ok val => .ok (putValue buf val)
    | .error _ => .error .aborted
  else .ok (List.replicate buf.length 0)

def handleMmioRead (d : Devices) (addr : UInt64) (buf : List UInt8) :
    Except Ending (List UInt8) :=
  match d.vblk with
  | some blk =>
      if inBlk addr then .ok (putValue buf (blk.mmioRead (addr - virtioBlkMmioBase)))
      else d.netRead addr buf
  | none => d.netRead addr buf

def val32 (data : List UInt8) : UInt32 :=
  if 4 ≤ data.length then UInt32.ofNat (leNat (data.take 4))
  else match data with
    | b :: _ => b.toUInt32
    | [] => 0

def netWrite (d : Devices) (addr : UInt64) (data : List UInt8) :
    Except Ending (Devices × List VmmEvent) :=
  if inNet addr then
    match d.vnet.mmioWrite (addr - virtioNetMmioBase) (val32 data) with
    | .ok vnet => .ok ({ d with vnet := vnet }, [])
    | .error _ => .error .aborted
  else .ok (d, [])

def deviceWrite (d : Devices) (addr : UInt64) (data : List UInt8) :
    Except Ending (Devices × List VmmEvent) :=
  match d.vblk with
  | some blk =>
      if inBlk addr then
        let (blk, kicks) := blk.mmioWrite (addr - virtioBlkMmioBase) (val32 data)
        .ok ({ d with vblk := some blk }, List.replicate kicks .kick)
      else d.netWrite addr data
  | none => d.netWrite addr data

def handleMmioWrite (d : Devices) (addr : UInt64) (data : List UInt8) :
    Except Ending (Devices × List VmmEvent) :=
  match data with
  | b :: _ =>
      if inUart addr then
        let (serial, es) := d.serial.writePort serialBase b
        .ok (d.withSerial serial, es.map .serial)
      else d.deviceWrite addr data
  | [] => d.deviceWrite addr data

end Devices

/-- Where a vCPU thread is: in the loop, past it with the flush still to come, or done. -/
inductive Phase
  | running
  | leaving
  | left
  deriving DecidableEq, Repr

/-- The file behind the block device, the counter of its kick eventfd and its dataplane. -/
structure Disk where
  readOnly : Bool
  image : Image
  kick : Nat
  pc : BlkPc

/-- `disk` is of use with a block device only. -/
structure Process where
  devices : Devices
  mem : GuestMemory
  disk : Disk
  netPc : NetPc
  cpus : Nat
  phase : Nat → Phase
  ended : Option Ending

inductive VmmAction
  | stdinThread
  | vcpu (id : Nat) (run : KvmRun)
  /-- the guest stores to its RAM -/
  | store (addr : Nat) (data : List UInt8)
  | blkDataplane (io : Transfer)
  | netDataplane (packet : List UInt8)
  /-- `main` returns an error while the vCPUs run, or a signal ends the process -/
  | kill
  deriving DecidableEq, Repr

namespace Process

open Devices

/-- The VMM as `main` starts its threads, on a loaded memory and, with a block device, its
image. -/
def boot (stdin : List UInt8) (mac : Fin 6 → UInt8) (vblk : Option BlkState) (mem : GuestMemory)
    (image : Image) (cpus : Nat) : Process where
  devices := ⟨.start stdin, .new mac, vblk, .new⟩
  mem := mem
  disk := ⟨false, image, 0, .wait⟩
  netPc := .tx false
  cpus := cpus
  phase _ := .running
  ended := none

/-- The bytes an exit brings for the transmit register: all of an OUT to it, and the
low byte of a store to the UART page. -/
def sent (d : Devices) : VcpuExit → List UInt8
  | .ioOut port first rest => if d.serial.AtData port then first :: rest else []
  | .mmioWrite addr data =>
      if inUart addr ∧ d.serial.dlab = false then data.take 1 else []
  | _ => []

/-- One exit in `run_loop`; `none` leaves the loop. -/
def handle (d : Devices) : VcpuExit → Option (Except Ending (Devices × List VmmEvent))
  | .ioIn port buf => some (.ok (d.handleIoIn port buf).2)
  | .ioOut port first rest => some (d.handleIoOut port first rest)
  | .mmioRead addr buf => some ((d.handleMmioRead addr buf).map fun _ => (d, []))
  | .mmioWrite addr data => some (d.handleMmioWrite addr data)
  | .hlt => some (.ok (d, []))
  | .shutdown => none
  | .systemEvent _ => none
  | .other => some (.ok (d, []))

def moveTo (s : Process) (id : Nat) (p : Phase) : Process :=
  { s with phase := Function.update s.phase id p }

/-- The exit is for the network device, whose lock a TX drain holds. -/
def waitsForNet (s : Process) : VcpuExit → Bool
  | .mmioRead addr _ => s.netPc = .tx true && inNet addr
  | .mmioWrite addr _ => s.netPc = .tx true && inNet addr
  | _ => false

def runStep (s : Process) (id : Nat) : KvmRun → Process × List VmmEvent
  | .interrupted => (s, [])
  | .failed => (s.moveTo id .leaving, [])
  | .exit e =>
      if s.waitsForNet e then (s, [])
      else
        match handle s.devices e with
        | none => (s.moveTo id .leaving, [])
        | some (.ok (devices, es)) =>
            ({ s with
                devices := devices
                disk := { s.disk with kick := s.disk.kick + es.count .kick } },
              .transmitted (sent s.devices e) :: es)
        | some (.error ending) => ({ s with ended := some ending }, [])

def flushStep (s : Process) (id : Nat) : Process × List VmmEvent :=
  let (serial, es) := s.devices.serial.flush
  ({ s.moveTo id .left with devices := s.devices.withSerial serial }, es.map .serial)

/-! ### Dataplane threads -/

def blkSystem (s : Process) (blk : BlkState) : BlkSystem where
  readOnly := s.disk.readOnly
  state := blk
  mem := s.mem
  image := s.disk.image
  kick := s.disk.kick
  pc := s.disk.pc

def netSystem (s : Process) : NetSystem := ⟨s.devices.vnet, s.mem, s.netPc⟩

def withBlk (s : Process) (b : BlkSystem) : Process :=
  { s with
    devices := { s.devices with vblk := some b.state }
    mem := b.mem
    disk := ⟨b.readOnly, b.image, b.kick, b.pc⟩
    ended := match b.pc with
      | .halted _ => some .aborted
      | _ => s.ended }

def withNet (s : Process) (n : NetSystem) : Process :=
  { s with
    devices := { s.devices with vnet := n.state }
    mem := n.mem
    netPc := n.pc
    ended := match n.pc with
      | .halted _ => some .aborted
      | _ => s.ended }

def blkStep (s : Process) (io : Transfer) : Process × List VmmEvent :=
  match s.devices.vblk with
  | none => (s, [])
  | some blk =>
      let (b, es) := (s.blkSystem blk).dataplaneStep io
      (s.withBlk b, es.map .dataplane)

def netStep (s : Process) (packet : List UInt8) : Process × List VmmEvent :=
  let (n, es) := s.netSystem.dataplaneStep packet
  (s.withNet n, es.map .dataplane)

def consoleEvent : ConsoleEvent → List VmmEvent
  | .serial e => [.serial e]
  | .received _ => []

def machine : Machine Process VmmAction VmmEvent where
  step s a :=
    match s.ended with
    | some _ => (s, [])
    | none =>
        match a with
        | .stdinThread =>
            let (console, es) := s.devices.console.stdinStep
            ({ s with devices := { s.devices with console := console } }, es.flatMap consoleEvent)
        | .vcpu id run =>
            if id < s.cpus then
              match s.phase id with
              | .running => s.runStep id run
              | .leaving => s.flushStep id
              | .left => (s, [])
            else (s, [])
        | .store addr data => ({ s with mem := s.mem.store addr data }, [])
        | .blkDataplane io => s.blkStep io
        | .netDataplane packet => s.netStep packet
        | .kill => ({ s with ended := some .killed }, [])

end Process

end Caiman.Vmm
