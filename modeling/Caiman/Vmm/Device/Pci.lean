import Caiman.Lib.Bytes

/-!
# PCI host bridge

Configuration mechanism #1 with two devices on bus 0. `CONFIG_ADDRESS` is a
latch of four byte lanes, and configuration space is read-only.
-/

namespace Caiman.Vmm

open Lib

def pciConfigAddress : UInt16 := 0xCF8
def pciConfigData : UInt16 := 0xCFC

structure PciDevice where
  config : Fin 256 → UInt8

namespace PciDevice

def hostBridge : PciDevice where
  config o :=
    match o.val with
    | 0x00 => 0x86
    | 0x01 => 0x80
    | 0x02 => 0x37
    | 0x03 => 0x12
    | 0x08 => 0x02
    | 0x0b => 0x06
    | _ => 0

def virtioBlk : PciDevice where
  config o :=
    match o.val with
    | 0x00 => 0xF4
    | 0x01 => 0x1A
    | 0x02 => 0x42
    | 0x03 => 0x10
    | 0x04 => 0x07
    | 0x06 => 0x10
    | 0x08 => 0x01
    | 0x0b => 0x01
    | 0x2c => 0xF4
    | 0x2d => 0x1A
    | 0x2e => 0x02
    | 0x3d => 0x01
    | _ => 0

def read (d : PciDevice) (offset len : Nat) : List UInt8 :=
  (List.range len).map fun i => if h : offset + i < 256 then d.config ⟨offset + i, h⟩ else 0xFF

/-- Configuration writes are dropped. -/
def write (d : PciDevice) (_offset : Nat) (_data : List UInt8) : PciDevice := d

end PciDevice

structure PciHostBridge where
  configAddress : UInt32
  hostBridge : PciDevice
  virtioBlk : PciDevice

namespace PciHostBridge

def new : PciHostBridge where
  configAddress := 0
  hostBridge := .hostBridge
  virtioBlk := .virtioBlk

/-- Enabled, bus, device, function, and the register aligned to four bytes. -/
def decode (s : PciHostBridge) : Bool × UInt8 × UInt8 × UInt8 × Nat :=
  let a := s.configAddress
  (a &&& 0x80000000 != 0, ((a >>> 16) &&& 0xFF).toUInt8, ((a >>> 11) &&& 0x1F).toUInt8,
    ((a >>> 8) &&& 0x07).toUInt8, (a &&& 0xFC).toNat)

def deviceAt (s : PciHostBridge) (bus dev func : UInt8) : Option PciDevice :=
  match bus, dev, func with
  | 0, 0, 0 => some s.hostBridge
  | 0, 1, 0 => some s.virtioBlk
  | _, _, _ => none

/-- Put a device back where `deviceAt` finds it. -/
def setDeviceAt (s : PciHostBridge) (bus dev func : UInt8) (d : PciDevice) : PciHostBridge :=
  match bus, dev, func with
  | 0, 0, 0 => { s with hostBridge := d }
  | 0, 1, 0 => { s with virtioBlk := d }
  | _, _, _ => s

/-- The port is one of the four at `base`. -/
def inWindow (base port : UInt16) : Bool := base ≤ port && port < base + 4

def writePort (s : PciHostBridge) (port : UInt16) (data : List UInt8) : PciHostBridge :=
  if inWindow pciConfigAddress port then
    let first := (port - pciConfigAddress).toNat
    -- bytes past the fourth lane are dropped
    let bytes := (leBytes 4 s.configAddress.toNat).mapIdx fun lane b =>
      if first ≤ lane then data.getD (lane - first) b else b
    { s with configAddress := UInt32.ofNat (leNat bytes) }
  else if inWindow pciConfigData port then
    match s.decode with
    | (enabled, bus, dev, func, reg) =>
        if enabled then
          match s.deviceAt bus dev func with
          | some d =>
              s.setDeviceAt bus dev func (d.write (reg + (port - pciConfigData).toNat) data)
          | none => s
        else s
  else s

/-- The `len` bytes the guest reads; `data` is what the buffer held. -/
def readPort (s : PciHostBridge) (port : UInt16) (data : List UInt8) : List UInt8 :=
  if inWindow pciConfigAddress port then
    let first := (port - pciConfigAddress).toNat
    let bytes := leBytes 4 s.configAddress.toNat
    data.mapIdx fun i _ => bytes.getD (first + i) 0
  else if inWindow pciConfigData port then
    match s.decode with
    | (enabled, bus, dev, func, reg) =>
        if enabled then
          match s.deviceAt bus dev func with
          | some d => d.read (reg + (port - pciConfigData).toNat) data.length
          -- an absent device reads as all ones
          | none => List.replicate data.length 0xFF
        else List.replicate data.length 0xFF
  else data

theorem setDeviceAt_of_deviceAt {s : PciHostBridge} {bus dev func : UInt8} {d : PciDevice}
    (h : s.deviceAt bus dev func = some d) : s.setDeviceAt bus dev func d = s := by
  unfold deviceAt at h
  unfold setDeviceAt
  split at h
  · cases h
    rfl
  · cases h
    rfl
  · cases h

/-- Configuration space survives every port write. -/
theorem writePort_devices (s : PciHostBridge) (port : UInt16) (data : List UInt8) :
    (s.writePort port data).hostBridge = s.hostBridge ∧
      (s.writePort port data).virtioBlk = s.virtioBlk := by
  unfold writePort
  split
  · exact ⟨rfl, rfl⟩
  · split
    · obtain ⟨enabled, bus, dev, func, reg⟩ := s.decode
      dsimp only
      split
      · split
        · rename_i d hd
          rw [PciDevice.write, setDeviceAt_of_deviceAt hd]
          exact ⟨rfl, rfl⟩
        · exact ⟨rfl, rfl⟩
      · exact ⟨rfl, rfl⟩
    · exact ⟨rfl, rfl⟩

end PciHostBridge

end Caiman.Vmm
