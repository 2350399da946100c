import Mathlib.Data.Nat.Bitwise
import Caiman.Lib.Last
import Caiman.Vmm.Device.Pci

/-!
# Configuration accesses of any width

After any port writes each byte lane of `CONFIG_ADDRESS` holds the last byte written to it,
and a read of `CONFIG_DATA` is as many reads of one byte at consecutive offsets.
-/

namespace Caiman.Vmm

open Lib

/-! ## Fields of the latch -/

namespace PciAddress

def enabled (a : UInt32) : Bool := a.toNat.testBit 31
def bus (a : UInt32) : UInt8 := UInt8.ofNat (a.toNat / 2 ^ 16)
def dev (a : UInt32) : UInt8 := UInt8.ofNat (a.toNat / 2 ^ 11 % 2 ^ 5)
def func (a : UInt32) : UInt8 := UInt8.ofNat (a.toNat / 2 ^ 8 % 2 ^ 3)

def reg (a : UInt32) : Nat := a.toNat % 2 ^ 8 / 4 * 4

def lanes (a : UInt32) : List UInt8 := leBytes 4 a.toNat

end PciAddress

theorem and_enable (a : UInt32) : (a &&& 0x80000000 != 0) = PciAddress.enabled a := by
  have hbit : (a &&& 0x80000000).toNat = (a.toNat.testBit 31).toNat * 2 ^ 31 := by
    rw [UInt32.toNat_and]
    exact Nat.and_two_pow _ 31
  rw [PciAddress.enabled]
  cases h : a.toNat.testBit 31 with
  | true =>
      rw [bne_iff_ne, ne_eq, ← UInt32.toNat_inj, hbit, h]
      decide
  | false =>
      rw [bne_eq_false_iff_eq, ← UInt32.toNat_inj, hbit, h]
      rfl

theorem and_reg (n : Nat) : n &&& 0xFC = n % 2 ^ 8 / 4 * 4 := by
  have hmask : (0xFC : Nat) = (2 ^ 6 - 1) <<< 2 := rfl
  have hfield : n % 2 ^ 8 / 4 * 4 = (n % 2 ^ 8) >>> 2 <<< 2 := by
    rw [Nat.shiftRight_eq_div_pow, Nat.shiftLeft_eq]
  rw [hfield, hmask]
  refine Nat.eq_of_testBit_eq ?_
  intro i
  simp only [Nat.testBit_and, Nat.testBit_shiftLeft, Nat.testBit_shiftRight,
    Nat.testBit_mod_two_pow, Nat.testBit_two_pow_sub_one]
  by_cases hi : 2 ≤ i
  · have hback : 2 + (i - 2) = i := by omega
    have hwidth : decide (i - 2 < 6) = decide (i < 8) := by
      rw [decide_eq_decide]
      omega
    simp [hi, hback, hwidth, Bool.and_comm]
  · simp [hi]

namespace PciHostBridge

theorem decode_eq (s : PciHostBridge) :
    s.decode = (PciAddress.enabled s.configAddress, PciAddress.bus s.configAddress,
      PciAddress.dev s.configAddress, PciAddress.func s.configAddress,
      PciAddress.reg s.configAddress) := by
  have hfield (n shift width : Nat) :
      (n >>> shift) &&& (2 ^ width - 1) = n / 2 ^ shift % 2 ^ width := by
    rw [Nat.and_two_pow_sub_one_eq_mod, Nat.shiftRight_eq_div_pow]
  have hbus : ((s.configAddress >>> 16) &&& 0xFF).toUInt8 = PciAddress.bus s.configAddress := by
    rw [← UInt8.toNat_inj, PciAddress.bus, UInt32.toNat_toUInt8, UInt32.toNat_and,
      UInt32.toNat_shiftRight, UInt8.toNat_ofNat']
    exact (congrArg (· % 2 ^ 8) (hfield s.configAddress.toNat 16 8)).trans (Nat.mod_mod _ _)
  have hdev : ((s.configAddress >>> 11) &&& 0x1F).toUInt8 = PciAddress.dev s.configAddress := by
    rw [← UInt8.toNat_inj, PciAddress.dev, UInt32.toNat_toUInt8, UInt32.toNat_and,
      UInt32.toNat_shiftRight, UInt8.toNat_ofNat']
    exact congrArg (· % 2 ^ 8) (hfield s.configAddress.toNat 11 5)
  have hfunc : ((s.configAddress >>> 8) &&& 0x07).toUInt8 = PciAddress.func s.configAddress := by
    rw [← UInt8.toNat_inj, PciAddress.func, UInt32.toNat_toUInt8, UInt32.toNat_and,
      UInt32.toNat_shiftRight, UInt8.toNat_ofNat']
    exact congrArg (· % 2 ^ 8) (hfield s.configAddress.toNat 8 3)
  have hreg : (s.configAddress &&& 0xFC).toNat = PciAddress.reg s.configAddress := by
    rw [UInt32.toNat_and]
    exact and_reg s.configAddress.toNat
  rw [decode, and_enable, hbus, hdev, hfunc, hreg]

/-! ## The latch -/

def lanes (s : PciHostBridge) : List UInt8 := PciAddress.lanes s.configAddress

def laneByte (lane : Nat) (w : UInt16 × List UInt8) : Option UInt8 :=
  if inWindow pciConfigAddress w.1 && (w.1 - pciConfigAddress).toNat ≤ lane then
    w.2[lane - (w.1 - pciConfigAddress).toNat]?
  else none

theorem lanes_getElem? (s : PciHostBridge) {lane : Nat} (hlane : lane < 4) :
    ∃ b, s.lanes[lane]? = some b :=
  ⟨_, List.getElem?_eq_getElem (hlane.trans_eq (leBytes_length 4 _).symm)⟩

theorem writePort_configAddress {s : PciHostBridge} {port : UInt16}
    (h : inWindow pciConfigAddress port = false) (data : List UInt8) :
    (s.writePort port data).configAddress = s.configAddress := by
  unfold writePort
  rw [if_neg (by simp [h])]
  split
  · obtain ⟨enabled, bus, dev, func, reg⟩ := s.decode
    dsimp only
    split
    · split
      · rename_i d hd
        rw [PciDevice.write, setDeviceAt_of_deviceAt hd]
      · rfl
    · rfl
  · rfl

theorem lanes_writePort (s : PciHostBridge) (w : UInt16 × List UInt8) {lane : Nat}
    (hlane : lane < 4) :
    (s.writePort w.1 w.2).lanes[lane]? = (laneByte lane w).or s.lanes[lane]? := by
  obtain ⟨port, data⟩ := w
  cases hwin : inWindow pciConfigAddress port with
  | false =>
      rw [lanes, writePort_configAddress hwin]
      simp [laneByte, hwin, lanes]
  | true =>
      let first := (port - pciConfigAddress).toNat
      let bytes := s.lanes.mapIdx fun lane b =>
        if first ≤ lane then data.getD (lane - first) b else b
      have hlen : bytes.length = 4 := by simp [bytes, lanes, PciAddress.lanes]
      have hlanes : (s.writePort port data).lanes = bytes := by
        have hwrite : (s.writePort port data).configAddress = UInt32.ofNat (leNat bytes) := by
          unfold writePort
          rw [if_pos hwin]
          rfl
        have hfits : leNat bytes < 2 ^ 32 := (leNat_lt bytes).trans_eq (by rw [hlen]; decide)
        rw [lanes, PciAddress.lanes, hwrite, UInt32.toNat_ofNat', Nat.mod_eq_of_lt hfits, ← hlen,
          leBytes_leNat]
      obtain ⟨b, hb⟩ := s.lanes_getElem? hlane
      rw [hlanes, List.getElem?_mapIdx, hb, Option.map_some]
      by_cases hfirst : first ≤ lane
      · have hput : laneByte lane (port, data) = data[lane - first]? := by
          simp [laneByte, hwin, hfirst, first]
        rw [if_pos hfirst, hput, List.getD_eq_getElem?_getD]
        cases data[lane - first]? <;> rfl
      · have hput : laneByte lane (port, data) = none := by
          simp [laneByte, first, hwin, Nat.not_le.mp hfirst]
        rw [if_neg hfirst, hput]
        rfl

def after (writes : List (UInt16 × List UInt8)) : PciHostBridge :=
  writes.foldl (fun s w => s.writePort w.1 w.2) .new

/-- The devices are those the bridge is made with. -/
def Intact (s : PciHostBridge) : Prop := s.hostBridge = .hostBridge ∧ s.virtioBlk = .virtioBlk

theorem writePort_intact {s : PciHostBridge} (h : s.Intact) (port : UInt16) (data : List UInt8) :
    (s.writePort port data).Intact := by
  obtain ⟨hbridge, hblk⟩ := writePort_devices s port data
  exact ⟨hbridge.trans h.1, hblk.trans h.2⟩

theorem after_reads (writes : List (UInt16 × List UInt8)) {lane : Nat} (hlane : lane < 4) :
    (after writes).Intact ∧
      (after writes).lanes[lane]? = some ((lastPut (laneByte lane) writes).getD 0) := by
  have hstart : new.lanes[lane]? = some 0 := by
    match lane, hlane with
    | 0, _ | 1, _ | 2, _ | 3, _ => rfl
  have hstep : ∀ (s : PciHostBridge) (w : UInt16 × List UInt8), s.Intact → True →
      (s.writePort w.1 w.2).Intact ∧
        (s.writePort w.1 w.2).lanes[lane]? = (laneByte lane w).or s.lanes[lane]? :=
    fun s w hs _ => ⟨writePort_intact hs w.1 w.2, lanes_writePort s w hlane⟩
  obtain ⟨hintact, hlast⟩ := read_foldl (fun s : PciHostBridge => s.lanes[lane]?) (I := Intact)
    (P := fun _ => True) hstep (s := new) ⟨rfl, rfl⟩ fun w (_ : w ∈ writes) => trivial
  refine ⟨hintact, ?_⟩
  rw [after, hlast, hstart]
  cases lastPut (laneByte lane) writes <;> rfl

/-! ## Reads -/

/-- The device that the latch selects, while its enable bit is set. -/
def selected (s : PciHostBridge) : Option PciDevice :=
  if PciAddress.enabled s.configAddress then
    s.deviceAt (PciAddress.bus s.configAddress) (PciAddress.dev s.configAddress)
      (PciAddress.func s.configAddress)
  else none

/-- The bus has the host bridge in its first slot, the block device in its second and nothing
else. -/
theorem deviceAt_eq (s : PciHostBridge) (bus dev func : UInt8) :
    s.deviceAt bus dev func =
      if bus = 0 ∧ dev = 0 ∧ func = 0 then some s.hostBridge
      else if bus = 0 ∧ dev = 1 ∧ func = 0 then some s.virtioBlk
      else none := by
  unfold deviceAt
  split
  · rfl
  · rfl
  · rename_i hbridge hblk
    rw [if_neg fun h => hbridge h.1 h.2.1 h.2.2, if_neg fun h => hblk h.1 h.2.1 h.2.2]

/-- The byte at an offset of the configuration space of a device, all ones past its end or
without a device. -/
def configByte (d : Option PciDevice) (o : Nat) : UInt8 :=
  match d with
  | some d => if h : o < 256 then d.config ⟨o, h⟩ else 0xFF
  | none => 0xFF

theorem readPort_data (s : PciHostBridge) {k : Nat} (hk : k < 4) (data : List UInt8) :
    s.readPort (pciConfigData + UInt16.ofNat k) data =
      (List.range data.length).map fun i =>
        configByte s.selected (PciAddress.reg s.configAddress + k + i) := by
  have hwindow : ∀ k < 4, inWindow pciConfigAddress (pciConfigData + UInt16.ofNat k) = false ∧
      inWindow pciConfigData (pciConfigData + UInt16.ofNat k) = true ∧
        (pciConfigData + UInt16.ofNat k - pciConfigData).toNat = k := by decide
  obtain ⟨haddr, hdata, hoff⟩ := hwindow k hk
  unfold readPort
  rw [if_neg (by simp [haddr]), if_pos hdata, decode_eq, hoff, selected]
  dsimp only
  have hones : ∀ n, List.replicate n (0xFF : UInt8) = (List.range n).map fun _ => 0xFF := by
    intro n
    rw [List.map_const', List.length_range]
  split
  · split
    · rename_i d hd
      rw [hd]
      rfl
    · rename_i hd
      rw [hd]
      exact hones _
  · exact hones _

/-- One byte at an offset of the selected device: the register is selected with a write to
the lowest lane, and the byte read at its port. -/
def readByteAt (s : PciHostBridge) (o : Nat) (b : UInt8) : List UInt8 :=
  (s.writePort pciConfigAddress [UInt8.ofNat (o / 4 * 4)]).readPort
    (pciConfigData + UInt16.ofNat (o % 4)) [b]

theorem writePort_lowest (s : PciHostBridge) (x : UInt8) :
    s.writePort pciConfigAddress [x] = { s with
      configAddress := UInt32.ofNat (x.toNat + 256 * (s.configAddress.toNat / 256)) } := by
  have hfits : s.configAddress.toNat / 256 < 256 ^ 3 := by
    have := s.configAddress.toNat_lt
    omega
  have hbytes : (leBytes 4 s.configAddress.toNat).mapIdx (fun lane b =>
      if (pciConfigAddress - pciConfigAddress).toNat ≤ lane then
        [x].getD (lane - (pciConfigAddress - pciConfigAddress).toNat) b else b) =
      x :: leBytes 3 (s.configAddress.toNat / 256) := rfl
  unfold writePort
  rw [if_pos (by decide)]
  dsimp only
  rw [hbytes, leNat, leNat_leBytes hfits]

theorem fields_of_lowest {a b : UInt32} (h : a.toNat / 2 ^ 8 = b.toNat / 2 ^ 8) :
    PciAddress.enabled a = PciAddress.enabled b ∧ PciAddress.bus a = PciAddress.bus b ∧
      PciAddress.dev a = PciAddress.dev b ∧ PciAddress.func a = PciAddress.func b := by
  have hshift (k : Nat) : a.toNat / 2 ^ (8 + k) = b.toNat / 2 ^ (8 + k) := by
    rw [Nat.pow_add, ← Nat.div_div_eq_div_mul, ← Nat.div_div_eq_div_mul, h]
  refine ⟨?_, ?_, ?_, ?_⟩
  · rw [PciAddress.enabled, PciAddress.enabled, Nat.testBit_eq_decide_div_mod_eq,
      Nat.testBit_eq_decide_div_mod_eq, hshift 23]
  · rw [PciAddress.bus, PciAddress.bus, hshift 8]
  · rw [PciAddress.dev, PciAddress.dev, hshift 3]
  · rw [PciAddress.func, PciAddress.func, h]

theorem readByteAt_eq (s : PciHostBridge) {o : Nat} (ho : o < 256) (b : UInt8) :
    s.readByteAt o b = [configByte s.selected o] := by
  let x := UInt8.ofNat (o / 4 * 4)
  let a := UInt32.ofNat (x.toNat + 256 * (s.configAddress.toNat / 256))
  have hx : x.toNat = o / 4 * 4 := by
    rw [UInt8.toNat_ofNat']
    omega
  have ha : a.toNat = x.toNat + 256 * (s.configAddress.toNat / 256) := by
    have := s.configAddress.toNat_lt
    have := x.toNat_lt
    rw [UInt32.toNat_ofNat']
    omega
  have hreg : PciAddress.reg a = o / 4 * 4 := by
    rw [PciAddress.reg, ha, hx]
    omega
  have hhigh : a.toNat / 2 ^ 8 = s.configAddress.toNat / 2 ^ 8 := by
    have := x.toNat_lt
    rw [ha]
    omega
  obtain ⟨hen, hbus, hdev, hfunc⟩ := fields_of_lowest hhigh
  have hselected : selected { s with configAddress := a } = s.selected := by
    rw [selected, selected, hen, hbus, hdev, hfunc]
    rfl
  rw [readByteAt, writePort_lowest, readPort_data _ (Nat.mod_lt o (by decide))]
  change [configByte (selected { s with configAddress := a }) (PciAddress.reg a + o % 4 + 0)] = _
  rw [hselected, hreg, Nat.add_zero, Nat.div_add_mod']

/-- For every sequence of port writes: each lane of `CONFIG_ADDRESS` holds the last byte written
to it, the devices are as they were made, one of them is selected with the enable bit set and its
place in the latch, and a read of `CONFIG_DATA` returns, byte for byte, what reads of one byte at
consecutive offsets return. -/
theorem config_access_consistent (writes : List (UInt16 × List UInt8)) :
    let s := after writes
    let a := s.configAddress
    (∀ lane < 4, s.lanes[lane]? = some ((lastPut (laneByte lane) writes).getD 0)) ∧
      (s.hostBridge = .hostBridge ∧ s.virtioBlk = .virtioBlk) ∧
      (s.selected =
        if PciAddress.enabled a then
          if PciAddress.bus a = 0 ∧ PciAddress.dev a = 0 ∧ PciAddress.func a = 0 then
            some .hostBridge
          else if PciAddress.bus a = 0 ∧ PciAddress.dev a = 1 ∧ PciAddress.func a = 0 then
            some .virtioBlk
          else none
        else none) ∧
      (∀ k < 4, ∀ data, s.readPort (pciConfigData + UInt16.ofNat k) data =
        (List.range data.length).map fun i => configByte s.selected (PciAddress.reg a + k + i)) ∧
      ∀ o < 256, ∀ b, s.readByteAt o b = [configByte s.selected o] := by
  obtain ⟨hbridge, hblk⟩ := (after_reads writes (Nat.zero_lt_succ 3)).1
  refine ⟨?_, ⟨hbridge, hblk⟩, ?_, ?_, ?_⟩
  · exact fun lane hlane => (after_reads writes hlane).2
  · rw [selected, deviceAt_eq, hbridge, hblk]
  · exact fun k hk data => readPort_data (after writes) hk data
  · exact fun o ho b => readByteAt_eq (after writes) ho b

end PciHostBridge

end Caiman.Vmm
