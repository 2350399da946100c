import Mathlib.Data.UInt
import Mathlib.Data.Nat.Digits.Defs

/-!
# Number and address of a VM

`caiman-vmm` turns its `--vm-id` into a number, which the kernel module knows the VM by,
and the last two octets of the guest's address are taken from the number.
-/

namespace Caiman.Vmm

/-- `trim_start_matches("vm-")` -/
def trimVm : List Char → List Char
  | 'v' :: 'm' :: '-' :: rest => trimVm rest
  | cs => cs

def decimal (cs : List Char) : Nat := cs.foldl (fun n c => 10 * n + (c.toNat - '0'.toNat)) 0

/-- `str::parse::<u32>` -/
def parseU32 (cs : List Char) : Option UInt32 :=
  let digits := if cs.head? = some '+' then cs.tail else cs
  if digits = [] ∨ digits.all Char.isDigit = false then none
  else if decimal digits < 2 ^ 32 then some (UInt32.ofNat (decimal digits))
  else none

/-- `str::parse::<u64>` -/
def parseU64 (cs : List Char) : Option UInt64 :=
  let digits := if cs.head? = some '+' then cs.tail else cs
  if digits = [] ∨ digits.all Char.isDigit = false then none
  else if decimal digits < 2 ^ 64 then some (UInt64.ofNat (decimal digits))
  else none

/-- The hash that stands in for the number of an id that has none. -/
def hashId (vmId : String) : UInt32 :=
  (vmId.toUTF8.data.toList.foldl (fun a b => a * 31 + b.toUInt32) 0) &&& 0xFF

def vmNum (vmId : String) : UInt32 := (parseU32 (trimVm vmId.toList)).getD (hashId vmId)

def macOf (num : UInt32) : List UInt8 :=
  [0x02, 0xaa, 0xbb, 0x00, (num >>> 8).toUInt8, (num &&& 0xFF).toUInt8]

/-- `{b:02x}` -/
def hexOctet (b : UInt8) : List Char := [Nat.digitChar (b.toNat / 16), Nat.digitChar (b.toNat % 16)]

def fmtMac (mac : List UInt8) : String := String.ofList ([':'].intercalate (mac.map hexOctet))

def hexDigits : List Char := "0123456789abcdef".toList

def IsMac (text : String) : Prop :=
  (text.toList.splitOn ':').length = 6 ∧
    ∀ octet ∈ text.toList.splitOn ':', octet.length = 2 ∧ ∀ c ∈ octet, c ∈ hexDigits

theorem hexOctet_mem (b : UInt8) : ∀ c ∈ hexOctet b, c ∈ hexDigits := by
  have hdigit : ∀ n < 16, Nat.digitChar n ∈ hexDigits := by decide
  have hlt := b.toNat_lt
  intro c hc
  simp only [hexOctet, List.mem_cons, List.not_mem_nil, or_false] at hc
  rcases hc with rfl | rfl
  · exact hdigit _ (by omega)
  · exact hdigit _ (by omega)

theorem splitOn_of_hex {octets : List (List Char)} (hne : octets ≠ [])
    (h : ∀ octet ∈ octets, ∀ c ∈ octet, c ∈ hexDigits) :
    ([':'].intercalate octets).splitOn ':' = octets := by
  apply List.splitOn_intercalate _ _ hne
  intro octet hoctet hcolon
  exact absurd (h octet hoctet ':' hcolon) (by decide)

theorem splitOn_map_hexOctet {mac : List UInt8} (h : mac ≠ []) :
    ([':'].intercalate (mac.map hexOctet)).splitOn ':' = mac.map hexOctet := by
  apply splitOn_of_hex (List.map_eq_nil_iff.not.mpr h)
  intro octet hoctet
  obtain ⟨b, -, rfl⟩ := List.mem_map.mp hoctet
  exact hexOctet_mem b

theorem isMac_fmtMac {mac : List UInt8} (h : mac.length = 6) : IsMac (fmtMac mac) := by
  have hne : mac ≠ [] := by
    intro hnil
    rw [hnil] at h
    cases h
  unfold IsMac fmtMac
  rw [String.toList_ofList, splitOn_map_hexOctet hne, List.length_map]
  refine ⟨h, ?_⟩
  intro octet hoctet
  obtain ⟨b, -, rfl⟩ := List.mem_map.mp hoctet
  exact ⟨rfl, hexOctet_mem b⟩

theorem hexOctet_injective : Function.Injective hexOctet := by
  have hdigit : ∀ n < 16, ∀ m < 16, Nat.digitChar n = Nat.digitChar m → n = m := by decide
  intro b b' h
  have hlt := b.toNat_lt
  have hlt' := b'.toNat_lt
  simp only [hexOctet, List.cons.injEq, and_true] at h
  have hhigh := hdigit _ (by omega) _ (by omega) h.1
  have hlow := hdigit _ (by omega) _ (by omega) h.2
  rw [← UInt8.toNat_inj]
  omega

theorem fmtMac_inj {mac mac' : List UInt8} (hne : mac ≠ []) (hne' : mac' ≠ []) :
    fmtMac mac = fmtMac mac' ↔ mac = mac' := by
  have hread {octets : List UInt8} (h : octets ≠ []) :
      (fmtMac octets).toList.splitOn ':' = octets.map hexOctet := by
    rw [fmtMac, String.toList_ofList]
    exact splitOn_map_hexOctet h
  constructor
  · intro h
    have hmap : mac.map hexOctet = mac'.map hexOctet := by
      rw [← hread hne, ← hread hne', h]
    exact List.map_injective_iff.mpr hexOctet_injective hmap
  · intro h
    rw [h]

/-- Two numbers have one address exactly when their low sixteen bits are the same. -/
theorem macOf_inj {n m : UInt32} : macOf n = macOf m ↔ n.toNat % 65536 = m.toNat % 65536 := by
  have hhigh (k : UInt32) : (k >>> 8).toUInt8.toNat = k.toNat / 256 % 256 := by
    rw [UInt32.toNat_toUInt8, UInt32.toNat_shiftRight, Nat.shiftRight_eq_div_pow]
    rfl
  have hlow (k : UInt32) : (k &&& 0xFF).toUInt8.toNat = k.toNat % 256 := by
    have hmask : k.toNat &&& 255 = k.toNat % 256 := Nat.and_two_pow_sub_one_eq_mod k.toNat 8
    rw [UInt32.toNat_toUInt8, UInt32.toNat_and]
    show (k.toNat &&& 255) % 2 ^ 8 = _
    rw [hmask]
    omega
  simp only [macOf, List.cons.injEq, true_and, and_true, ← UInt8.toNat_inj, hhigh, hlow]
  omega

/-! ## Numbers -/

def digitsOf (cs : List Char) : List Nat := (cs.map fun c => c.toNat - '0'.toNat).reverse

theorem decimal_eq_ofDigits (cs : List Char) : decimal cs = Nat.ofDigits 10 (digitsOf cs) := by
  rw [Nat.ofDigits_eq_foldr, digitsOf, List.foldr_reverse, List.foldl_map, decimal]
  simp only [Nat.cast_id, Nat.add_comm]

theorem zero_le_of_isDigit {c : Char} (h : c.isDigit = true) : '0'.toNat ≤ c.toNat := by
  simp only [Char.isDigit, Bool.and_eq_true, decide_eq_true_eq, UInt32.le_iff_toNat_le] at h
  exact h.1

theorem digitsOf_lt {cs : List Char} (h : cs.all Char.isDigit = true) :
    ∀ d ∈ digitsOf cs, d < 10 := by
  intro d hd
  simp only [digitsOf, List.mem_reverse, List.mem_map] at hd
  obtain ⟨c, hc, rfl⟩ := hd
  have hdigit := List.all_eq_true.mp h c hc
  simp only [Char.isDigit, Bool.and_eq_true, decide_eq_true_eq, UInt32.le_iff_toNat_le] at hdigit
  have hnine : c.toNat ≤ 57 := hdigit.2
  show c.toNat - 48 < 10
  omega

theorem decimal_lt {cs : List Char} (h : cs.all Char.isDigit = true) :
    decimal cs < 10 ^ cs.length := by
  have hlt := Nat.ofDigits_lt_base_pow_length (by decide : 1 < 10) (digitsOf_lt h)
  rw [decimal_eq_ofDigits]
  simpa [digitsOf] using hlt

theorem decimal_inj {cs ds : List Char} (hcs : cs.all Char.isDigit = true)
    (hds : ds.all Char.isDigit = true) (hlen : cs.length = ds.length)
    (h : decimal cs = decimal ds) : cs = ds := by
  rw [decimal_eq_ofDigits, decimal_eq_ofDigits] at h
  have hdigits : digitsOf cs = digitsOf ds :=
    Nat.ofDigits_inj_of_len_eq (by decide) (by simpa [digitsOf] using hlen) (digitsOf_lt hcs)
      (digitsOf_lt hds) h
  have hback {es : List Char} (hes : es.all Char.isDigit = true) :
      ((digitsOf es).reverse.map fun d => Char.ofNat (d + '0'.toNat)) = es := by
    rw [digitsOf, List.reverse_reverse, List.map_map]
    nth_rewrite 2 [← List.map_id es]
    apply List.map_congr_left
    intro c hc
    have hle := zero_le_of_isDigit (List.all_eq_true.mp hes c hc)
    simp only [Function.comp, Nat.sub_add_cancel hle, Char.ofNat_toNat, id]
  rw [← hback hcs, hdigits, hback hds]

/-- Of a list of decimal digits that fits, the number is its value. -/
theorem vmNum_of_digits {vmId : String} {digits : List Char} (htrim : trimVm vmId.toList = digits)
    (hne : digits ≠ []) (hdigits : digits.all Char.isDigit = true)
    (hlt : decimal digits < 2 ^ 32) : (vmNum vmId).toNat = decimal digits := by
  have hplus : digits.head? ≠ some '+' := by
    intro hhead
    have hmem := List.mem_of_head? hhead
    exact absurd (List.all_eq_true.mp hdigits _ hmem) (by decide)
  have hparse : parseU32 digits = some (UInt32.ofNat (decimal digits)) := by
    unfold parseU32
    rw [if_neg hplus, if_neg (by simp [hne, hdigits]), if_pos hlt]
  rw [vmNum, htrim, hparse, Option.getD_some, UInt32.toNat_ofNat_of_lt' hlt]

/-- Of anything with another character in it, the number is one of 256. -/
theorem vmNum_of_not_digits {vmId : String} {rest : List Char} (htrim : trimVm vmId.toList = rest)
    (hplus : rest.head? ≠ some '+') (hdigits : rest.all Char.isDigit = false) :
    (vmNum vmId).toNat < 256 := by
  have hparse : parseU32 rest = none := by
    unfold parseU32
    rw [if_neg hplus, if_pos (Or.inr hdigits)]
  rw [vmNum, htrim, hparse, Option.getD_none, hashId, UInt32.toNat_and]
  exact Nat.and_lt_two_pow _ (by decide : _ < 2 ^ 8)

end Caiman.Vmm
