import Caiman.Api.Tap
import Caiman.Vmm.Mac

/-!
# Addresses of the VMs

The API records an address that it cuts out of the id, and `caiman-vmm` computes one from
the number of the same id, for the guest and for the kernel module.
-/

namespace Caiman.Api

open Lib.Str Vmm

/-- `spawn_vm`: two octets out of three characters. None: the slice panics. -/
def mac (id : String) : Option String :=
  let vmNum := String.ofList ((trimVm id.toList).take 3)
  (sliceTo vmNum 2).bind fun high =>
    (sliceFrom vmNum 2).map fun low => "02:aa:bb:00:" ++ high ++ ":" ++ low

/-- The address that `run` of `caiman-vmm` gives to the guest and to the kernel module. -/
def vmmMac (vmId : String) : String := fmtMac (macOf (vmNum vmId))

/-- Recorded and well formed, and the one the guest has. -/
def SameMac (vmId : String) : Prop :=
  ∃ text, mac vmId = some text ∧ IsMac text ∧ text = vmmMac vmId

/-- Nothing but decimal digits after `vm-`. -/
def VmId.Numeric (vm : VmId) : Prop := (vm.text.toList.drop 3).all Char.isDigit = true

/-! ## Recorded address -/

theorem trimVm_of_hex {digits : List Char} (hhex : ∀ c ∈ digits, c ∈ "0123456789abcdef".toList) :
    trimVm (['v', 'm', '-'] ++ digits) = digits := by
  show trimVm digits = digits
  cases digits with
  | nil => rfl
  | cons c rest =>
      have hv : c ≠ 'v' := by
        intro h
        exact absurd (h ▸ hhex c List.mem_cons_self) (by decide)
      unfold trimVm
      split
      · rename_i h
        exact absurd (List.cons.inj h).1 hv
      · rfl

theorem VmId.mac_eq (vm : VmId) : ∃ a b c, a ∈ hexDigits ∧ b ∈ hexDigits ∧ c ∈ hexDigits ∧
    mac vm.text = some (String.ofList
      ([':'].intercalate [['0', '2'], ['a', 'a'], ['b', 'b'], ['0', '0'], [a, b], [c]])) := by
  obtain ⟨digits, hlen, hhex, htext⟩ := vm.exists_digits
  obtain ⟨a, b, c, rest, rfl⟩ : ∃ a b c rest, digits = a :: b :: c :: rest := by
    match digits, hlen with
    | a :: b :: c :: rest, _ => exact ⟨a, b, c, rest, rfl⟩
  have hdigit : ∀ d ∈ [a, b, c], d ∈ hexDigits := by
    intro d hd
    apply hhex
    simp only [List.mem_cons, List.not_mem_nil, or_false] at hd ⊢
    tauto
  have hbytes {cs : List Char} (hcs : ∀ d ∈ cs, d ∈ [a, b, c]) : byteLen cs = cs.length :=
    byteLen_of_hex fun d hd => hdigit d (hcs d hd)
  have hthree : (trimVm vm.text.toList).take 3 = [a, b, c] := by
    rw [htext, trimVm_of_hex hhex]
    rfl
  have hhigh : sliceTo (String.ofList [a, b, c]) 2 = some (String.ofList [a, b]) := by
    rw [sliceTo_eq_some, String.toList_ofList, String.toList_ofList]
    exact ⟨⟨[c], rfl⟩, hbytes (by simp)⟩
  have hlow : sliceFrom (String.ofList [a, b, c]) 2 = some (String.ofList [c]) := by
    rw [sliceFrom_eq_some, String.toList_ofList, String.toList_ofList]
    exact ⟨⟨[a, b], rfl⟩, by rw [hbytes (by simp), hbytes (by simp)]; rfl⟩
  refine ⟨a, b, c, hdigit a (by simp), hdigit b (by simp), hdigit c (by simp), ?_⟩
  simp only [mac, hthree, hhigh, Option.bind_some, hlow, Option.map_some]
  rw [Option.some.injEq, ← String.toList_inj]
  simp only [String.toList_append, String.toList_ofList]
  rfl

theorem VmId.not_isMac {vm : VmId} {text : String} (h : mac vm.text = some text) :
    ¬ IsMac text := by
  obtain ⟨a, b, c, ha, hb, hc, hmac⟩ := vm.mac_eq
  rw [hmac, Option.some.injEq] at h
  subst h
  have hsplit : ([':'].intercalate [['0', '2'], ['a', 'a'], ['b', 'b'], ['0', '0'], [a, b],
      [c]]).splitOn ':' = [['0', '2'], ['a', 'a'], ['b', 'b'], ['0', '0'], [a, b], [c]] := by
    apply splitOn_of_hex (by simp)
    intro octet hoctet d hd
    simp only [List.mem_cons, List.not_mem_nil, or_false] at hoctet
    rcases hoctet with rfl | rfl | rfl | rfl | rfl | rfl <;>
      simp only [List.mem_cons, List.not_mem_nil, or_false] at hd <;>
      rcases hd with rfl | rfl <;> first | assumption | decide
  intro hmac
  have htwo := hmac.2
  rw [String.toList_ofList, hsplit] at htwo
  exact absurd (htwo [c] (by simp)).1 (by simp)

/-! ## Numbers -/

theorem VmId.toList_drop {vm : VmId} {digits : List Char}
    (htext : vm.text.toList = ['v', 'm', '-'] ++ digits) : vm.text.toList.drop 3 = digits := by
  rw [htext]
  rfl

theorem VmId.vmNum_of_numeric {vm : VmId} (h : vm.Numeric) :
    (vmNum vm.text).toNat = decimal (vm.text.toList.drop 3) := by
  obtain ⟨digits, hlen, hhex, htext⟩ := vm.exists_digits
  rw [VmId.Numeric, VmId.toList_drop htext] at h
  rw [VmId.toList_drop htext]
  apply vmNum_of_digits (by rw [htext, trimVm_of_hex hhex]) _ h
  · calc decimal digits < 10 ^ digits.length := decimal_lt h
      _ < 2 ^ 32 := by rw [hlen]; decide
  · intro hnil
    rw [hnil] at hlen
    cases hlen

theorem VmId.vmNum_of_not_numeric {vm : VmId} (h : ¬ vm.Numeric) : (vmNum vm.text).toNat < 256 := by
  obtain ⟨digits, hlen, hhex, htext⟩ := vm.exists_digits
  rw [VmId.Numeric, VmId.toList_drop htext, Bool.not_eq_true] at h
  apply vmNum_of_not_digits (by rw [htext, trimVm_of_hex hhex]) _ h
  intro hhead
  exact absurd (hhex '+' (List.mem_of_head? hhead)) (by decide)

theorem VmId.vmNum_inj {a b : VmId} (ha : a.Numeric) (hb : b.Numeric)
    (h : vmNum a.text = vmNum b.text) : a = b := by
  obtain ⟨as, hlenA, hhexA, htextA⟩ := a.exists_digits
  obtain ⟨bs, hlenB, hhexB, htextB⟩ := b.exists_digits
  have hvalue : decimal as = decimal bs := by
    rw [← VmId.toList_drop htextA, ← VmId.toList_drop htextB, ← VmId.vmNum_of_numeric ha,
      ← VmId.vmNum_of_numeric hb, h]
  rw [VmId.Numeric, VmId.toList_drop htextA] at ha
  rw [VmId.Numeric, VmId.toList_drop htextB] at hb
  have hdigits : as = bs := decimal_inj ha hb (hlenA.trans hlenB.symm) hvalue
  apply VmId.eq_of_text
  rw [← String.toList_inj, htextA, htextB, hdigits]

theorem vmmMac_inj {a b : String} :
    vmmMac a = vmmMac b ↔ (vmNum a).toNat % 65536 = (vmNum b).toNat % 65536 := by
  rw [← macOf_inj]
  exact fmtMac_inj (List.cons_ne_nil _ _) (List.cons_ne_nil _ _)

/-- The address recorded for a VM is never well formed and never the guest's, whatever its
id. Two VMs have one address in their guests exactly when their numbers agree in the low
sixteen bits; numeric ids have different numbers, all others share 256 of them. -/
theorem mac_never_agrees (a b : VmId) :
    (∃ text, mac a.text = some text ∧ ¬ IsMac text ∧ text ≠ vmmMac a.text) ∧
      IsMac (vmmMac a.text) ∧ ¬ SameMac a.text ∧
      (vmmMac a.text = vmmMac b.text ↔
        (vmNum a.text).toNat % 65536 = (vmNum b.text).toNat % 65536) ∧
      (a ≠ b → a.Numeric → b.Numeric → vmNum a.text ≠ vmNum b.text) ∧
      (¬ a.Numeric → (vmNum a.text).toNat < 256) := by
  obtain ⟨x, y, z, -, -, -, hmac⟩ := a.mac_eq
  have hbad := VmId.not_isMac hmac
  have hvmm : IsMac (vmmMac a.text) := isMac_fmtMac rfl
  refine ⟨⟨_, hmac, hbad, ?_⟩, hvmm, ?_, vmmMac_inj, ?_, VmId.vmNum_of_not_numeric⟩
  · intro h
    exact hbad (h ▸ hvmm)
  · intro h
    obtain ⟨text, htext, hgood, -⟩ := h
    exact VmId.not_isMac htext hgood
  · intro hab ha hb h
    exact hab (VmId.vmNum_inj ha hb h)

/-- The recorded address ends in one digit; two ids have one number, and two numbers have
one address. -/
theorem mac_malformed_and_shared :
    mac "vm-00c0ffee" = some "02:aa:bb:00:00:c" ∧
      vmmMac "vm-00c0ffee" = "02:aa:bb:00:00:63" ∧ ¬ SameMac "vm-00c0ffee" ∧
      vmNum "vm-0000000a" = vmNum "vm-000000c4" ∧
      vmNum "vm-00000001" ≠ vmNum "vm-00065537" ∧
      vmmMac "vm-00000001" = vmmMac "vm-00065537" := by
  have hmac : mac "vm-00c0ffee" = some "02:aa:bb:00:00:c" := by decide
  have hvmm : vmmMac "vm-00c0ffee" = "02:aa:bb:00:00:63" := by decide
  refine ⟨hmac, hvmm, ?_, by decide, by decide, by decide⟩
  intro h
  obtain ⟨text, htext, -, hsame⟩ := h
  rw [hmac, Option.some.injEq] at htext
  rw [hvmm, ← htext] at hsame
  exact absurd hsame (by decide)

end Caiman.Api
