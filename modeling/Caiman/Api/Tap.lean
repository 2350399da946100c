import Caiman.Lib.Str
import Caiman.Api.Disks

/-!
# Tap names

The API names the tap that it hands to the VMM, and `caiman-cni` names the tap that it
creates. Both cut eight bytes out of the VM's id, at opposite ends.
-/

namespace Caiman

open Lib.Str

/-- `cni_add` and `restart_vm`: the last eight bytes. None: the slice panics. -/
def Api.tapName (vmId : String) : Option String :=
  (sliceFrom vmId (byteLen vmId.toList - 8)).map fun short => "caim" ++ short

/-- `tap_name` of `caiman-cni`: the first eight bytes. -/
def Cni.tapName (vmId : String) : Option String :=
  (sliceTo vmId (min (byteLen vmId.toList) 8)).map fun short => "caim" ++ short

namespace Api

/-- Neither panics, and the names are the same. -/
def SameTap (vmId : String) : Prop :=
  ∃ name, tapName vmId = some name ∧ Cni.tapName vmId = some name

/-- At most eight bytes, or eight bytes of whole characters that it both begins and ends
with. -/
def ShortOrBordered (vmId : String) : Prop :=
  byteLen vmId.toList ≤ 8 ∨
    ∃ border, byteLen border = 8 ∧ border <+: vmId.toList ∧ border <:+ vmId.toList

theorem map_tap_eq_some {slice : Option String} {name : String} :
    slice.map (fun short => "caim" ++ short) = some name ↔
      ∃ short, slice = some short ∧ name = "caim" ++ short := by
  rw [Option.map_eq_some_iff]
  simp only [eq_comm]

theorem sameTap_iff (vmId : String) : SameTap vmId ↔ ShortOrBordered vmId := by
  have hshort : SameTap vmId ↔ ∃ short, sliceFrom vmId (byteLen vmId.toList - 8) = some short ∧
      sliceTo vmId (min (byteLen vmId.toList) 8) = some short := by
    unfold SameTap tapName Cni.tapName
    simp only [map_tap_eq_some]
    constructor
    · intro h
      obtain ⟨name, ⟨last, hlast, rfl⟩, ⟨first, hfirst, hname⟩⟩ := h
      rw [String.append_right_inj] at hname
      exact ⟨last, hlast, hname ▸ hfirst⟩
    · intro h
      obtain ⟨short, hlast, hfirst⟩ := h
      exact ⟨_, ⟨short, hlast, rfl⟩, ⟨short, hfirst, rfl⟩⟩
  rw [hshort]
  simp only [sliceFrom_eq_some, sliceTo_eq_some]
  constructor
  · intro h
    obtain ⟨short, ⟨hsuffix, -⟩, ⟨hstart, hlen⟩⟩ := h
    by_cases hle : byteLen vmId.toList ≤ 8
    · exact Or.inl hle
    · exact Or.inr ⟨short.toList, by omega, hstart, hsuffix⟩
  · intro h
    rcases h with hle | ⟨border, hlen, hfirst, hlast⟩
    · exact ⟨vmId, ⟨List.suffix_refl _, by omega⟩, List.prefix_refl _, by omega⟩
    · have hle : 8 ≤ byteLen vmId.toList := by
        obtain ⟨rest, hrest⟩ := hfirst
        rw [← hrest, byteLen_append]
        omega
      refine ⟨String.ofList border, ?_⟩
      rw [String.toList_ofList]
      exact ⟨⟨hlast, by omega⟩, hfirst, by omega⟩

/-! ## Generated ids -/

theorem VmId.exists_digits (vm : VmId) : ∃ digits : List Char, digits.length = 8 ∧
    (∀ c ∈ digits, c ∈ "0123456789abcdef".toList) ∧
    vm.text.toList = ['v', 'm', '-'] ++ digits := by
  obtain ⟨digits, hlen, hhex, htext⟩ := vm.generated
  refine ⟨digits, hlen, hhex, ?_⟩
  have hstart : "vm-".toList = ['v', 'm', '-'] := rfl
  rw [htext, String.toList_append, hstart, String.toList_ofList]

theorem VmId.eq_of_text {a b : VmId} (h : a.text = b.text) : a = b := by
  cases a
  cases b
  cases h
  rfl

theorem byteLen_of_hex {cs : List Char} (h : ∀ c ∈ cs, c ∈ "0123456789abcdef".toList) :
    byteLen cs = cs.length := by
  have hall : ("0123456789abcdef".toList.all fun c => c.utf8Size == 1) = true := by decide
  have hsize : ∀ c ∈ "0123456789abcdef".toList, c.utf8Size = 1 := fun c hc =>
    beq_iff_eq.mp (List.all_eq_true.mp hall c hc)
  induction cs with
  | nil => rfl
  | cons c cs ih =>
      rw [byteLen_cons, hsize c (h c List.mem_cons_self),
        ih (fun d hd => h d (List.mem_cons_of_mem c hd)), List.length_cons, Nat.add_comm]

/-- The names for a generated id: all its digits, and `vm-` with the first five. -/
theorem VmId.tapNames {vm : VmId} {digits : List Char} (hlen : digits.length = 8)
    (hhex : ∀ c ∈ digits, c ∈ "0123456789abcdef".toList)
    (htext : vm.text.toList = ['v', 'm', '-'] ++ digits) :
    tapName vm.text = some ("caim" ++ String.ofList digits) ∧
      Cni.tapName vm.text = some ("caim" ++ String.ofList (['v', 'm', '-'] ++ digits.take 5)) := by
  have hbytes : byteLen vm.text.toList = 11 := by
    rw [htext, byteLen_append, byteLen_of_hex hhex, hlen]
    rfl
  have hfive : byteLen (digits.take 5) = 5 := by
    rw [byteLen_of_hex fun c hc => hhex c (List.mem_of_mem_take hc), List.length_take, hlen]
    rfl
  have hlast : sliceFrom vm.text (byteLen vm.text.toList - 8) = some (String.ofList digits) := by
    rw [sliceFrom_eq_some, hbytes, String.toList_ofList, htext]
    exact ⟨List.suffix_append _ _, by rw [byteLen_of_hex hhex, hlen]⟩
  have hfirst : sliceTo vm.text (min (byteLen vm.text.toList) 8) =
      some (String.ofList (['v', 'm', '-'] ++ digits.take 5)) := by
    rw [sliceTo_eq_some, hbytes, String.toList_ofList, htext]
    refine ⟨(List.prefix_append_right_inj _).mpr (List.take_prefix 5 digits), ?_⟩
    rw [byteLen_append, hfive]
    rfl
  exact ⟨by rw [tapName, hlast]; rfl, by rw [Cni.tapName, hfirst]; rfl⟩

theorem VmId.not_sameTap (vm : VmId) : ¬ SameTap vm.text := by
  obtain ⟨digits, hlen, hhex, htext⟩ := vm.exists_digits
  obtain ⟨hlast, hfirst⟩ := VmId.tapNames hlen hhex htext
  intro h
  obtain ⟨name, hapi, hcni⟩ := h
  rw [hlast] at hapi
  rw [hfirst, ← hapi, Option.some.injEq, String.append_right_inj, String.ofList_inj] at hcni
  have hv : 'v' ∈ digits := by
    rw [← hcni]
    simp
  exact absurd (hhex 'v' hv) (by decide)

/-- For every id: both names are made and are the same exactly when the id is short or
begins and ends alike, which no generated id is. Of two generated ids the API's names
differ, and those of `caiman-cni` exactly when the first five digits do. -/
theorem tap_names_agree_iff (vmId : String) (a b : VmId) :
    (SameTap vmId ↔ ShortOrBordered vmId) ∧ ¬ ShortOrBordered a.text ∧
      (a ≠ b → tapName a.text ≠ tapName b.text ∧
        (Cni.tapName a.text ≠ Cni.tapName b.text ↔
          a.text.toList.take 8 ≠ b.text.toList.take 8)) := by
  refine ⟨sameTap_iff vmId, (sameTap_iff a.text).not.mp a.not_sameTap, ?_⟩
  intro hab
  obtain ⟨as, hlenA, hhexA, htextA⟩ := a.exists_digits
  obtain ⟨bs, hlenB, hhexB, htextB⟩ := b.exists_digits
  obtain ⟨hlastA, hfirstA⟩ := VmId.tapNames hlenA hhexA htextA
  obtain ⟨hlastB, hfirstB⟩ := VmId.tapNames hlenB hhexB htextB
  constructor
  · rw [hlastA, hlastB, ne_eq, Option.some.injEq, String.append_right_inj, String.ofList_inj]
    intro hsame
    apply hab
    apply VmId.eq_of_text
    rw [← String.toList_inj, htextA, htextB, hsame]
  · rw [hfirstA, hfirstB, htextA, htextB, ne_eq, Option.some.injEq, String.append_right_inj,
      String.ofList_inj]
    rfl

/-- The API hands a tap to the VMM that `caiman-cni` has not made, and the taps of two VMs
are one. -/
theorem tap_names_differ :
    tapName "vm-00c0ffee" = some "caim00c0ffee" ∧
      Cni.tapName "vm-00c0ffee" = some "caimvm-00c0f" ∧
      Cni.tapName "vm-00c0f000" = Cni.tapName "vm-00c0ffee" ∧ ¬ SameTap "vm-00c0ffee" := by
  have hapi : tapName "vm-00c0ffee" = some "caim00c0ffee" := by decide
  have hcni : Cni.tapName "vm-00c0ffee" = some "caimvm-00c0f" := by decide
  refine ⟨hapi, hcni, by decide, ?_⟩
  intro h
  obtain ⟨name, hlast, hfirst⟩ := h
  rw [hapi] at hlast
  rw [hcni, ← hlast] at hfirst
  exact absurd hfirst (by decide)

end Api

end Caiman
