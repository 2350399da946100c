import Mathlib.Algebra.Order.Floor.Semifield
import Mathlib.Data.Rat.Floor
import Mathlib.Tactic.NormNum
import Caiman.Lib.Rounding
import Caiman.Drs.Scheduler

/-!
# Memory quantities

The scheduler extender reads the memory that a pod asks for with integers, the import of
VMs reads the same texts with floating-point numbers.
-/

namespace Caiman

open Lib.Rounding

/-! ## The parser of the import -/

namespace Api

def isNumberChar (c : Char) : Bool := c.isDigit || c = '.'

/-- `str::parse::<f64>` of a text of digits and points. -/
def parseF64 (cs : List Char) : Option (WithTop ℚ) :=
  match cs.splitOn '.' with
  | [whole] =>
      if whole = [] then none
      else some (Format.binary64.ofExact (Vmm.decimal whole : ℚ))
  | [whole, fraction] =>
      if whole = [] ∧ fraction = [] then none
      else some (Format.binary64.ofExact
        (Vmm.decimal whole + Vmm.decimal fraction / 10 ^ fraction.length : ℚ))
  | _ => none

def asU32 (x : WithTop ℚ) : UInt32 := UInt32.ofNat (Format.truncate (2 ^ 32 - 1) x)

def mulBy (c : ℚ) : WithTop ℚ → WithTop ℚ := Format.binary64.apply (· * c)

def divBy (c : ℚ) : WithTop ℚ → WithTop ℚ := Format.binary64.apply (· / c)

def parseK8sMem (s : String) : UInt32 :=
  let (numStr, suffix) := s.toList.partition isNumberChar
  let num := (parseF64 numStr).getD (512 : ℚ)
  match String.ofList suffix with
  | "Gi" => asU32 (mulBy 1024 num)
  | "G" => asU32 (mulBy 1000 num)
  | "Mi" => asU32 num
  | "M" => asU32 (divBy 1024 (mulBy 1000 num))
  | "Ki" => asU32 (divBy 1024 num)
  | _ => asU32 num

end Api

namespace Drs

/-! ## Quantities -/

inductive Suffix
  | plain
  | kibi | mebi | gibi | tebi
  | kilo | mega | giga | tera
  deriving DecidableEq, Repr

namespace Suffix

def text : Suffix → List Char
  | plain => []
  | kibi => ['K', 'i']
  | mebi => ['M', 'i']
  | gibi => ['G', 'i']
  | tebi => ['T', 'i']
  | kilo => ['k']
  | mega => ['M']
  | giga => ['G']
  | tera => ['T']

def bytes : Suffix → ℕ
  | plain => 1
  | kibi => 2 ^ 10
  | mebi => 2 ^ 20
  | gibi => 2 ^ 30
  | tebi => 2 ^ 40
  | kilo => 10 ^ 3
  | mega => 10 ^ 6
  | giga => 10 ^ 9
  | tera => 10 ^ 12

/-- The suffixes that the extender does not look for. -/
def unknown : List Suffix := [tebi, kilo, mega, giga, tera]

/-- The least number that the import does not read as nothing: halfway to the least double
that it takes for one. -/
def leastRead : Suffix → ℚ
  | gibi => 1 / 2 ^ 10 - 1 / 2 ^ 64
  | kibi => 2 ^ 10 - 1 / 2 ^ 44
  | giga => 9223372036854775 / 2 ^ 63
  | mega => 9223372036854775 / 2 ^ 53
  | plain | mebi | tebi | kilo | tera => 1 - 1 / 2 ^ 54

/-- The number that the import drops the digits after the point of. -/
def stored (s : Suffix) (x : ℚ) : ℚ :=
  let num := Format.binary64.round x
  match s with
  | gibi => Format.binary64.round (num * 1024)
  | giga => Format.binary64.round (num * 1000)
  | mega => Format.binary64.round (Format.binary64.round (num * 1000) / 1024)
  | kibi => Format.binary64.round (num / 1024)
  | plain | mebi | tebi | kilo | tera => num

end Suffix

/-- A decimal number, with a fraction or not, and a suffix. -/
structure Quantity where
  whole : List Char
  fraction : Option (List Char)
  suffix : Suffix
  digits : (whole ++ fraction.getD []).all Char.isDigit = true
  some_digit : whole ++ fraction.getD [] ≠ []

namespace Quantity

def number (q : Quantity) : List Char := q.whole ++ q.fraction.elim [] fun f => '.' :: f

def text (q : Quantity) : String := String.ofList (q.number ++ q.suffix.text)

def value (q : Quantity) : ℚ :=
  Vmm.decimal q.whole + q.fraction.elim 0 fun f => (Vmm.decimal f : ℚ) / 10 ^ f.length

def mib (q : Quantity) : ℚ := q.value * q.suffix.bytes / 2 ^ 20

/-- Read by the extender as no less than it is, to the MiB below, and by the import alike. -/
structure NotUnderestimated (q : Quantity) : Prop where
  atLeast : ⌊q.mib⌋₊ ≤ (parseMemoryMib q.text).toNat
  same : (Api.parseK8sMem q.text).toNat = (parseMemoryMib q.text).toNat

/-- Whole numbers of binary units are read right so far as they fit into 32 bits, everything
else where both read nothing and there is no whole MiB. -/
def ReadRight (q : Quantity) : Prop :=
  match q.suffix, q.fraction with
  | .plain, none =>
      Vmm.decimal q.whole = 0 ∨
        2 ^ 52 - 2 ^ 20 ≤ Vmm.decimal q.whole ∧ Vmm.decimal q.whole < 2 ^ 52
  | .kibi, none => Vmm.decimal q.whole < 2 ^ 42
  | .mebi, none => Vmm.decimal q.whole < 2 ^ 32
  | .gibi, none => Vmm.decimal q.whole < 2 ^ 22
  | .tebi, _ => q.value < 1 / 2 ^ 20
  | .tera, _ => q.value < 2 ^ 20 / 10 ^ 12
  | suffix, _ => q.value < suffix.leastRead

end Quantity

/-! ## What the import reads -/

theorem full_largest {e : ℤ} (he : -1074 ≤ e) : Format.binary64.Full (2 ^ 53 - 1) e :=
  ⟨he, by decide, by decide⟩

/-- The largest `m` with `1000 * m < 2 ^ 62 - 2 ^ 8`. -/
theorem full_thousandth {e : ℤ} (he : -1074 ≤ e) : Format.binary64.Full 4611686018427387 e :=
  ⟨he, by decide, by decide⟩

theorem round_lt_one_iff {x : ℚ} (hx : 0 ≤ x) :
    Format.binary64.round x < 1 ↔ x < 1 - 1 / 2 ^ 54 := by
  have hfull := full_largest (e := -53) (by norm_num)
  have h := hfull.round_mul_lt_iff (t := 1) (by decide) hx one_pos (by norm_num) (by norm_num)
  norm_num at h ⊢
  exact h

theorem round_div_lt_one_iff {x : ℚ} (hx : 0 ≤ x) :
    Format.binary64.round (Format.binary64.round x / 1024) < 1 ↔ x < 2 ^ 10 - 1 / 2 ^ 44 := by
  have hround : 0 ≤ Format.binary64.round x := Format.binary64.round_nonneg hx
  have hfull := full_largest (e := -43) (by norm_num)
  rw [round_lt_one_iff (by positivity), div_eq_mul_inv,
    hfull.round_mul_lt_iff (by decide) hx (by norm_num) (by norm_num) (by norm_num)]
  norm_num

theorem stored_lt_one_iff (s : Suffix) {x : ℚ} (hx : 0 ≤ x) :
    s.stored x < 1 ↔ x < s.leastRead := by
  have hround : 0 ≤ Format.binary64.round x := Format.binary64.round_nonneg hx
  cases s with
  | gibi =>
      have hfull := full_largest (e := -63) (by norm_num)
      show Format.binary64.round (Format.binary64.round x * 1024) < 1 ↔ _
      rw [round_lt_one_iff (by positivity),
        hfull.round_mul_lt_iff (by decide) hx (by norm_num) (by norm_num) (by norm_num)]
      norm_num [Suffix.leastRead]
  | giga =>
      have hfull := full_thousandth (e := -62) (by norm_num)
      show Format.binary64.round (Format.binary64.round x * 1000) < 1 ↔ _
      rw [round_lt_one_iff (by positivity),
        hfull.round_mul_lt_iff (by decide) hx (by norm_num) (by norm_num) (by norm_num)]
      norm_num [Suffix.leastRead]
  | mega =>
      have hfull := full_thousandth (e := -52) (by norm_num)
      show Format.binary64.round (Format.binary64.round (Format.binary64.round x * 1000) / 1024) < 1
        ↔ _
      rw [round_div_lt_one_iff (by positivity),
        hfull.round_mul_lt_iff (by decide) hx (by norm_num) (by norm_num) (by norm_num)]
      norm_num [Suffix.leastRead]
  | kibi => exact round_div_lt_one_iff hx
  | _ => exact round_lt_one_iff hx

/-! ### Whole numbers -/

theorem round_natCast {n : ℕ} (hn : n < 2 ^ 53) : Format.binary64.round (n : ℚ) = n := by
  have h := Format.binary64.round_eq_self (K := ℚ) (m := n) (e := 0) (by decide) hn
  simpa using h

theorem le_round_of_le {n : ℕ} {x : ℚ} (hn : n < 2 ^ 53) (h : (n : ℚ) ≤ x) :
    (n : ℚ) ≤ Format.binary64.round x :=
  calc (n : ℚ) = Format.binary64.round (n : ℚ) := (round_natCast hn).symm
    _ ≤ Format.binary64.round x := Format.binary64.round_mono (Nat.cast_nonneg n) h

def Suffix.wholeMib (s : Suffix) (n : ℕ) : ℕ :=
  match s with
  | gibi => n * 1024
  | kibi => n / 1024
  | _ => n

theorem le_round_mul {y c : ℚ} (hc : 1 ≤ c) (hy : 2 ^ 42 ≤ y) :
    2 ^ 42 ≤ Format.binary64.round (y * c) := by
  have hle := le_round_of_le (n := 2 ^ 42) (x := y * c) (by norm_num) (by push_cast; nlinarith)
  exact_mod_cast hle

theorem le_round_div {y : ℚ} (hy : 2 ^ 42 ≤ y) : 2 ^ 32 ≤ Format.binary64.round (y / 1024) := by
  have hle := le_round_of_le (n := 2 ^ 32) (x := y / 1024) (by norm_num) (by push_cast; linarith)
  exact_mod_cast hle

theorem le_stored (s : Suffix) {x : ℚ} (h : 2 ^ 42 ≤ x) : 2 ^ 32 ≤ s.stored x := by
  have hnum : 2 ^ 42 ≤ Format.binary64.round x := by
    have hle := le_round_of_le (n := 2 ^ 42) (by norm_num) (by exact_mod_cast h)
    exact_mod_cast hle
  cases s with
  | gibi => exact le_trans (by norm_num) (le_round_mul (by norm_num) hnum)
  | giga => exact le_trans (by norm_num) (le_round_mul (by norm_num) hnum)
  | mega => exact le_round_div (le_round_mul (by norm_num) hnum)
  | kibi => exact le_round_div hnum
  | _ => exact le_trans (by norm_num) hnum

theorem floor_stored (s : Suffix) (hgiga : s ≠ .giga) (hmega : s ≠ .mega) {n : ℕ}
    (hn : n < 2 ^ 42) : ⌊s.stored n⌋₊ = s.wholeMib n := by
  have hnum : Format.binary64.round (n : ℚ) = n := round_natCast (by omega)
  cases s with
  | giga => exact absurd rfl hgiga
  | mega => exact absurd rfl hmega
  | gibi =>
      have hround : Format.binary64.round ((n : ℚ) * 1024) = (n * 1024 : ℕ) := by
        rw [← round_natCast (n := n * 1024) (by omega)]
        push_cast
        rfl
      rw [Suffix.stored, hnum, hround, Nat.floor_natCast]
      rfl
  | kibi =>
      have hround : Format.binary64.round ((n : ℚ) / 1024) = n / 1024 := by
        have h := Format.binary64.round_eq_self (K := ℚ) (m := n) (e := -10) (by decide)
          (show n < 2 ^ 53 by omega)
        have hscale : (2 : ℚ) ^ (-10 : ℤ) = 1 / 1024 := by norm_num
        rwa [hscale, mul_one_div] at h
      rw [Suffix.stored, hnum, hround]
      exact Nat.floor_div_eq_div n 1024
  | _ =>
      rw [Suffix.stored, hnum, Nat.floor_natCast]
      rfl

/-! ### The text -/

theorem asU32_toNat (a : WithTop ℚ) : (Api.asU32 a).toNat = Format.truncate (2 ^ 32 - 1) a := by
  have hle : Format.truncate (2 ^ 32 - 1) a ≤ 2 ^ 32 - 1 := by
    cases a with
    | top => exact le_rfl
    | coe x => exact min_le_right _ _
  rw [Api.asU32, UInt32.toNat_ofNat_of_lt' (show _ < 2 ^ 32 by omega)]

namespace Quantity

variable (q : Quantity)

theorem isDigit_of_mem {c : Char} (h : c ∈ q.whole ∨ c ∈ q.fraction.getD []) :
    c.isDigit = true :=
  List.all_eq_true.mp q.digits c (List.mem_append.mpr h)

theorem isNumberChar_of_mem {c : Char} (h : c ∈ q.number) : Api.isNumberChar c = true := by
  have hdigit (hc : c.isDigit = true) : Api.isNumberChar c = true := by simp [Api.isNumberChar, hc]
  rcases List.mem_append.mp h with hwhole | hrest
  · exact hdigit (q.isDigit_of_mem (Or.inl hwhole))
  · cases hf : q.fraction with
    | none =>
        rw [hf] at hrest
        cases hrest
    | some f =>
        rw [hf] at hrest
        rcases List.mem_cons.mp hrest with rfl | hmem
        · rfl
        · exact hdigit (q.isDigit_of_mem (Or.inr (by rwa [hf])))

theorem suffix_not_number (s : Suffix) : ∀ c ∈ s.text, Api.isNumberChar c = false := by
  have hall : (s.text.all fun c => !Api.isNumberChar c) = true := by cases s <;> rfl
  intro c hc
  exact (Bool.not_eq_true' _).mp (List.all_eq_true.mp hall c hc)

theorem partition_text :
    q.text.toList.partition Api.isNumberChar = (q.number, q.suffix.text) := by
  have hnumber : ∀ c ∈ q.number, Api.isNumberChar c = true := fun _ => q.isNumberChar_of_mem
  have hsuffix := suffix_not_number q.suffix
  rw [text, String.toList_ofList, List.partition_eq_filter_filter, List.filter_append,
    List.filter_append, List.filter_eq_self.mpr hnumber,
    List.filter_eq_nil_iff.mpr (fun c hc => by simp [hsuffix c hc]),
    List.filter_eq_nil_iff.mpr (fun c hc => by simp [hnumber c hc]),
    List.filter_eq_self.mpr (fun c hc => by simp [hsuffix c hc]), List.append_nil, List.nil_append]

theorem point_not_mem {cs : List Char} (h : ∀ c ∈ cs, c.isDigit = true) : '.' ∉ cs := by
  intro hmem
  exact absurd (h '.' hmem) (by decide)

theorem parseF64_number :
    Api.parseF64 q.number = some (Format.binary64.ofExact q.value) := by
  have hwhole : '.' ∉ q.whole := point_not_mem fun c hc => q.isDigit_of_mem (Or.inl hc)
  have hsome := q.some_digit
  unfold Api.parseF64 number value
  cases hf : q.fraction with
  | none =>
      rw [hf, Option.getD_none, List.append_nil] at hsome
      have hsplit : (q.whole ++ []).splitOn '.' = [q.whole] := by
        rw [List.append_nil, List.splitOn_eq_singleton hwhole]
      rw [Option.elim_none, Option.elim_none, hsplit]
      simp only [if_neg hsome, add_zero]
  | some f =>
      have hfraction : '.' ∉ f := point_not_mem fun c hc => q.isDigit_of_mem
        (Or.inr (by rwa [hf]))
      have hsplit : (q.whole ++ '.' :: f).splitOn '.' = [q.whole, f] := by
        have hjoin : q.whole ++ '.' :: f = ['.'].intercalate [q.whole, f] := by simp
        rw [hjoin, List.splitOn_intercalate _ (by simp [hwhole, hfraction]) (by simp)]
      rw [hf, Option.getD_some] at hsome
      have hdigits : ¬ (q.whole = [] ∧ f = []) := by
        rintro ⟨h, h'⟩
        exact hsome (by rw [h, h', List.append_nil])
      rw [Option.elim_some, Option.elim_some, hsplit]
      simp only [if_neg hdigits]

theorem value_nonneg : 0 ≤ q.value := by
  unfold value
  cases q.fraction with
  | none => simp
  | some f =>
      rw [Option.elim_some]
      positivity

end Quantity

/-! ### The import -/

section

open Format

theorem pow_le_maxExp {k : ℕ} (hk : k ≤ 1024) : (2 : ℚ) ^ k ≤ 2 ^ binary64.maxExp := by
  rw [← zpow_natCast]
  exact zpow_le_zpow_right₀ one_le_two (show (k : ℤ) ≤ 1024 by exact_mod_cast hk)

theorem near_num (x : ℚ) : Near (2 ^ 42) (binary64.ofExact x) (binary64.round x) :=
  near_ofExact x (pow_le_maxExp (by norm_num))

theorem near_mulBy {a : WithTop ℚ} {y c : ℚ} (hc : 1 ≤ c) (h : Near (2 ^ 42) a y) :
    Near (2 ^ 42) (Api.mulBy c a) (binary64.round (y * c)) :=
  h.apply (pow_le_maxExp (by norm_num)) (le_round_mul hc)

theorem near_divBy {a : WithTop ℚ} {y : ℚ} (h : Near (2 ^ 42) a y) :
    Near (2 ^ 32) (Api.divBy 1024 a) (binary64.round (y / 1024)) :=
  h.apply (pow_le_maxExp (by norm_num)) le_round_div

theorem asU32_of_near {bound : ℚ} {a : WithTop ℚ} {y : ℚ} (hbound : 2 ^ 32 ≤ bound)
    (h : Near bound a y) : (Api.asU32 a).toNat = min ⌊y⌋₊ (2 ^ 32 - 1) := by
  rw [asU32_toNat]
  apply Near.truncate
  refine h.imp_right fun hlarge => ⟨hlarge.1, le_trans ?_ hlarge.2⟩
  exact le_trans (by norm_num) hbound

end

theorem parseK8sMem_text (q : Quantity) :
    (Api.parseK8sMem q.text).toNat = min ⌊q.suffix.stored q.value⌋₊ (2 ^ 32 - 1) := by
  have hnum := near_num q.value
  unfold Api.parseK8sMem
  rw [q.partition_text]
  dsimp only
  rw [q.parseF64_number, Option.getD_some]
  cases q.suffix with
  | gibi => exact asU32_of_near (by norm_num) (near_mulBy (by norm_num) hnum)
  | giga => exact asU32_of_near (by norm_num) (near_mulBy (by norm_num) hnum)
  | mega => exact asU32_of_near (by norm_num) (near_divBy (near_mulBy (by norm_num) hnum))
  | kibi => exact asU32_of_near (by norm_num) (near_divBy hnum)
  | _ => exact asU32_of_near (by norm_num) hnum

/-! ### The extender -/

/-- What `parse::<u64>` makes of digits, with nothing for what is too large. -/
def parsedWhole (n : ℕ) : ℕ := if n < 2 ^ 64 then n else 0

theorem parseU64_digits {cs : List Char} (hne : cs ≠ []) (hdigits : ∀ c ∈ cs, c.isDigit = true) :
    ((Vmm.parseU64 cs).getD 0).toNat = parsedWhole (Vmm.decimal cs) := by
  have hplus : cs.head? ≠ some '+' := by
    intro hhead
    exact absurd (hdigits _ (List.mem_of_head? hhead)) (by decide)
  have hall : ¬ (cs = [] ∨ cs.all Char.isDigit = false) := by
    rw [List.all_eq_true.mpr hdigits]
    simp [hne]
  unfold Vmm.parseU64 parsedWhole
  simp only [if_neg hplus, if_neg hall]
  split
  · rename_i hlt
    rw [Option.getD_some, UInt64.toNat_ofNat_of_lt' hlt]
  · rfl

theorem parseU64_other {cs : List Char} {c : Char} (hmem : c ∈ cs) (hc : c.isDigit = false)
    (hplus : cs.head? ≠ some '+') : (Vmm.parseU64 cs).getD 0 = 0 := by
  have hall : cs = [] ∨ cs.all Char.isDigit = false := by
    right
    rw [List.all_eq_false]
    exact ⟨c, hmem, by simp [hc]⟩
  unfold Vmm.parseU64
  simp only [if_neg hplus, if_pos hall]
  rfl

namespace Quantity

variable (q : Quantity)

theorem number_head : ∀ rest, (q.number ++ rest).head? ≠ some '+' := by
  intro rest hhead
  have hne : q.number ≠ [] := by
    intro hnil
    obtain ⟨hwhole, hrest⟩ := List.append_eq_nil_iff.mp hnil
    cases hf : q.fraction with
    | none =>
        have hsome := q.some_digit
        rw [hf, hwhole] at hsome
        exact hsome rfl
    | some f =>
        rw [hf] at hrest
        cases hrest
  obtain ⟨c, cs, hcs⟩ := List.exists_cons_of_ne_nil hne
  rw [hcs] at hhead
  have hmem : '+' ∈ q.number := by
    rw [hcs, ← Option.some.inj hhead]
    exact List.mem_cons_self
  exact absurd (q.isNumberChar_of_mem hmem) (by decide)

theorem isSuffixOf?_text {t : List Char} (hlen : t.length = 2)
    (ht : (t.all fun c => !Api.isNumberChar c) = true) :
    t.isSuffixOf? q.text.toList = if q.suffix.text = t then some q.number else none := by
  split
  · rename_i heq
    rw [List.isSuffixOf?_eq_some_iff_append_eq, text, String.toList_ofList, heq]
  · rename_i hne
    rw [Option.eq_none_iff_forall_ne_some]
    intro r hr
    rw [List.isSuffixOf?_eq_some_iff_append_eq] at hr
    -- what is no number in `r ++ t` is the suffix, which is no longer than `t`
    have hsplit : r.filter (not ∘ Api.isNumberChar) ++ t = q.suffix.text := by
      have hpartition := q.partition_text
      rw [List.partition_eq_filter_filter, ← hr, Prod.mk.injEq, List.filter_append,
        List.filter_append, List.filter_eq_self (p := not ∘ Api.isNumberChar) (l := t) |>.mpr
          (List.all_eq_true.mp ht)] at hpartition
      exact hpartition.2
    have hshort : q.suffix.text.length ≤ 2 := by cases q.suffix <;> decide
    rw [← hsplit, List.length_append, hlen] at hshort
    have hnone : r.filter (not ∘ Api.isNumberChar) = [] :=
      List.eq_nil_of_length_eq_zero (by omega)
    rw [hnone, List.nil_append] at hsplit
    exact hne hsplit.symm

/-- A fraction is no number to the extender. -/
theorem parseU64_fraction {f : List Char} (hf : q.fraction = some f) (rest : List Char) :
    (Vmm.parseU64 (q.number ++ rest)).getD 0 = 0 := by
  apply parseU64_other (c := '.') _ rfl (q.number_head rest)
  unfold number
  rw [hf]
  simp

theorem parseU64_suffix {c : Char} (hmem : c ∈ q.suffix.text) :
    (Vmm.parseU64 (q.number ++ q.suffix.text)).getD 0 = 0 := by
  apply parseU64_other (List.mem_append_right _ hmem) _ (q.number_head _)
  have hnot := suffix_not_number q.suffix c hmem
  rw [Api.isNumberChar, Bool.or_eq_false_iff] at hnot
  exact hnot.1

theorem parseU64_whole (hf : q.fraction = none) :
    ((Vmm.parseU64 q.number).getD 0).toNat = parsedWhole (Vmm.decimal q.whole) := by
  have hnumber : q.number = q.whole := by
    unfold number
    rw [hf]
    exact List.append_nil _
  have hsome := q.some_digit
  rw [hf, Option.getD_none, List.append_nil] at hsome
  rw [hnumber]
  exact parseU64_digits hsome fun c hc => q.isDigit_of_mem (Or.inl hc)

theorem parseMemoryMib_eq : parseMemoryMib q.text =
    match q.suffix with
    | .gibi => (Vmm.parseU64 q.number).getD 0 * 1024
    | .mebi => (Vmm.parseU64 q.number).getD 0
    | .kibi => (Vmm.parseU64 q.number).getD 0 / 1024
    | _ => (Vmm.parseU64 (q.number ++ q.suffix.text)).getD 0 / (1024 * 1024) := by
  have hgi := q.isSuffixOf?_text (t := "Gi".toList) rfl rfl
  have hmi := q.isSuffixOf?_text (t := "Mi".toList) rfl rfl
  have hki := q.isSuffixOf?_text (t := "Ki".toList) rfl rfl
  have htext : q.text.toList = q.number ++ q.suffix.text := String.toList_ofList
  unfold parseMemoryMib
  dsimp only
  rw [hgi, hmi, hki, htext]
  cases q.suffix <;> rfl

theorem parseMemoryMib_fraction {f : List Char} (hf : q.fraction = some f) :
    parseMemoryMib q.text = 0 := by
  have hzero := q.parseU64_fraction hf
  have hnumber := hzero []
  rw [List.append_nil] at hnumber
  rw [parseMemoryMib_eq]
  cases q.suffix <;> simp [hnumber, hzero]

theorem parseMemoryMib_suffix (hs : q.suffix ∈ Suffix.unknown) :
    parseMemoryMib q.text = 0 := by
  have hne : q.suffix.text ≠ [] := by
    intro hnil
    revert hs hnil
    cases q.suffix <;> decide
  have hzero := q.parseU64_suffix (List.head_mem hne)
  have hgibi : q.suffix ≠ .gibi := fun h => absurd (h ▸ hs) (by decide)
  have hmebi : q.suffix ≠ .mebi := fun h => absurd (h ▸ hs) (by decide)
  have hkibi : q.suffix ≠ .kibi := fun h => absurd (h ▸ hs) (by decide)
  rw [parseMemoryMib_eq]
  split
  · contradiction
  · contradiction
  · contradiction
  · rw [hzero]
    rfl

theorem parseMemoryMib_whole (hf : q.fraction = none) (hs : q.suffix ∉ Suffix.unknown) :
    (parseMemoryMib q.text).toNat =
      match q.suffix with
      | .gibi => parsedWhole (Vmm.decimal q.whole) * 1024 % 2 ^ 64
      | .mebi => parsedWhole (Vmm.decimal q.whole)
      | .kibi => parsedWhole (Vmm.decimal q.whole) / 1024
      | _ => parsedWhole (Vmm.decimal q.whole) / 2 ^ 20 := by
  have hwhole := q.parseU64_whole hf
  rw [parseMemoryMib_eq]
  cases h : q.suffix with
  | gibi =>
      show ((Vmm.parseU64 q.number).getD 0 * 1024).toNat = _
      rw [UInt64.toNat_mul, hwhole]
      rfl
  | mebi => exact hwhole
  | kibi =>
      show ((Vmm.parseU64 q.number).getD 0 / 1024).toNat = _
      rw [UInt64.toNat_div, hwhole]
      rfl
  | plain =>
      show ((Vmm.parseU64 (q.number ++ [])).getD 0 / (1024 * 1024)).toNat = _
      rw [List.append_nil, UInt64.toNat_div, hwhole]
      rfl
  | _ => exact absurd (by rw [h]; decide) hs

/-! ### The two together -/

theorem notUnderestimated_iff : q.NotUnderestimated ↔
    ⌊q.mib⌋₊ ≤ (parseMemoryMib q.text).toNat ∧
      min ⌊q.suffix.stored q.value⌋₊ (2 ^ 32 - 1) = (parseMemoryMib q.text).toNat := by
  rw [← parseK8sMem_text]
  exact ⟨fun h => ⟨h.atLeast, h.same⟩, fun h => ⟨h.1, h.2⟩⟩

/-- What the extender reads as nothing is to be less than a MiB, and nothing to the import. -/
theorem notUnderestimated_of_zero (hzero : parseMemoryMib q.text = 0) :
    q.NotUnderestimated ↔ q.value < q.suffix.leastRead ∧ q.value * q.suffix.bytes < 2 ^ 20 := by
  have hmib : ⌊q.mib⌋₊ ≤ 0 ↔ q.value * q.suffix.bytes < 2 ^ 20 := by
    rw [Nat.le_zero, Nat.floor_eq_zero, mib, div_lt_one (by norm_num)]
  have hstored : min ⌊q.suffix.stored q.value⌋₊ (2 ^ 32 - 1) = 0 ↔
      q.value < q.suffix.leastRead := by
    rw [← stored_lt_one_iff q.suffix q.value_nonneg, ← Nat.floor_eq_zero]
    omega
  rw [notUnderestimated_iff, hzero]
  exact (and_congr hmib hstored).trans and_comm

theorem value_whole (hf : q.fraction = none) : q.value = Vmm.decimal q.whole := by
  unfold value
  rw [hf, Option.elim_none, add_zero]

theorem floor_mib_whole (hf : q.fraction = none) :
    ⌊q.mib⌋₊ = Vmm.decimal q.whole * q.suffix.bytes / 2 ^ 20 := by
  have hfloor := Nat.floor_div_eq_div (K := ℚ) (Vmm.decimal q.whole * q.suffix.bytes) (2 ^ 20)
  unfold mib
  rw [q.value_whole hf, ← hfloor]
  push_cast
  rfl

theorem min_floor_stored {s : Suffix} (hs : s ∉ Suffix.unknown) (n : ℕ) :
    min ⌊s.stored n⌋₊ (2 ^ 32 - 1) = min (s.wholeMib n) (2 ^ 32 - 1) := by
  rcases lt_or_ge n (2 ^ 42) with hlt | hge
  · rw [floor_stored s _ _ hlt]
    · rintro rfl
      exact hs (by decide)
    · rintro rfl
      exact hs (by decide)
  · have hstored : 2 ^ 32 ≤ ⌊s.stored n⌋₊ := by
      apply Nat.le_floor
      exact_mod_cast le_stored s (x := n) (by exact_mod_cast hge)
    have hwhole : 2 ^ 32 ≤ s.wholeMib n := by
      cases s <;> simp only [Suffix.wholeMib] <;> omega
    omega

/-- What the import reads as nothing is less than a MiB, unless its unit is a thousand or
more of them. -/
theorem bytes_lt_of_leastRead {v : ℚ} {s : Suffix} (htebi : s ≠ .tebi) (htera : s ≠ .tera)
    (h : v < s.leastRead) : v * s.bytes < 2 ^ 20 := by
  cases s with
  | tebi => exact absurd rfl htebi
  | tera => exact absurd rfl htera
  | _ =>
      norm_num [Suffix.leastRead, Suffix.bytes] at h ⊢
      linarith

theorem readRight_of_zero (v : ℚ) (s : Suffix) : v < s.leastRead ∧ v * s.bytes < 2 ^ 20 ↔
    match s with
    | .tebi => v < 1 / 2 ^ 20
    | .tera => v < 2 ^ 20 / 10 ^ 12
    | s => v < s.leastRead := by
  cases s with
  | tebi =>
      norm_num [Suffix.leastRead, Suffix.bytes]
      constructor
      · rintro ⟨-, h⟩
        linarith
      · intro h
        constructor <;> linarith
  | tera =>
      norm_num [Suffix.leastRead, Suffix.bytes]
      constructor
      · rintro ⟨-, h⟩
        linarith
      · intro h
        constructor <;> linarith
  | _ => exact and_iff_left_of_imp (bytes_lt_of_leastRead (by decide) (by decide))

theorem notUnderestimated_iff_readRight : q.NotUnderestimated ↔ q.ReadRight := by
  cases hf : q.fraction with
  | some f =>
      rw [notUnderestimated_of_zero q (q.parseMemoryMib_fraction hf), readRight_of_zero]
      unfold ReadRight
      rw [hf]
      cases q.suffix <;> exact Iff.rfl
  | none =>
      by_cases hs : q.suffix ∈ Suffix.unknown
      · rw [notUnderestimated_of_zero q (q.parseMemoryMib_suffix hs), readRight_of_zero]
        unfold ReadRight
        rw [hf]
        cases h : q.suffix <;> first | exact Iff.rfl | exact absurd (h ▸ hs) (by decide)
      · rw [notUnderestimated_iff, q.floor_mib_whole hf, q.value_whole hf, min_floor_stored hs,
          q.parseMemoryMib_whole hf hs]
        unfold ReadRight parsedWhole
        rw [hf]
        generalize Vmm.decimal q.whole = n
        cases h : q.suffix with
        | plain =>
            simp only [Suffix.bytes, Suffix.wholeMib]
            split <;> omega
        | kibi =>
            simp only [Suffix.bytes, Suffix.wholeMib]
            split <;> omega
        | mebi =>
            simp only [Suffix.bytes, Suffix.wholeMib]
            split <;> omega
        | gibi =>
            simp only [Suffix.bytes, Suffix.wholeMib]
            split <;> omega
        | _ => exact absurd (by rw [h]; decide) hs

end Quantity

/-! ## Pods -/

/-- The memory that the only container of the pod asks for. -/
def AsksFor (pod : Lib.Json.Value) (q : Quantity) : Prop :=
  ∃ container, ((pod.index "spec").index "containers").asArray = some [container] ∧
    (((container.index "resources").index "requests").index "memory").asStr = some q.text

section

variable {F : Type} {fl : FloatOps F}

theorem AsksFor.le_memMib {pod : Lib.Json.Value} {q : Quantity} (h : AsksFor pod q) :
    parseMemoryMib q.text ≤ (extractVmResources fl pod).memMib := by
  obtain ⟨container, hcontainers, hmemory⟩ := h
  unfold extractVmResources addContainer
  simp only [hcontainers, Option.getD_some, List.foldl_cons, List.foldl_nil, hmemory, UInt64.zero_add]
  show _ ≤ if _ ≤ (256 : UInt64) then (256 : UInt64) else _
  split
  · assumption
  · exact UInt64.le_refl _

theorem memMib_le_of_feasible {node : NodeMetrics F} {req : VmResources F}
    (h : checkNodeFeasibility fl node req = none) :
    req.memMib.toNat ≤ node.memFreeMib.toNat - 256 := by
  unfold checkNodeFeasibility at h
  dsimp only at h
  generalize havail : (if node.availableMemMib < 256 then 0 else node.availableMemMib - 256) =
    avail at h
  have hnat : avail.toNat = node.memFreeMib.toNat - 256 := by
    rw [← havail, NodeMetrics.availableMemMib]
    split
    · rename_i hsmall
      have hlt : node.memFreeMib.toNat < 256 := UInt64.lt_iff_toNat_lt.mp hsmall
      exact (Nat.sub_eq_zero_of_le hlt.le).symm
    · rename_i hlarge
      exact UInt64.toNat_sub_of_le _ _ (UInt64.not_lt.mp hlarge)
  split at h
  · cases h
  · split at h
    · cases h
    · rename_i hmem
      rw [← hnat, ← UInt64.le_iff_toNat_le]
      exact UInt64.not_lt.mp hmem

/-- Of every quantity: it is not underestimated exactly when it is read right. Then a node
that a pod asking for it is admitted to has the memory. -/
theorem memory_not_underestimated_iff (fl : FloatOps F) (q : Quantity) :
    (q.NotUnderestimated ↔ q.ReadRight) ∧
    (q.ReadRight → ∀ pod node, AsksFor pod q →
      checkNodeFeasibility fl node (extractVmResources fl pod) = none →
        ⌊q.mib⌋₊ ≤ node.memFreeMib.toNat - 256) := by
  refine ⟨q.notUnderestimated_iff_readRight, ?_⟩
  intro hread pod node hasks hfeasible
  have hfits := memMib_le_of_feasible hfeasible
  have hasked : parseMemoryMib q.text ≤ (extractVmResources fl pod).memMib := hasks.le_memMib
  calc ⌊q.mib⌋₊ ≤ (parseMemoryMib q.text).toNat :=
        (q.notUnderestimated_iff_readRight.mpr hread).atLeast
    _ ≤ (extractVmResources fl pod).memMib.toNat := UInt64.le_iff_toNat_le.mp hasked
    _ ≤ node.memFreeMib.toNat - 256 := hfits

end

def oneGiga : Quantity := ⟨['1'], none, .giga, by decide, by decide⟩

def oneAndAHalfGibi : Quantity := ⟨['1'], some ['5'], .gibi, by decide, by decide⟩

/-- A gigabyte, and one and a half gibibytes, are nothing to the extender and not to the
import. -/
theorem quantities_underestimated :
    oneGiga.text = "1G" ∧ parseMemoryMib "1G" = 0 ∧ (Api.parseK8sMem "1G").toNat = 1000 ∧
      ⌊oneGiga.mib⌋₊ = 953 ∧ ¬ oneGiga.NotUnderestimated ∧
    oneAndAHalfGibi.text = "1.5Gi" ∧ parseMemoryMib "1.5Gi" = 0 ∧
      (Api.parseK8sMem "1.5Gi").toNat = 1536 ∧ ⌊oneAndAHalfGibi.mib⌋₊ = 1536 ∧
      ¬ oneAndAHalfGibi.NotUnderestimated := by
  have hgiga : parseMemoryMib "1G" = 0 := by decide +kernel
  have hgibi : parseMemoryMib "1.5Gi" = 0 := by decide +kernel
  have hgigaMib : ⌊oneGiga.mib⌋₊ = 953 := by decide +kernel
  have hgibiMib : ⌊oneAndAHalfGibi.mib⌋₊ = 1536 := by decide +kernel
  refine ⟨rfl, hgiga, by decide +kernel, hgigaMib, ?_, rfl, hgibi, by decide +kernel, hgibiMib, ?_⟩
  · intro h
    have hle := h.atLeast
    rw [hgigaMib] at hle
    exact absurd hle (by decide +kernel)
  · intro h
    have hle := h.atLeast
    rw [hgibiMib] at hle
    exact absurd hle (by decide +kernel)

end Drs

end Caiman
