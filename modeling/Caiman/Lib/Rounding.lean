import Mathlib.Data.Int.Log
import Mathlib.Algebra.Order.Floor.Ring
import Mathlib.Algebra.Order.Field.Power
import Mathlib.Algebra.Ring.Int.Parity
import Mathlib.Tactic.Linarith
import Mathlib.Tactic.Positivity
import Mathlib.Tactic.Ring
import Mathlib.Tactic.FieldSimp

/-!
# Rounding to the nearest

Numbers that are not negative in a binary format: a significand of a bounded number of
digits times a power of two, and infinity. A result is rounded to the nearest, and of two
that are as near to the one whose significand is even.
-/

namespace Caiman.Lib.Rounding

variable {K : Type*} [Field K] [LinearOrder K] [IsStrictOrderedRing K] [FloorRing K]

/-- The nearest integer. -/
def tieEven (y : K) : ℤ :=
  if Int.fract y < 1 / 2 then ⌊y⌋
  else if 1 / 2 < Int.fract y then ⌊y⌋ + 1
  else if Even ⌊y⌋ then ⌊y⌋ else ⌊y⌋ + 1

omit [IsStrictOrderedRing K] in
theorem floor_le_tieEven (y : K) : ⌊y⌋ ≤ tieEven y := by
  unfold tieEven
  split_ifs <;> omega

omit [IsStrictOrderedRing K] in
theorem tieEven_le_floor (y : K) : tieEven y ≤ ⌊y⌋ + 1 := by
  unfold tieEven
  split_ifs <;> omega

theorem tieEven_of_lt {y : K} {n : ℤ} (hn : (n : K) ≤ y) (hy : y < n + 1 / 2) : tieEven y = n := by
  have hfloor : ⌊y⌋ = n := Int.floor_eq_iff.mpr ⟨hn, by linarith⟩
  have hfract : Int.fract y < 1 / 2 := by
    rw [Int.fract, hfloor]
    linarith
  rw [tieEven, if_pos hfract, hfloor]

theorem tieEven_half {n : ℤ} (hn : Odd n) : tieEven ((n : K) + 1 / 2) = n + 1 := by
  have hfloor : ⌊(n : K) + 1 / 2⌋ = n := Int.floor_eq_iff.mpr ⟨by linarith, by linarith⟩
  have hfract : Int.fract ((n : K) + 1 / 2) = 1 / 2 := by
    rw [Int.fract, hfloor]
    ring
  rw [tieEven, hfract, if_neg (lt_irrefl _), if_neg (lt_irrefl _), hfloor,
    if_neg (Int.not_even_iff_odd.mpr hn)]

theorem tieEven_intCast (n : ℤ) : tieEven (n : K) = n :=
  tieEven_of_lt le_rfl (by linarith)

theorem tieEven_mono {y z : K} (h : y ≤ z) : tieEven y ≤ tieEven z := by
  rcases (Int.floor_mono h).lt_or_eq with hlt | heq
  · calc tieEven y ≤ ⌊y⌋ + 1 := tieEven_le_floor y
      _ ≤ ⌊z⌋ := hlt
      _ ≤ tieEven z := floor_le_tieEven z
  · have hfract : Int.fract y ≤ Int.fract z := by
      rw [Int.fract, Int.fract, heq]
      linarith
    unfold tieEven
    rw [heq]
    split_ifs <;> first | omega | exact absurd hfract (by linarith)

/-- A format: the digits of a significand after the first, the exponent of the least number
that is not zero, and the power of two that there is no number from. -/
structure Format where
  digits : ℕ
  minExp : ℤ
  maxExp : ℤ

namespace Format

def binary64 : Format := ⟨52, -1074, 1024⟩

variable (f : Format)

/-- The exponent of the last digit. -/
def exponent (x : K) : ℤ := max (Int.log 2 x - f.digits) f.minExp

/-- The nearest number, when none is too large. -/
def round (x : K) : K := tieEven (x / 2 ^ f.exponent x) * 2 ^ f.exponent x

theorem two_zpow_pos (e : ℤ) : (0 : K) < 2 ^ e := zpow_pos two_pos e

theorem exponent_eq {x : K} {e : ℤ} (he : f.minExp ≤ e) (hlo : 2 ^ (e + f.digits) ≤ x)
    (hhi : x < 2 ^ (e + f.digits + 1)) : f.exponent x = e := by
  have hx : 0 < x := lt_of_lt_of_le (two_zpow_pos _) hlo
  have hge : e + f.digits ≤ Int.log 2 x :=
    (Int.zpow_le_iff_le_log one_lt_two hx).mp (by exact_mod_cast hlo)
  have hlt : Int.log 2 x < e + f.digits + 1 :=
    (Int.lt_zpow_iff_log_lt one_lt_two hx).mp (by exact_mod_cast hhi)
  unfold exponent
  omega

omit [IsStrictOrderedRing K] in
theorem minExp_le_exponent (x : K) : f.minExp ≤ f.exponent x := le_max_right _ _

theorem exponent_mono {x y : K} (hx : 0 < x) (h : x ≤ y) : f.exponent x ≤ f.exponent y := by
  have hlog := Int.log_mono_right (b := 2) hx h
  unfold exponent
  omega

theorem lt_zpow_exponent {x : K} (hx : 0 < x) : x < 2 ^ (f.exponent x + f.digits + 1) := by
  have hlog : Int.log 2 x < f.exponent x + f.digits + 1 := by
    unfold exponent
    omega
  exact_mod_cast (Int.lt_zpow_iff_log_lt one_lt_two hx).mpr hlog

theorem zpow_exponent_le {x : K} (hx : 0 < x) (h : f.minExp < f.exponent x) :
    2 ^ (f.exponent x + f.digits) ≤ x := by
  have hlog : f.exponent x + f.digits ≤ Int.log 2 x := by
    unfold exponent at h ⊢
    omega
  exact_mod_cast (Int.zpow_le_iff_le_log one_lt_two hx).mpr hlog

theorem round_zero : f.round (0 : K) = 0 := by
  have hzero : tieEven (0 : K) = 0 := by exact_mod_cast tieEven_intCast (K := K) 0
  rw [round, zero_div, hzero, Int.cast_zero, zero_mul]

theorem round_le {x : K} {n : ℤ} (h : x ≤ n * 2 ^ f.exponent x) :
    f.round x ≤ n * 2 ^ f.exponent x := by
  have hpos : (0 : K) < 2 ^ f.exponent x := two_zpow_pos _
  have hle : tieEven (x / 2 ^ f.exponent x) ≤ n := by
    rw [← tieEven_intCast (K := K) n]
    exact tieEven_mono ((div_le_iff₀ hpos).mpr h)
  exact mul_le_mul_of_nonneg_right (by exact_mod_cast hle) hpos.le

theorem le_round {x : K} {n : ℤ} (h : n * 2 ^ f.exponent x ≤ x) :
    n * 2 ^ f.exponent x ≤ f.round x := by
  have hpos : (0 : K) < 2 ^ f.exponent x := two_zpow_pos _
  have hle : n ≤ tieEven (x / 2 ^ f.exponent x) := by
    rw [← tieEven_intCast (K := K) n]
    exact tieEven_mono ((le_div_iff₀ hpos).mpr h)
  exact mul_le_mul_of_nonneg_right (by exact_mod_cast hle) hpos.le

theorem round_nonneg {x : K} (hx : 0 ≤ x) : 0 ≤ f.round x := by
  have h := f.le_round (x := x) (n := 0) (by simpa using hx)
  simpa using h

/-- Rounding keeps the order: numbers of one exponent have their significands rounded, and
between numbers of two exponents is a power of two. -/
theorem round_mono {x y : K} (hx : 0 ≤ x) (h : x ≤ y) : f.round x ≤ f.round y := by
  rcases hx.eq_or_lt with rfl | hpos
  · rw [round_zero]
    exact f.round_nonneg h
  · have hy : 0 < y := lt_of_lt_of_le hpos h
    rcases (f.exponent_mono hpos h).eq_or_lt with heq | hlt
    · have hscale : (0 : K) < 2 ^ f.exponent y := two_zpow_pos _
      rw [round, round, heq]
      apply mul_le_mul_of_nonneg_right _ hscale.le
      exact_mod_cast tieEven_mono ((div_le_div_iff_of_pos_right hscale).mpr h)
    · have hmin : f.minExp < f.exponent y := lt_of_le_of_lt (f.minExp_le_exponent x) hlt
      have hlow : f.round x ≤ 2 ^ (f.exponent x + f.digits + 1) := by
        have hsplit : (2 : K) ^ (f.exponent x + f.digits + 1) =
            ((2 ^ (f.digits + 1) : ℤ) : K) * 2 ^ f.exponent x := by
          rw [add_assoc, add_comm, zpow_add₀ two_ne_zero]
          push_cast
          rw [← Nat.cast_succ, zpow_natCast]
        rw [hsplit]
        apply f.round_le
        rw [← hsplit]
        exact (f.lt_zpow_exponent hpos).le
      have hhigh : 2 ^ (f.exponent y + f.digits) ≤ f.round y := by
        have hsplit : (2 : K) ^ (f.exponent y + f.digits) =
            ((2 ^ f.digits : ℤ) : K) * 2 ^ f.exponent y := by
          rw [add_comm, zpow_add₀ two_ne_zero]
          push_cast
          rw [zpow_natCast]
        rw [hsplit]
        apply f.le_round
        rw [← hsplit]
        exact f.zpow_exponent_le hy hmin
      calc f.round x ≤ 2 ^ (f.exponent x + f.digits + 1) := hlow
        _ ≤ 2 ^ (f.exponent y + f.digits) := zpow_le_zpow_right₀ one_le_two (by omega)
        _ ≤ f.round y := hhigh

/-- What fits is not rounded. -/
theorem round_eq_self {m : ℕ} {e : ℤ} (he : f.minExp ≤ e) (hm : m < 2 ^ (f.digits + 1)) :
    f.round ((m : K) * 2 ^ e) = m * 2 ^ e := by
  rcases Nat.eq_zero_or_pos m with rfl | hpos
  · rw [Nat.cast_zero, zero_mul, round_zero]
  · have hx : (0 : K) < m * 2 ^ e := mul_pos (by exact_mod_cast hpos) (two_zpow_pos e)
    have hlt : (m : K) * 2 ^ e < ((2 : ℕ) : K) ^ (f.digits + 1 + e) := by
      rw [Nat.cast_two, zpow_add₀ two_ne_zero]
      apply mul_lt_mul_of_pos_right _ (two_zpow_pos e)
      exact_mod_cast hm
    have hlog := (Int.lt_zpow_iff_log_lt one_lt_two hx).mp hlt
    have hexp : f.exponent ((m : K) * 2 ^ e) ≤ e := by
      unfold exponent
      omega
    obtain ⟨k, hk⟩ := Int.le.dest hexp
    have hsplit : (m : K) * 2 ^ e =
        ((m * 2 ^ k : ℤ) : K) * 2 ^ f.exponent ((m : K) * 2 ^ e) := by
      push_cast
      rw [mul_assoc, ← zpow_natCast, ← zpow_add₀ two_ne_zero, add_comm, hk]
    apply le_antisymm
    · calc f.round ((m : K) * 2 ^ e) ≤ _ := f.round_le hsplit.le
        _ = m * 2 ^ e := hsplit.symm
    · calc (m : K) * 2 ^ e = _ := hsplit
        _ ≤ f.round ((m : K) * 2 ^ e) := f.le_round hsplit.ge

/-! ### Between two neighbours -/

/-- A significand with all its digits. -/
structure Full (m : ℕ) (e : ℤ) : Prop where
  minExp_le : f.minExp ≤ e
  le : 2 ^ f.digits ≤ m
  lt : m < 2 ^ (f.digits + 1)

section

variable {f} {x : K} {m : ℕ} {e : ℤ}

theorem Full.exponent_eq (h : f.Full m e) (hx : (m : K) * 2 ^ e ≤ x) (hlt : x < (m + 1) * 2 ^ e) :
    f.exponent x = e := by
  have hscale : (0 : K) < 2 ^ e := two_zpow_pos e
  apply f.exponent_eq h.minExp_le
  · calc (2 : K) ^ (e + f.digits) = 2 ^ f.digits * 2 ^ e := by
          rw [add_comm, zpow_add₀ two_ne_zero, zpow_natCast]
      _ ≤ m * 2 ^ e := mul_le_mul_of_nonneg_right (by exact_mod_cast h.le) hscale.le
      _ ≤ x := hx
  · calc x < (m + 1) * 2 ^ e := hlt
      _ ≤ 2 ^ (f.digits + 1) * 2 ^ e :=
          mul_le_mul_of_nonneg_right (by exact_mod_cast h.lt) hscale.le
      _ = 2 ^ (e + f.digits + 1) := by
          rw [add_assoc, add_comm e, zpow_add₀ two_ne_zero, ← Nat.cast_succ, zpow_natCast]

theorem Full.round_le (h : f.Full m e) (hx : 0 ≤ x) (hlt : x < (m + 1 / 2) * 2 ^ e) :
    f.round x ≤ m * 2 ^ e := by
  have hscale : (0 : K) < 2 ^ e := two_zpow_pos e
  rcases le_total x (m * 2 ^ e) with hle | hge
  · calc f.round x ≤ f.round ((m : K) * 2 ^ e) := f.round_mono hx hle
      _ = m * 2 ^ e := f.round_eq_self h.minExp_le h.lt
  · have hexp : f.exponent x = e :=
      h.exponent_eq hge (hlt.trans (mul_lt_mul_of_pos_right (by linarith) hscale))
    have htie : tieEven (x / 2 ^ e) = m := by
      apply tieEven_of_lt
      · rw [le_div_iff₀ hscale]
        exact_mod_cast hge
      · rw [div_lt_iff₀ hscale]
        exact_mod_cast hlt
    rw [round, hexp, htie, Int.cast_natCast]

theorem Full.le_round (h : f.Full m e) (hodd : Odd m) (hx : (m + 1 / 2) * 2 ^ e ≤ x) :
    (m + 1) * 2 ^ e ≤ f.round x := by
  have hscale : (0 : K) < 2 ^ e := two_zpow_pos e
  have hexp : f.exponent (((m : K) + 1 / 2) * 2 ^ e) = e :=
    h.exponent_eq (mul_le_mul_of_nonneg_right (by linarith) hscale.le)
      (mul_lt_mul_of_pos_right (by linarith) hscale)
  have htie : tieEven ((m : K) + 1 / 2) = m + 1 := by
    exact_mod_cast tieEven_half (K := K) ((Int.odd_coe_nat m).mpr hodd)
  have hround : f.round (((m : K) + 1 / 2) * 2 ^ e) = (m + 1) * 2 ^ e := by
    rw [round, hexp, mul_div_cancel_right₀ _ hscale.ne', htie]
    push_cast
    rfl
  calc ((m : K) + 1) * 2 ^ e = f.round (((m : K) + 1 / 2) * 2 ^ e) := hround.symm
    _ ≤ f.round x := f.round_mono (mul_nonneg (by positivity) hscale.le) hx

/-- A bound on what is made of a rounded number, that parts two neighbours of which the lower
is odd, parts the exact numbers halfway between them. -/
theorem Full.round_mul_lt_iff {c t : K} (h : f.Full m e) (hodd : Odd m) (hx : 0 ≤ x) (hc : 0 < c)
    (hlower : m * 2 ^ e * c < t) (hupper : t ≤ (m + 1) * 2 ^ e * c) :
    f.round x * c < t ↔ x < (m + 1 / 2) * 2 ^ e := by
  constructor
  · intro hlt
    by_contra hge
    have hscaled := mul_le_mul_of_nonneg_right (h.le_round hodd (not_lt.mp hge)) hc.le
    exact absurd hlt (not_lt.mpr (hupper.trans hscaled))
  · intro hlt
    calc f.round x * c ≤ m * 2 ^ e * c := mul_le_mul_of_nonneg_right (h.round_le hx hlt) hc.le
      _ < t := hlower

end

/-! ### Infinity -/

/-- The number that stands for an exact one. -/
def ofExact (x : K) : WithTop K := if f.round x < 2 ^ f.maxExp then (f.round x : K) else ⊤

def apply (op : K → K) : WithTop K → WithTop K
  | ⊤ => ⊤
  | (x : K) => f.ofExact (op x)

/-- `as u32` and its like: the digits after the point are dropped, and what is too large
becomes the largest. -/
def truncate (largest : ℕ) : WithTop K → ℕ
  | ⊤ => largest
  | (x : K) => min ⌊x⌋₊ largest

/-- The same number, or infinity for a large one. -/
def Near (bound : K) (a : WithTop K) (y : K) : Prop := a = y ∨ (a = ⊤ ∧ bound ≤ y)

variable {f}

omit [IsStrictOrderedRing K] in
theorem near_ofExact (x : K) {bound : K} (hbound : bound ≤ 2 ^ f.maxExp) :
    Near bound (f.ofExact x) (f.round x) := by
  unfold ofExact
  split
  · exact Or.inl rfl
  · rename_i hlarge
    exact Or.inr ⟨rfl, hbound.trans (not_lt.mp hlarge)⟩

omit [IsStrictOrderedRing K] in
theorem Near.apply {bound bound' : K} {a : WithTop K} {y : K} {op : K → K} (h : Near bound a y)
    (hbound : bound' ≤ 2 ^ f.maxExp) (hop : bound ≤ y → bound' ≤ f.round (op y)) :
    Near bound' (f.apply op a) (f.round (op y)) := by
  rcases h with rfl | ⟨rfl, hlarge⟩
  · exact near_ofExact (op y) hbound
  · exact Or.inr ⟨rfl, hop hlarge⟩

omit [IsStrictOrderedRing K] in
theorem Near.truncate {largest : ℕ} {a : WithTop K} {y : K} (h : Near (largest : K) a y) :
    truncate largest a = min ⌊y⌋₊ largest := by
  rcases h with rfl | ⟨rfl, hlarge⟩
  · rfl
  · exact (min_eq_right (Nat.le_floor hlarge)).symm

end Format

end Caiman.Lib.Rounding
