import Mathlib.Data.List.Basic
import Mathlib.Tactic.Ring

/-!
# Byte strings of machine integers

Fixed-width little-endian and big-endian encodings of natural numbers and their
decoders. Widths are counted in bytes; a value that does not fit is encoded
modulo `256 ^ width`, as a machine integer of that width would be.
-/

namespace Caiman.Lib

def leBytes : Nat → Nat → List UInt8
  | 0, _ => []
  | width + 1, n => UInt8.ofNat n :: leBytes width (n / 256)

def leNat : List UInt8 → Nat
  | [] => 0
  | b :: bs => b.toNat + 256 * leNat bs

@[simp] theorem leBytes_length (width n : Nat) : (leBytes width n).length = width := by
  induction width generalizing n with
  | zero => rfl
  | succ width ih => simp [leBytes, ih]

theorem leNat_leBytes {width n : Nat} (h : n < 256 ^ width) : leNat (leBytes width n) = n := by
  induction width generalizing n with
  | zero =>
      have hn : n = 0 := by simpa using h
      simp [leBytes, leNat, hn]
  | succ width ih =>
      have hdiv : n / 256 < 256 ^ width := by
        rw [Nat.pow_succ] at h
        omega
      have hbyte : (UInt8.ofNat n).toNat = n % 256 := by simp
      simp only [leBytes, leNat, ih hdiv, hbyte]
      omega

theorem leNat_lt (bytes : List UInt8) : leNat bytes < 256 ^ bytes.length := by
  induction bytes with
  | nil => exact Nat.one_pos
  | cons b bs ih =>
      have hb := b.toNat_lt
      rw [leNat, List.length_cons, Nat.pow_succ]
      omega

theorem leBytes_leNat (bytes : List UInt8) : leBytes bytes.length (leNat bytes) = bytes := by
  induction bytes with
  | nil => rfl
  | cons b bs ih =>
      have hb := b.toNat_lt
      have hbyte : UInt8.ofNat (leNat (b :: bs)) = b := by
        rw [← UInt8.toNat_inj, UInt8.toNat_ofNat', leNat]
        omega
      have hrest : leNat (b :: bs) / 256 = leNat bs := by
        rw [leNat]
        omega
      rw [List.length_cons, leBytes, hbyte, hrest, ih]

theorem ofNat_leNat_leBytes_16 (x : UInt16) : UInt16.ofNat (leNat (leBytes 2 x.toNat)) = x := by
  rw [leNat_leBytes (by simpa using x.toNat_lt)]
  exact UInt16.ofNat_toNat

theorem ofNat_leNat_leBytes_32 (x : UInt32) : UInt32.ofNat (leNat (leBytes 4 x.toNat)) = x := by
  rw [leNat_leBytes (by simpa using x.toNat_lt)]
  exact UInt32.ofNat_toNat

def beBytes (width n : Nat) : List UInt8 := (leBytes width n).reverse

def beNat (bytes : List UInt8) : Nat := leNat bytes.reverse

@[simp] theorem beBytes_length (width n : Nat) : (beBytes width n).length = width := by
  simp [beBytes]

theorem beNat_beBytes {width n : Nat} (h : n < 256 ^ width) : beNat (beBytes width n) = n := by
  simp [beNat, beBytes, leNat_leBytes h]

end Caiman.Lib
