import Mathlib.Data.List.Basic

/-!
# Text from bytes that may not be UTF-8

The lossy decoder of a standard library: characters where the bytes encode some, and one
replacement character for each longest piece that begins a character and does not end it.
-/

namespace Caiman.Lib

/-- `c` may follow the first byte `b` of a character of three or four bytes. -/
def isSecond (b c : UInt8) : Bool :=
  (b = 0xE0 && 0xA0 ≤ c && c ≤ 0xBF) || (0xE1 ≤ b && b ≤ 0xEC && 0x80 ≤ c && c ≤ 0xBF) ||
    (b = 0xED && 0x80 ≤ c && c ≤ 0x9F) || (0xEE ≤ b && b ≤ 0xEF && 0x80 ≤ c && c ≤ 0xBF) ||
    (b = 0xF0 && 0x90 ≤ c && c ≤ 0xBF) || (0xF1 ≤ b && b ≤ 0xF3 && 0x80 ≤ c && c ≤ 0xBF) ||
    (b = 0xF4 && 0x80 ≤ c && c ≤ 0x8F)

/-- How many bytes behind `b`, which begins no character, are replaced with it. -/
def brokenTail (b : UInt8) : List UInt8 → Nat
  | c :: d :: _ =>
      if isSecond b c then if 0xF0 ≤ b ∧ 0x80 ≤ d ∧ d ≤ 0xBF then 2 else 1 else 0
  | [c] => if isSecond b c then 1 else 0
  | [] => 0

/-- The loop of the decoder. Each turn takes a byte, so the length of the rest is fuel enough. -/
def decodeLossy : Nat → List UInt8 → List Char
  | fuel + 1, b :: rest =>
      match (b :: rest).toByteArray.utf8DecodeChar? 0 with
      | some c => c :: decodeLossy fuel ((b :: rest).drop c.utf8Size)
      | none => '\uFFFD' :: decodeLossy fuel (rest.drop (brokenTail b rest))
  | _, _ => []

def fromUtf8Lossy (bytes : List UInt8) : String := String.ofList (decodeLossy bytes.length bytes)

theorem decodeLossy_encoded {cs : List Char} {fuel : Nat}
    (hfuel : (cs.flatMap String.utf8EncodeChar).length ≤ fuel) :
    decodeLossy fuel (cs.flatMap String.utf8EncodeChar) = cs := by
  induction cs generalizing fuel with
  | nil => cases fuel <;> rfl
  | cons c cs ih =>
      have hpos := c.utf8Size_pos
      have hlength : (String.utf8EncodeChar c).length = c.utf8Size :=
        String.length_utf8EncodeChar c
      rw [List.flatMap_cons, List.length_append, hlength] at hfuel
      have hread : (String.utf8EncodeChar c ++ cs.flatMap
          String.utf8EncodeChar).toByteArray.utf8DecodeChar? 0 = some c := by
        rw [List.toByteArray_append]
        exact ByteArray.utf8DecodeChar?_utf8EncodeChar_append
      have hrest : (String.utf8EncodeChar c ++ cs.flatMap String.utf8EncodeChar).drop c.utf8Size =
          cs.flatMap String.utf8EncodeChar := List.drop_left' hlength
      rw [List.flatMap_cons]
      cases hbytes : String.utf8EncodeChar c ++ cs.flatMap String.utf8EncodeChar with
      | nil =>
          have hnil := congrArg List.length hbytes
          rw [List.length_append, hlength, List.length_nil] at hnil
          omega
      | cons b rest =>
          rw [hbytes] at hread hrest
          obtain ⟨fuel, rfl⟩ : ∃ n, fuel = n + 1 := ⟨fuel - 1, by omega⟩
          rw [decodeLossy, hread]
          dsimp only
          rw [hrest, ih (by omega)]

theorem fromUtf8Lossy_encoded (cs : List Char) :
    fromUtf8Lossy (cs.flatMap String.utf8EncodeChar) = String.ofList cs := by
  rw [fromUtf8Lossy, decodeLossy_encoded (Nat.le_refl _)]

end Caiman.Lib
