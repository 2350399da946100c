import Caiman.Bridge.Session

/-!
# Which files are opened

`open` refuses every file that is not an image it can read, but for one kind. The incompatible
features of a version 3 header are read together with the header of 104 bytes, and a shorter
file is opened without a look at them.
-/

namespace Caiman.Bridge

open Lib Qcow2Reader

/-- What is asked of a file of either version. -/
structure Basics (bytes : List UInt8) : Prop where
  long : 72 ≤ bytes.length
  magic : u32At bytes 0 = qcow2Magic
  version : u32At bytes 4 = 2 ∨ u32At bytes 4 = 3
  backing : u64At bytes 8 = 0
  bits : 9 ≤ u32At bytes 20 ∧ u32At bytes 20 ≤ 21
  crypt : u32At bytes 32 = 0
  l1Inside : (u64At bytes 40).toNat + (u32At bytes 36).toNat * 8 ≤ bytes.length

/-- The field is there and has no bit but the dirty bit. -/
def FeaturesSupported (bytes : List UInt8) : Prop :=
  80 ≤ bytes.length ∧ u64At bytes 72 &&& ~~~incompatSupported = 0

def Acceptable (bytes : List UInt8) : Prop :=
  Basics bytes ∧ (u32At bytes 4 = 3 → FeaturesSupported bytes)

/-- A version 3 file too short for its header that is in order otherwise. -/
def FeaturesUnseen (bytes : List UInt8) : Prop :=
  Basics bytes ∧ u32At bytes 4 = 3 ∧ bytes.length < 104 ∧ ¬ FeaturesSupported bytes

theorem opens_iff (bytes : List UInt8) :
    Opens bytes ↔ Basics bytes ∧
      (u32At bytes 4 = 3 → 104 ≤ bytes.length → u64At bytes 72 &&& ~~~incompatSupported = 0) := by
  constructor
  · intro h
    have hheader := h.header
    exact ⟨⟨hheader.long, hheader.magic, hheader.version, hheader.backing, hheader.bits,
      hheader.crypt, h.l1Inside⟩, hheader.features⟩
  · rintro ⟨h, hfeatures⟩
    exact ⟨⟨h.long, h.magic, h.version, h.backing, h.bits, h.crypt, hfeatures⟩, h.l1Inside⟩

theorem open_ok_iff (image : FileData) :
    (∃ r s, openImage.run (.ofData image) = .ok r s) ↔ Opens image.bytes := by
  have hspec := openImage_exact image (.ofData image) (ofData_safe image)
  cases hrun : openImage.run (.ofData image) with
  | ok r s =>
      rw [hrun] at hspec
      exact iff_of_true ⟨r, s, rfl⟩ hspec.2.2
  | error e s =>
      rw [hrun] at hspec
      refine iff_of_false ?_ hspec.2
      intro h
      obtain ⟨r, s', hok⟩ := h
      cases hok

theorem opens_iff_acceptable_or (bytes : List UInt8) :
    Opens bytes ↔ Acceptable bytes ∨ FeaturesUnseen bytes := by
  rw [opens_iff]
  constructor
  · rintro ⟨hbasics, hfeatures⟩
    by_cases hunseen : FeaturesUnseen bytes
    · exact Or.inr hunseen
    · refine Or.inl ⟨hbasics, ?_⟩
      intro hversion
      by_contra hnot
      by_cases hshort : bytes.length < 104
      · exact hunseen ⟨hbasics, hversion, hshort, hnot⟩
      · exact hnot ⟨by omega, hfeatures hversion (Nat.le_of_not_lt hshort)⟩
  · rintro (⟨hbasics, hfeatures⟩ | ⟨hbasics, -, hshort, -⟩)
    · exact ⟨hbasics, fun hversion _ => (hfeatures hversion).2⟩
    · exact ⟨hbasics, fun _ hlong => absurd hlong (Nat.not_le.mpr hshort)⟩

theorem not_acceptable_of_unseen {bytes : List UInt8} (h : FeaturesUnseen bytes) :
    ¬ Acceptable bytes := fun hacceptable => h.2.2.2 (hacceptable.2 h.2.1)

/-- `open` accepts a file exactly when it should, unless it is of version 3, in order otherwise,
and ends before its header does with features unsupported or not there. -/
theorem acceptance_exact_iff (image : FileData) :
    ((∃ r s, openImage.run (.ofData image) = .ok r s) ↔ Acceptable image.bytes) ↔
      ¬ FeaturesUnseen image.bytes := by
  rw [open_ok_iff, opens_iff_acceptable_or]
  constructor
  · intro hexact hunseen
    exact not_acceptable_of_unseen hunseen (hexact.mp (Or.inr hunseen))
  · intro hseen
    exact or_iff_left hseen

def externalData : FileData where
  bytes :=
    [0x51, 0x46, 0x49, 0xfb] ++ beBytes 4 3 ++ beBytes 8 0 ++ beBytes 4 0 ++ beBytes 4 9 ++
      beBytes 8 1024 ++ beBytes 4 0 ++ beBytes 4 0 ++ beBytes 8 72 ++ List.replicate 24 0 ++
      beBytes 8 4 ++ List.replicate 20 0
  size_lt := by
    simp only [List.length_append, List.length_cons, List.length_nil, List.length_replicate,
      beBytes_length]
    norm_num

theorem external_data_opened :
    ¬ ((∃ r s, openImage.run (.ofData externalData) = .ok r s) ↔
      Acceptable externalData.bytes) := by
  have hunseen : FeaturesUnseen externalData.bytes := by
    refine ⟨⟨by decide +kernel, by decide +kernel, by decide +kernel, by decide +kernel,
      by decide +kernel, by decide +kernel, by decide +kernel⟩, by decide +kernel,
      by decide +kernel, ?_⟩
    intro hsupported
    exact absurd hsupported.2 (by decide +kernel)
  rw [open_ok_iff, opens_iff_acceptable_or]
  intro hexact
  exact not_acceptable_of_unseen hunseen (hexact.mp (Or.inr hunseen))

end Caiman.Bridge
