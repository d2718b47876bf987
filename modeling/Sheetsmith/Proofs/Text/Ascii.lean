import Mathlib.Data.String.Basic
import Sheetsmith.Text.Blank
import Sheetsmith.Text.Fold
import Sheetsmith.Text.Lowercase
import Sheetsmith.Text.Word

namespace Sheetsmith.Text

open String (utf8Len)

theorem isUpper_iff {c : Char} : c.isUpper = true ↔ 65 ≤ c.toNat ∧ c.toNat ≤ 90 := by
  unfold Char.isUpper
  simp [UInt32.le_iff_toNat_le]

theorem isLower_iff {c : Char} : c.isLower = true ↔ 97 ≤ c.toNat ∧ c.toNat ≤ 122 := by
  unfold Char.isLower
  simp [UInt32.le_iff_toNat_le]

theorem isAlpha_iff {c : Char} : c.isAlpha = true ↔ c.isUpper = true ∨ c.isLower = true := by
  unfold Char.isAlpha
  rw [Bool.or_eq_true]

theorem isWordChar_of_isAlpha {c : Char} (h : c.isAlpha = true) : isWordChar c = true := by
  have hlt : c.toNat < 0x80 := by
    rw [isAlpha_iff, isUpper_iff, isLower_iff] at h
    omega
  simp [isWordChar, isLetter, hlt, h]

theorem toLower_of_isUpper_eq_false {c : Char} (h : c.isUpper = false) : c.toLower = c := by
  unfold Char.toLower
  split
  · next hrange =>
    have hupper : c.isUpper = true := by
      unfold Char.isUpper
      simpa using hrange
    rw [hupper] at h
    cases h
  · rfl

theorem isUpper_eq_false_of_isLower {c : Char} (h : c.isLower = true) : c.isUpper = false := by
  rw [Bool.eq_false_iff, ne_eq, isUpper_iff]
  rw [isLower_iff] at h
  omega

/-- A character whose lower-case form is a letter was a letter. It is not assumed to be in ASCII;
outside of it lower-casing a single character changes nothing. -/
theorem isAlpha_of_toLower {c : Char} (h : c.toLower.isAlpha = true) : c.isAlpha = true := by
  by_cases hc : c.isUpper = true
  · exact isAlpha_iff.2 (.inl hc)
  · rwa [toLower_of_isUpper_eq_false (by simpa using hc)] at h

/-- What holds of all 128 ASCII characters can be found out by looking at each of them, so a goal
about one such character is left to `decide`. Nothing is assumed about the property, and the
character needs no more than a small code point. -/
theorem forall_ascii {P : Char → Prop} (h : ∀ n < 128, P (Char.ofNat n)) {c : Char}
    (hc : c.toNat < 128) : P c := by
  have hchar := h c.toNat hc
  rwa [Char.ofNat_toNat] at hchar

theorem isDigit_iff {c : Char} : c.isDigit = true ↔ 48 ≤ c.toNat ∧ c.toNat ≤ 57 := by
  unfold Char.isDigit
  simp [UInt32.le_iff_toNat_le]

/-- A text of ASCII characters only. -/
def IsAscii (cs : List Char) : Prop :=
  ∀ c ∈ cs, c.toNat < 0x80

instance (cs : List Char) : Decidable (IsAscii cs) :=
  decidable_of_iff ((cs.all fun c => decide (c.toNat < 0x80)) = true) (by simp [IsAscii])

theorem toNat_toLower_lt {c : Char} (hc : c.toNat < 0x80) : c.toLower.toNat < 0x80 := by
  unfold Char.toLower
  split
  · next h =>
    have := h.2
    have hsum : (c.val + ('a'.val - 'A'.val)).toNat < 0x80 := by
      have hdiff : ('a'.val - 'A'.val).toNat = 32 := by decide
      rw [UInt32.toNat_add, hdiff]
      have hle : c.val.toNat ≤ 90 := h.2
      omega
    exact hsum
  · exact hc

/-- Inside ASCII the lower case of a text is made of the lower-case forms of its characters one by
one. The text in front of it does not matter, since it is only looked at for a final sigma. -/
theorem lowerFrom_of_isAscii {cs : List Char} (h : IsAscii cs) (before : List Char) :
    lowerFrom before cs = cs.map Char.toLower := by
  induction cs generalizing before with
  | nil => rfl
  | cons c cs ih =>
    have hc : c.toNat < 0x80 := h c (by simp)
    have hdot : c ≠ 'İ' := by
      rintro rfl
      exact absurd hc (by decide)
    have hsigma : c ≠ 'Σ' := by
      rintro rfl
      exact absurd hc (by decide)
    rw [lowerFrom, if_neg hdot, if_neg hsigma, ih fun d hd => h d (by simp [hd]), lowerChar,
      if_pos hc]
    rfl

theorem utf8Len_of_isAscii {cs : List Char} (h : IsAscii cs) : utf8Len cs = cs.length := by
  induction cs with
  | nil => rfl
  | cons c cs ih =>
    have hc : c.utf8Size = 1 := by
      have hlt : c.val.toNat < 0x80 := h c (by simp)
      exact Char.utf8Size_eq_one_iff.2 (UInt32.le_iff_toNat_le.2 (Nat.le_of_lt_succ hlt))
    rw [String.utf8Len_cons, ih fun d hd => h d (by simp [hd]), hc, List.length_cons]

/-- The lower case of a name in ASCII stays in ASCII. Without that assumption the lower case of a
name may have other lengths than the name, as for a dotted capital I. -/
theorem isAscii_lowercase {name : String} (h : IsAscii name.toList) :
    IsAscii (lowercase name).toList := by
  rw [lowercase, String.toList_ofList, lowerFrom_of_isAscii h]
  intro c hc
  obtain ⟨d, hd, rfl⟩ := List.mem_map.1 hc
  exact toNat_toLower_lt (h d hd)

/-- A name in ASCII takes as many bytes in lower case as before. This is where the size bound needs
ASCII names: in other scripts a lower-case form can be longer than its capital. -/
theorem utf8ByteSize_lowercase {name : String} (h : IsAscii name.toList) :
    (lowercase name).utf8ByteSize = name.utf8ByteSize := by
  rw [← String.utf8Len_toList, utf8Len_of_isAscii (isAscii_lowercase h), ← String.utf8Len_toList,
    utf8Len_of_isAscii h, lowercase, String.toList_ofList, lowerFrom_of_isAscii h, List.length_map]

end Sheetsmith.Text
