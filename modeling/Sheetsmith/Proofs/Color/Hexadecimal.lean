import Mathlib.Data.List.SplitBy
import Sheetsmith.Proofs.Text.Ascii
import Sheetsmith.Value.Color

namespace Sheetsmith

namespace Text

/-- A character that goes on with an identifier or a hexadecimal colour. -/
def continues (c : Char) : Bool :=
  isLetter c || isDigit c || c == '_' || c == '-'

/-- Whether two characters side by side belong to one identifier, number or hexadecimal colour. -/
def joins (a b : Char) : Bool :=
  (continues a || a == '#') && continues b

/-- The identifiers, numbers and hexadecimal colours of a text, each as a whole, and the single
characters between them. -/
def lexemes (cs : List Char) : List (List Char) :=
  cs.splitBy joins

/-- What is no word character and no hyphen goes on with nothing. -/
theorem continues_eq_false {c : Char} (h : isWordChar c = false) (hne : c ≠ '-') :
    continues c = false := by
  have hconnector : c ≠ '_' := by
    rintro rfl
    simp [isWordChar, isConnector] at h
  simp only [isWordChar, Bool.or_eq_false_iff] at h
  simp [continues, h, hconnector, hne]

theorem toNat_lt_of_isHexDigit {c : Char} (h : Value.isHexDigit c = true) : c.toNat < 128 := by
  by_contra hlt
  have hnot : ∀ d : Char, d.toNat < 128 → ¬ c ≤ d := fun d hd hle => by
    have hle := UInt32.le_iff_toNat_le.1 (Char.le_def.1 hle)
    change c.toNat ≤ d.toNat at hle
    omega
  unfold Value.isHexDigit Color.hexDigit? at h
  rw [if_neg fun hc => hnot '9' (by decide) hc.2, if_neg fun hc => hnot 'f' (by decide) hc.2,
    if_neg fun hc => hnot 'F' (by decide) hc.2] at h
  cases h

/-- A hexadecimal digit goes on with an identifier, being a letter or a digit. -/
theorem continues_of_isHexDigit {c : Char} (h : Value.isHexDigit c = true) : continues c = true :=
  forall_ascii (P := fun c => Value.isHexDigit c = true → continues c = true) (by decide)
    (toNat_lt_of_isHexDigit h) h

end Text

open Text

namespace Color

/-- A `#` and hexadecimal digits. -/
def IsHex (cs : List Char) : Prop :=
  ∃ digits, cs = '#' :: digits ∧ ∀ c ∈ digits, Value.isHexDigit c = true

/-- A reader that writes the colours that it recognizes by hexadecimal digits. -/
def Reader.WritesHex (read : Reader) : Prop :=
  ∀ text hex, read text = .ok (some hex) → IsHex hex.toList

/-- The digits that a byte is written by are hexadecimal ones. -/
theorem isHexDigit_digitChar : ∀ n < 16, Value.isHexDigit (Nat.digitChar n) = true := by
  decide

/-- A channel is written as one byte, whatever number it was: the conversion cuts off what is too
large or too small. -/
theorem channelByte_lt (x : Float32) : channelByte x < 256 :=
  UInt8.toNat_lt _

/-- A colour is written by a `#` and hexadecimal digits, in six or eight of them. -/
theorem isHex_hex (color : Color) : IsHex color.hex.toList := by
  have hbyte (x : Float32) : Value.isHexDigit (byteDigits (channelByte x)).1 = true ∧
      Value.isHexDigit (byteDigits (channelByte x)).2 = true := by
    have := channelByte_lt x
    exact ⟨isHexDigit_digitChar _ (by omega), isHexDigit_digitChar _ (by omega)⟩
  obtain ⟨hr, hr'⟩ := hbyte color.red
  obtain ⟨hg, hg'⟩ := hbyte color.green
  obtain ⟨hb, hb'⟩ := hbyte color.blue
  rw [hex, shortestHex, String.toList_ofList]
  split
  · exact ⟨_, rfl, by simp [hr, hg, hb]⟩
  · exact ⟨_, rfl, by simp [hr, hr', hg, hg', hb, hb']⟩

/-- The reader of the program writes by hexadecimal digits, or says that there is no colour. -/
theorem writesHex_opaqueHex : opaqueHex.WritesHex := by
  intro text hex h
  unfold opaqueHex at h
  cases hread : read? text with
  | error e =>
    rw [hread] at h
    cases h
  | ok answer =>
    rw [hread] at h
    have h : (answer.bind fun color => if color.isOpaque then some color.hex else none) =
        some hex := Except.ok.inj h
    obtain ⟨color, -, hcolor⟩ := Option.bind_eq_some_iff.1 h
    split at hcolor
    · cases hcolor
      exact isHex_hex color
    · cases hcolor

theorem lexemes_isHex {hex : List Char} (h : IsHex hex) : lexemes hex = [hex] := by
  obtain ⟨digits, rfl, hdigits⟩ := h
  refine List.splitBy_of_isChain (by simp) ?_
  have hchain (a : Char) (ha : continues a = true ∨ a = '#') :
      (a :: digits).IsChain fun a b => joins a b = true := by
    induction digits generalizing a with
    | nil => exact .singleton a
    | cons d digits ih =>
      have hd := continues_of_isHexDigit (hdigits d (by simp))
      refine .cons_cons ?_ (ih (fun c hc => hdigits c (by simp [hc])) d (.inl hd))
      rcases ha with ha | ha <;> simp [joins, ha, hd]
  exact hchain '#' (.inr rfl)

end Color

end Sheetsmith
