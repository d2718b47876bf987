import Sheetsmith.Proofs.Text.Ascii

namespace Sheetsmith.Text

/-- A character that is its own lower-case form. -/
structure IsLowered (c : Char) : Prop where
  dotted : c ≠ 'İ'
  sigma : c ≠ 'Σ'
  lowerChar : lowerChar c = c

instance : DecidablePred IsLowered := fun c =>
  decidable_of_iff (c ≠ 'İ' ∧ c ≠ 'Σ' ∧ lowerChar c = c)
    ⟨fun h => ⟨h.1, h.2.1, h.2.2⟩, fun h => ⟨h.dotted, h.sigma, h.lowerChar⟩⟩

namespace CaseRun

/-- The last form that a run gives. -/
def bound (r : CaseRun) : Nat :=
  r.target + (r.last - r.first)

/-- The forms that a run gives are characters outside ASCII other than `İ`, or one that is its own
lower-case form. -/
def isSound (r : CaseRun) : Bool :=
  (Nat.ble 0x80 r.target && (Nat.blt r.bound 0x130 || Nat.blt 0x130 r.target) &&
      (Nat.blt r.bound 0xD800 || Nat.blt 0xDFFF r.target && Nat.blt r.bound 0x110000)) ||
    (r.first == r.last && decide (IsLowered (Char.ofNat r.target)))

/-- No form that a run gives is one that `other` has a form for: they lie on different sides of each
other, or the one takes the even and the other the odd code points. -/
def isApart (r other : CaseRun) : Bool :=
  Nat.blt r.bound other.first || Nat.blt other.last r.target ||
    (other.step == 2 && (r.step == 2 || r.first == r.last) && (r.target + other.first) % 2 == 1)

theorem isSound_of_mem : ∀ r ∈ caseRuns, r.isSound = true := by
  decide +kernel

theorem all_isApart : (caseRuns.all fun r => caseRuns.all r.isApart) = true := by
  decide +kernel

end CaseRun

/-- The table of lower-case forms holds no form that has another one. All pairs of runs are compared
once, by computation; no character of the table is looked at by itself. -/
theorem isLowered_of_covers {r : CaseRun} (hr : r ∈ caseRuns) {n : Nat} (h : r.covers n = true) :
    IsLowered (Char.ofNat (r.target + (n - r.first))) := by
  simp only [CaseRun.covers, Bool.and_eq_true, decide_eq_true_eq, beq_iff_eq] at h
  obtain ⟨⟨hfirst, hlast⟩, hstep⟩ := h
  have hsound := CaseRun.isSound_of_mem r hr
  simp only [CaseRun.isSound, CaseRun.bound, Bool.or_eq_true, Bool.and_eq_true, Nat.ble_eq,
    Nat.blt_eq, beq_iff_eq, decide_eq_true_eq] at hsound
  rcases hsound with ⟨⟨hascii, hdotted⟩, hvalid⟩ | ⟨hsame, hlowered⟩
  · have hnat : (Char.ofNat (r.target + (n - r.first))).toNat = r.target + (n - r.first) := by
      have hchar : (r.target + (n - r.first)).isValidChar := by
        unfold Nat.isValidChar
        omega
      rw [Char.ofNat, dif_pos hchar]
      rfl
    have hnone : caseRuns.find? (·.covers (r.target + (n - r.first))) = none := by
      rw [List.find?_eq_none]
      intro other hother hcovers
      have hapart := List.all_eq_true.1 (List.all_eq_true.1 CaseRun.all_isApart r hr) other hother
      simp only [CaseRun.isApart, CaseRun.bound, Bool.or_eq_true, Bool.and_eq_true, Nat.blt_eq,
        beq_iff_eq] at hapart
      simp only [CaseRun.covers, Bool.and_eq_true, decide_eq_true_eq, beq_iff_eq] at hcovers
      obtain ⟨⟨hfirst', hlast'⟩, hstep'⟩ := hcovers
      rcases hapart with (hlt | hlt) | ⟨⟨htwo, hr'⟩, hodd⟩
      · omega
      · omega
      · rw [htwo] at hstep'
        rcases hr' with htwo' | hsame
        · rw [htwo'] at hstep
          omega
        · omega
    have hlower : lowerChar (Char.ofNat (r.target + (n - r.first))) =
        Char.ofNat (r.target + (n - r.first)) := by
      rw [lowerChar, hnat, if_neg (by omega), hnone]
    refine ⟨?_, ?_, hlower⟩
    · intro heq
      rw [heq] at hnat
      have : ('İ' : Char).toNat = 0x130 := rfl
      omega
    · intro heq
      rw [heq] at hlower
      exact absurd hlower (by decide +kernel)
  · have hzero : n - r.first = 0 := by omega
    rw [hzero]
    exact hlowered

/-- The form of a character has no other form, for all characters but the two that the context or a
second character decides: the dotted capital I and the capital sigma. -/
theorem isLowered_lowerChar {c : Char} (hdotted : c ≠ 'İ') (hsigma : c ≠ 'Σ') :
    IsLowered (lowerChar c) := by
  by_cases hascii : c.toNat < 0x80
  · have hlower : lowerChar c = c.toLower := if_pos hascii
    rw [hlower]
    exact forall_ascii (P := fun c => IsLowered c.toLower) (by decide +kernel) hascii
  · cases hfind : caseRuns.find? (·.covers c.toNat) with
    | none =>
      have hlower : lowerChar c = c := by rw [lowerChar, if_neg hascii, hfind]
      rw [hlower]
      exact ⟨hdotted, hsigma, hlower⟩
    | some r =>
      have hcovers : r.covers c.toNat = true := List.find?_some (p := (CaseRun.covers · c.toNat)) hfind
      rw [lowerChar, if_neg hascii, hfind]
      exact isLowered_of_covers (List.mem_of_find?_eq_some hfind) hcovers

/-- Every character of a lower-cased text is its own form, also behind a sigma and a dotted capital
I. Nothing is assumed about the text or what is in front of it. -/
theorem isLowered_of_mem_lowerFrom {before cs : List Char} {c : Char} (h : c ∈ lowerFrom before cs) :
    IsLowered c := by
  induction cs generalizing before with
  | nil => cases h
  | cons d cs ih =>
    rw [lowerFrom] at h
    rcases List.mem_append.1 h with h | h
    · by_cases hdotted : d = 'İ'
      · rw [if_pos hdotted] at h
        simp only [List.mem_cons, List.not_mem_nil, or_false] at h
        rcases h with rfl | rfl <;> decide +kernel
      · rw [if_neg hdotted] at h
        by_cases hsigma : d = 'Σ'
        · rw [if_pos hsigma] at h
          obtain rfl := List.mem_singleton.1 h
          split <;> decide +kernel
        · rw [if_neg hsigma] at h
          obtain rfl := List.mem_singleton.1 h
          exact isLowered_lowerChar hdotted hsigma
    · exact ih h

/-- A text of characters that are their own forms stays as it is. It holds no capital sigma, so the
text in front of it is not looked at. -/
theorem lowerFrom_of_isLowered {cs : List Char} (h : ∀ c ∈ cs, IsLowered c) (before : List Char) :
    lowerFrom before cs = cs := by
  induction cs generalizing before with
  | nil => rfl
  | cons c cs ih =>
    have hc := h c (by simp)
    rw [lowerFrom, if_neg hc.dotted, if_neg hc.sigma, hc.lowerChar,
      ih fun d hd => h d (by simp [hd])]
    rfl

/-- Lower case is reached in one step, in every script: there is no assumption on the name. The
dotted capital I gives two characters, and both of them stay. -/
theorem lowercase_lowercase (s : String) : lowercase (lowercase s) = lowercase s := by
  rw [lowercase, lowercase, String.toList_ofList,
    lowerFrom_of_isLowered fun _ hc => isLowered_of_mem_lowerFrom hc]

/-- A byte of ASCII that is no capital. -/
def isLowByte (byte : UInt8) : Bool :=
  Nat.blt byte.toNat 0x80 && !(Nat.ble 65 byte.toNat && Nat.ble byte.toNat 90)

theorem isLowByte_iff {byte : UInt8} :
    isLowByte byte = true ↔ byte.toNat < 0x80 ∧ ¬ (65 ≤ byte.toNat ∧ byte.toNat ≤ 90) := by
  rw [isLowByte, Bool.and_eq_true, Nat.blt_eq, Bool.not_eq_true', ← Bool.not_eq_true,
    Bool.and_eq_true, Nat.ble_eq, Nat.ble_eq]

/-- A character all of whose bytes are ASCII is encoded by the one byte that is its code point. This
lets names be checked by their bytes. -/
theorem toNat_of_utf8EncodeChar {c : Char}
    (h : ∀ byte ∈ String.utf8EncodeChar c, byte.toNat < 0x80) :
    String.utf8EncodeChar c = [UInt8.ofNat c.toNat] ∧ c.toNat < 0x80 := by
  unfold String.utf8EncodeChar at h ⊢
  dsimp only at h ⊢
  split at h
  · next hle =>
    rw [if_pos hle]
    refine ⟨rfl, ?_⟩
    have : c.val.toNat ≤ 0x7f := hle
    have hc : c.toNat = c.val.toNat := rfl
    omega
  -- The first byte of a character outside ASCII is at least 192.
  · split at h <;> [skip; split at h]
    all_goals
      have hbyte := h _ List.mem_cons_self
      rw [UInt8.toNat_ofNat'] at hbyte
      omega

theorem mem_utf8Encode {cs : List Char} {c : Char} (hc : c ∈ cs) {byte : UInt8}
    (hbyte : byte ∈ String.utf8EncodeChar c) : byte ∈ cs.utf8Encode.data.toList := by
  rw [List.utf8Encode, List.toList_data_toByteArray]
  exact List.mem_flatMap.2 ⟨c, hc, hbyte⟩

/-- A text without capitals is told by its bytes: where all of them are ASCII and none is a capital,
it is its own lower case. The check is one pass over bytes, which is what the tables of names are
checked with. -/
theorem lowercase_of_bytes {s : String} (h : s.toByteArray.data.toList.all isLowByte = true) :
    lowercase s = s := by
  obtain ⟨cs, rfl⟩ : ∃ cs, s = String.ofList cs := ⟨s.toList, String.ofList_toList.symm⟩
  rw [String.toByteArray_ofList, List.all_eq_true] at h
  have hchar : ∀ c ∈ cs, c.toNat < 0x80 ∧ c.toLower = c := by
    intro c hc
    have hlow (byte : UInt8) (hbyte : byte ∈ String.utf8EncodeChar c) :=
      isLowByte_iff.1 (h byte (mem_utf8Encode hc hbyte))
    obtain ⟨hbytes, hlt⟩ := toNat_of_utf8EncodeChar fun byte hbyte => (hlow byte hbyte).1
    have hbyte := (hlow _ (hbytes ▸ List.mem_cons_self)).2
    rw [UInt8.toNat_ofNat', Nat.mod_eq_of_lt (by omega)] at hbyte
    refine ⟨hlt, toLower_of_isUpper_eq_false (Bool.eq_false_iff.2 fun hupper => ?_)⟩
    exact hbyte (isUpper_iff.1 hupper)
  rw [lowercase, String.toList_ofList, lowerFrom_of_isAscii fun c hc => (hchar c hc).1,
    List.map_congr_left fun c hc => (hchar c hc).2, List.map_id']

/-- A name in lower case is not changed by folding, which regards ASCII letters only. -/
theorem folded_of_lowercase {s : String} (h : lowercase s = s) : folded s = s := by
  have hchar : ∀ c ∈ s.toList, c.toLower = c := by
    intro c hc
    rw [← h, lowercase, String.toList_ofList] at hc
    have hlowered := (isLowered_of_mem_lowerFrom hc).lowerChar
    by_cases hascii : c.toNat < 0x80
    · rwa [lowerChar, if_pos hascii] at hlowered
    · refine toLower_of_isUpper_eq_false (Bool.eq_false_iff.2 fun hupper => hascii ?_)
      have hc := isUpper_iff.1 hupper
      omega
  rw [folded, fold, List.map_congr_left hchar, List.map_id', String.ofList_toList]

end Sheetsmith.Text
