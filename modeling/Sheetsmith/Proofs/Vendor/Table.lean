import Sheetsmith.Proofs.Text.Lowering
import Sheetsmith.Proofs.Vendor.Calls

namespace Sheetsmith

namespace Text

theorem folded_folded (s : String) : folded (folded s) = folded s := by
  have hletters : ∀ n < 91, 65 ≤ n → (Char.ofNat n).toLower.isUpper = false := by decide
  have htwice (c : Char) : c.toLower.toLower = c.toLower := by
    apply toLower_of_isUpper_eq_false
    cases hupper : c.isUpper with
    | false => rw [toLower_of_isUpper_eq_false hupper, hupper]
    | true =>
      have hc := isUpper_iff.1 hupper
      have hlower := hletters c.toNat (by omega) hc.1
      rwa [Char.ofNat_toNat] at hlower
  simp [folded, fold, htwice, Function.comp_def]

/-- A hyphen is the only character whose first byte is its own. -/
theorem eq_hyphen_of_head?_utf8EncodeChar {c : Char}
    (h : (String.utf8EncodeChar c).head? = some 45) : c = '-' := by
  have hbyte {v : Nat} (hv : UInt8.ofNat v = 45) : v % 256 = 45 := by
    simpa using congrArg UInt8.toNat hv
  unfold String.utf8EncodeChar at h
  dsimp only at h
  split at h
  · have := hbyte (Option.some.inj h)
    exact Char.ext (UInt32.toNat_inj.1 (show c.val.toNat = 45 by omega))
  -- The first byte of a character outside ASCII is at least 192.
  · split at h
    · have := hbyte (Option.some.inj h)
      omega
    · split at h
      · have := hbyte (Option.some.inj h)
        omega
      · have := hbyte (Option.some.inj h)
        omega

/-- A leading hyphen can be told from the first byte. -/
theorem head?_toList_eq_hyphen_iff {s : String} :
    s.toList.head? = some '-' ↔ s.toByteArray.data.toList.head? = some 45 := by
  obtain ⟨cs, rfl⟩ : ∃ cs, s = String.ofList cs := ⟨s.toList, String.ofList_toList.symm⟩
  rw [String.toList_ofList, String.toByteArray_ofList]
  cases cs with
  | nil => simp
  | cons c rest =>
    rw [List.utf8Encode_cons, List.utf8Encode_singleton, ByteArray.toList_data_append,
      List.toList_data_toByteArray]
    have hhead : (String.utf8EncodeChar c ++ rest.utf8Encode.data.toList).head? =
        (String.utf8EncodeChar c).head? := by
      have hlength := String.length_utf8EncodeChar c
      cases hbytes : String.utf8EncodeChar c with
      | nil =>
        rw [hbytes] at hlength
        exact absurd hlength (Nat.ne_of_lt c.utf8Size_pos)
      | cons byte bytes => rfl
    rw [hhead]
    constructor
    · intro h
      cases h
      rfl
    · intro h
      rw [eq_hyphen_of_head?_utf8EncodeChar h]
      rfl

end Text

namespace VendorRule

/-- A rule other than that of gradients comes from the table. -/
theorem mem_table_of_ofProperty {name : String} {rule : VendorRule} (h : ofProperty name = rule)
    (hrule : rule ≠ .gradients) : (name, rule) ∈ table := by
  unfold ofProperty at h
  cases hlookup : table.lookup name with
  | none =>
    rw [hlookup] at h
    exact absurd h.symm hrule
  | some found =>
    rw [hlookup] at h
    obtain rfl : found = rule := h
    obtain ⟨before, after, htable, -⟩ := List.lookup_eq_some_iff.1 hlookup
    rw [htable]
    simp

theorem ofProperty_filter : ofProperty "filter" = .filterTwin := by
  decide +kernel

/-- The names under which a rule copies a declaration. -/
def copyNames : VendorRule → List String
  | renamed forms => Vendor.all.filterMap forms.of?
  | _ => []

/-- Only the vendors' names start with a hyphen. -/
theorem head_table : ∀ entry ∈ table, entry.1.toByteArray.data.toList.head? ≠ some 45 ∧
    ∀ name ∈ entry.2.copyNames, name.toByteArray.data.toList.head? = some 45 := by
  decide +kernel

/-- The vendors' names are in lower case. -/
theorem lower_table : ∀ entry ∈ table, ∀ name ∈ entry.2.copyNames,
    name.toByteArray.data.toList.all Text.isLowByte = true := by
  decide +kernel

/-- No property that starts with a hyphen has a rule of its own. -/
theorem ofProperty_of_hyphen {name : String} (h : name.toList.head? = some '-') :
    ofProperty (Text.folded name) = .gradients := by
  refine Decidable.byContradiction fun hrule => ?_
  have hmem := mem_table_of_ofProperty rfl hrule
  refine (head_table _ hmem).1 (Text.head?_toList_eq_hyphen_iff.1 ?_)
  obtain ⟨rest, hname⟩ := List.head?_eq_some_iff.1 h
  simp [Text.folded, Text.fold, hname]

/-- The names that a rule gives for some vendors start with a hyphen. The vendors may be any. -/
theorem head_form_of_ofProperty {name form : String} {forms : VendorForms} {vendors : VendorSet}
    (h : ofProperty name = .renamed forms) (hform : form ∈ forms.within vendors) :
    form.toList.head? = some '-' := by
  obtain ⟨vendor, -, hof⟩ := List.mem_filterMap.1 hform
  have hmem := mem_table_of_ofProperty h (by simp)
  refine Text.head?_toList_eq_hyphen_iff.2 ((head_table _ hmem).2 form ?_)
  exact List.mem_filterMap.2 ⟨vendor, by cases vendor <;> decide, hof⟩

end VendorRule

end Sheetsmith
