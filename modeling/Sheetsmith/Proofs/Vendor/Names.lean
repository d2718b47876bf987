import Mathlib.Data.List.Nodup
import Sheetsmith.Proofs.Vendor.Rank

namespace Sheetsmith

namespace Text

/-- A number for a name that does not regard the case of its letters: the two cases of a letter
differ in one bit of their codes, and the number leaves that bit out. -/
def caseNumber (name : String) : Nat :=
  name.toByteArray.data.toList.foldl (fun number byte => 32 * number + byte.toNat % 32) 0

/-- The lower case of a character has the same bytes, but for the bit that is left out. The
character may be any, also one of several bytes. -/
theorem map_utf8EncodeChar_toLower (c : Char) :
    (String.utf8EncodeChar c.toLower).map (·.toNat % 32) =
      (String.utf8EncodeChar c).map (·.toNat % 32) := by
  have hletters : ∀ n < 91, 65 ≤ n →
      (String.utf8EncodeChar (Char.ofNat n).toLower).map (·.toNat % 32) =
        (String.utf8EncodeChar (Char.ofNat n)).map (·.toNat % 32) := by decide
  cases hupper : c.isUpper with
  | false => rw [toLower_of_isUpper_eq_false hupper]
  | true =>
    have hc := isUpper_iff.1 hupper
    have h := hletters c.toNat (by omega) hc.1
    rwa [Char.ofNat_toNat] at h

/-- Folding a text keeps its bytes but for that bit. So the number of a name does not depend on its
letter case. -/
theorem map_utf8Encode_fold (cs : List Char) :
    (fold cs).utf8Encode.data.toList.map (·.toNat % 32) =
      cs.utf8Encode.data.toList.map (·.toNat % 32) := by
  have hcons (c : Char) (cs : List Char) : (c :: cs).utf8Encode.data.toList =
      String.utf8EncodeChar c ++ cs.utf8Encode.data.toList := by
    rw [List.utf8Encode_cons, List.utf8Encode_singleton, ByteArray.toList_data_append,
      List.toList_data_toByteArray]
  induction cs with
  | nil => rfl
  | cons c cs ih =>
    rw [fold] at ih
    rw [fold, List.map_cons, hcons, hcons, List.map_append, List.map_append, ih,
      map_utf8EncodeChar_toLower]

/-- The number of a name can be taken from its folded text. -/
theorem caseNumber_eq (name : String) : caseNumber name =
    ((fold name.toList).utf8Encode.data.toList.map (·.toNat % 32)).foldl
      (fun number digit => 32 * number + digit) 0 := by
  rw [map_utf8Encode_fold, List.foldl_map, caseNumber]
  conv_lhs => rw [← String.ofList_toList (s := name), String.toByteArray_ofList]

/-- Names that differ in letter case have the same number. -/
theorem caseNumber_eq_of_sameFold {a b : String} (h : sameFold a b = true) :
    caseNumber a = caseNumber b := by
  rw [caseNumber_eq, caseNumber_eq, beq_iff_eq.1 h]

/-- Whether no number occurs twice, checked by a bit for each number that was seen. -/
def distinctBits (seen : Nat) : List Nat → Bool
  | [] => true
  | n :: ns => !seen.testBit n && distinctBits (seen ||| 2 ^ n) ns

/-- The check by bits is right: where it goes through, no number occurs twice. -/
theorem nodup_of_distinctBits {seen : Nat} {ns : List Nat} (h : distinctBits seen ns = true) :
    ns.Nodup ∧ ∀ n ∈ ns, seen.testBit n = false := by
  induction ns generalizing seen with
  | nil => exact ⟨.nil, by simp⟩
  | cons n ns ih =>
    rw [distinctBits, Bool.and_eq_true, Bool.not_eq_true'] at h
    obtain ⟨hnodup, hrest⟩ := ih h.2
    have hrest' (m : Nat) (hm : m ∈ ns) : seen.testBit m = false ∧ n ≠ m := by
      have hbit := hrest m hm
      rw [Nat.testBit_or, Nat.testBit_two_pow, Bool.or_eq_false_iff,
        decide_eq_false_iff_not] at hbit
      exact hbit
    refine ⟨List.nodup_cons.2 ⟨fun hmem => (hrest' n hmem).2 rfl, hnodup⟩, fun m hm => ?_⟩
    rcases List.mem_cons.1 hm with rfl | hm
    · exact h.1
    · exact (hrest' m hm).1

end Text

namespace VendorRule

/-- The vendors' names are told apart by their numbers, also from the one name that a rule adds
besides. -/
theorem distinctBits_copyNames : Text.distinctBits 0 (("-ms-filter" ::
    table.flatMap (·.2.copyNames)).map (Text.caseNumber · % 65521)) = true := by
  decide +kernel

/-- No name is the vendor's name of two properties, in whatever case. This is checked on the numbers
of the names, which are distinct. -/
theorem eq_of_mem_copyNames {entry entry' : String × VendorRule} {form form' : String}
    (h : entry ∈ table) (hform : form ∈ entry.2.copyNames) (h' : entry' ∈ table)
    (hform' : form' ∈ entry'.2.copyNames) (hsame : Text.sameFold form form' = true) :
    entry = entry' ∧ form = form' := by
  obtain ⟨hnodup, -⟩ := Text.nodup_of_distinctBits distinctBits_copyNames
  have hpairs : ((table.flatMap fun entry => entry.2.copyNames.map (entry, ·)).map fun pair =>
      Text.caseNumber pair.2 % 65521).Nodup := by
    have htail := (List.nodup_cons.1 hnodup).2
    simpa [List.map_flatMap, Function.comp_def] using htail
  have hmem {entry : String × VendorRule} {form : String} (h : entry ∈ table)
      (hform : form ∈ entry.2.copyNames) :
      (entry, form) ∈ table.flatMap fun entry => entry.2.copyNames.map (entry, ·) :=
    List.mem_flatMap.2 ⟨entry, h, List.mem_map.2 ⟨form, hform, rfl⟩⟩
  have heq := List.inj_on_of_nodup_map hpairs (hmem h hform) (hmem h' hform')
    (by dsimp only; rw [Text.caseNumber_eq_of_sameFold hsame])
  exact ⟨congrArg (·.1) heq, congrArg (·.2) heq⟩

/-- The twin of a filter has a name that no vendor has for another property. -/
theorem sameFold_filter_eq_false {entry : String × VendorRule} {form : String} (h : entry ∈ table)
    (hform : form ∈ entry.2.copyNames) : Text.sameFold "-ms-filter" form = false := by
  obtain ⟨hnodup, -⟩ := Text.nodup_of_distinctBits distinctBits_copyNames
  refine Bool.eq_false_iff.2 fun hsame => (List.nodup_cons.1 hnodup).1 ?_
  exact List.mem_map.2 ⟨form, List.mem_flatMap.2 ⟨entry, h, hform⟩,
    by dsimp only; rw [Text.caseNumber_eq_of_sameFold hsame]⟩

end VendorRule

namespace Vendor

/-- The names under which the vendors of a set know a declaration that is only renamed for them. -/
def formNames (vendors : VendorSet) (d : Declaration) : List String :=
  match VendorRule.ofProperty (Text.folded d.name) with
  | .renamed forms => forms.within vendors
  | _ => []

/-- One of the gradient functions occurs in a value. -/
def UsesGradient (value : String) : Prop :=
  ∃ gradient ∈ gradientForms, Gradient.uses gradient.1 value = true

instance (value : String) : Decidable (UsesGradient value) :=
  inferInstanceAs (Decidable (∃ gradient ∈ gradientForms, Gradient.uses gradient.1 value = true))

section

variable {vendors vendors' : VendorSet} {d e : Declaration} {name name' : String} {demand : Demand}

/-- A declaration is of a name when both fold to the same text. -/
theorem isNamed_iff : d.isNamed name = true ↔ Text.folded d.name = Text.folded name := by
  rw [Declaration.isNamed, Text.sameFold, beq_iff_eq, Text.folded, Text.folded, String.ofList_inj]

theorem mem_formNames_iff : name ∈ formNames vendors d ↔ ∃ forms,
    VendorRule.ofProperty (Text.folded d.name) = .renamed forms ∧ name ∈ forms.within vendors := by
  unfold formNames
  cases VendorRule.ofProperty (Text.folded d.name) <;> simp

/-- The names of a declaration's forms are in the table. -/
theorem mem_copyNames_of_mem_formNames (h : name ∈ formNames vendors d) :
    ∃ rule, (Text.folded d.name, rule) ∈ VendorRule.table ∧ name ∈ rule.copyNames := by
  obtain ⟨forms, hrule, hname⟩ := mem_formNames_iff.1 h
  obtain ⟨vendor, -, hof⟩ := List.mem_filterMap.1 hname
  refine ⟨.renamed forms, VendorRule.mem_table_of_ofProperty hrule (by simp), ?_⟩
  exact List.mem_filterMap.2 ⟨vendor, by cases vendor <;> decide, hof⟩

theorem head_of_mem_formNames (h : name ∈ formNames vendors d) : name.toList.head? = some '-' := by
  obtain ⟨forms, hrule, hname⟩ := mem_formNames_iff.1 h
  exact VendorRule.head_form_of_ofProperty hrule hname

/-- A vendor's name tells the property. The two declarations may have different values and different
vendors. -/
theorem isNamed_of_mem_formNames (h : name ∈ formNames vendors d)
    (h' : name' ∈ formNames vendors' e) (hsame : Text.sameFold name name' = true) :
    d.isNamed e.name = true ∧ name = name' := by
  obtain ⟨rule, hrule, hname⟩ := mem_copyNames_of_mem_formNames h
  obtain ⟨rule', hrule', hname'⟩ := mem_copyNames_of_mem_formNames h'
  obtain ⟨hentry, heq⟩ := VendorRule.eq_of_mem_copyNames hrule hname hrule' hname' hsame
  exact ⟨isNamed_iff.2 (congrArg Prod.fst hentry), heq⟩

theorem head_of_sameFold (h : Text.sameFold name name' = true)
    (hhead : name'.toList.head? = some '-') : name.toList.head? = some '-' := by
  obtain ⟨rest, hname'⟩ := List.head?_eq_some_iff.1 hhead
  have hfold := beq_iff_eq.1 h
  rw [hname', Text.fold, Text.fold, List.map_cons] at hfold
  obtain ⟨c, cs, hname, hc, -⟩ := List.map_eq_cons_iff.1 hfold
  rw [hname, Gradient.eq_hyphen_of_case (.inl hc)]
  rfl

/-- A declaration under a vendor's name is not renamed again. -/
theorem ofProperty_of_isNamed (h : name ∈ formNames vendors d) (he : e.isNamed name = true) :
    VendorRule.ofProperty (Text.folded e.name) = .gradients :=
  VendorRule.ofProperty_of_hyphen (head_of_sameFold he (head_of_mem_formNames h))

theorem formNames_of_isNamed (h : name ∈ formNames vendors d) (he : e.isNamed name = true) :
    formNames vendors' e = [] := by
  rw [formNames, ofProperty_of_isNamed h he]

/-- A declaration that is renamed wants each vendor's name, with its own value. -/
theorem named_mem_demands (h : name ∈ formNames vendors d) :
    Demand.named name d.value ∈ demands vendors d := by
  obtain ⟨forms, hrule, hname⟩ := mem_formNames_iff.1 h
  rw [demands, hrule]
  exact List.mem_map.2 ⟨name, hname, rfl⟩

/-- Whoever wants a declaration under a vendor's name renames its own, or has that name and a
gradient in its value. -/
theorem demand_of_isNamed (h : demand ∈ demands vendors d) (hname : name ∈ formNames vendors' e)
    (hnamed : demand.declaration.isNamed name = true) :
    name ∈ formNames vendors d ∧ demand = .named name d.value ∨
      d.isNamed name = true ∧ UsesGradient d.value := by
  have hhead (other : String) (hother : other.toList.head? ≠ some '-') :
      Text.sameFold other name = false :=
    Bool.eq_false_iff.2 fun hsame => hother (head_of_sameFold hsame (head_of_mem_formNames hname))
  have hfilter : Text.sameFold "-ms-filter" name = false := by
    obtain ⟨rule, hrule, hmem⟩ := mem_copyNames_of_mem_formNames hname
    exact VendorRule.sameFold_filter_eq_false hrule hmem
  have hwanted := wanted_of_mem_demands h
  cases hwanted with
  | @renamed forms _ form hrule _ =>
    have hmem : form ∈ formNames vendors d := by
      rw [demands, hrule] at h
      obtain ⟨form', hform', heq⟩ := List.mem_map.1 h
      obtain rfl : form' = form := congrArg (·.declaration.name) heq
      exact mem_formNames_iff.2 ⟨forms, hrule, hform'⟩
    obtain rfl : form = name := (isNamed_of_mem_formNames hmem hname hnamed).2
    exact .inl ⟨hmem, rfl⟩
  | filterTwin => exact absurd hnamed (Bool.eq_false_iff.1 hfilter)
  | opacity percent hrule hmem =>
    simp only [List.mem_cons, Prod.mk.injEq, List.not_mem_nil, or_false] at hmem
    rcases hmem with ⟨rfl, -⟩ | ⟨rfl, -⟩ | ⟨rfl, -⟩
    · exact absurd hnamed (Bool.eq_false_iff.1 hfilter)
    · exact absurd hnamed (Bool.eq_false_iff.1 (hhead "filter" (by decide)))
    · exact absurd hnamed (Bool.eq_false_iff.1 (hhead "zoom" (by decide)))
  | @wrap vendor declaration hrule hvalue hmem =>
    have hwrap : ∀ vendor ∈ Vendor.all, ∀ w ∈ wrapDeclarations vendor,
        w.name.toList.head? ≠ some '-' := by decide
    have hne := hwrap vendor (by cases vendor <;> decide) declaration hmem
    exact absurd hnamed (Bool.eq_false_iff.1 (hhead _ hne))
  | @gradient function _ _ _ hrule hmem huses hform =>
    refine .inr ⟨?_, _, hmem, huses⟩
    have hfold := congrArg String.toList (Text.folded_folded d.name)
    rw [Text.folded, Text.folded, String.toList_ofList, String.toList_ofList] at hfold
    rw [Declaration.isNamed, Text.sameFold] at hnamed ⊢
    rwa [Demand.valued, Text.folded, String.toList_ofList, hfold] at hnamed
  | gradientFilter =>
    exact absurd hnamed (Bool.eq_false_iff.1 (hhead "filter" (by decide)))

end

end Vendor

end Sheetsmith
