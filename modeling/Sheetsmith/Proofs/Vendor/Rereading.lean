import Sheetsmith.Proofs.Sheet.Rereading
import Sheetsmith.Proofs.Vendor.Blocks

namespace Sheetsmith

open Sheet

/-- Two nodes that stand at the same place belong to keyframes blocks that do, or to none. -/
inductive TwinKeyframes (s t : Sheet) : Option Keyframes → Option Keyframes → Prop where
  | none : TwinKeyframes s t none none
  | vendored : TwinKeyframes s t (some .vendored) (some .vendored)
  | plain {id id' : NodeId} (htwins : s.Twins t id id') :
    TwinKeyframes s t (some (.plain id)) (some (.plain id'))

/-- Of two pairs of blocks the first one that is there. -/
theorem TwinKeyframes.or {s t : Sheet} {a b a' b' : Option Keyframes} (h : TwinKeyframes s t a a')
    (h' : TwinKeyframes s t b b') : TwinKeyframes s t (a.or b) (a'.or b') := by
  cases h with
  | none => exact h'
  | vendored => exact .vendored
  | plain htwins => exact .plain htwins

namespace Sheet.Rereads

variable {s t : Sheet} {layout : Layout} {id id' : NodeId} (h : Rereads layout s t)
  (htwins : s.Twins t id id')
include h htwins

/-- Whether a header starts with a word is not changed by the blanks around its commas. The word has
neither blanks nor commas, so it lies in the first part. -/
theorem isPrefixOf_fold_header {word : List Char} (hword : Text.Solid word) {selector : String}
    (hselector : s.selector? id = some selector) :
    word.isPrefixOf (Text.fold (layout.header (selectorParts selector)).toList) =
      word.isPrefixOf (Text.fold selector.toList) := by
  have hparts := h.map_trim_header htwins hselector
  have htrim' := layout.trim_header (selectorParts selector)
  have htrim : Text.trim selector.toList = selector.toList := (h.eachHeader id selector hselector).2
  rw [Bool.eq_iff_iff, List.isPrefixOf_iff_prefix, List.isPrefixOf_iff_prefix]
  exact ⟨hword.isPrefix_fold_of_parts htrim' htrim hparts,
    hword.isPrefix_fold_of_parts htrim htrim' hparts.symm⟩

/-- Whether a word occurs in a header is not changed by the blanks around its commas. The word has
no blank and no comma. -/
theorem occurs_fold_header {word : List Char} (hword : Text.Solid word) {selector : String}
    (hselector : s.selector? id = some selector) :
    Text.occurs (Text.literal word)
        (Text.fold (layout.header (selectorParts selector)).toList) =
      Text.occurs (Text.literal word) (Text.fold selector.toList) := by
  have hparts := h.map_trim_header htwins hselector
  have hoccurs {cs ds : List Char}
      (hcs : (Text.splitAtEach ',' cs).map Text.trim = (Text.splitAtEach ',' ds).map Text.trim)
      (hmem : Text.occurs (Text.literal word) (Text.fold cs) = true) :
      Text.occurs (Text.literal word) (Text.fold ds) = true :=
    Text.occurs_literal hword.ne_nil
      (hword.isInfix_fold_of_parts hcs (Text.isInfix_of_occurs_literal hmem))
  rw [Bool.eq_iff_iff]
  exact ⟨hoccurs hparts, hoccurs hparts.symm⟩

/-- Whether a group is a keyframes block is not changed by the blanks in its header. -/
theorem twinKeyframes? : TwinKeyframes s t (s.keyframes? id) (t.keyframes? id') := by
  have hsolid : Text.Solid "@keyframes".toList ∧ Text.Solid "@-".toList ∧
      Text.Solid "-keyframes".toList := by decide
  rw [keyframes?, keyframes?, h.selector?_eq htwins]
  -- The words are only in the way here.
  generalize "@keyframes".toList = plain, "@-".toList = start, "-keyframes".toList = inside
    at hsolid ⊢
  obtain ⟨hplain, hstart, hinside⟩ := hsolid
  cases hselector : s.selector? id with
  | none => exact .none
  | some selector =>
    simp only [Option.map_some, Option.bind_eq_bind, Option.bind_some,
      h.isPrefixOf_fold_header htwins hplain hselector,
      h.isPrefixOf_fold_header htwins hstart hselector,
      h.occurs_fold_header htwins hinside hselector]
    split
    · exact .plain htwins
    · split
      · exact .vendored
      · exact .none

theorem twinKeyframesAround : TwinKeyframes s t (s.keyframesAround id) (t.keyframesAround id') := by
  have hs := h.isDocument.isForest
  have ht := h.isDocument'.isForest
  induction htwins with
  | root =>
    rw [hs.keyframesAround_eq, ht.keyframesAround_eq, hs.root_parent, ht.root_parent]
    exact .none
  | child hgroup hid hid' ih =>
    rw [hs.keyframesAround_eq, hs.parent?_of_mem_children (List.mem_of_getElem? hid),
      ht.keyframesAround_eq, ht.parent?_of_mem_children (List.mem_of_getElem? hid')]
    exact ih.or (h.twinKeyframes? hgroup)

end Sheet.Rereads

namespace Vendor

variable {vendors : VendorSet} {s t : Sheet} {layout : Layout} {id id' : NodeId}

/-- A vendor's header for a block is written as the header of the block is. The layout may be either
one, and the vendor any. -/
theorem header_copySelector {selector : String}
    (hplain : "@keyframes".toList.isPrefixOf (Text.fold selector.toList) = true)
    (layout : Layout) (vendor : Vendor) :
    layout.header (selectorParts (copySelector selector vendor)) =
      copySelector (layout.header (selectorParts selector)) vendor := by
  have hsolid : Text.Solid "@keyframes".toList := by decide
  have hvendor : ∀ vendor ∈ Vendor.all, Text.Solid vendor.keyframesWord.toList := by decide
  obtain ⟨word, ⟨rest, hselector⟩, hfold⟩ :=
    Text.isPrefix_fold_iff.1 (List.isPrefixOf_iff_prefix.1 hplain)
  rw [← hfold] at hsolid
  obtain ⟨rest', hrest'⟩ := layout.exists_header_append rest
  have hword : Text.sameFold (String.ofList word) "@keyframes" = true := by
    rw [Text.sameFold, String.toList_ofList, hfold]
    decide
  have hcut (rest : List Char) : copySelector (String.ofList (word ++ rest)) vendor =
      String.ofList (vendor.keyframesWord.toList ++ rest) := by
    rw [String.ofList_append, copySelector_append hword, String.ofList_append, String.ofList_toList]
  obtain rfl : selector = String.ofList (word ++ rest) := by
    rw [hselector, String.ofList_toList]
  rw [hcut, hrest' _ (hvendor vendor (by cases vendor <;> decide)), hrest' word hsolid.of_fold, hcut]

/-- What stands for a demand has a twin that does. -/
theorem met_of_twins (h : Rereads layout s t) (htwins : s.Twins t id id') {demand : Demand}
    (hmet : demand.Met s id) : demand.Met t id' := by
  obtain ⟨sibling, hsibling, d, hd, hclash⟩ := hmet
  obtain ⟨sibling', hsibling', htwins'⟩ := h.sameTree.exists_sibling h.isDocument.isForest
    h.isDocument'.isForest htwins hsibling
  exact ⟨sibling', hsibling', d, (h.sameTree.declaration?_eq htwins').trans hd, hclash⟩

/-- The selectors beside a node are read back as the layout writes them. The nodes are twins, one in
the old sheet and one in the one that was read back. -/
theorem mem_besideSelectors_of_twins (h : Rereads layout s t) (htwins : s.Twins t id id')
    {selector : String} (hmem : selector ∈ besideSelectors s id) :
    layout.header (selectorParts selector) ∈ besideSelectors t id' := by
  obtain ⟨sibling, hsibling, hselector⟩ := mem_besideSelectors.1 hmem
  obtain ⟨sibling', hsibling', htwins'⟩ := h.sameTree.exists_sibling h.isDocument.isForest
    h.isDocument'.isForest htwins hsibling
  refine mem_besideSelectors.2 ⟨sibling', hsibling', ?_⟩
  rw [h.selector?_eq htwins', hselector, Option.map_some]

/-- What is settled is settled when it was written and read back. -/
theorem Settled.of_rereads (hsettled : Settled vendors s id) (h : Rereads layout s t)
    (htwins : s.Twins t id id') : Settled vendors t id' := by
  have hs := h.isDocument.isForest
  have haround := h.twinKeyframesAround htwins
  unfold Settled at hsettled ⊢
  cases hblock : s.keyframesAround id with
  | none =>
    rw [hblock] at haround hsettled
    generalize t.keyframesAround id' = around at haround
    cases haround
    intro d hd demand hdemand
    rw [h.sameTree.declaration?_eq htwins] at hd
    exact met_of_twins h htwins (hsettled d hd demand hdemand)
  | some block =>
    rw [hblock] at haround hsettled
    generalize t.keyframesAround id' = around at haround
    cases haround with
    | vendored => trivial
    | @plain keyframes keyframes' htwins' =>
      obtain ⟨-, hkeyframes, -⟩ := hs.keyframesAround_eq_plain hblock
      obtain ⟨-, selector, hselector, hplain⟩ := keyframes?_eq_plain hkeyframes
      intro selector' hselector' vendor hvendor
      rw [h.selector?_eq htwins', hselector, Option.map_some] at hselector'
      obtain rfl := Option.some.inj hselector'
      rw [← header_copySelector hplain]
      exact mem_besideSelectors_of_twins h htwins' (hsettled selector hselector vendor hvendor)

/-- Where nothing was left to do, nothing is left to do when the sheet was written and read back.
The vendors are the same both times. -/
theorem Rereads.settled (h : Rereads layout s t)
    (hsettled : ∀ id ∈ s.declarations root, Settled vendors s id) :
    ∀ id ∈ t.declarations root, Settled vendors t id := by
  intro id' hid'
  obtain ⟨hbelow', hd'⟩ := (mem_declarations_iff h.isDocument'.isForest).1 hid'
  obtain ⟨id, hbelow, htwins⟩ :=
    h.sameTree.exists_twin h.isDocument.isForest h.isDocument'.isForest hbelow'
  rw [h.sameTree.declaration?_eq htwins] at hd'
  have hid := (mem_declarations_iff h.isDocument.isForest).2 ⟨hbelow, hd'⟩
  exact (hsettled id hid).of_rereads h htwins

end Vendor

end Sheetsmith
