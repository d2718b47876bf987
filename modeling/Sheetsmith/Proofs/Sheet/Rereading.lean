import Sheetsmith.Proofs.Sheet.Headers
import Sheetsmith.Proofs.Sheet.Twins
import Sheetsmith.Proofs.Text.Solid

namespace Sheetsmith

open Sheetsmith.Text

theorem Layout.trim_header (layout : Layout) (parts : List String) :
    trim (layout.header parts).toList = (layout.header parts).toList := by
  rw [Layout.header, trimmed, String.toList_ofList, trim_trim]

/-- What follows a word at the start of a header is written in the same way behind every word. So a
word may be put in the place of another one before the header is written or after that. -/
theorem Layout.exists_header_append (layout : Layout) (rest : List Char) :
    ∃ rest', ∀ word, Solid word →
      layout.header (Sheet.selectorParts (String.ofList (word ++ rest))) =
        String.ofList (word ++ rest') := by
  obtain ⟨first, others, hrest, -⟩ := splitAtEach_append_left (List.not_mem_nil (a := ',')) rest
  refine ⟨trimEnd (layout.comma.toList.intercalate (trimEnd first :: others.map trim)),
    fun word hword => ?_⟩
  obtain ⟨first', others', hrest', hsplit⟩ := splitAtEach_append_left hword.comma rest
  obtain ⟨rfl, rfl⟩ := List.cons.inj (hrest.symm.trans hrest')
  have hempty : (String.ofList (word ++ rest)).isEmpty = false := by
    simpa [String.isEmpty_iff] using fun hnil => absurd hnil hword.ne_nil
  have hjoin (more : List (List Char)) : layout.comma.toList.intercalate
      ((word ++ trimEnd first) :: more) =
        word ++ layout.comma.toList.intercalate (trimEnd first :: more) := by
    cases more with
    | nil => simp
    | cons next more => simp [List.intercalate_cons_cons]
  rw [Sheet.selectorParts, hempty, String.toList_ofList, hsplit, Layout.header, trimmed,
    String.toList_intercalate]
  simp only [Bool.false_eq_true, if_false, List.map_cons, List.map_map, String.toList_ofList,
    Function.comp_def, hword.trim_append, hjoin]

namespace Event

/-- A header that is read back is written again as it was. One layout is meant on both sides, since
the other one puts other blanks behind the commas. -/
theorem header_of_opened_mem {depth : Nat} {os : List Outline} (h : Readable depth os)
    {layout : Layout} {selector : String}
    (hmem : .opened (some selector) ∈ Outline.allEvents layout os) :
    layout.header (Sheet.selectorParts selector) = selector := by
  obtain ⟨gap, -, -, -, ⟨hgap, -⟩, hcomma, -⟩ := layout_blanks layout
  induction h with
  | nil => cases hmem
  | @leaf depth leaf os hleaf hrest ih =>
    obtain ⟨kind, text⟩ := leaf
    cases kind <;> exact ih (by simpa [Outline.allEvents, Outline.events] using hmem)
  | declaration hd hrest ih => exact ih (by simpa [Outline.allEvents, Outline.events] using hmem)
  | @group depth parts inner os hparts hinner hrest ihinner ihrest =>
    have hcases : selector = layout.header parts ∨
        .opened (some selector) ∈ Outline.allEvents layout inner ∨
        .opened (some selector) ∈ Outline.allEvents layout os := by
      simpa [Outline.allEvents, Outline.events, or_assoc] using hmem
    rcases hcases with rfl | hmem | hmem
    · have hheader := selectorParts_header hparts hgap
      rw [← header_eq hcomma] at hheader
      rw [hheader]
    · exact ihinner hmem
    · exact ihrest hmem

end Event

namespace Sheet

/-- A sheet was written and read back: it has the same tree, and its headers are as the layout
writes them. -/
structure Rereads (layout : Layout) (s t : Sheet) : Prop where
  sameTree : s.SameTree t
  isDocument : s.IsDocument
  isDocument' : t.IsDocument
  eachHeader : s.EachHeader IsHeader
  headed : t.Headed
  header : ∀ id selector, t.selector? id = some selector →
    layout.header (selectorParts selector) = selector

variable {s t : Sheet} {layout : Layout} {id id' sibling : NodeId}

/-- Headers with the same parts differ in the blanks around their commas only. Empty headers are
left out: they have no parts at all, while every other header has one at least. -/
theorem map_trim_eq_of_selectorParts_eq {a b : String} (ha : a ≠ "") (hb : b ≠ "")
    (h : selectorParts a = selectorParts b) :
    (splitAtEach ',' a.toList).map trim = (splitAtEach ',' b.toList).map trim := by
  have hlists := congrArg (List.map String.toList) h
  rw [selectorParts, selectorParts, if_neg (mt String.isEmpty_iff.1 ha),
    if_neg (mt String.isEmpty_iff.1 hb)] at hlists
  simpa [Function.comp_def] using hlists

/-- A document that is readable, with headers as they are found in a text, is read back from what
either layout writes of it. It may hold anything but groups without a header. -/
theorem IsDocument.rereads (hs : s.IsDocument) (hreadable : s.IsReadable)
    (hheaders : s.EachHeader IsHeader) (layout : Layout) :
    Rereads layout s (parse true (s.render layout)) := by
  obtain ⟨os, hshows, hos⟩ := hreadable
  refine ⟨hs.isForest.sameTree_parse_render hs.selectors_root hshows hos layout, hs,
    isDocument_parse true _, hheaders, headed_parse true _, fun id selector hselector => ?_⟩
  have hmem := opened_mem_of_selector?_ofEvents hselector
  rw [hs.isForest.render_eq_texts hs.selectors_root hshows layout, hos.ofText_texts layout] at hmem
  exact Event.header_of_opened_mem hos hmem

/-- The siblings of twins are twins. Both sheets are forests, so a node has one place among its
siblings. -/
theorem SameTree.exists_sibling (h : s.SameTree t) (hs : s.IsForest) (ht : t.IsForest)
    (htwins : s.Twins t id id') (hsibling : sibling ∈ s.siblings id) :
    ∃ sibling' ∈ t.siblings id', s.Twins t sibling sibling' := by
  rw [siblings, List.mem_filter, bne_iff_ne, family] at hsibling
  cases htwins with
  | root =>
    rw [hs.root_parent] at hsibling
    exact absurd hsibling.1 List.not_mem_nil
  | @child group group' _ _ place hgroup hid hid' =>
    have hparent := hs.parent?_of_mem_children (List.mem_of_getElem? hid)
    have hparent' := ht.parent?_of_mem_children (List.mem_of_getElem? hid')
    rw [hparent] at hsibling
    obtain ⟨place', hlt, hplace⟩ : ∃ place', ∃ hlt : place' < (s.children group).length,
        (s.children group)[place'] = sibling := List.mem_iff_getElem.1 hsibling.1
    have hlt' : place' < (t.children group').length := h.length_children hgroup ▸ hlt
    have hplace? : (s.children group)[place']? = some sibling := by
      rw [List.getElem?_eq_getElem hlt]
      exact congrArg some hplace
    refine ⟨(t.children group')[place'], ?_,
      .child hgroup hplace? (List.getElem?_eq_getElem hlt')⟩
    rw [siblings, List.mem_filter, bne_iff_ne, family, hparent']
    refine ⟨List.getElem_mem hlt', fun heq => hsibling.2 ?_⟩
    -- No node is at two places, so it is the other one that has the place of `id`.
    obtain ⟨hbound, hid'⟩ := List.getElem_of_getElem? hid'
    obtain rfl : place' = place :=
      (ht.nodup_children group').getElem_inj_iff.1 (heq.trans hid'.symm)
    exact Option.some.inj (hplace?.symm.trans hid)

namespace Rereads

variable (h : Rereads layout s t) (htwins : s.Twins t id id')
include h htwins

/-- A header is read back as the layout writes it. -/
theorem selector?_eq : t.selector? id' =
    (s.selector? id).map fun selector => layout.header (selectorParts selector) := by
  have hselectors := h.sameTree.selectors_eq htwins
  unfold selectors at hselectors
  cases hselector : s.selector? id with
  | none =>
    rw [hselector] at hselectors
    cases hselector' : t.selector? id' with
    | none => rfl
    | some selector' =>
      rw [hselector'] at hselectors
      have hempty := (selectorParts_eq_nil_iff selector').1 hselectors
      exact absurd hselector' (String.isEmpty_iff.1 hempty ▸ h.headed id')
  | some selector =>
    rw [hselector] at hselectors
    have hne : selector ≠ "" := (h.eachHeader id selector hselector).1
    cases hselector' : t.selector? id' with
    | none =>
      rw [hselector'] at hselectors
      exact absurd hselectors.symm (selectorParts_ne_nil hne)
    | some selector' =>
      rw [hselector'] at hselectors
      rw [Option.map_some, ← h.header id' selector' hselector']
      exact congrArg (fun parts => some (layout.header parts)) hselectors

/-- Writing a header changes no more than the blanks around its commas. The layout may be either
one. -/
theorem map_trim_header {selector : String} (hselector : s.selector? id = some selector) :
    (splitAtEach ',' (layout.header (selectorParts selector)).toList).map trim =
      (splitAtEach ',' selector.toList).map trim := by
  have hselector' := h.selector?_eq htwins
  have hparts := h.sameTree.selectors_eq htwins
  rw [hselector, Option.map_some] at hselector'
  rw [selectors, selectors, hselector, hselector'] at hparts
  have hheaded := h.headed id'
  rw [hselector'] at hheaded
  refine map_trim_eq_of_selectorParts_eq (fun heq => hheaded (congrArg some heq)) ?_ hparts
  rintro rfl
  exact selectorParts_ne_nil (fun heq => hheaded (congrArg some heq)) hparts

end Rereads

end Sheet

end Sheetsmith
