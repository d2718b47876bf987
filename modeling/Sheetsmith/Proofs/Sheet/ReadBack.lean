import Sheetsmith.Proofs.Sheet.Reading

namespace Sheetsmith

namespace Event

open Sheetsmith.Text

/-- What a layout writes around its blocks is blank, but for the braces and the commas. Nothing more
has to be known of a layout to read its texts back. -/
theorem layout_blanks (layout : Layout) : ∃ gap front back after,
    (AllBlank gap ∧ AllBlank front ∧ AllBlank back ∧ AllBlank after ∧
      AllBlank layout.blockGap.toList ∧ AllBlank layout.rootGap.toList) ∧
    layout.comma.toList = ',' :: gap ∧ layout.blockOpen.toList = '\x7b' :: front ∧
    layout.blockClose.toList = back ++ '\x7d' :: after := by
  cases layout with
  | compressed => exact ⟨[], [], [], [], by decide⟩
  | spread => exact ⟨[' '], ['\n', '\t'], ['\n'], ['\n'], by decide⟩

/-- The header that a layout writes, trimmed, is the one that is read. The parts may be any, also
empty or with blanks around them. -/
theorem header_eq {layout : Layout} {gap : List Char} (hcomma : layout.comma.toList = ',' :: gap)
    (parts : List String) : layout.header parts =
      String.ofList (trim ((',' :: gap).intercalate (parts.map String.toList))) := by
  rw [Layout.header, trimmed, String.toList_intercalate, hcomma]

/-- The first outline of a list, the gap behind it and the others. The first one is the last one too
if nothing follows, so both ways of writing it are asked for. -/
theorem readsLast_texts_cons {depth : Nat} {layout : Layout} {gap : String} {o : Outline}
    {os : List Outline} (hgap : AllBlank gap.toList)
    (hlast : ReadsLast depth (o.text layout true).toList (o.events layout))
    (hinner : Reads depth (o.text layout false).toList (o.events layout))
    (hrest : ReadsLast depth (Outline.texts layout gap os).toList (Outline.allEvents layout os)) :
    ReadsLast depth (Outline.texts layout gap (o :: os)).toList
      (Outline.allEvents layout (o :: os)) := by
  cases os with
  | nil => simpa [Outline.texts, Outline.allEvents] using hlast
  | cons next os =>
    have h := (hinner.append (reads_blanks depth hgap)).append_last hrest
    rw [Outline.texts, Outline.allEvents]
    simpa using h

/-- Readable outlines are read from their text, in every layout and with any blank gap between them.
The induction is on the outlines, at every depth at once. -/
theorem Readable.readsLast {depth : Nat} {os : List Outline} (h : Readable depth os)
    (layout : Layout) {gap : String} (hgap : AllBlank gap.toList) :
    ReadsLast depth (Outline.texts layout gap os).toList (Outline.allEvents layout os) := by
  obtain ⟨comma, front, back, after, ⟨hcomma, hfront, hback, hafter, hblock, -⟩, heqs⟩ :=
    layout_blanks layout
  obtain ⟨hcommaEq, hopenEq, hcloseEq⟩ := heqs
  induction h generalizing gap with
  | nil => exact (reads_blanks _ (by simp [Outline.texts, AllBlank])).last
  | @leaf depth leaf os hleaf hrest ih =>
    have hreads := reads_leaf hleaf layout
    exact readsLast_texts_cons hgap hreads.last hreads (ih hgap)
  | @declaration depth d os hd hrest ih =>
    have hinner : Reads depth ((Outline.declaration d).text layout false).toList
        ((Outline.declaration d).events layout) := by
      simpa [Outline.text, Outline.events] using reads_declaration hd
    refine readsLast_texts_cons hgap ?_ hinner (ih hgap)
    cases layout with
    | compressed => simpa [Outline.text, Outline.events] using readsLast_declaration hd
    | spread => exact hinner.last
  | @group depth parts inner os hparts hinner hrest ihinner ihrest =>
    have hgroup (last : Bool) : Reads depth ((Outline.group parts inner).text layout last).toList
        ((Outline.group parts inner).events layout) := by
      have h := reads_group hparts (ihinner hblock) hcomma hfront hback hafter
      have hne : parts.isEmpty = false := by simpa using hparts.ne_nil
      rw [← header_eq hcommaEq] at h
      simpa [Outline.text, Outline.events, hne, hcommaEq, hopenEq, hcloseEq,
        String.toList_intercalate] using h
    exact readsLast_texts_cons hgap (hgroup true).last (hgroup false) (ihrest hgap)

/-- The events of readable outlines describe them. Only the headers matter here: a header that is
read back has the parts that it was written from. -/
theorem Readable.tells {depth : Nat} {os : List Outline} (h : Readable depth os) (layout : Layout) :
    Tells (Outline.allEvents layout os) os := by
  obtain ⟨comma, -, -, -, ⟨hcomma, -⟩, hcommaEq, -⟩ := layout_blanks layout
  induction h with
  | nil => exact tells_nil
  | @leaf depth leaf os hleaf hrest ih =>
    obtain ⟨kind, text⟩ := leaf
    cases kind with
    | comment => exact (tells_comment text).append ih
    | importRule => exact (tells_importRule text).append ih
  | @declaration depth d os hd hrest ih => exact (tells_declaration d.name d.value).append ih
  | @group depth parts inner os hparts hinner hrest ihinner ihrest =>
    have hgroup := ihinner.group (layout.header parts)
    rw [header_eq hcommaEq, selectorParts_header hparts hcomma, ← header_eq hcommaEq] at hgroup
    exact hgroup.append ihrest

/-- The whole text is read when all of it is the last text outside of every block. -/
theorem ReadsLast.ofText {text : String} {events : List Event} (h : ReadsLast 0 text.toList events) :
    ofText true text = events := by
  obtain ⟨reported, buffer, -, rfl, hscan⟩ := h [] [] (by simp [AllBlank]) (by simp)
  rw [List.append_nil, String.ofList_nil, scan_nil] at hscan
  rw [Event.ofText, hscan]

/-- Outside every block, what the reader reports of the text of readable outlines. They may hold
anything but groups without a header. -/
theorem Readable.ofText_texts {os : List Outline} (h : Readable 0 os) (layout : Layout) :
    ofText true (Outline.texts layout layout.rootGap os) = Outline.allEvents layout os := by
  obtain ⟨-, -, -, -, ⟨-, -, -, -, -, hgap⟩, -⟩ := layout_blanks layout
  exact (h.readsLast layout hgap).ofText

/-- Outside every block, readable outlines are what the reader reports of their text. -/
theorem Readable.levels_ofText {os : List Outline} (h : Readable 0 os) (layout : Layout) :
    levels (ofText true (Outline.texts layout layout.rootGap os)) 0 = os := by
  rw [h.ofText_texts layout]
  simpa [levels] using (h.tells layout []).1

end Event

namespace Sheet

open Sheetsmith.Event

/-- Reading gives a forest, whatever the text and with or without trimming. -/
theorem isForest_parse (trim : Bool) (text : String) : (parse trim text).IsForest :=
  isForest_ofEvents _

/-- The tree of a text that was read looks like what the reader reported outside of all blocks, and
its root has no header. -/
theorem shows_parse (trim : Bool) (text : String) :
    (parse trim text).selectors root = [] ∧
      (parse trim text).Shows ((parse trim text).children root) (levels (ofText trim text) 0) :=
  shows_ofEvents (nested_scan trim 0 "" text.toList)

/-- Whatever a sheet holds below its root is found again when it is written: each group has a header,
and no text ends before its end or runs on into what stands behind it. A header may hold semicolons,
and outside every block closing braces, where the reader takes them as text. -/
def IsReadable (s : Sheet) : Prop :=
  ∃ os, s.Shows (s.children root) os ∧ Readable 0 os

/-- A sheet whose outlines are readable is read back from its text, in every layout. The sheet may
have detached nodes, which are not written. -/
theorem IsForest.sameTree_parse_render {s : Sheet} (hs : s.IsForest) (hroot : s.selectors root = [])
    {os : List Outline} (hshows : s.Shows (s.children root) os) (hreadable : Readable 0 os)
    (layout : Layout) : s.SameTree (parse true (s.render layout)) := by
  have hrender := hs.render_eq_texts hroot hshows layout
  obtain ⟨hroot', hshows'⟩ := shows_parse true (s.render layout)
  rw [hrender, hreadable.levels_ofText layout, ← hrender] at hshows'
  refine ⟨.group [] os, ?_, ?_⟩
  · rw [← hroot]
    exact .group hs.root_group hshows .nil
  · rw [← hroot']
    exact .group (isForest_parse _ _).root_group hshows' .nil

end Sheet

end Sheetsmith
