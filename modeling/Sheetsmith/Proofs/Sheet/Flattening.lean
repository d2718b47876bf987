import Sheetsmith.Proofs.Sheet.Legible

namespace Sheetsmith.Sheet

open Sheetsmith.Event Sheetsmith.Text

/-- The declarations of the tree, in order. -/
def declarationList (s : Sheet) : List Declaration :=
  (s.declarations root).filterMap s.declaration?

variable {s : Sheet}

/-- The declarations of a listing are those of the outlines that its nodes look like, in the same
order. -/
theorem Shows.allDeclared_eq {ids all : List NodeId} {os : List Outline} (hshows : s.Shows ids os)
    (hspans : s.Spans ids all) : all.filterMap s.declaration? = Outline.allDeclared os := by
  induction hshows generalizing all with
  | nil =>
    cases hspans
    rfl
  | @leaf id ids leaf os hnode hrest ih =>
    cases hspans with
    | cons hbelow hspans =>
      rw [children_eq_nil_of_kind hnode (by simp [Node.kind])] at hbelow
      cases hbelow
      have hnone : s.declaration? id = none := by rw [declaration?, hnode]
      rw [List.cons_append, List.nil_append, List.filterMap_cons_none hnone, ih hspans]
      rfl
  | @declaration id ids d os hnode hrest ih =>
    cases hspans with
    | cons hbelow hspans =>
      rw [children_eq_nil_of_kind hnode (by simp [Node.kind])] at hbelow
      cases hbelow
      rw [List.cons_append, List.nil_append,
        List.filterMap_cons_some (declaration?_eq_some_iff.2 hnode), ih hspans]
      rfl
  | @group id ids inner os hgroup hinner hrest ihinner ihrest =>
    cases hspans with
    | cons hbelow hspans =>
      obtain ⟨g, hg⟩ := Option.isSome_iff_exists.1 hgroup
      have hnone : s.declaration? id = none := by rw [declaration?, group?_eq_some_iff.1 hg]
      rw [List.cons_append, List.filterMap_cons_none hnone, List.filterMap_append, ihinner hbelow,
        ihrest hspans]
      rfl

/-- The declarations of the tree can be read off what the root's children look like. A group without
a header counts like any other. -/
theorem IsForest.declarationList_eq (hs : s.IsForest) {os : List Outline}
    (hshows : s.Shows (s.children root) os) : s.declarationList = Outline.allDeclared os := by
  rw [← hshows.allDeclared_eq (hs.spans_descendants root), declarationList, declarations,
    descendantsOfKind, List.filterMap_filter]
  refine List.filterMap_congr fun id _ => ?_
  rw [kind?, declaration?]
  cases s.node? id with
  | none => rfl
  | some node => cases node <;> rfl

/-- Both layouts of a sheet hold the declarations of its tree, in order. Assumed of the text are
closed strings and that nothing written again opens a comment; blocks without a header are allowed.
In the compressed layout nothing may be written right behind a declaration that has lost its
semicolon, so that layout has its own condition, and the spread one has none. -/
theorem declarationList_parse_render {text : String} (htext : Lexed (fun _ => True) text.toList)
    (hcomment : ∀ event ∈ ofText true text, CommentFree event.written) :
    let s := parse true text
    (parse true (s.render .spread)).declarationList = s.declarationList ∧
      (Outline.allGuarded .compressed (levels (ofText true text) 0) = true →
        (parse true (s.render .compressed)).declarationList = s.declarationList) := by
  intro s
  obtain ⟨hroot, hshows⟩ := shows_parse true text
  have hforest := isForest_parse true text
  have hlegible : Legible 0 (levels (ofText true text) 0) :=
    onLevels_scan composes_legible htext (closed_empty 0)
      (fun _ _ _ _ hinner hrest => .bare hinner.outward hrest) hcomment 0 (Nat.le_refl 0)
  have hlayout (layout : Layout)
      (hguarded : Outline.allGuarded layout (levels (ofText true text) 0) = true) :
      (parse true (s.render layout)).declarationList = s.declarationList := by
    have hrender := hforest.render_eq_texts hroot hshows layout
    obtain ⟨-, hshows'⟩ := shows_parse true (s.render layout)
    rw [(isForest_parse _ _).declarationList_eq hshows', hforest.declarationList_eq hshows, hrender,
      hlegible.levels_ofText hguarded, Outline.allDeclared_allInlined]
  exact ⟨hlayout .spread (Outline.allGuarded_spread _), hlayout .compressed⟩

/-- Blocks without a header, one at the end of another block and one that ends in a block, meet the
condition of the compressed layout. -/
theorem declarationList_parse_render_bareBlocks :
    let text := "x\x7by:z;\x7ba:\";\"\x7d \x7d\x7bd\x7be:f\x7d\x7dg:h"
    let s := parse true text
    Outline.allGuarded .compressed (levels (ofText true text) 0) = true ∧
      (parse true (s.render .spread)).declarationList = s.declarationList ∧
      (parse true (s.render .compressed)).declarationList = s.declarationList := by
  intro text s
  have hguarded : Outline.allGuarded .compressed (levels (ofText true text) 0) = true := by
    decide +kernel
  obtain ⟨hspread, hcompressed⟩ := @declarationList_parse_render text (by decide +kernel)
    (by decide +kernel)
  exact ⟨hguarded, hspread, hcompressed hguarded⟩

/-- A block without a header in front of a declaration: in the compressed layout its own last
declaration loses the semicolon, and both are read as one. The text meets everything that is assumed
for the spread layout. -/
theorem declarationList_parse_render_compressed_ne :
    let text := "\x7ba:b\x7dc:d"
    let s := parse true text
    Lexed (fun _ => True) text.toList ∧ (∀ event ∈ ofText true text, CommentFree event.written) ∧
      s.declarationList = [⟨"a", "b"⟩, ⟨"c", "d"⟩] ∧ s.render .compressed = "a:bc:d" ∧
      (parse true (s.render .spread)).declarationList = s.declarationList ∧
      (parse true (s.render .compressed)).declarationList = [⟨"a", "bc:d"⟩] := by
  decide +kernel

end Sheetsmith.Sheet
