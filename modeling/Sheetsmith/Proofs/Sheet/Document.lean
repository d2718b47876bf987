import Sheetsmith.Proofs.Sheet.ReadBack

namespace Sheetsmith.Sheet

/-- A forest whose root has no header, as it is when a text was read. -/
structure IsDocument (s : Sheet) : Prop where
  isForest : s.IsForest
  selector_root : s.selector? root = none

/-- Reading any text gives a document, with or without trimming. The events of a text never close
more blocks than are open, so nothing gives the root a header. -/
theorem isDocument_parse (trim : Bool) (text : String) : (parse trim text).IsDocument := by
  refine ⟨isForest_parse trim text, ?_⟩
  have htrail : empty.Trail root [] := .root rfl
  obtain ⟨ids, -, hgroup⟩ :=
    (Builder.built_foldl_step htrail (Event.nested_scan trim 0 "" text.toList)).group 0 root rfl
  rw [selector?, parse, ofEvents, Event.ofText, hgroup]
  rfl

namespace IsDocument

variable {s : Sheet} (hs : s.IsDocument)
include hs

theorem selectors_root : s.selectors root = [] := by
  rw [selectors, hs.selector_root]

theorem remove (id : NodeId) : (s.remove id).IsDocument :=
  ⟨hs.isForest.remove id, by rw [selector?_remove, hs.selector_root]⟩

/-- Another header for a node other than the root leaves a document. The root has to stay without
one. -/
theorem setSelector {id : NodeId} (hid : id ≠ root) (selector : Option String) :
    (s.setSelector id selector).IsDocument :=
  ⟨hs.isForest.setSelector id selector, by
    rw [selector?_setSelector_of_ne hid.symm, hs.selector_root]⟩

theorem modifyDeclaration (id : NodeId) (f : Declaration → Declaration) :
    (s.modifyDeclaration id f).IsDocument :=
  ⟨hs.isForest.modifyDeclaration id f, by rw [selector?_modifyDeclaration, hs.selector_root]⟩

/-- The root is not among the groups below it, so passes that visit those groups never touch the
root. -/
theorem ne_root_of_mem_groups {id : NodeId} (hid : id ∈ s.groups root) : id ≠ root := by
  rintro rfl
  have hbelow := hs.isForest.mem_descendants_iff.1 (List.mem_filter.1 hid).1
  obtain ⟨parent, hparent, -⟩ := Relation.TransGen.head'_iff.1 hbelow
  rw [hs.isForest.root_parent] at hparent
  cases hparent

end IsDocument

end Sheetsmith.Sheet
