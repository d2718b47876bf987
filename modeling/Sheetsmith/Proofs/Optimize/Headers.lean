import Sheetsmith.Proofs.Optimize.Tidy
import Sheetsmith.Proofs.Sheet.Headers

namespace Sheetsmith.Sheet

variable {s t : Sheet} {id : NodeId} {read : Color.Reader} {options : OptimizeOptions}
  {P : String → Prop}

/-- Two headers of a text joined by a comma could be one of a text too: there are no blanks at its
ends. -/
theorem IsHeader.append {a b : String} (ha : IsHeader a) (hb : IsHeader b) :
    IsHeader (a ++ "," ++ b) := by
  have hlist : (a ++ "," ++ b).toList = a.toList ++ ',' :: b.toList := by simp
  have hne {x : String} (hx : x ≠ "") : x.toList ≠ [] := by simpa using hx
  refine ⟨by simp, ?_⟩
  rw [hlist, Text.trim_eq_self_iff, List.head?_append_of_ne_nil _ (hne ha.1),
    List.getLast?_append_of_ne_nil _ (List.cons_ne_nil _ _), List.getLast?_cons_of_ne_nil (hne hb.1)]
  exact ⟨(Text.trim_eq_self_iff.1 ha.2).1, (Text.trim_eq_self_iff.1 hb.2).2⟩

namespace EachHeader

theorem removeAll (h : s.EachHeader P) (ids : List NodeId) : (s.removeAll ids).EachHeader P :=
  h.congr (selector?_removeAll s ids)

theorem modifyDeclaration (h : s.EachHeader P) (f : Declaration → Declaration) :
    (s.modifyDeclaration id f).EachHeader P :=
  h.congr fun i => selector?_modifyDeclaration s id i f

theorem lowerNames (h : s.EachHeader P) : s.lowerNames.EachHeader P :=
  (s.declarations root).foldlRecOn _ h fun _ ht _ _ => ht.modifyDeclaration _

theorem pruneGroups (h : s.EachHeader P) : s.pruneGroups.EachHeader P := by
  refine (s.groups root).reverse.foldlRecOn _ h fun t ht id _ => ?_
  unfold pruneGroup
  split
  · exact ht.remove id
  · exact ht

theorem optimizeDeclaration (h : s.EachHeader P) (ht : s.optimizeDeclaration read id = .ok t) :
    t.EachHeader P := by
  rcases optimizeDeclaration_eq_ok ht with ⟨-, rfl⟩ | ⟨d, value, -, -, hcases⟩
  · exact h
  · rcases hcases with ⟨-, rfl⟩ | ⟨name, joined, merged, value', hmerge, -, rfl⟩
    · exact (h.modifyDeclaration _).modifyDeclaration _
    · obtain ⟨shorthand, members, -, -, -, rfl⟩ := mergeShorthand?_eq_some hmerge
      exact (((h.modifyDeclaration _).removeAll _).modifyDeclaration _).modifyDeclaration _

theorem optimizeDeclarations (h : s.EachHeader P) (ht : s.optimizeDeclarations read = .ok t) :
    t.EachHeader P := by
  refine foldlM_induction (motive := fun _ t => t.EachHeader P) h (fun id _ u v hu hvisit => ?_) ht
  unfold optimizeAttached at hvisit
  split at hvisit
  · exact hu.optimizeDeclaration hvisit
  · cases hvisit
    exact hu

/-- Groups that become one get a header that is joined of theirs. No other header changes. -/
theorem mergeGroups (h : s.EachHeader P) (hs : s.IsDocument)
    (hjoin : ∀ a b, P a → P b → P (a ++ "," ++ b)) : s.mergeGroups.EachHeader P := by
  refine hs.mergeGroups_induction h fun t id other _ ht => ?_
  unfold absorb
  split
  · next selector more hselector hmore =>
    exact (ht.setSelector id (hjoin _ _ (ht id _ hselector) (ht other _ hmore))).remove other
  · exact ht

/-- What is true of all headers of a document, and of two of them joined by a comma, stays true of
all headers when the passes shorten the document. -/
theorem shorten (h : s.EachHeader P) (hs : s.IsDocument)
    (hjoin : ∀ a b, P a → P b → P (a ++ "," ++ b)) (ht : s.shorten read options = .ok t) :
    t.EachHeader P := by
  refine (hs.shorten_induction ht h ?_ ?_ ?_ ?_ ?_).2
  · exact fun v ids hv => hv.removeAll ids
  · exact fun v hv => hv.lowerNames
  · exact fun v w hv hw => hv.optimizeDeclarations hw
  · exact fun v hv => hv.pruneGroups
  · exact fun v hdocument hv => hv.mergeGroups hdocument hjoin

end EachHeader

end Sheetsmith.Sheet
