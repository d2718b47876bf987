import Sheetsmith.Proofs.Sheet.Headers
import Sheetsmith.Proofs.Sheet.History
import Sheetsmith.Proofs.Vendor.Maintain
import Sheetsmith.Proofs.Vendor.Settled

namespace Sheetsmith

open Sheet Edit

namespace Sheet.EachHeader

variable {s : Sheet} {P : String → Prop} (h : s.EachHeader P)
include h

/-- A new node may have a header with the property, or none. -/
theorem create {node : Node} (hnode : ∀ g, node = .group g → ∀ selector ∈ g.selector, P selector) :
    (s.create node).2.EachHeader P := by
  intro id selector hid
  obtain ⟨g, hg, hselector⟩ := Option.bind_eq_some_iff.1 hid
  rw [group?_create] at hg
  split at hg
  · split at hg
    · next g' =>
      cases hg
      exact hnode g rfl selector hselector
    · cases hg
  · exact h id selector (Option.bind_eq_some_iff.2 ⟨g, hg, hselector⟩)

theorem link (group child : NodeId) (place : List NodeId → List NodeId) :
    (s.link group child place).EachHeader P :=
  h.congr fun i => selector?_link s i group child place

theorem copyNode (id : NodeId) : (s.copyNode id).2.EachHeader P := by
  rw [Sheet.copyNode]
  split
  · next node hnode =>
    refine h.create fun g hg selector hselector => ?_
    cases node with
    | group old =>
      cases hg
      exact h id selector (selector?_of_node? hnode ▸ hselector)
    | leaf | declaration => cases hg
  · exact h

/-- Copying what is below a node brings no other headers, after any number of steps. -/
theorem copyBelow (steps : Nat) (stack : List (NodeId × NodeId)) :
    (s.copyBelow steps stack).EachHeader P := by
  induction steps generalizing s stack with
  | zero => exact h
  | succ steps ih =>
    cases stack with
    | nil => exact h
    | cons top stack => exact ih ((h.copyNode top.1).link _ _ _) _

/-- A copy of a whole subtree brings no other headers. -/
theorem copySubtree (id : NodeId) : (s.copySubtree id).2.EachHeader P :=
  (h.copyNode id).copyBelow _ _

end Sheet.EachHeader

namespace Vendor

variable {P : String → Prop}

/-- Inserting a node changes no header, also where it fails. -/
theorem maintains_eachHeader_insertAfter (id new : NodeId) :
    Maintains (EachHeader P) (attempt fun s => s.insertAfter id new) := by
  refine maintains_attempt fun s t hs h => ?_
  obtain ⟨parent, -, rfl⟩ := insertAfter_eq_ok h
  exact hs.link _ _ _

/-- The forms of a declaration are declarations, so they have no header. -/
theorem maintains_eachHeader_expandDeclaration (vendors : VendorSet) (replace : Bool) (id : NodeId) :
    Maintains (EachHeader P) (expandDeclaration vendors replace id) := by
  have hinsert (name value : String) :
      Maintains (EachHeader P) (insertDeclarationAfter id name value) := by
    have hcreate : Maintains (EachHeader P) (Edit.create (.declaration ⟨name, value⟩)) :=
      fun s hs => hs.create (by rintro g ⟨⟩)
    exact hcreate.bind fun new => (maintains_eachHeader_insertAfter id new).bind fun _ =>
      maintains_pure new
  exact maintains_expandDeclaration hinsert vendors fun _ _ _ _ _ _ ht _ => ht.remove id

/-- A copy of a block brings the header that it is given, which has the property, and those of the
groups below the block. -/
theorem maintains_eachHeader_copyKeyframes (id : NodeId) {selector : String} (hselector : P selector)
    (vendor : Vendor) : Maintains (EachHeader P) (copyKeyframes id selector vendor) := by
  apply maintains_get_bind
  intro s hs
  split
  · exact hs
  · have hcopy : Maintains (EachHeader P) (modifyGet fun s => s.copySubtree id) :=
      fun s hs => hs.copySubtree id
    refine hcopy.bind (fun copy => ?_) s hs
    have hheader : Maintains (EachHeader P) (change (·.setSelector copy (some selector))) :=
      fun s hs => hs.setSelector copy hselector
    refine hheader.bind fun _ => (maintains_eachHeader_insertAfter id copy).bind fun _ => ?_
    exact maintains_visitRounds (fun _ _ _ _ => trivial)
      (fun id (_ : True) => maintains_eachHeader_expandDeclaration _ true id) roundLimit 0

theorem maintains_eachHeader_expandAt
    (hcopy : ∀ selector vendor, P selector → P (copySelector selector vendor))
    (vendors : VendorSet) (id : NodeId) : Maintains (EachHeader P) (expandAt vendors id) := by
  apply maintains_get_bind
  intro s hs
  split
  · apply maintains_get_bind
    · intro s hs
      split
      · exact hs
      · next selector hselector =>
        have hheader := hs _ selector hselector
        exact maintains_forM (fun vendor _ => maintains_eachHeader_copyKeyframes _
          (hcopy selector vendor hheader) vendor) s hs
    · exact hs
  · exact hs
  · exact maintains_eachHeader_expandDeclaration vendors false id s hs

/-- What is true of all headers, and of the header of each vendor's copy of a keyframes block whose
header it is true of, stays true of all headers when the vendor forms are added, whatever the
outcome. Nothing is assumed about the sheet; detached nodes are counted too. -/
theorem maintains_eachHeader_expand
    (hcopy : ∀ selector vendor, P selector → P (copySelector selector vendor))
    (vendors : VendorSet) (group : NodeId) : Maintains (EachHeader P) (expand vendors group) :=
  maintains_visitRounds (fun _ _ _ _ => trivial)
    (fun id (_ : True) => maintains_eachHeader_expandAt hcopy vendors id) roundLimit 0

/-- The header of a copy begins with a word and ends as the header of the block does. -/
theorem isHeader_copySelector (selector : String) (vendor : Vendor) (h : IsHeader selector) :
    IsHeader (copySelector selector vendor) := by
  have hword : ∀ vendor ∈ Vendor.all, vendor.keyframesWord.toList ≠ [] ∧
      Text.trim vendor.keyframesWord.toList = vendor.keyframesWord.toList := by decide
  obtain ⟨hne, htrim⟩ := hword vendor (by cases vendor <;> decide)
  rw [Text.trim_eq_self_iff] at htrim
  obtain ⟨-, hlast⟩ := Text.trim_eq_self_iff.1 h.2
  refine ⟨?_, ?_⟩
  · rw [copySelector, Ne, String.append_eq_empty_iff, not_and_or]
    exact .inl fun hempty => hne (by rw [hempty]; rfl)
  · rw [copySelector, String.toList_append, String.toList_ofList, Text.trim_eq_self_iff,
      List.head?_append_of_ne_nil _ hne]
    refine ⟨htrim.1, ?_⟩
    generalize hdrop : selector.toList.drop "@keyframes".length = rest
    cases rest with
    | nil => rw [List.append_nil]; exact htrim.2
    | cons c rest =>
      rw [List.getLast?_append_of_ne_nil _ (List.cons_ne_nil c rest), ← hdrop, List.getLast?_drop,
        if_neg]
      · exact hlast
      · intro hle
        rw [List.drop_eq_nil_of_le hle] at hdrop
        cases hdrop

end Vendor

end Sheetsmith
