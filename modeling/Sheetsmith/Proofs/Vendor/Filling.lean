import Sheetsmith.Proofs.Optimize.Tidy
import Sheetsmith.Proofs.Sheet.History
import Sheetsmith.Proofs.Vendor.Beside

namespace Sheetsmith.Vendor

open Sheet Edit

/-- A forest in whose tree no group is without content. -/
def IsFilled (s : Sheet) : Prop :=
  s.IsForest ∧ s.Filled

section

variable {s t : Sheet} {id : NodeId}

/-- Old groups keep their content, so only the new ones matter. Only groups below the root are asked
for. -/
theorem IsFilled.of_extends (h : IsFilled s) (hextends : Extends s t)
    (hnew : ∀ group, s.size ≤ group → t.Below group root → (t.group? group).isSome →
      t.children group ≠ []) : IsFilled t := by
  refine ⟨hextends.1, fun group hgroup hsome => ?_⟩
  by_cases hlt : group < s.size
  · have hsome' : (s.group? group).isSome := by
      rcases hextends.2.node?_cases hlt with heq | ⟨g, g', hold, -, -⟩
      · rwa [group?, ← heq]
      · rw [group?_eq_some_iff.2 hold]
        rfl
    obtain ⟨child, hchild⟩ := List.exists_mem_of_ne_nil _
      (h.2 group (hextends.below_of_below h.1 hlt hgroup) hsome')
    have hkept := (hextends.2.mem_children_iff hlt (h.1.lt_size_of_mem_children hchild)).2 hchild
    exact List.ne_nil_of_mem hkept
  · exact hnew group (Nat.le_of_not_lt hlt) hgroup hsome

theorem maintains_isFilled_insertDeclarationAfter (id : NodeId) (name value : String) :
    Maintains IsFilled (insertDeclarationAfter id name value) := by
  intro s hs
  refine hs.of_extends (final_insertDeclarationAfter hs.1 (Nat.le_refl _) id name value) ?_
  intro group hle _ hsome
  have hnone : ((s.create (.declaration ⟨name, value⟩)).2.group? group) = none := by
    rw [group?_create]
    split
    · rfl
    · rw [group?, node?_eq_none_of_size_le hle]
  rw [final, run_insertDeclarationAfter hs.1] at hsome
  cases hparent : s.parent? id with
  | none =>
    rw [hparent, hnone] at hsome
    cases hsome
  | some parent =>
    have hne : group ≠ parent := Nat.ne_of_gt (Nat.lt_of_lt_of_le (hs.1.parent_lt_size hparent) hle)
    rw [hparent, group?_link, if_neg hne, hnone] at hsome
    cases hsome

/-- A form that was added stands beside the declaration that it is a form of. -/
theorem siblings_ne_nil_of_runs_addRenamed {value : String} {names : List String} (hs : s.IsForest)
    (h : Runs (addRenamed id value names) s true t) : t.siblings id ≠ [] := by
  suffices hfold : ∀ added, (added = true → s.siblings id ≠ []) →
      Runs (names.foldlM (fun added name => do
        return (← insertUnlessNamed id name value) || added) added) s true t →
      t.siblings id ≠ [] from hfold false (by simp) h
  clear h
  intro added hadded h
  induction names generalizing s added with
  | nil =>
    obtain ⟨rfl, rfl⟩ := runs_pure_iff.1 h
    exact hadded rfl
  | cons name names ih =>
    rw [List.foldlM_cons] at h
    obtain ⟨b, u, hhead, htail⟩ := runs_bind_iff.1 h
    obtain ⟨inserted, v, hinsert, hreturn⟩ := runs_bind_iff.1 hhead
    obtain ⟨rfl, rfl⟩ := runs_pure_iff.1 hreturn
    have hget : Runs (if (s.siblingDeclarations id).any (·.isNamed name) then pure false
        else insertDeclarationAfter id name value >>= fun _ => pure true) s inserted v := hinsert
    split at hget
    · obtain ⟨rfl, rfl⟩ := runs_pure_iff.1 hget
      exact ih hs added hadded htail
    · obtain ⟨new, w, hnew, hreturn⟩ := runs_bind_iff.1 hget
      obtain ⟨rfl, rfl⟩ := runs_pure_iff.1 hreturn
      have hforest := final_insertDeclarationAfter hs (Nat.le_refl _) id name value
      rw [hnew.final_eq] at hforest
      refine ih hforest.1 true (fun _ => ?_) htail
      exact List.ne_nil_of_mem (runs_insertDeclarationAfter hs hnew).sibling

/-- The group of a node that has siblings keeps them when the node is taken out. -/
theorem IsFilled.remove (h : IsFilled s) (hsiblings : s.siblings id ≠ []) :
    IsFilled (s.remove id) := by
  refine ⟨h.1.remove id, fun group hgroup hsome hnil => ?_⟩
  rw [isSome_group?_remove] at hsome
  rw [h.1.children_remove_eq] at hnil
  have hmem := (eq_or_mem_of_filter_ne_eq_nil hnil).resolve_left (h.2 group hgroup.of_remove hsome)
  rw [siblings, family, h.1.parent?_of_mem_children hmem] at hsiblings
  refine hsiblings (Eq.trans (List.filter_congr fun i _ => ?_) hnil)
  by_cases hi : i = id <;> simp [hi]

/-- A visit leaves no group without content, also where declarations give way to their forms. -/
theorem maintains_isFilled_expandDeclaration (vendors : VendorSet) (replace : Bool) (id : NodeId) :
    Maintains IsFilled (expandDeclaration vendors replace id) :=
  maintains_expandDeclaration (maintains_isFilled_insertDeclarationAfter id) vendors
    fun _ _ _ _ _ hs ht hrun => ht.remove (siblings_ne_nil_of_runs_addRenamed hs.1 hrun)

/-- While a copy stands by itself, nothing of it is in the tree. -/
theorem IsFilled.copySubtree (h : IsFilled s) (id : NodeId) : IsFilled (s.copySubtree id).2 := by
  cases hnode : s.node? id with
  | none =>
    rw [copySubtree_of_node?_eq_none hnode]
    exact h
  | some node =>
    obtain ⟨-, hcopying⟩ := h.1.copySubtree hnode
    refine h.of_extends ⟨hcopying.isForest, hcopying.grows⟩ fun group hle hgroup _ => ?_
    have hhigh {top : NodeId} (hbelow : (s.copySubtree id).2.Below group top) : s.size ≤ top := by
      induction hbelow with
      | single hparent => exact hcopying.parent_new _ _ hle hparent
      | tail _ hparent ih => exact hcopying.parent_new _ _ ih hparent
    exact absurd h.1.root_lt_size (Nat.not_lt.2 (hhigh hgroup))

theorem IsFilled.setSelector (h : IsFilled s) (id : NodeId) (selector : Option String) :
    IsFilled (s.setSelector id selector) := by
  refine ⟨h.1.setSelector id selector, fun group hgroup hsome => ?_⟩
  rw [children_setSelector]
  refine h.2 group ((below_congr fun i => parent?_setSelector s id i selector).1 hgroup) ?_
  rw [group?_setSelector] at hsome
  split at hsome
  · rwa [Option.isSome_map] at hsome
  · exact hsome

/-- A copy that was placed has the content of its original. -/
theorem maintains_isFilled_placeCopy (id : NodeId) (selector : String) :
    Maintains IsFilled (placeCopy id selector) := by
  intro s hs
  have hcopied := (hs.copySubtree id).setSelector (s.copySubtree id).1 (some selector)
  cases hparent : s.parent? id with
  | none =>
    obtain ⟨t, hrun, -⟩ := run_placeCopy_of_detached hs.1 hparent selector
    rw [run_placeCopy] at hrun
    rw [final, run_placeCopy]
    dsimp only at hrun ⊢
    split at hrun
    · cases hrun
    · exact hcopied
  | some parent =>
    obtain ⟨t, hrun, -⟩ := run_placeCopy_of_parent hs.1 hparent selector
    rw [hrun.final_eq]
    obtain ⟨_, hbeside⟩ := placedBeside_of_runs_placeCopy hs.1 hrun
    have hextends : Extends s t := ⟨hbeside.placed.isForest, hbeside.placed.grows⟩
    -- The new groups of the tree are copies of groups that have content.
    refine hs.of_extends hextends fun group hle hgroup hsome => ?_
    obtain ⟨old, hold, hbelow, rfl⟩ := hbeside.exists_copyNumber_eq hs.1 hle hgroup
    rw [hbeside.isSome_group?_copyNumber hold] at hsome
    rw [hbeside.children_copyNumber hold, Ne, List.map_eq_nil_iff]
    exact hs.2 old hbelow hsome

/-- Copying a keyframes block, with the forms inside of the copy, leaves no group without content.
-/
theorem maintains_isFilled_copyKeyframes (id : NodeId) (selector : String) (vendor : Vendor) :
    Maintains IsFilled (copyKeyframes id selector vendor) := by
  rw [copyKeyframes_eq]
  apply maintains_get_bind
  intro s hs
  split
  · exact hs
  · refine (maintains_isFilled_placeCopy id selector).bind (fun copy => ?_) s hs
    exact maintains_visitRounds (fun _ _ _ _ => trivial)
      (fun id (_ : True) => maintains_isFilled_expandDeclaration _ true id) roundLimit 0

/-- A visit to any node leaves no group without content. -/
theorem maintains_isFilled_expandAt (vendors : VendorSet) (id : NodeId) :
    Maintains IsFilled (expandAt vendors id) := by
  apply maintains_get_bind
  intro s hs
  cases s.keyframesAround id with
  | none => exact maintains_isFilled_expandDeclaration vendors false id s hs
  | some around =>
    cases around with
    | vendored => exact hs
    | plain keyframes =>
      dsimp only
      rw [expandKeyframes, final_get_bind]
      cases s.selector? keyframes with
      | none => exact hs
      | some selector =>
        exact maintains_forM (fun vendor _ => maintains_isFilled_copyKeyframes _ _ vendor) s hs

/-- Adding vendor forms never leaves a group of the tree without content, whatever the outcome: a
declaration gives way only when a form of it was put beside it, and copies of groups have copies of
their content. That no group was without content before is assumed. -/
theorem maintains_isFilled_expand (vendors : VendorSet) (group : NodeId) :
    Maintains IsFilled (expand vendors group) :=
  maintains_visitRounds (fun _ _ _ _ => trivial)
    (fun id (_ : True) => maintains_isFilled_expandAt vendors id) roundLimit 0

end

end Sheetsmith.Vendor
