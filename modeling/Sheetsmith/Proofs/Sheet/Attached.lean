import Sheetsmith.Proofs.Sheet.Ancestry

namespace Sheetsmith.Sheet

section

variable {s : Sheet} {id : NodeId}

theorem isAttached_root (s : Sheet) : s.isAttached root = true := by
  rw [isAttached, isWithin, beq_self_eq_true, Bool.true_or]

/-- A node other than the root is in the tree when the root is among the nodes above it. Nothing is
assumed about the sheet, whose links may close a loop: the upward walk is cut off after as many
steps as there are slots. -/
theorem isAttached_eq_true_iff_of_ne (hid : id ≠ root) :
    s.isAttached id = true ↔ root ∈ s.ancestors id := by
  rw [isAttached, isWithin, beq_eq_false_iff_ne.2 hid, Bool.false_or, List.contains_iff_mem]

/-- One more step of an upward walk finds no less, from any start and in any sheet. -/
theorem climb_subset_climb_succ (s : Sheet) (steps : Nat) (start : Option NodeId) :
    s.climb steps start ⊆ s.climb (steps + 1) start := by
  induction steps generalizing start with
  | zero => exact List.nil_subset _
  | succ steps ih =>
    cases start with
    | none => exact List.Subset.refl _
    | some id => exact List.cons_subset_cons id (ih _)

/-- A node without a parent is not in the tree, unless it is the root. -/
theorem isAttached_of_parent? (hparent : s.parent? id = none) (hid : id ≠ root) :
    s.isAttached id = false := by
  have hnil : s.ancestors id = [] := by
    rw [ancestors, hparent]
    cases s.size <;> rfl
  rw [← Bool.not_eq_true, isAttached_eq_true_iff_of_ne hid, hnil]
  exact List.not_mem_nil

/-- A node of the tree is the root or has a parent in the tree. This holds of any sheet, not only of
a forest. -/
theorem exists_parent_of_isAttached (h : s.isAttached id = true) (hid : id ≠ root) :
    ∃ parent, s.parent? id = some parent ∧ s.isAttached parent = true := by
  cases hparent : s.parent? id with
  | none =>
    rw [isAttached_of_parent? hparent hid] at h
    cases h
  | some parent =>
    refine ⟨parent, rfl, ?_⟩
    by_cases hroot : parent = root
    · rw [hroot]
      exact s.isAttached_root
    · rw [isAttached_eq_true_iff_of_ne hid, ancestors, hparent] at h
      rw [isAttached_eq_true_iff_of_ne hroot, ancestors]
      cases hsize : s.size with
      | zero =>
        rw [hsize] at h
        cases h
      | succ steps =>
        rw [hsize] at h
        rcases List.mem_cons.1 h with h | h
        · exact absurd h.symm hroot
        · exact s.climb_subset_climb_succ steps _ h

end

/-- In a forest a node is in the tree if and only if its parent is, so whole subtrees are in it or
out of it. -/
theorem IsForest.isAttached_eq_of_mem_children {s : Sheet} (hs : s.IsForest) {parent id : NodeId}
    (h : id ∈ s.children parent) : s.isAttached id = s.isAttached parent := by
  have hparent := hs.parent?_of_mem_children h
  have hne : id ≠ root := by
    rintro rfl
    rw [hs.root_parent] at hparent
    cases hparent
  have hancestors : s.ancestors id = parent :: s.ancestors parent := by
    rw [hs.ancestors_eq id, hparent]
  rw [Bool.eq_iff_iff, isAttached_eq_true_iff_of_ne hne, hancestors, List.mem_cons, isAttached,
    isWithin, Bool.or_eq_true, beq_iff_eq, List.contains_iff_mem]
  exact or_congr_left eq_comm

/-- In a forest the nodes of the tree are the root and those that are listed below it: going up from
a node and going down from the root agree. -/
theorem IsForest.isAttached_iff {s : Sheet} (hs : s.IsForest) {id : NodeId} :
    s.isAttached id = true ↔ id = root ∨ id ∈ s.descendants root := by
  have hspans := hs.spans_descendants root
  constructor
  · obtain ⟨depth, hdepth⟩ := hs.grounded
    intro h
    by_cases hid : id = root
    · exact .inl hid
    · -- The listing goes on from the parent, which is nearer to the root.
      induction hn : depth id using Nat.strongRecOn generalizing id with
      | ind n ih =>
        obtain ⟨parent, hparent, hattached⟩ := exists_parent_of_isAttached h hid
        have hmem := hs.mem_children_of_parent? hparent
        by_cases hroot : parent = root
        · rw [hroot] at hmem
          exact .inr (hspans.subset hmem)
        · have hlt := hn ▸ hdepth id parent hparent
          have hlisted := (ih (depth parent) hlt hattached hroot rfl).resolve_left hroot
          exact .inr (hspans.children_subset hlisted hmem)
  · rintro (rfl | hmem)
    · exact s.isAttached_root
    · refine hspans.forall_mem (P := fun id => s.isAttached id = true) (fun id hid => ?_)
        (fun parent hparent id hid => ?_) id hmem
      · rw [hs.isAttached_eq_of_mem_children hid]
        exact s.isAttached_root
      · rw [hs.isAttached_eq_of_mem_children hid]
        exact hparent

/-- A sheet with less in its tree than another one: what is in the tree of `t` is at the same
place in the tree of `s`. -/
structure Thins (s t : Sheet) : Prop where
  size_eq : t.size = s.size
  parent?_eq : ∀ id, t.isAttached id = true → s.parent? id = t.parent? id

namespace Thins

variable {s t : Sheet} {id : NodeId}

theorem refl (s : Sheet) : s.Thins s :=
  ⟨rfl, fun _ _ => rfl⟩

section

variable (h : s.Thins t) (hroot : t.parent? root = none)
include h hroot

/-- What is in the tree of the smaller sheet has the same nodes above it in both. The root must not
have come under another node, which no pass does. -/
theorem ancestors_eq (hid : t.isAttached id = true) : s.ancestors id = t.ancestors id := by
  have hclimb (steps : Nat) : ∀ id, t.isAttached id = true →
      s.climb steps (t.parent? id) = t.climb steps (t.parent? id) := by
    induction steps with
    | zero => exact fun _ _ => rfl
    | succ steps ih =>
      intro id hid
      by_cases hne : id = root
      · rw [hne, hroot]
        rfl
      · obtain ⟨parent, hparent, hattached⟩ := exists_parent_of_isAttached hid hne
        rw [hparent, climb, climb, h.parent?_eq parent hattached, ih parent hattached]
  rw [ancestors, ancestors, h.parent?_eq id hid, h.size_eq, hclimb s.size id hid]

/-- What is in the tree of the smaller sheet is in the tree of the larger one. -/
theorem isAttached (hid : t.isAttached id = true) : s.isAttached id = true := by
  rw [Sheet.isAttached, isWithin, h.ancestors_eq hroot hid]
  exact hid

end

theorem of_parent?_eq (hsize : t.size = s.size) (hparent : ∀ id, t.parent? id = s.parent? id) :
    s.Thins t :=
  ⟨hsize, fun id _ => (hparent id).symm⟩

end Thins

/-- Taking out a node other than the root thins a sheet, whatever the sheet is: what remains in the
tree has kept its place. -/
theorem thins_remove (s : Sheet) {id : NodeId} (hid : id ≠ root) : s.Thins (s.remove id) := by
  refine ⟨size_remove s id, fun i hi => ?_⟩
  rw [parent?_remove, if_neg]
  rintro rfl
  have htop : (s.remove i).parent? i = none := by rw [parent?_remove, if_pos rfl]
  rw [isAttached_of_parent? htop hid] at hi
  cases hi

end Sheetsmith.Sheet
