import Sheetsmith.Proofs.Sheet.Walking
import Sheetsmith.Proofs.Vendor.Progress

namespace Sheetsmith.Vendor

open Sheet Edit

/-- A node and all that is below it are as they were. -/
structure Untouched (s t : Sheet) (top : NodeId) : Prop where
  descendants_eq : t.descendants top = s.descendants top
  slot_eq : ∀ id ∈ top :: s.descendants top, t.slots[id]? = s.slots[id]?

/-- The node is a keyframes block, plain or with a vendor's name, or lies inside of one. -/
def InKeyframes (s : Sheet) (id : NodeId) : Prop :=
  (s.keyframes? id).isSome ∨ (s.keyframesAround id).isSome

/-- A plain keyframes block that lies inside of no other block; its header is the word, in any
case, and the rest. -/
structure IsPlainBlock (s : Sheet) (block : NodeId) (rest : String) : Prop where
  header : ∃ word, s.selector? block = some (word ++ rest) ∧
    Text.sameFold word "@keyframes" = true
  outermost : s.keyframesAround block = none

/-- The new groups of a parent that have a selector. -/
def addedGroups (s t : Sheet) (parent : NodeId) (selector : String) : List NodeId :=
  (t.children parent).filter fun id => s.size ≤ id && t.selector? id == some selector

section

variable {vendors : VendorSet} {s t u : Sheet} {id group parent block : NodeId} {rest : String}

/-- A node has keyframes around it when its parent is in keyframes. -/
theorem inKeyframes_iff_of_parent? (hs : s.IsForest) (h : s.parent? id = some parent) :
    (s.keyframesAround id).isSome ↔ InKeyframes s parent := by
  rw [hs.keyframesAround_eq id, h, InKeyframes]
  dsimp only
  rw [Option.isSome_or, Bool.or_eq_true, or_comm]

theorem lt_size_of_inKeyframes (hs : s.IsForest) (h : InKeyframes s id) : id < s.size := by
  rcases h with h | h
  · obtain ⟨keyframes, h⟩ := Option.isSome_iff_exists.1 h
    obtain ⟨selector, hselector, -⟩ := Option.bind_eq_some_iff.1 h
    obtain ⟨g, hg, -⟩ := Option.bind_eq_some_iff.1 hselector
    exact lt_size_of_node? (group?_eq_some_iff.1 hg)
  · rw [hs.keyframesAround_eq] at h
    cases hparent : s.parent? id with
    | none =>
      rw [hparent] at h
      cases h
    | some parent => exact lt_size_of_parent? hparent

theorem Extends.inKeyframes_iff (hs : s.IsForest) (h : Extends s t) (hid : id < s.size) :
    InKeyframes t id ↔ InKeyframes s id := by
  rw [InKeyframes, InKeyframes, h.2.keyframesAround hs h.1 hid, keyframes?, keyframes?,
    h.2.selector? hid]

/-- No step puts anything into a keyframes block. -/
theorem Step.node?_eq (h : Step vendors id s t) (hs : s.IsForest) (hgroup : group < s.size)
    (hin : InKeyframes s group) : t.node? group = s.node? group := by
  obtain ⟨anchor, parent, haround, hgraft⟩ := h.exists_grafted
  refine hgraft.node?_eq hgroup ?_
  rintro rfl
  have hanchor := (inKeyframes_iff_of_parent? hs hgraft.parent_eq).2 hin
  rw [haround] at hanchor
  cases hanchor

/-- What lies inside of keyframes is untouched when the nodes there keep their content. New nodes
put beside them would show in the children of an old node. -/
theorem untouched_of_node?_eq (hs : s.IsForest) (h : Extends s t)
    (hnode : ∀ id < s.size, InKeyframes s id → t.node? id = s.node? id) (hid : id < s.size)
    (hin : InKeyframes s id) : Untouched s t id := by
  have hbelow : ∀ i ∈ s.descendants id, i < s.size ∧ InKeyframes s i := by
    have hchild (i : NodeId) (hi : InKeyframes s i) :
        ∀ child ∈ s.children i, child < s.size ∧ InKeyframes s child := fun child hchild =>
      ⟨hs.lt_size_of_mem_children hchild,
        .inr ((inKeyframes_iff_of_parent? hs (hs.parent?_of_mem_children hchild)).2 hi)⟩
    exact (hs.spans_descendants id).forall_mem (hchild id hin) fun i hi => hchild i hi.2
  have hchildren (i : NodeId) (hi : i < s.size ∧ InKeyframes s i) :
      t.children i = s.children i := by
    rw [children, children, group?, group?, hnode i hi.1 hi.2]
  constructor
  · refine h.1.eq_descendants_of_spans ?_
    rw [hchildren id ⟨hid, hin⟩]
    exact (hs.spans_descendants id).congr fun i hi => hchildren i (hbelow i hi)
  · intro i hi
    have hi' : i < s.size ∧ InKeyframes s i := by
      rcases List.mem_cons.1 hi with rfl | hi
      · exact ⟨hid, hin⟩
      · exact hbelow i hi
    rw [getElem?_slots, getElem?_slots, hnode i hi'.1 hi'.2, h.2.parent i hi'.1]

/-- A group that a step adds has a selector that no group beside it has. Declarations have no
selector, so for them there is nothing to show. -/
theorem Step.exists_grafted_apart (h : Step vendors id s t) :
    ∃ anchor parent, Grafted s t anchor parent ∧ ∀ selector, t.selector? s.size = some selector →
      ∀ other ∈ s.children parent, s.selector? other ≠ some selector := by
  cases h with
  | declared _ _ _ _ hgraft hnew =>
    refine ⟨_, _, hgraft, fun selector hselector => ?_⟩
    rw [selector?, group?, declaration?_eq_some_iff.1 hnew] at hselector
    cases hselector
  | @copied keyframes parent _ vendor _ hblock _ _ hunmet hgraft hnew =>
    refine ⟨_, _, hgraft, fun selector hselector other hother hsame => hunmet ?_⟩
    rw [hnew] at hselector
    cases hselector
    refine mem_besideSelectors.2 ⟨other, ?_, hsame⟩
    rw [siblings, List.mem_filter, family, hgraft.parent_eq]
    refine ⟨hother, bne_iff_ne.2 ?_⟩
    rintro rfl
    rw [keyframes?_eq_vendored hsame] at hblock
    cases hblock

/-- No child of an old group has the selector of another one that was added. -/
def AddedApart (s t : Sheet) : Prop :=
  ∀ parent < s.size, ∀ new ∈ t.children parent, s.size ≤ new → ∀ selector,
    t.selector? new = some selector →
      ∀ other ∈ t.children parent, t.selector? other = some selector → other = new

/-- What a step keeps: no added group has a double. -/
theorem Step.addedApart (h : Step vendors id t u) (ht : t.IsForest) (hsize : s.size ≤ t.size)
    (happart : AddedApart s t) : AddedApart s u := by
  obtain ⟨anchor, up, hgraft, hfresh⟩ := h.exists_grafted_apart
  have hold {id parent : NodeId} (hid : id ∈ t.children parent) : u.selector? id = t.selector? id :=
    hgraft.growth.2.selector? (ht.lt_size_of_mem_children hid)
  intro parent hparent new hnew hle selector hselector other hother hsame
  have hparent' := Nat.lt_of_lt_of_le hparent hsize
  rcases (hgraft.mem_children_iff hparent').1 hnew with hnew | ⟨rfl, rfl⟩ <;>
    rcases (hgraft.mem_children_iff hparent').1 hother with hother | ⟨hup, rfl⟩
  · rw [hold hnew] at hselector
    rw [hold hother] at hsame
    exact happart parent hparent new hnew hle selector hselector other hother hsame
  · rw [hold hnew] at hselector
    exact absurd hselector (hfresh selector hsame new (hup ▸ hnew))
  · rw [hold hother] at hsame
    exact absurd hsame (hfresh selector hselector other hother)
  · rfl

/-- So there is at most one added group of a selector. The parent must be an old one, as copies
bring their own groups along. -/
theorem AddedApart.length_addedGroups_le (h : AddedApart s t) (ht : t.IsForest)
    (hparent : parent < s.size) (selector : String) :
    (addedGroups s t parent selector).length ≤ 1 := by
  have hmem (id : NodeId) (hid : id ∈ addedGroups s t parent selector) :
      id ∈ t.children parent ∧ s.size ≤ id ∧ t.selector? id = some selector := by
    simpa [addedGroups] using hid
  have hnodup : (addedGroups s t parent selector).Nodup := (ht.nodup_children parent).filter _
  match hgroups : addedGroups s t parent selector with
  | [] | [_] => simp
  | a :: b :: rest =>
    obtain ⟨ha, hle, hselector⟩ := hmem a (by simp [hgroups])
    obtain ⟨hb, -, hsame⟩ := hmem b (by simp [hgroups])
    have heq := h parent hparent a ha hle selector hselector b hb hsame
    simp [hgroups, heq] at hnodup

theorem AddedApart.addedGroups_eq_nil (h : AddedApart s t) (hs : s.IsForest)
    (hextends : Extends s t) (hparent : parent < s.size) {selector : String} {old : NodeId}
    (hold : old ∈ s.children parent) (hselector : s.selector? old = some selector) :
    addedGroups s t parent selector = [] := by
  refine List.filter_eq_nil_iff.2 fun new hnew hadded => ?_
  obtain ⟨hle, hsame⟩ : s.size ≤ new ∧ t.selector? new = some selector := by simpa using hadded
  have hlt := hs.lt_size_of_mem_children hold
  have hold' := (hextends.2.mem_children_iff hparent hlt).2 hold
  rw [← hextends.2.selector? hlt] at hselector
  have heq := h parent hparent new hnew hle selector hsame old hold' hselector
  exact absurd hlt (Nat.not_lt.2 (heq ▸ hle))

theorem IsPlainBlock.keyframes?_eq (h : IsPlainBlock s block rest) :
    s.keyframes? block = some (.plain block) := by
  obtain ⟨word, hselector, hword⟩ := h.header
  rw [Text.sameFold, beq_iff_eq] at hword
  have hfold : Text.fold "@keyframes".toList = "@keyframes".toList := by decide
  rw [hfold] at hword
  rw [keyframes?, hselector]
  generalize "@keyframes".toList = plain at hword ⊢
  simp only [Option.bind_eq_bind, Option.bind_some, String.toList_append, Text.fold,
    List.map_append]
  rw [if_pos]
  rw [List.isPrefixOf_iff_prefix, ← hword]
  exact List.prefix_append _ _

/-- The header of a copy has the vendor's word in the place of the plain one, whose letter case is
lost. -/
theorem copySelector_append {word : String} (h : Text.sameFold word "@keyframes" = true)
    (vendor : Vendor) : copySelector (word ++ rest) vendor = vendor.keyframesWord ++ rest := by
  rw [Text.sameFold, beq_iff_eq] at h
  have hlength : "@keyframes".length = word.toList.length := by
    have hlength := congrArg List.length h
    rw [Text.fold, Text.fold, List.length_map, List.length_map] at hlength
    rw [hlength, String.length_toList]
  rw [copySelector, hlength, String.toList_append, List.drop_left, String.ofList_toList]

/-- Once all declarations are settled, the copies of a block with a declaration in it are there.
Without a declaration the block is not visited. -/
theorem IsPlainBlock.exists_copy (h : IsPlainBlock s block rest) (hs : s.IsForest)
    (hextends : Extends s t) (hsettled : ∀ id ∈ t.declarations root, Settled vendors t id)
    (hroot : s.Below block root) (hparent : s.parent? block = some parent)
    (hsome : s.declarations block ≠ []) {vendor : Vendor}
    (hvendor : vendors.contains vendor = true) :
    ∃ copy ∈ t.children parent, t.selector? copy = some (vendor.keyframesWord ++ rest) := by
  obtain ⟨word, hselector, hword⟩ := h.header
  obtain ⟨id, hid⟩ := List.exists_mem_of_ne_nil _ hsome
  obtain ⟨hbelow, hd⟩ := (mem_declarations_iff hs).1 hid
  have hlt := lt_size_of_mem_declarations hs hid
  have hid' : id ∈ t.declarations root := (mem_declarations_iff hextends.1).2
    ⟨hextends.2.below (hbelow.trans hroot), by rwa [hextends.2.declaration? hlt.1]⟩
  have hsettle := hsettled id hid'
  rw [Settled, hextends.2.keyframesAround hs hextends.1 hlt.1,
    hs.keyframesAround_of_below hbelow h.keyframes?_eq h.outermost] at hsettle
  have hmem := hsettle _ ((hextends.2.selector? hlt.2).trans hselector) vendor
    (List.mem_filter.2 ⟨by cases vendor <;> decide, hvendor⟩)
  rw [copySelector_append hword] at hmem
  obtain ⟨copy, hcopy, hname⟩ := mem_besideSelectors.1 hmem
  rw [siblings, List.mem_filter, family, hextends.2.parent block hlt.2, hparent] at hcopy
  exact ⟨copy, hcopy.1, hname⟩

end

/-- Keyframes are copied for the vendors and otherwise left alone. Whatever is a keyframes block or
lies inside of one stays as it is. Beside each outermost plain block that holds a declaration there
is a block under each vendor's name. No parent gets two groups with one selector, nor one with a
selector that a child of it had before. The document and the vendors may be any; what is in the
copies is not spoken of here. -/
theorem expand_keyframes {s : Sheet} (hs : s.IsDocument) (vendors : VendorSet) :
    ∃ t, (expand vendors root).run.run s = (.ok (), t) ∧
      (∀ top, InKeyframes s top → Untouched s t top) ∧
      (∀ block ∈ s.groups root, ∀ rest parent, IsPlainBlock s block rest →
        s.parent? block = some parent → s.declarations block ≠ [] →
          ∀ vendor, vendors.contains vendor = true →
            ∃ copy ∈ t.children parent, t.selector? copy = some (vendor.keyframesWord ++ rest)) ∧
      ∀ parent < s.size, ∀ selector, (addedGroups s t parent selector).length ≤ 1 ∧
        ∀ old ∈ s.children parent, s.selector? old = some selector →
          addedGroups s t parent selector = [] := by
  have hforest := hs.isForest
  obtain ⟨t, hrun, -⟩ := exists_runsDry_expandAt vendors hs
  -- What all steps keep, from the sheet they started in.
  let Kept (u : Sheet) : Prop := Extends s u ∧
    (∀ id < s.size, InKeyframes s id → u.node? id = s.node? id) ∧ AddedApart s u
  have hstart : Kept s := by
    refine ⟨⟨hforest, .refl _ _⟩, fun _ _ _ => rfl, fun parent _ new hnew hle => ?_⟩
    exact absurd (hforest.lt_size_of_mem_children hnew) (Nat.not_lt.2 hle)
  obtain ⟨hextends, hnode, happart⟩ : Kept t := by
    refine runs_visitRounds_induction (fun id u v _ hu hkept hstep => ?_) hforest (Nat.zero_le _)
      hstart hrun
    obtain ⟨hextends, hnode, happart⟩ := hkept
    refine ⟨hextends.trans hstep.growth, fun id hid hin => ?_,
      hstep.addedApart hu hextends.2.size_le happart⟩
    rw [hstep.node?_eq hu (Nat.lt_of_lt_of_le hid hextends.2.size_le)
      ((hextends.inKeyframes_iff hforest hid).2 hin), hnode id hid hin]
  refine ⟨t, hrun, fun top hin => ?_, ?_, fun parent hparent selector => ⟨?_, ?_⟩⟩
  · exact untouched_of_node?_eq hforest hextends hnode (lt_size_of_inKeyframes hforest hin) hin
  · intro block hblock rest parent hplain hparent hsome vendor hvendor
    have hsettled := settled_of_runs_expand hforest hrun
    have hroot := hforest.mem_descendants_iff.1 (List.mem_filter.1 hblock).1
    exact hplain.exists_copy hforest hextends hsettled hroot hparent hsome hvendor
  · exact happart.length_addedGroups_le hextends.1 hparent selector
  · exact fun old hold => happart.addedGroups_eq_nil hforest hextends hparent hold

/-- Two blocks of one name, with a copy for one vendor between them. -/
def blocksText : String :=
  "@KeyFrames spin\x7bto\x7btransform:none\x7d\x7d@-webkit-keyframes spin\x7b\x7d" ++
  "@keyframes spin\x7bto\x7bzoom:2\x7d\x7d"

theorem expand_keyframes_blocksText :
    let s := parse true blocksText
    let vendors := VendorSet.ofPred fun vendor => vendor = .webkit ∨ vendor = .msie
    ∃ t, (expand vendors root).run.run s = (.ok (), t) ∧
      (InKeyframes s 1 ∧ Untouched s t 1) ∧
      (IsPlainBlock s 1 " spin" ∧ ∃ copy ∈ t.children root,
        t.selector? copy = some (Vendor.msie.keyframesWord ++ " spin")) ∧
      (4 ∈ s.children root ∧ addedGroups s t root "@-webkit-keyframes spin" = []) ∧
      (addedGroups s t root "@-ms-keyframes spin").length ≤ 1 := by
  intro s vendors
  have hs : s.IsDocument := isDocument_parse true blocksText
  have hfacts : InKeyframes s 1 ∧ 1 ∈ s.groups root ∧ s.parent? 1 = some root ∧
      s.declarations 1 ≠ [] ∧ 4 ∈ s.children root ∧
      s.selector? 4 = some "@-webkit-keyframes spin" := by
    unfold InKeyframes
    decide +kernel
  have hblock : IsPlainBlock s 1 " spin" :=
    ⟨⟨"@KeyFrames", by decide +kernel, by decide⟩, by decide +kernel⟩
  obtain ⟨hin, hgroup, hparent, hsome, hchild, hselector⟩ := hfacts
  obtain ⟨t, hrun, huntouched, hcopies, hadded⟩ := expand_keyframes hs vendors
  have hroot : root < s.size := hs.isForest.root_lt_size
  exact ⟨t, hrun, ⟨hin, huntouched 1 hin⟩,
    ⟨hblock, hcopies 1 hgroup " spin" root hblock hparent hsome .msie (by decide)⟩,
    ⟨hchild, (hadded root hroot _).2 4 hchild hselector⟩, (hadded root hroot _).1⟩

end Sheetsmith.Vendor
