import Sheetsmith.Proofs.Optimize.Tidy
import Sheetsmith.Proofs.Sheet.Twins

namespace Sheetsmith

/-- What a declaration's value comes to when no shorthand is completed. -/
def Declaration.optimized (read : Color.Reader) (d : Declaration) : Except Color.Fault String :=
  (Value.optimizeWords read d.name d.value).map (Value.optimizeUnits d.name)

/-- A declaration that has no more to be shortened and is no hack, as far as this is asked for. -/
structure Declaration.Rests (read : Color.Reader) (options : OptimizeOptions) (d : Declaration) :
    Prop where
  value : options.optimize = true → d.optimized read = .ok d.value
  hack : options.removeHacks = true → Sheet.isHack d = false

instance (read : Color.Reader) (options : OptimizeOptions) (d : Declaration) :
    Decidable (d.Rests read options) :=
  decidable_of_iff ((options.optimize = true → d.optimized read = .ok d.value) ∧
      (options.removeHacks = true → Sheet.isHack d = false))
    ⟨fun h => ⟨h.1, h.2⟩, fun h => ⟨h.value, h.hack⟩⟩

namespace Sheet

variable {s t : Sheet} {id id' : NodeId} {read : Color.Reader} {options : OptimizeOptions}

/-- The declarations rest, and no two groups beside each other have equal bodies, if they would be
joined. -/
structure Rests (read : Color.Reader) (options : OptimizeOptions) (s : Sheet) : Prop where
  declaration : ∀ id ∈ s.declarations root, ∀ d ∈ s.declaration? id, d.Rests read options
  body : options.mergeGroups = true → ∀ group ∈ root :: s.groups root,
    (((s.children group).filter s.isMergeable).map s.bodyText).Nodup

instance (read : Color.Reader) (options : OptimizeOptions) (s : Sheet) :
    Decidable (s.Rests read options) :=
  decidable_of_iff ((∀ id ∈ s.declarations root, ∀ d ∈ s.declaration? id, d.Rests read options) ∧
      (options.mergeGroups = true → ∀ group ∈ root :: s.groups root,
        (((s.children group).filter s.isMergeable).map s.bodyText).Nodup))
    ⟨fun h => ⟨h.1, h.2⟩, fun h => ⟨h.declaration, h.body⟩⟩

/-- Where there is no comment in the tree, none is taken out. -/
theorem removeComments_eq_self (hs : s.IsForest) (h : s.Everywhere Node.NoComment) :
    s.removeComments = s := by
  have hnil : s.leaves root .comment = [] := by
    refine List.filter_eq_nil_iff.2 fun id hid hcomment => ?_
    cases hnode : s.node? id with
    | none => simp [hnode] at hcomment
    | some node =>
      cases node with
      | leaf leaf =>
        rw [hnode] at hcomment
        exact h id (hs.mem_descendants_iff.1 hid) _ hnode leaf rfl (by simpa using hcomment)
      | declaration d => simp [hnode] at hcomment
      | group g => simp [hnode] at hcomment
  rw [removeComments, hnil]
  rfl

/-- Where no name has capitals, none is lowered. The numbers of detached declarations are not
visited. -/
theorem lowerNames_eq_self (hs : s.IsForest) (h : s.Everywhere Node.Lowered) : s.lowerNames = s := by
  refine (s.declarations root).foldlRecOn (motive := (· = s)) _ rfl fun t ht id hid => ?_
  subst ht
  obtain ⟨hbelow, hd⟩ := (Vendor.mem_declarations_iff hs).1 hid
  obtain ⟨d, hd⟩ := Option.isSome_iff_exists.1 hd
  refine modifyDeclaration_eq_self hd ?_
  rw [h id hbelow _ (declaration?_eq_some_iff.1 hd) d rfl]

/-- Where no declaration is a hack, none is taken out. -/
theorem removeHacks_eq_self (h : ∀ id ∈ s.declarations root, ∀ d ∈ s.declaration? id, isHack d = false) :
    s.removeHacks = s := by
  have hnil : ((s.declarations root).filter fun id => (s.declaration? id).any isHack) = [] := by
    refine List.filter_eq_nil_iff.2 fun id hid hhack => ?_
    obtain ⟨d, hd, hhack⟩ := (Option.any_eq_true _ _).1 hhack
    rw [h id hid d hd] at hhack
    cases hhack
  rw [removeHacks, hnil]
  rfl

theorem modifyDeclaration_modifyDeclaration (s : Sheet) (id : NodeId)
    (f g : Declaration → Declaration) :
    (s.modifyDeclaration id f).modifyDeclaration id g = s.modifyDeclaration id (g ∘ f) := by
  have hself : (s.slots.modify id fun slot => { slot with
        node := Node.mapDeclaration f slot.node }).modify id
        (fun slot => { slot with node := Node.mapDeclaration g slot.node }) =
      s.slots.modify id fun slot => { slot with node := Node.mapDeclaration (g ∘ f) slot.node } := by
    apply Array.ext_getElem?
    intro i
    rw [Array.getElem?_modify, Array.getElem?_modify, Array.getElem?_modify]
    split
    · cases s.slots[i]? with
      | none => rfl
      | some slot =>
        cases hnode : slot.node <;> simp [hnode, Node.mapDeclaration]
    · rfl
  exact congrArg Sheet.mk hself

/-- Where no group declares all members of a shorthand, nothing is merged, whatever the values are.
-/
theorem Incomplete.mergeShorthand?_eq_none (h : s.Incomplete) (hid : s.Below id root)
    {f : Declaration → Declaration} (hf : ∀ d, (f d).name = d.name) :
    (s.modifyDeclaration id f).mergeShorthand? id = none := by
  refine Option.eq_none_iff_forall_ne_some.2 fun ⟨name, joined, t⟩ hmerge => ?_
  obtain ⟨shorthand, members, hcompletes, -⟩ := mergeShorthand?_eq_some hmerge
  obtain ⟨group, hparent, hgroup⟩ := Relation.TransGen.head'_iff.1 hid
  have hintree : s.InTree group :=
    (Relation.reflTransGen_iff_eq_or_transGen.1 hgroup).imp_left Eq.symm
  refine h group hintree shorthand hcompletes.mem_all (isComplete_iff.2 fun member hmember => ?_)
  obtain ⟨i, -, hfirst⟩ := hcompletes.exists_member hmember
  rw [firstNamed?_modifyDeclaration hf, firstNamed?_eq hparent] at hfirst
  obtain ⟨p, hp, -⟩ := Option.map_eq_some_iff.1 hfirst
  exact ⟨p, List.mem_of_find?_eq_some hp, by simpa using List.find?_some hp⟩

/-- A visit changes nothing where nothing is merged and the value cannot be shortened again. The
declaration may be anywhere in the tree. -/
theorem Incomplete.optimizeDeclaration_eq_self (h : s.Incomplete) (hid : s.Below id root)
    {d : Declaration} (hd : s.declaration? id = some d) (hvalue : d.optimized read = .ok d.value) :
    s.optimizeDeclaration read id = .ok s := by
  unfold Declaration.optimized at hvalue
  cases hwords : Value.optimizeWords read d.name d.value with
  | error e =>
    rw [hwords] at hvalue
    cases hvalue
  | ok value =>
    rw [hwords] at hvalue
    have hunits : Value.optimizeUnits d.name value = d.value := Except.ok.inj hvalue
    have hmerge : (s.modifyDeclaration id fun d => { d with value }).mergeShorthand? id = none :=
      h.mergeShorthand?_eq_none hid fun _ => rfl
    have hself : (s.modifyDeclaration id fun d => { d with value }).modifyDeclaration id
        (fun d => { d with value := Value.optimizeUnits d.name d.value }) = s := by
      rw [modifyDeclaration_modifyDeclaration]
      exact modifyDeclaration_eq_self hd (congrArg (Declaration.mk d.name) hunits)
    unfold optimizeDeclaration
    rw [hd]
    dsimp only
    rw [hwords]
    simp only [bind, Except.bind]
    rw [hmerge]
    exact congrArg Except.ok hself

/-- The pass changes nothing, and does not fail, where no value can be shortened again. The reader
of colours is asked about the values that are there and no others. -/
theorem Incomplete.optimizeDeclarations_eq_self (h : s.Incomplete) (hs : s.IsForest)
    (hvalue : ∀ id ∈ s.declarations root, ∀ d ∈ s.declaration? id, d.optimized read = .ok d.value) :
    s.optimizeDeclarations read = .ok s := by
  have hvisit : ∀ id ∈ s.declarations root, s.optimizeAttached read id = .ok s := by
    intro id hid
    obtain ⟨hbelow, hd⟩ := (Vendor.mem_declarations_iff hs).1 hid
    obtain ⟨d, hd⟩ := Option.isSome_iff_exists.1 hd
    unfold optimizeAttached
    split
    · exact h.optimizeDeclaration_eq_self hbelow hd (hvalue id hid d hd)
    · rfl
  unfold optimizeDeclarations
  generalize s.declarations root = ids at hvisit
  induction ids with
  | nil => rfl
  | cons id ids ih =>
    rw [List.foldlM_cons, hvisit id (by simp)]
    exact ih fun i hi => hvisit i (by simp [hi])

theorem Filled.pruneGroups_eq_self (h : s.Filled) (hs : s.IsForest) : s.pruneGroups = s := by
  refine (s.groups root).reverse.foldlRecOn (motive := (· = s)) _ rfl fun t ht id hid => ?_
  subst ht
  have hid := List.mem_reverse.1 hid
  have hgroup : (t.group? id).isSome := by
    rw [← kind?_eq_group]
    exact (List.mem_filter.1 hid).2
  have hne := h id (hs.below_of_mem_groups hid) hgroup
  rw [pruneGroup, if_neg (mt List.isEmpty_iff.1 hne)]

/-- What is a parent in the tree is one of the groups of the tree. -/
theorem IsForest.mem_groups_of_parent? (hs : s.IsForest) {parent : NodeId}
    (hparent : s.parent? id = some parent) (hup : s.Below parent root) : parent ∈ s.groups root := by
  obtain ⟨g, hg⟩ := hs.exists_group_of_parent? hparent
  refine List.mem_filter.2 ⟨hs.mem_descendants_iff.2 hup, ?_⟩
  rw [kind?, group?_eq_some_iff.1 hg]
  rfl

/-- Where the bodies of the groups beside each other differ, no group takes another one in. Only the
bodies of ordinary groups are compared, those of at-rules are not. -/
theorem mergeGroups_eq_self (hs : s.IsDocument)
    (h : ∀ group ∈ root :: s.groups root,
      (((s.children group).filter s.isMergeable).map s.bodyText).Nodup) : s.mergeGroups = s := by
  refine (s.groups root).foldlRecOn (motive := (· = s)) _ rfl fun t ht id hid => ?_
  subst ht
  have hforest := hs.isForest
  unfold absorbFollowing
  split
  · next hmerges =>
    obtain ⟨hattached, hmergeable⟩ := Bool.and_eq_true_iff.1 hmerges
    have hbelow := hforest.below_root_of_isAttached hattached (hs.ne_root_of_mem_groups hid)
    obtain ⟨parent, hparent, hup⟩ := Relation.TransGen.head'_iff.1 hbelow
    have hgroup : parent ∈ root :: t.groups root := by
      rcases Relation.reflTransGen_iff_eq_or_transGen.1 hup with heq | hup
      · exact heq ▸ List.mem_cons_self
      · exact List.mem_cons_of_mem _ (hforest.mem_groups_of_parent? hparent hup)
    have hsublist := t.followingGroups_sublist id
    rw [family, hparent] at hsublist
    refine (t.followingGroups id).foldlRecOn (motive := (· = t)) _ rfl fun u hu other hother => ?_
    subst hu
    rw [absorbEqual, if_neg]
    intro hequal
    obtain ⟨hmergeable', hbody⟩ := Bool.and_eq_true_iff.1 hequal
    have heq : other = id := List.inj_on_of_nodup_map (h parent hgroup)
      (List.mem_filter.2 ⟨hsublist.subset hother, hmergeable'⟩)
      (List.mem_filter.2 ⟨hforest.mem_children_of_parent? hparent, hmergeable⟩) (by simpa using hbody)
    exact hforest.not_mem_followingGroups id (heq ▸ hother)
  · rfl

/-- What is tidy and rests is left as it is by all passes, whichever are asked for. -/
theorem IsDocument.shorten_eq_self (hs : s.IsDocument) (htidy : s.Tidy options)
    (hrests : s.Rests read options) : s.shorten read options = .ok s := by
  have hforest := hs.isForest
  have hpass {asked : Bool} {pass : Sheet → Sheet} (h : asked = true → pass s = s) :
      s.passIf asked pass = s := passIf_induction (motive := (· = s)) rfl h
  unfold Sheet.shorten
  dsimp only
  rw [hpass fun hasked => removeComments_eq_self hforest (htidy.comment hasked),
    hpass fun hasked => lowerNames_eq_self hforest (htidy.name hasked),
    hpass fun hasked => removeHacks_eq_self fun id hid d hd => (hrests.declaration id hid d hd).hack hasked]
  have hprune : s.passIf (options.optimize && options.removeEmpty) Sheet.pruneGroups = s :=
    hpass fun hasked => by
      obtain ⟨hoptimize, hempty⟩ := Bool.and_eq_true_iff.1 hasked
      exact (htidy.content hoptimize hempty).pruneGroups_eq_self hforest
  have hmerge : s.passIf options.mergeGroups Sheet.mergeGroups = s :=
    hpass fun hasked => mergeGroups_eq_self hs (hrests.body hasked)
  split
  · next hasked =>
    rw [(htidy.shorthand hasked).optimizeDeclarations_eq_self hforest
      fun id hid d hd => (hrests.declaration id hid d hd).value hasked]
    simp only [bind, Except.bind, pure, Except.pure, hprune, hmerge]
  · simp only [bind, Except.bind, pure, Except.pure, hprune, hmerge]

end Sheet

end Sheetsmith
