import Sheetsmith.Proofs.Text.Lowering
import Sheetsmith.Proofs.Vendor.Filling
import Sheetsmith.Proofs.Vendor.Names

namespace Sheetsmith

namespace Vendor

open Sheet Edit

/-- A name in lower case that is no member of a shorthand. -/
structure Inert (name : String) : Prop where
  lowered : Text.lowercase name = name
  member : Shorthand.ofMember? name = none

instance (name : String) : Decidable (Inert name) :=
  decidable_of_iff (Text.lowercase name = name ∧ Shorthand.ofMember? name = none)
    ⟨fun h => ⟨h.1, h.2⟩, fun h => ⟨h.lowered, h.member⟩⟩

theorem ofMember?_of_hyphen {name : String} (h : name.toList.head? = some '-') :
    Shorthand.ofMember? name = none := by
  have hmembers : ∀ shorthand ∈ Shorthand.all, ∀ member ∈ shorthand.members,
      member.toList.head? ≠ some '-' := by decide
  refine List.find?_eq_none.2 fun shorthand hshorthand hmem => ?_
  exact hmembers shorthand hshorthand name (List.contains_iff_mem.1 hmem) h

/-- The vendors' names are in lower case and members of no shorthand. -/
theorem inert_of_mem_copyNames {entry : String × VendorRule} {name : String}
    (hentry : entry ∈ VendorRule.table) (hname : name ∈ entry.2.copyNames) : Inert name :=
  ⟨Text.lowercase_of_bytes (VendorRule.lower_table entry hentry name hname),
    ofMember?_of_hyphen (Text.head?_toList_eq_hyphen_iff.2
      ((VendorRule.head_table entry hentry).2 name hname))⟩

/-- What a declaration wants beside it has a name that the vendors bring in, or its own. -/
theorem Wanted.inert_or_eq {d : Declaration} {demand : Demand} (h : Wanted d demand) :
    Inert demand.declaration.name ∨ demand.declaration.name = Text.folded d.name := by
  have hfilters : Inert "-ms-filter" ∧ Inert "filter" ∧ Inert "zoom" := by decide +kernel
  cases h with
  | @renamed forms vendors form hrule hform =>
    have hmem := VendorRule.mem_table_of_ofProperty hrule (by simp)
    obtain ⟨vendor, -, hof⟩ := List.mem_filterMap.1 hform
    exact .inl (inert_of_mem_copyNames hmem
      (List.mem_filterMap.2 ⟨vendor, by cases vendor <;> decide, hof⟩))
  | filterTwin => exact .inl hfilters.1
  | opacity percent hrule hmem =>
    simp only [List.mem_cons, Prod.mk.injEq, List.not_mem_nil, or_false] at hmem
    rcases hmem with ⟨rfl, -⟩ | ⟨rfl, -⟩ | ⟨rfl, -⟩
    · exact .inl hfilters.1
    · exact .inl hfilters.2.1
    · exact .inl hfilters.2.2
  | @wrap vendor e hrule hvalue hmem =>
    have hwrap : ∀ vendor ∈ Vendor.all, ∀ w ∈ wrapDeclarations vendor, Inert w.name := by
      decide +kernel
    exact .inl (hwrap vendor (by cases vendor <;> decide) e hmem)
  | gradient => exact .inr rfl
  | gradientFilter => exact .inl hfilters.2.1

/-- A name that a group declares, as it stands there or in lower case, or that the vendors bring
in. -/
def NamedIn (s : Sheet) (group : NodeId) (name : String) : Prop :=
  Inert name ∨ ∃ e ∈ s.declarationsIn group, name = e.name ∨ name = Text.folded e.name

/-- The tree of `t` comes from the tree of `s`: no leaf is new, and each group declares only names of
one of the groups and names that the vendors bring in. -/
structure Stems (s t : Sheet) : Prop where
  isForest : t.IsForest
  leaf : ∀ id, t.Below id root → ∀ leaf, t.node? id = some (.leaf leaf) →
    ∃ old, s.Below old root ∧ s.node? old = some (.leaf leaf)
  group : ∀ group, t.InTree group →
    ∃ old, s.InTree old ∧ ∀ d ∈ t.declarationsIn group, NamedIn s old d.name

section

variable {vendors : VendorSet} {s t u : Sheet} {id group parent : NodeId}

theorem namedIn_of_mem {d : Declaration} (h : d ∈ s.declarationsIn group) : NamedIn s group d.name :=
  .inr ⟨d, h, .inl rfl⟩

theorem NamedIn.folded {name : String} (h : NamedIn s group name) :
    NamedIn s group (Text.folded name) := by
  rcases h with hinert | ⟨e, he, rfl | rfl⟩
  · rw [Text.folded_of_lowercase hinert.lowered]
    exact .inl hinert
  · exact .inr ⟨e, he, .inr rfl⟩
  · rw [Text.folded_folded]
    exact .inr ⟨e, he, .inr rfl⟩

/-- What is wanted by a declaration of the group has a name of the group, or one that the vendors
bring in. -/
theorem NamedIn.of_wanted {d : Declaration} {demand : Demand} (h : NamedIn s group d.name)
    (hwanted : Wanted d demand) : NamedIn s group demand.declaration.name := by
  rcases hwanted.inert_or_eq with hinert | heq
  · exact .inl hinert
  · exact heq ▸ h.folded

theorem Stems.refl (hs : s.IsForest) : Stems s s :=
  ⟨hs, fun id hid _ hleaf => ⟨id, hid, hleaf⟩,
    fun group hgroup => ⟨group, hgroup, fun _ hd => namedIn_of_mem hd⟩⟩

/-- What comes of what comes of a tree comes of the tree. -/
theorem Stems.trans (h : Stems s t) (h' : Stems t u) : Stems s u := by
  refine ⟨h'.isForest, fun id hid leaf hleaf => ?_, fun group hgroup => ?_⟩
  · obtain ⟨mid, hmid, hleaf'⟩ := h'.leaf id hid leaf hleaf
    exact h.leaf mid hmid leaf hleaf'
  · obtain ⟨mid, hmid, hnames'⟩ := h'.group group hgroup
    obtain ⟨old, hold, hnames⟩ := h.group mid hmid
    refine ⟨old, hold, fun d hd => ?_⟩
    rcases hnames' d hd with hinert | ⟨e, he, hname | hname⟩
    · exact .inl hinert
    · exact hname ▸ hnames e he
    · exact hname ▸ (hnames e he).folded

/-- What is left when a node was taken out comes of what was there. -/
theorem stems_remove (hs : s.IsForest) (id : NodeId) : Stems s (s.remove id) := by
  refine ⟨hs.remove id, fun i hi leaf hleaf => ⟨i, hi.of_remove, ?_⟩, fun group hgroup =>
    ⟨group, hgroup.imp_right fun hbelow => hbelow.of_remove, fun d hd => namedIn_of_mem ?_⟩⟩
  · rcases node?_remove_eq_or s id i with heq | ⟨g, children, hold, heq⟩
    · rwa [heq] at hleaf
    · rw [heq] at hleaf
      cases hleaf
  · obtain ⟨child, hchild, hd⟩ := List.mem_filterMap.1 hd
    rw [hs.children_remove_eq] at hchild
    rw [declaration?_remove] at hd
    exact List.mem_filterMap.2 ⟨child, List.mem_of_mem_filter hchild, hd⟩

/-- Old nodes stay what they are, so only the new ones matter. A new leaf must have the content of
an old one, and the names in a new group must come from one old group. -/
theorem Extends.stems (hs : s.IsForest) (h : Extends s t)
    (hleaf : ∀ id, s.size ≤ id → t.Below id root → ∀ leaf, t.node? id = some (.leaf leaf) →
      ∃ old, s.Below old root ∧ s.node? old = some (.leaf leaf))
    (hnew : ∀ group, s.size ≤ group → t.Below group root →
      ∃ old, s.InTree old ∧ ∀ d ∈ t.declarationsIn group, NamedIn s old d.name)
    (hadded : ∀ group < s.size, ∀ child ∈ t.children group, s.size ≤ child →
      ∀ d, t.declaration? child = some d → NamedIn s group d.name) : Stems s t := by
  refine ⟨h.1, fun id hid leaf hnode => ?_, fun group hgroup => ?_⟩
  · by_cases hlt : id < s.size
    · refine ⟨id, h.below_of_below hs hlt hid, ?_⟩
      rcases h.2.node?_cases hlt with heq | ⟨g, g', -, heq, -⟩
      · rwa [heq] at hnode
      · rw [heq] at hnode
        cases hnode
    · exact hleaf id (Nat.le_of_not_lt hlt) hid leaf hnode
  · by_cases hlt : group < s.size
    · refine ⟨group, hgroup.imp_right fun hbelow => h.below_of_below hs hlt hbelow, fun d hd => ?_⟩
      obtain ⟨child, hchild, hd⟩ := List.mem_filterMap.1 hd
      by_cases hold : child < s.size
      · rw [h.2.declaration? hold] at hd
        exact namedIn_of_mem (List.mem_filterMap.2
          ⟨child, (h.2.mem_children_iff hlt hold).1 hchild, hd⟩)
      · exact hadded group hlt child hchild (Nat.le_of_not_lt hold) d hd
    · rcases hgroup with rfl | hbelow
      · exact absurd hs.root_lt_size hlt
      · exact hnew group (Nat.le_of_not_lt hlt) hbelow

/-- What a visit adds before anything gives way has names that the group declares. -/
theorem stems_expandDeclaration_false (hs : s.IsForest)
    (hrun : Runs (expandDeclaration vendors false id) s () t) : Stems s t := by
  rw [expandDeclaration_eq, runs_get_bind_iff] at hrun
  cases hd : s.declaration? id with
  | none =>
    rw [hd] at hrun
    obtain ⟨-, rfl⟩ := runs_pure_iff.1 hrun
    exact .refl hs
  | some d =>
    rw [hd] at hrun
    have hid : id < s.size := lt_size_of_node? (declaration?_eq_some_iff.1 hd)
    obtain ⟨hextends, -, hnew⟩ := Demand.runs_forM_meet
      (fun demand hdemand => (wanted_of_mem_demands hdemand).clash) hs hid hrun
    -- A new node is a declaration, so it is no leaf and there is nothing in it.
    have hdeclaration {x : NodeId} (hx : s.size ≤ x) {node : Node} (hnode : t.node? x = some node) :
        ∃ d, node = .declaration d := by
      obtain ⟨demand, -, hdeclaration, -⟩ := hnew x hx (lt_size_of_node? hnode)
      rw [declaration?_eq_some_iff, hnode] at hdeclaration
      exact ⟨_, Option.some.inj hdeclaration⟩
    refine hextends.stems hs (fun x hx _ leaf hleaf => ?_) (fun group hle _ => ?_) ?_
    · obtain ⟨d, ⟨⟩⟩ := hdeclaration hx hleaf
    · refine ⟨root, .inl rfl, fun e he => ?_⟩
      obtain ⟨child, hchild, -⟩ := List.mem_filterMap.1 he
      obtain ⟨g, hg⟩ := exists_group_of_mem_children hchild
      obtain ⟨d, ⟨⟩⟩ := hdeclaration hle (group?_eq_some_iff.1 hg)
    · intro group hlt child hchild hle e he
      obtain ⟨demand, hdemand, hdeclaration, hbeside⟩ := hnew child hle
        (lt_size_of_node? (declaration?_eq_some_iff.1 he))
      obtain rfl := Option.some.inj (hdeclaration.symm.trans he)
      have hparent := hextends.1.parent?_of_mem_children hchild
      have hmem := hs.mem_children_of_parent? (hbeside.symm.trans hparent)
      exact (namedIn_of_mem (List.mem_filterMap.2 ⟨id, hmem, hd⟩)).of_wanted
        (wanted_of_mem_demands hdemand)

/-- The same where a declaration gives way to its forms. -/
theorem stems_expandDeclaration (hs : s.IsForest) {replace : Bool}
    (hrun : Runs (expandDeclaration vendors replace id) s () t) : Stems s t := by
  obtain ⟨gone, heq⟩ := exists_run_expandDeclaration vendors replace id s
  rw [Runs] at hrun
  rw [hrun] at heq
  rcases hkept : (expandDeclaration vendors false id).run.run s with ⟨r, u⟩
  rw [hkept] at heq
  obtain ⟨rfl, rfl⟩ := Prod.mk.inj heq
  have hstems := stems_expandDeclaration_false hs hkept
  cases gone with
  | false => exact hstems
  | true => exact hstems.trans (stems_remove hstems.isForest id)

/-- A copy declares what the original declares. -/
theorem PlacedBeside.stems (h : PlacedBeside s t id parent) (hs : s.IsForest) : Stems s t := by
  have hplaced := h.placed
  have hextends : Extends s t := ⟨hplaced.isForest, hplaced.grows⟩
  refine hextends.stems hs (fun x hle hx leaf hleaf => ?_) (fun group hle hgroup => ?_) ?_
  · obtain ⟨old, hold, hbelow, rfl⟩ := h.exists_copyNumber_eq hs hle hx
    obtain ⟨f, -, hnode⟩ := h.node?_eq old hold
    refine ⟨old, hbelow, ?_⟩
    rw [hleaf] at hnode
    obtain ⟨node, hnode', heq⟩ := Option.map_eq_some_iff.1 hnode.symm
    cases node with
    | leaf => exact heq ▸ hnode'
    | declaration | group => cases heq
  · obtain ⟨old, hold, hbelow, rfl⟩ := h.exists_copyNumber_eq hs hle hgroup
    refine ⟨old, .inr hbelow, fun d hd => namedIn_of_mem ?_⟩
    obtain ⟨copy, hcopy, hd⟩ := List.mem_filterMap.1 hd
    rw [h.children_copyNumber hold] at hcopy
    obtain ⟨child, hchild, rfl⟩ := List.mem_map.1 hcopy
    rw [h.declaration?_copyNumber (hs.mem_cons_descendants_of_mem_children hold hchild)] at hd
    exact List.mem_filterMap.2 ⟨child, hchild, hd⟩
  · intro group hlt child hchild hle d hd
    have hparent := hplaced.isForest.parent?_of_mem_children hchild
    obtain rfl : child = s.size := by
      refine Nat.le_antisymm (Nat.le_of_not_lt fun hgt => ?_) hle
      exact absurd hlt (Nat.not_lt.2 (hplaced.parent_new child group hgt hparent))
    obtain rfl := Option.some.inj (hparent.symm.trans hplaced.parent_copy)
    rw [← copyNumber_self s id, h.declaration?_copyNumber List.mem_cons_self] at hd
    exact namedIn_of_mem
      (List.mem_filterMap.2 ⟨id, hs.mem_children_of_parent? h.parent_eq, hd⟩)

/-- What comes of visits comes of rounds of visits. What a visit does is left open. -/
theorem stems_visitRounds {visit : NodeId → Edit Unit}
    (hvisit : ∀ id s t, s.IsForest → Runs (visit id) s () t → Stems s t) {rounds : Nat}
    {first : NodeId} (hs : s.IsForest) (hrun : Runs (visitRounds visit group rounds first) s () t) :
    Stems s t := by
  induction rounds generalizing s first with
  | zero =>
    obtain ⟨-, rfl⟩ := runs_pure_iff.1 hrun
    exact .refl hs
  | succ rounds ih =>
    rw [runs_visitRounds_succ_iff] at hrun
    split at hrun
    · obtain ⟨-, rfl⟩ := runs_pure_iff.1 hrun
      exact .refl hs
    · obtain ⟨⟨⟩, u, hround, hrest⟩ := runs_bind_iff.1 hrun
      have hstems : Stems s u := by
        refine runs_forM_induction (motive := fun _ u => Stems s u) ?_ (.refl hs) hround
        exact fun _ id _ v w _ hv hstep => hv.trans (hvisit id v w hv.isForest hstep)
      exact hstems.trans (ih hstems.isForest hrest)

/-- A copy of a block, with the forms in it, comes of the block. -/
theorem stems_copyKeyframes (hs : s.IsForest) {selector : String} {vendor : Vendor}
    (hrun : Runs (copyKeyframes id selector vendor) s () t) : Stems s t := by
  rw [copyKeyframes_eq, runs_get_bind_iff] at hrun
  split at hrun
  · obtain ⟨-, rfl⟩ := runs_pure_iff.1 hrun
    exact .refl hs
  · obtain ⟨copy, u, hplace, hexpand⟩ := runs_bind_iff.1 hrun
    obtain ⟨parent, hbeside⟩ := placedBeside_of_runs_placeCopy hs hplace
    have hstems := hbeside.stems hs
    exact hstems.trans (stems_visitRounds
      (fun _ _ _ hs hstep => stems_expandDeclaration hs hstep) hstems.isForest hexpand)

theorem stems_expandAt (hs : s.IsForest) (hrun : Runs (expandAt vendors id) s () t) : Stems s t := by
  rw [expandAt, runs_get_bind_iff] at hrun
  cases haround : s.keyframesAround id with
  | none =>
    rw [haround] at hrun
    exact stems_expandDeclaration hs hrun
  | some around =>
    rw [haround] at hrun
    cases around with
    | vendored =>
      obtain ⟨-, rfl⟩ := runs_pure_iff.1 hrun
      exact .refl hs
    | plain keyframes =>
      dsimp only at hrun
      rw [expandKeyframes, runs_get_bind_iff] at hrun
      cases hselector : s.selector? keyframes with
      | none =>
        rw [hselector] at hrun
        obtain ⟨-, rfl⟩ := runs_pure_iff.1 hrun
        exact .refl hs
      | some selector =>
        rw [hselector] at hrun
        refine runs_forM_induction (motive := fun _ u => Stems s u) ?_ (.refl hs) hrun
        exact fun _ _ _ v w _ hv hstep => hv.trans (stems_copyKeyframes hv.isForest hstep)

/-- Adding vendor forms brings in nothing but what is there already and the vendors' names. The
forest and the vendors may be any. -/
theorem stems_expand (hs : s.IsForest) (hrun : Runs (expand vendors group) s () t) : Stems s t :=
  stems_visitRounds (fun _ _ _ hs hstep => stems_expandAt hs hstep) hs hrun

end

end Vendor

end Sheetsmith
