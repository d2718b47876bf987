import Sheetsmith.Proofs.Optimize.Headers
import Sheetsmith.Proofs.Optimize.Pruning
import Sheetsmith.Proofs.Optimize.Resting
import Sheetsmith.Proofs.Sheet.NormalForm
import Sheetsmith.Proofs.Vendor.Headers
import Sheetsmith.Proofs.Vendor.Origins
import Sheetsmith.Proofs.Vendor.Rereading

namespace Sheetsmith

namespace Sheet

variable {s t : Sheet} {id id' : NodeId} {read : Color.Reader} {options : OptimizeOptions}

/-- Whether a group may join others is told by its first selector part. An empty header would have
none, so it is shut out. -/
theorem isMergeable_eq (h : s.selector? id ≠ some "") : s.isMergeable id =
    (s.selectors id).head?.any fun part => part.toList.head? != some '@' := by
  unfold isMergeable selectors
  cases hselector : s.selector? id with
  | none => rfl
  | some selector =>
    have hne : selector.isEmpty = false := by
      rw [Bool.eq_false_iff, Ne, String.isEmpty_iff]
      rintro rfl
      exact h hselector
    have hhead := @Text.head?_trimStart_iff ',' '@' (by decide) (by decide) selector.toList
    obtain ⟨first, rest, hsplit, -⟩ :=
      Text.splitAtEach_append_left (List.not_mem_nil (a := ',')) selector.toList
    rw [hsplit] at hhead
    replace hhead : (Text.trimStart selector.toList).head? = some '@' ↔
        (Text.trimStart first).head? = some '@' := by simpa using hhead
    simp only [selectorParts, hne, Bool.false_eq_true, if_false, hsplit, List.map_cons,
      List.head?_cons, Option.any_some, String.toList_ofList, Text.head?_trim]
    rw [Bool.eq_iff_iff, bne_iff_ne, bne_iff_ne, ne_eq, ne_eq, hhead]

namespace SameTree

variable (h : s.SameTree t) (hs : s.IsForest) (ht : t.IsForest)
include h hs ht

/-- What holds of every node of a tree, and of every group, holds of an equal tree. -/
theorem everywhere {P : Node → Prop} (hgroup : ∀ g, P (.group g)) (hP : s.Everywhere P) :
    t.Everywhere P := by
  intro id' hid' node hnode
  obtain ⟨id, hid, htwins⟩ := h.exists_twin hs ht hid'
  cases h.resembles htwins with
  | leaf leaf hleaf hleaf' =>
    rw [hleaf'] at hnode
    exact hP id hid node (hleaf.trans hnode)
  | declaration d hd hd' =>
    rw [hd'] at hnode
    exact hP id hid node (hd.trans hnode)
  | group g g' _ _ hg' =>
    rw [hg'] at hnode
    cases hnode
    exact hgroup g'

/-- In equal trees each group of one has a twin in the other, the root included. -/
theorem exists_inTree {group' : NodeId} (hgroup' : t.InTree group') :
    ∃ group, s.InTree group ∧ s.Twins t group group' := by
  rcases hgroup' with rfl | hgroup'
  · exact ⟨root, .inl rfl, .root⟩
  · obtain ⟨group, hgroup, htwins⟩ := h.exists_twin hs ht hgroup'
    exact ⟨group, .inr hgroup, htwins⟩

/-- A tree that is read back is as tidy as before. -/
theorem tidy (htidy : s.Tidy options) : t.Tidy options := by
  refine ⟨fun hasked => ?_, fun hasked => ?_,
    fun hasked group' hgroup' shorthand hshorthand hall => ?_,
    fun hasked hempty id' hid' hgroup' hnil => ?_⟩
  · exact h.everywhere hs ht (fun g leaf heq => by cases heq) (htidy.comment hasked)
  · exact h.everywhere hs ht (fun g d heq => by cases heq) (htidy.name hasked)
  · obtain ⟨group, hgroup, htwins⟩ := h.exists_inTree hs ht hgroup'
    unfold IsComplete at hall
    rw [h.declarationsIn_eq htwins] at hall
    exact htidy.shorthand hasked group hgroup shorthand hshorthand hall
  · obtain ⟨id, hid, htwins⟩ := h.exists_twin hs ht hid'
    refine htidy.content hasked hempty id hid ?_ (List.eq_nil_of_length_eq_zero ?_)
    · cases h.resembles htwins with
      | leaf _ _ hnode' => simp [group?, hnode'] at hgroup'
      | declaration _ _ hnode' => simp [group?, hnode'] at hgroup'
      | group g _ _ hnode => rw [group?_eq_some_iff.2 hnode]; rfl
    · rw [h.length_children htwins, hnil]
      rfl

/-- Twins have the same body, since it is written from what both look like. -/
theorem bodyText_eq (htwins : s.Twins t id id') : t.bodyText id' = s.bodyText id := by
  have hchildren := h.forall₂_children htwins
  unfold bodyText
  congr 1
  generalize s.children id = ids, t.children id' = ids' at hchildren
  induction hchildren with
  | nil => rfl
  | cons hhead _ ih =>
    obtain ⟨o, hshows, hshows'⟩ := h.exists_shows hhead
    rw [List.map_cons, List.map_cons, hs.renderNode_spread hshows, ht.renderNode_spread hshows', ih]

/-- A tree that is read back rests as before. Headers are compared by their parts, so none may be
empty. -/
theorem rests (hheaded : s.Headed) (hheaded' : t.Headed)
    (hrests : s.Rests read options) : t.Rests read options := by
  refine ⟨fun id' hid' d hd => ?_, fun hasked group' hgroup' => ?_⟩
  · obtain ⟨hbelow', hd'⟩ := (Vendor.mem_declarations_iff ht).1 hid'
    obtain ⟨id, hbelow, htwins⟩ := h.exists_twin hs ht hbelow'
    rw [h.declaration?_eq htwins] at hd hd'
    exact hrests.declaration id ((Vendor.mem_declarations_iff hs).2 ⟨hbelow, hd'⟩) d hd
  · obtain ⟨group, hgroup, htwins⟩ : ∃ group ∈ root :: s.groups root, s.Twins t group group' := by
      rcases List.mem_cons.1 hgroup' with rfl | hgroup'
      · exact ⟨root, List.mem_cons_self, .root⟩
      · obtain ⟨hmem, hkind⟩ := List.mem_filter.1 hgroup'
        obtain ⟨group, hgroup, htwins⟩ := h.exists_twin hs ht (ht.mem_descendants_iff.1 hmem)
        rw [h.kind?_eq htwins] at hkind
        exact ⟨group, List.mem_cons_of_mem _
          (List.mem_filter.2 ⟨hs.mem_descendants_iff.2 hgroup, hkind⟩), htwins⟩
    have hbodies : ((t.children group').filter t.isMergeable).map t.bodyText =
        ((s.children group).filter s.isMergeable).map s.bodyText := by
      have hchildren := h.forall₂_children htwins
      generalize s.children group = ids, t.children group' = ids' at hchildren
      induction hchildren with
      | nil => rfl
      | @cons i i' _ _ hhead _ ih =>
        have hmergeable : t.isMergeable i' = s.isMergeable i := by
          rw [isMergeable_eq (hheaded' i'), isMergeable_eq (hheaded i), h.selectors_eq hhead]
        rw [List.filter_cons, List.filter_cons, hmergeable]
        split
        · rw [List.map_cons, List.map_cons, h.bodyText_eq hs ht hhead, ih]
        · exact ih
    rw [hbodies]
    exact hrests.body hasked group hgroup

end SameTree

/-- Vendor forms leave a sheet tidy, if no group is left without content. Nothing is assumed about
the vendors, nor about which forms were added. -/
theorem Tidy.of_stems (htidy : s.Tidy options) (hs : s.IsForest) (hstems : Vendor.Stems s t)
    (hcontent : options.optimize = true → options.removeEmpty = true → t.Filled) :
    t.Tidy options := by
  -- The names of the old tree are in lower case, so they are the same in lower case.
  have hnamed (hasked : options.optimize = true) (group : NodeId) (hgroup : t.InTree group) :
      ∃ old, s.InTree old ∧ ∀ d ∈ t.declarationsIn group, Vendor.Inert d.name ∨
        Text.lowercase d.name = d.name ∧ d.name ∈ (s.declarationsIn old).map (·.name) := by
    obtain ⟨old, hold, hnames⟩ := hstems.group group hgroup
    refine ⟨old, hold, fun d hd => (hnames d hd).imp_right ?_⟩
    rintro ⟨e, he, hname⟩
    obtain ⟨child, hchild, hdeclaration⟩ := List.mem_filterMap.1 he
    have hlowered := htidy.name hasked child
      (hold.below_of_parent? (hs.parent?_of_mem_children hchild)) _
      (declaration?_eq_some_iff.1 hdeclaration) e rfl
    rw [Text.folded_of_lowercase hlowered, or_self] at hname
    rw [hname]
    exact ⟨hlowered, List.mem_map_of_mem he⟩
  refine ⟨fun hasked id hid node hnode leaf hleaf => ?_, fun hasked id hid node hnode d hd => ?_,
    fun hasked group hgroup shorthand hshorthand hall => ?_, hcontent⟩
  · obtain ⟨old, hold, hleaf'⟩ := hstems.leaf id hid leaf (hleaf ▸ hnode)
    exact htidy.comment hasked old hold _ hleaf' leaf rfl
  · obtain ⟨group, hparent, hrest⟩ := Relation.TransGen.head'_iff.1 hid
    have hgroup : t.InTree group :=
      (Relation.reflTransGen_iff_eq_or_transGen.1 hrest).imp_left Eq.symm
    obtain ⟨old, -, hnames⟩ := hnamed hasked group hgroup
    have hmem : d ∈ t.declarationsIn group := List.mem_filterMap.2
      ⟨id, hstems.isForest.mem_children_of_parent? hparent, declaration?_eq_some_iff.2 (hd ▸ hnode)⟩
    rcases hnames d hmem with hinert | ⟨hlowered, -⟩
    · exact hinert.lowered
    · exact hlowered
  · obtain ⟨old, hold, hnames⟩ := hnamed hasked group hgroup
    refine htidy.shorthand hasked old hold shorthand hshorthand fun member hmember => ?_
    obtain ⟨d, hd, rfl⟩ := List.mem_map.1 (hall member hmember)
    rcases hnames d hd with hinert | ⟨-, hmem⟩
    · have hof := Shorthand.ofMember?_of_mem hshorthand hmember
      rw [hinert.member] at hof
      cases hof
    · exact hmem

/-- Optimizing what was optimized changes nothing, where the result is readable and rests: no value
in it can be shortened again, no value has become a hack, and no two groups have become equal.
Nothing is assumed about the text and the options. A result in which a group has no header is not
readable: of such a group only the content is written, so another tree is read back, in which
members of a shorthand may meet for the first time. -/
theorem optimizeText_optimizeText {text : String}
    (h : (parse true text).optimize read options = .ok (.ok (), t)) (hreadable : t.IsReadable)
    (hrests : t.Rests read options) :
    optimizeText read options text = .ok (t.render options.layout) ∧
      optimizeText read options (t.render options.layout) = .ok (t.render options.layout) := by
  have hdocument := isDocument_parse true text
  obtain ⟨u, hshorten, hu, -, hexpand⟩ := hdocument.exists_of_optimize_eq_ok h
  have hextends := Vendor.extends_expand (.ofText options.vendors) root hu.isForest
  rw [hexpand.final_eq] at hextends
  have ht := hextends.isDocument hu
  have htidy : t.Tidy options :=
    (hdocument.tidy_shorten hshorten).of_stems hu.isForest (Vendor.stems_expand hu.isForest hexpand)
      fun hoptimize hempty => (hdocument.filled_optimize hoptimize hempty h).2.2
  have hsettled := Vendor.settled_of_runs_expand hu.isForest hexpand
  -- The headers come from the text or are joined of such, or a vendor's word was put in front.
  have hheaders : t.EachHeader IsHeader := by
    have hshortened := (eachHeader_parse text).shorten hdocument (fun _ _ => .append) hshorten
    have hexpanded := Vendor.maintains_eachHeader_expand Vendor.isHeader_copySelector
      (.ofText options.vendors) root u hshortened
    rwa [hexpand.final_eq] at hexpanded
  -- What is read back is the same tree, so no pass has anything to do there.
  have hrereads := ht.rereads hreadable hheaders options.layout
  have hagain := hrereads.isDocument'
  have htidy' := hrereads.sameTree.tidy ht.isForest hagain.isForest htidy
  have hrests' := hrereads.sameTree.rests ht.isForest hagain.isForest hheaders.headed
    hrereads.headed hrests
  have hsecond : (parse true (t.render options.layout)).optimize read options =
      .ok (.ok (), parse true (t.render options.layout)) := by
    rw [optimize, hagain.shorten_eq_self htidy' hrests']
    exact congrArg Except.ok (Vendor.runs_visitRounds_of_settled
      (Vendor.Rereads.settled hrereads hsettled) Vendor.roundLimit 0)
  refine ⟨by rw [optimizeText, h], ?_⟩
  rw [optimizeText, hsecond]
  exact congrArg Except.ok
    (hrereads.sameTree.render_eq ht.isForest hagain.isForest ht.selectors_root
      hagain.selectors_root options.layout).symm

/-- A sheet with a comment, a stray semicolon and a stray brace, a capital, a length of nothing, an
empty group, two groups with equal bodies, a keyframes block and declarations with vendor forms. -/
def clutteredText : String :=
  "/**/i;\x7da\x7bB:0px;filter:none\x7dc\x7b\x7dd\x7be:f\x7dg\x7be:f\x7d" ++
    "@keyframes h\x7bto\x7btransform:none\x7d\x7d"

/-- What the passes make of `clutteredText`. The nodes that were taken out keep their numbers. -/
def clearedSheet : Sheet :=
  ⟨#[⟨.group ⟨none, [2, 6, 10, 14]⟩, none⟩, ⟨.leaf ⟨.comment, "/**/"⟩, none⟩,
    ⟨.group ⟨some "i;\x7da", [3, 4, 13]⟩, some 0⟩, ⟨.declaration ⟨"b", "0"⟩, some 2⟩,
    ⟨.declaration ⟨"filter", "none"⟩, some 2⟩, ⟨.group ⟨some "c", []⟩, none⟩,
    ⟨.group ⟨some "d,g", [7]⟩, some 0⟩, ⟨.declaration ⟨"e", "f"⟩, some 6⟩,
    ⟨.group ⟨some "g", [9]⟩, none⟩, ⟨.declaration ⟨"e", "f"⟩, some 8⟩,
    ⟨.group ⟨some "@keyframes h", [11]⟩, some 0⟩, ⟨.group ⟨some "to", [12]⟩, some 10⟩,
    ⟨.declaration ⟨"transform", "none"⟩, some 11⟩, ⟨.declaration ⟨"-ms-filter", "'none'"⟩, some 2⟩,
    ⟨.group ⟨some "@-ms-keyframes h", [15]⟩, some 0⟩, ⟨.group ⟨some "to", [17]⟩, some 14⟩,
    ⟨.declaration ⟨"transform", "none"⟩, none⟩, ⟨.declaration ⟨"-ms-transform", "none"⟩, some 15⟩]⟩

/-- Header by header and value by value, the sheet is found again. The first header holds a
semicolon and a brace that the reader takes as text. -/
theorem isReadable_clearedSheet : clearedSheet.IsReadable :=
  ⟨_, .group rfl (.declaration rfl (.declaration rfl (.declaration rfl .nil)))
      (.group rfl (.declaration rfl .nil)
        (.group rfl (.group rfl (.declaration rfl .nil) .nil)
          (.group rfl (.group rfl (.declaration rfl .nil) .nil) .nil))),
    .group (by decide +kernel) (.declaration (by decide +kernel)
        (.declaration (by decide +kernel) (.declaration (by decide +kernel) .nil)))
      (.group (by decide +kernel) (.declaration (by decide +kernel) .nil)
        (.group (by decide +kernel) (.group (by decide +kernel)
            (.declaration (by decide +kernel) .nil) .nil)
          (.group (by decide +kernel) (.group (by decide +kernel)
            (.declaration (by decide +kernel) .nil) .nil) .nil)))⟩

theorem optimizeText_optimizeText_clutteredText :
    let options := { OptimizeOptions.standard with mergeGroups := true, vendors := "msie" }
    let out := "i;\x7da\x7bb:0;filter:none;-ms-filter:'none'\x7dd,g\x7be:f\x7d" ++
      "@keyframes h\x7bto\x7btransform:none\x7d\x7d" ++
      "@-ms-keyframes h\x7bto\x7b-ms-transform:none\x7d\x7d"
    ((parse true clutteredText).optimize Color.steadyHex options = .ok (.ok (), clearedSheet) ∧
        clearedSheet.IsReadable ∧ clearedSheet.Rests Color.steadyHex options) ∧
      optimizeText Color.steadyHex options clutteredText = .ok out ∧
      optimizeText Color.steadyHex options out = .ok out := by
  intro options out
  have hrun : (parse true clutteredText).optimize Color.steadyHex options =
      .ok (.ok (), clearedSheet) := by decide +kernel
  have hrests : clearedSheet.Rests Color.steadyHex options := by decide +kernel
  have hout : clearedSheet.render options.layout = out := by decide +kernel
  rw [← hout]
  exact ⟨⟨hrun, isReadable_clearedSheet, hrests⟩,
    optimizeText_optimizeText hrun isReadable_clearedSheet hrests⟩

/-- A match takes in the character in front of it, so of two lengths without a gap only the first
one is shortened. The second pass finds the other one. -/
theorem optimizeText_optimizeText_ne :
    optimizeText Color.steadyHex .standard "a\x7bwidth:0.5%0.5%\x7d" =
        .ok "a\x7bwidth:.5%0.5%\x7d" ∧
      optimizeText Color.steadyHex .standard "a\x7bwidth:.5%0.5%\x7d" =
        .ok "a\x7bwidth:.5%.5%\x7d" := by
  decide +kernel

end Sheet

end Sheetsmith
