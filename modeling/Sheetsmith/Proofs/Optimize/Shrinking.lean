import Sheetsmith.Proofs.Optimize.Merging
import Sheetsmith.Proofs.Optimize.Shorthands
import Sheetsmith.Proofs.Pressing
import Sheetsmith.Proofs.Sheet.Headers
import Sheetsmith.Proofs.Text.Ascii
import Sheetsmith.Proofs.Vendor.FixedPoint

namespace Sheetsmith

namespace Sheet

/-- All names of declarations in the tree are ASCII. -/
def AsciiNames (s : Sheet) : Prop :=
  ∀ id ∈ s.declarations root, ∀ d ∈ s.declaration? id, Text.IsAscii d.name.toList

instance (s : Sheet) : Decidable s.AsciiNames :=
  inferInstanceAs (Decidable (∀ id ∈ s.declarations root, ∀ d ∈ s.declaration? id,
    Text.IsAscii d.name.toList))

/-- A document without empty headers that takes at most so many bytes in compressed layout. -/
structure Within (bound : Nat) (s : Sheet) : Prop where
  isDocument : s.IsDocument
  headed : s.Headed
  weight_le : s.weight ≤ bound

variable {bound : Nat} {s t : Sheet} {id other : NodeId}

theorem declaration?_removeAll (s : Sheet) (ids : List NodeId) (i : NodeId) :
    (s.removeAll ids).declaration? i = s.declaration? i :=
  ids.foldlRecOn (motive := fun t : Sheet => t.declaration? i = s.declaration? i) _ rfl
    fun t ht id _ => by rw [declaration?_remove, ht]

theorem selector?_removeAll (s : Sheet) (ids : List NodeId) (i : NodeId) :
    (s.removeAll ids).selector? i = s.selector? i :=
  ids.foldlRecOn (motive := fun t : Sheet => t.selector? i = s.selector? i) _ rfl
    fun t ht id _ => by rw [selector?_remove, ht]

/-- What has no parent gets none while nodes are taken out. -/
theorem parent?_removeAll_of_parent? {ids : List NodeId} {i : NodeId} (h : s.parent? i = none) :
    (s.removeAll ids).parent? i = none :=
  ids.foldlRecOn (motive := fun t : Sheet => t.parent? i = none) _ h fun t ht id _ => by
    rw [parent?_remove, ht, ite_self]

/-- What is taken out has no parent from then on. -/
theorem parent?_removeAll_of_mem {ids : List NodeId} {i : NodeId} (h : i ∈ ids) :
    (s.removeAll ids).parent? i = none := by
  induction ids generalizing s with
  | nil => cases h
  | cons id ids ih =>
    rcases List.mem_cons.1 h with rfl | h
    · exact parent?_removeAll_of_parent? (s := s.remove i) (by rw [parent?_remove, if_pos rfl])
    · exact ih h

namespace Completes

variable {shorthand : Shorthand} {members : List NodeId} (h : s.Completes id shorthand members)
include h

/-- No declaration is merged for two members, as each has one name. -/
theorem nodup : members.Nodup := by
  have hnames : members.map (fun member => (s.declaration? member).map (·.name)) =
      shorthand.members.map some := by
    have hfirst := h.first
    clear h
    generalize shorthand.members = properties at hfirst
    induction hfirst with
    | nil => rfl
    | cons hhead _ ih =>
      obtain ⟨-, d, hd, rfl⟩ := firstNamed?_eq_some hhead
      rw [List.map_cons, List.map_cons, ih, hd, Option.map_some]
  have hnodup := (Shorthand.wellFormed_of_mem h.mem_all).nodup.map (Option.some_injective _)
  rw [← hnames] at hnodup
  exact hnodup.of_map _

/-- The members of a shorthand take enough room for the shorthand with all their values: its name is
no longer than theirs, and there are at least two of them. -/
theorem le_sum_cost :
    shorthand.name.utf8ByteSize + 2 +
        (" ".intercalate ((members.filterMap s.declaration?).map (·.value))).utf8ByteSize ≤
      (members.map s.cost).sum := by
  obtain ⟨hnodup, htwo, hnamed, -, hshorter⟩ := Shorthand.wellFormed_of_mem h.mem_all
  obtain ⟨ds, hnames, hds⟩ := h.exists_declaration
  clear h
  have hspace : " ".utf8ByteSize = 1 := by decide
  have hvalues : members.filterMap s.declaration? = ds := by
    clear hnames
    induction hds with
    | nil => rfl
    | cons hd _ ih => rw [List.filterMap_cons_some hd, ih]
  have hlength : ds.length = shorthand.members.length := by rw [← hnames, List.length_map]
  have hroom : ds.length * (shorthand.name.utf8ByteSize + 1) +
      ((ds.map (·.value)).map String.utf8ByteSize).sum ≤ (members.map s.cost).sum := by
    have hshort : ∀ d ∈ ds, shorthand.name.utf8ByteSize ≤ d.name.utf8ByteSize :=
      fun d hd => hshorter d.name (hnames ▸ List.mem_map_of_mem hd)
    clear hnames hvalues hlength
    induction hds with
    | nil => simp
    | @cons member d members ds hd _ ih =>
      have hrest := ih fun e he => hshort e (by simp [he])
      have hname := hshort d (by simp)
      simp only [List.length_cons, List.map_cons, List.sum_cons, cost_declaration hd,
        declarationCost, Nat.add_mul] at hrest ⊢
      omega
  rw [hvalues, Text.utf8ByteSize_intercalate, hspace]
  have hmul : 2 * shorthand.name.utf8ByteSize ≤ ds.length * shorthand.name.utf8ByteSize :=
    Nat.mul_le_mul_right _ (by omega)
  simp only [Nat.mul_add, List.length_map] at hroom ⊢
  omega

end Completes

namespace Within

variable (h : s.Within bound)
include h

/-- What becomes slimmer with its headers left stays within the bound. -/
theorem slims (ht : t.IsDocument) (hselector : ∀ i, t.selector? i = s.selector? i)
    (hslims : s.Slims t) : t.Within bound :=
  ⟨ht, fun i => by rw [hselector]; exact h.headed i,
    Nat.le_trans (hslims.weight_le h.isDocument.isForest ht.isForest) h.weight_le⟩

/-- Taking a node out keeps a sheet within the bound. -/
theorem remove (id : NodeId) : (s.remove id).Within bound :=
  h.slims (h.isDocument.remove id) (selector?_remove s id) (slims_remove s id)

theorem removeAll (ids : List NodeId) : (s.removeAll ids).Within bound :=
  ids.foldlRecOn _ h fun _ ht id _ => ht.remove id

theorem removeComments : s.removeComments.Within bound :=
  h.removeAll _

theorem removeHacks : s.removeHacks.Within bound :=
  h.removeAll _

/-- A pass that is not asked for leaves the sheet as it is. -/
theorem passIf {pass : Sheet → Sheet} (hpass : (pass s).Within bound) (asked : Bool) :
    (s.passIf asked pass).Within bound := by
  unfold Sheet.passIf
  split
  · exact hpass
  · exact h

theorem pruneGroups : s.pruneGroups.Within bound := by
  refine (s.groups root).reverse.foldlRecOn _ h fun t ht id _ => ?_
  unfold pruneGroup
  split
  · exact ht.remove id
  · exact ht

/-- A declaration whose name and value become no longer keeps the sheet within the bound. A node
that is no declaration is not changed, so nothing is asked of it. -/
theorem modifyDeclaration {f : Declaration → Declaration}
    (hname : ∀ d, s.declaration? id = some d → (f d).name.utf8ByteSize ≤ d.name.utf8ByteSize)
    (hvalue : ∀ d, s.declaration? id = some d → (f d).value.utf8ByteSize ≤ d.value.utf8ByteSize) :
    (s.modifyDeclaration id f).Within bound :=
  h.slims (h.isDocument.modifyDeclaration id f) (selector?_modifyDeclaration s id · f)
    (slims_modifyDeclaration hname hvalue)

/-- Lower case makes no name longer that is ASCII. Other letters may take more bytes, so this is
assumed. -/
theorem lowerNames (hascii : s.AsciiNames) : s.lowerNames.Within bound := by
  have hfold := (s.declarations root).foldlRecOn (motive := fun t : Sheet => t.Within bound ∧
      ∀ i ∈ s.declarations root, ∀ d, t.declaration? i = some d → Text.IsAscii d.name.toList)
    (fun s id => s.modifyDeclaration id fun d => { d with name := Text.lowercase d.name })
    ⟨h, hascii⟩ ?_
  · exact hfold.1
  · rintro t ⟨ht, hascii⟩ id hid
    refine ⟨ht.modifyDeclaration (fun d hd => ?_) (fun d _ => Nat.le_refl _), fun i hi d hd => ?_⟩
    · exact Nat.le_of_eq (Text.utf8ByteSize_lowercase (hascii id hid d hd))
    · rw [declaration?_modifyDeclaration] at hd
      split at hd
      · obtain ⟨e, he, rfl⟩ := Option.map_eq_some_iff.1 hd
        exact Text.isAscii_lowercase (hascii i hi e he)
      · exact hascii i hi d hd

/-- A shorthand takes no more room than the members it takes the place of. Only the length of the
merged value is assumed, not which value it is. -/
theorem merge (hid : s.Below id root) {shorthand : Shorthand} {members : List NodeId}
    (hcompletes : s.Completes id shorthand members) {value : String}
    (hvalue : value.utf8ByteSize ≤
      (" ".intercalate ((members.filterMap s.declaration?).map (·.value))).utf8ByteSize) :
    ((s.removeAll (members.filter (· != id))).modifyDeclaration id fun _ =>
      ⟨shorthand.name, value⟩).Within bound := by
  have hdocument := (h.isDocument.removeAll (members.filter (· != id))).modifyDeclaration id
    fun _ => ⟨shorthand.name, value⟩
  have hslims := slims_removeAll s (members.filter (· != id))
  have hparent (i : NodeId) : ((s.removeAll (members.filter (· != id))).modifyDeclaration id fun _ =>
      ⟨shorthand.name, value⟩).parent? i = (s.removeAll (members.filter (· != id))).parent? i :=
    parent?_modifyDeclaration _ _ _ _
  refine ⟨hdocument, fun i => ?_, Nat.le_trans ?_ h.weight_le⟩
  · rw [selector?_modifyDeclaration, selector?_removeAll]
    exact h.headed i
  refine weight_le_of_charge h.isDocument.isForest hdocument.isForest id
    (members.filter (· != id)).toFinset ?_ ?_ ?_ ?_
  · intro i hi
    have hi := List.mem_toFinset.1 hi
    refine ⟨h.isDocument.isForest.below_root_of_mem_family hid
      (hcompletes.mem_family (List.mem_filter.1 hi).1), ?_⟩
    rw [below_congr hparent]
    exact not_below_of_parent?_eq_none (parent?_removeAll_of_mem hi)
  · intro i hi
    exact hslims.below i ((below_congr hparent).1 hi)
  · intro i hi hne
    rw [cost_modifyDeclaration_of_ne hne]
    exact hslims.cost_le i ((below_congr hparent).1 hi)
  · intro _
    obtain ⟨d, hd, -⟩ := hcompletes.own
    have hroom := hcompletes.le_sum_cost
    have hcovered : (members.map s.cost).sum ≤
        s.cost id + ∑ i ∈ (members.filter (· != id)).toFinset, s.cost i := by
      have hnot : id ∉ (members.filter (· != id)).toFinset := by simp
      rw [← List.sum_toFinset _ hcompletes.nodup, ← Finset.sum_insert hnot]
      refine Finset.sum_le_sum_of_subset fun i hi => ?_
      by_cases hi' : i = id <;> simp_all
    have hd' : ((s.removeAll (members.filter (· != id))).modifyDeclaration id fun _ =>
        ⟨shorthand.name, value⟩).declaration? id = some ⟨shorthand.name, value⟩ := by
      rw [declaration?_modifyDeclaration, if_pos rfl, declaration?_removeAll, hd, Option.map_some]
    rw [cost_declaration hd']
    unfold declarationCost
    dsimp only
    split <;> omega

/-- A visit makes a declaration no longer, nor a whole group. -/
theorem optimizeDeclaration {read : Color.Reader} (hid : s.Below id root)
    (ht : s.optimizeDeclaration read id = .ok t) : t.Within bound := by
  rcases optimizeDeclaration_eq_ok ht with ⟨-, rfl⟩ | ⟨d, value, hd, hvalue, ht⟩
  · exact h
  have hworded : (s.modifyDeclaration id fun d => { d with value }).Within bound := by
    refine h.modifyDeclaration (fun _ _ => Nat.le_refl _) fun e he => ?_
    obtain rfl : d = e := Option.some.inj (hd.symm.trans he)
    exact Value.utf8ByteSize_optimizeWords_le hvalue
  have hunits {u : Sheet} (hu : u.Within bound) : (u.modifyDeclaration id fun d =>
      { d with value := Value.optimizeUnits d.name d.value }).Within bound :=
    hu.modifyDeclaration (fun _ _ => Nat.le_refl _) fun d _ =>
      Value.utf8ByteSize_optimizeUnits_le d.name d.value
  rcases ht with ⟨-, rfl⟩ | ⟨name, joined, merged, value', hmerge, hvalue', rfl⟩
  · exact hunits hworded
  · obtain ⟨shorthand, members, hcompletes, rfl, rfl, rfl⟩ := mergeShorthand?_eq_some hmerge
    refine hunits (hworded.merge ?_ hcompletes (Value.utf8ByteSize_optimizeWords_le hvalue'))
    rwa [below_congr (parent?_modifyDeclaration s id · _)]

/-- The pass over all declarations keeps a sheet within the bound, whatever is taken for a colour.
-/
theorem optimizeDeclarations {read : Color.Reader} (ht : s.optimizeDeclarations read = .ok t) :
    t.Within bound := by
  have hids : ∀ id ∈ s.declarations root, id ≠ root := by
    rintro id hid rfl
    have hbelow := ((Vendor.mem_declarations_iff h.isDocument.isForest).1 hid).1
    exact not_below_of_parent?_eq_none h.isDocument.isForest.root_parent hbelow
  have hfold := foldlM_induction
    (motive := fun ids t => t.Within bound ∧ ∀ id ∈ ids, id ≠ root) ⟨h, hids⟩ ?_ ht
  · exact hfold.1
  · rintro id ids t u ⟨ht, hids⟩ hvisit
    refine ⟨?_, fun i hi => hids i (by simp [hi])⟩
    unfold optimizeAttached at hvisit
    split at hvisit
    · next hattached =>
      exact ht.optimizeDeclaration
        (ht.isDocument.isForest.below_root_of_isAttached hattached (hids id (by simp))) hvisit
    · cases hvisit
      exact ht

/-- A group that takes another one in needs no more room than both did. -/
theorem absorb (hid : id ≠ root) (hother : s.Below other root) :
    (s.absorb id other).Within bound := by
  have hdocument := h.isDocument.absorb hid other
  unfold Sheet.absorb at hdocument ⊢
  cases hselector : s.selector? id with
  | none => exact h
  | some selector =>
    cases hmore : s.selector? other with
    | none => exact h
    | some more =>
      have hne : selector ≠ "" := fun heq => h.headed id (heq ▸ hselector)
      have hne' : more ≠ "" := fun heq => h.headed other (heq ▸ hmore)
      rw [hselector, hmore] at hdocument
      dsimp only at hdocument ⊢
      have hheaded := (h.headed.setSelector id
        (show some (selector ++ "," ++ more) ≠ some "" by simp)).remove other
      refine ⟨hdocument, hheaded, Nat.le_trans ?_ h.weight_le⟩
      refine weight_le_of_charge h.isDocument.isForest hdocument.isForest id {other} ?_ ?_ ?_ ?_
      · intro i hi
        obtain rfl := Finset.mem_singleton.1 hi
        exact ⟨hother, not_below_remove _ _ _⟩
      · intro i hi
        exact (below_congr (parent?_setSelector s id · _)).1 hi.of_remove
      · intro i hi hne
        have hset := cost_setSelector_of_ne (s := s) hne (some (selector ++ "," ++ more))
        exact Nat.le_trans ((slims_remove _ other).cost_le i hi) (Nat.le_of_eq hset)
      · intro hbelow
        have hgroup : (s.setSelector id (some (selector ++ "," ++ more))).selector? id =
            some (selector ++ "," ++ more) := by
          obtain ⟨g, hg, -⟩ := Option.bind_eq_some_iff.1 hselector
          rw [selector?, group?_setSelector, if_pos rfl, hg]
          rfl
        rw [Finset.sum_singleton, cost_group hselector, cost_group hmore]
        calc ((s.setSelector id (some (selector ++ "," ++ more))).remove other).cost id
          _ ≤ (s.setSelector id (some (selector ++ "," ++ more))).cost id :=
            (slims_remove _ other).cost_le id hbelow
          _ = headerCost (selectorParts selector ++ selectorParts more) := by
            rw [cost_group hgroup, selectorParts_append hne hne']
          _ ≤ _ := headerCost_append_le (selectorParts_ne_nil hne) (selectorParts_ne_nil hne')

theorem mergeGroups : s.mergeGroups.Within bound :=
  h.isDocument.mergeGroups_induction h fun _ _ _ hbeside ht =>
    ht.absorb hbeside.ne_root hbeside.below_other

end Within

/-- No pass makes a sheet heavier: comments, hacks and empty groups only go, names and values get no
longer, and what takes the place of several nodes takes no more room than they did. -/
theorem Within.shorten (h : s.Within bound) {read : Color.Reader} {options : OptimizeOptions}
    (hascii : s.AsciiNames) (ht : s.shorten read options = .ok t) : t.Within bound := by
  have hcomments := h.passIf h.removeComments options.removeComments
  have hascii' : (s.passIf options.removeComments Sheet.removeComments).AsciiNames := by
    unfold Sheet.passIf
    split
    · intro i hi d hd
      unfold Sheet.removeComments at hi hd
      have hforest := (h.isDocument.removeAll (s.leaves root .comment)).isForest
      rw [Option.mem_def, declaration?_removeAll] at hd
      refine hascii i ((Vendor.mem_declarations_iff h.isDocument.isForest).2 ⟨?_, ?_⟩) d hd
      · exact (slims_removeAll s _).below i ((Vendor.mem_declarations_iff hforest).1 hi).1
      · rw [hd]
        rfl
    · exact hascii
  have hnames := hcomments.passIf (hcomments.lowerNames hascii') options.optimize
  have hhacks := hnames.passIf hnames.removeHacks options.removeHacks
  have hgroups {u : Sheet} (hu : u.Within bound) :
      ((u.passIf (options.optimize && options.removeEmpty) Sheet.pruneGroups).passIf
        options.mergeGroups Sheet.mergeGroups).Within bound :=
    have hpruned := hu.passIf hu.pruneGroups (options.optimize && options.removeEmpty)
    hpruned.passIf hpruned.mergeGroups options.mergeGroups
  unfold Sheet.shorten at ht
  dsimp only at ht
  split at ht
  · generalize hout : Sheet.optimizeDeclarations read _ = out at ht
    cases out with
    | error e => cases ht
    | ok u =>
      cases ht
      exact hgroups (hhacks.optimizeDeclarations hout)
  · cases ht
    exact hgroups hhacks

/-- Optimizing never makes a style sheet larger: where no vendor forms are asked for and the names
of the declarations are ASCII, the sheet takes in compressed layout no more bytes than before,
whatever is taken for a colour. No pass fails, unless the reader of colours does. Values and headers
may hold any characters, and the text may be read with or without trimming. -/
theorem utf8ByteSize_render_optimize_le {options : OptimizeOptions}
    (hvendors : Text.isAllBlank options.vendors = true) (read : Color.Reader) (trim : Bool)
    {text : String} (hascii : (parse trim text).AsciiNames) :
    (∀ answer t, (parse trim text).optimize read options = .ok (answer, t) → answer = .ok () ∧
      (t.render .compressed).utf8ByteSize ≤
        ((parse trim text).render .compressed).utf8ByteSize) ∧
    (read.Total → ∃ t, (parse trim text).optimize read options = .ok (.ok (), t)) := by
  have hdocument := isDocument_parse trim text
  refine ⟨fun answer t hoptimize => ?_, fun hread => ?_⟩
  · unfold optimize at hoptimize
    cases hshorten : (parse trim text).shorten read options with
    | error e =>
      rw [hshorten] at hoptimize
      cases hoptimize
    | ok u =>
      rw [hshorten] at hoptimize
      have hexpand := Except.ok.inj hoptimize
      rw [Vendor.expand_of_isAllBlank hvendors] at hexpand
      cases hexpand
      have hwithin : (parse trim text).Within (parse trim text).weight :=
        ⟨hdocument, headed_parse trim text, Nat.le_refl _⟩
      have hu := hwithin.shorten hascii hshorten
      rw [hu.isDocument.utf8ByteSize_render, hdocument.utf8ByteSize_render]
      exact ⟨rfl, hu.weight_le⟩
  · obtain ⟨t, hshorten, -⟩ := hdocument.exists_shorten_eq_ok hread options
    refine ⟨t, ?_⟩
    rw [optimize, hshorten]
    exact congrArg Except.ok (Vendor.expand_of_isAllBlank hvendors t root)

/-- A sheet with a comment, a hack, an empty group, a whole set of sides and two groups with equal
bodies. -/
def wastefulText : String :=
  "/* c */a\x7bMARGIN-TOP:0.50px;margin-right:0px;margin-bottom:0.5px;margin-left:0px;*zoom:1\x7d" ++
    "b\x7b\x7dc\x7bcolor:#ffffff\x7dd\x7bcolor:#ffffff\x7d"

theorem utf8ByteSize_render_optimize_le_wastefulText :
    let options := { OptimizeOptions.standard with
      mergeGroups := true, removeHacks := true, vendors := " " }
    let s := parse true wastefulText
    Text.isAllBlank options.vendors = true ∧ s.AsciiNames ∧
      ∃ t, s.optimize Color.steadyHex options = .ok (.ok (), t) ∧
        (t.render .compressed).utf8ByteSize ≤ (s.render .compressed).utf8ByteSize := by
  intro options s
  have hvendors : Text.isAllBlank options.vendors = true := by decide
  have hascii : s.AsciiNames := by decide +kernel
  obtain ⟨hle, hends⟩ := utf8ByteSize_render_optimize_le hvendors Color.steadyHex true hascii
  obtain ⟨t, ht⟩ := hends Color.total_steadyHex
  exact ⟨hvendors, hascii, t, ht, (hle _ t ht).2⟩

end Sheet

end Sheetsmith
