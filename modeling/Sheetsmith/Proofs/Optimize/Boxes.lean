import Sheetsmith.Proofs.Optimize.Shorthands
import Sheetsmith.Proofs.Value.Sides

namespace Sheetsmith

open Value

/-- The declaration with its lengths shortened. -/
def Declaration.shortened (d : Declaration) : Declaration :=
  { d with value := optimizeUnits d.name d.value }

namespace Shorthand

/-- The shorthands for the four sides of a box. -/
def boxes : List Shorthand :=
  all.filter fun shorthand => ["margin", "padding", "border-width"].contains shorthand.name

/-- What the shorthands for the sides of a box have in common. -/
structure IsBox (shorthand : Shorthand) : Prop where
  nodup : shorthand.members.Nodup
  four : shorthand.members.length = 4
  not_mem : shorthand.name ∉ shorthand.members
  ofMember?_name : ofMember? shorthand.name = none
  ofMember?_member : ∀ member ∈ shorthand.members, ofMember? member = some shorthand
  /-- No other words than lengths are looked for in their values. -/
  plain : ∀ property ∈ shorthand.name :: shorthand.members,
    ¬ (property = "font" ∨ property = "font-weight") ∧ property ≠ "background-position"

/-- Margin, padding and border width are shorthands for the sides of a box. -/
theorem isBox_of_mem {shorthand : Shorthand} (h : shorthand ∈ boxes) : shorthand.IsBox := by
  have hboxes : boxes = [
      ⟨"margin", ["margin-top", "margin-right", "margin-bottom", "margin-left"]⟩,
      ⟨"padding", ["padding-top", "padding-right", "padding-bottom", "padding-left"]⟩,
      ⟨"border-width", ["border-top-width", "border-right-width", "border-bottom-width",
        "border-left-width"]⟩] := rfl
  have hmember (property : String) (hproperty : property ∈ shorthand.members) :
      ofMember? property = some shorthand := by
    rw [hboxes] at h
    simp only [List.mem_cons, List.not_mem_nil, or_false] at h
    rcases h with rfl | rfl | rfl <;>
      · simp only [List.mem_cons, List.not_mem_nil, or_false] at hproperty
        rcases hproperty with rfl | rfl | rfl | rfl <;> rfl
  rw [hboxes] at h
  simp only [List.mem_cons, List.not_mem_nil, or_false] at h
  rcases h with rfl | rfl | rfl <;>
    exact ⟨by decide, by decide, by decide, by decide, hmember, by decide⟩

variable (sh : Shorthand)

/-- What a declaration says of one side of a box; the sides are counted from the upper one on,
clockwise. -/
def setting (side : Fin 4) (d : Declaration) : Option (List Char) :=
  if d.name = sh.name then (spread (words d.value.toList))[side.val]?
  else if sh.members[side.val]? = some d.name then (words d.value.toList).head?
  else none

/-- What some declarations, read in order, make of one side of a box: the last one that says
something of it wins. -/
def cascade (side : Fin 4) (ds : List Declaration) : Option (List Char) :=
  ds.foldl (fun found d => (sh.setting side d).or found) none

/-- A declaration of all sides, or of one of them, by lengths. -/
def Sets (d : Declaration) : Prop :=
  (d.name = sh.name ∧ IsBoxValue d.value) ∨ (d.name ∈ sh.members ∧ IsSideValue d.value)

instance : DecidablePred sh.Sets := fun d =>
  inferInstanceAs (Decidable ((d.name = sh.name ∧ IsBoxValue d.value) ∨
    (d.name ∈ sh.members ∧ IsSideValue d.value)))

/-- The names behind the last shorthand; all names where there is none. -/
def behind (names : List String) : List String :=
  (names.reverse.takeWhile (· ≠ sh.name)).reverse

/-- The members of a shorthand are merged in rounds, and each round takes the place of the first
declaration it merges. If the last declaration of a member comes behind the last shorthand and is
merged in some round, then this round takes place behind that shorthand too. -/
def Settles (names : List String) : Prop :=
  ∀ member ∈ sh.members, member ∈ sh.behind names →
    (∀ other ∈ sh.members, names.count member ≤ names.count other) →
    ∀ other ∈ sh.members, names.count other < names.count member + (sh.behind names).count other

instance (names : List String) : Decidable (sh.Settles names) :=
  inferInstanceAs (Decidable (∀ member ∈ sh.members, member ∈ sh.behind names →
    (∀ other ∈ sh.members, names.count member ≤ names.count other) →
    ∀ other ∈ sh.members, names.count other < names.count member + (sh.behind names).count other))

variable {sh} {side : Fin 4} {ds : List Declaration} {d : Declaration}

@[simp] theorem cascade_nil : sh.cascade side [] = none := rfl

/-- Of two rows of declarations the later one wins, where it says anything of the side. -/
theorem cascade_append (front back : List Declaration) :
    sh.cascade side (front ++ back) = (sh.cascade side back).or (sh.cascade side front) := by
  have hfold (found : Option (List Char)) :
      back.foldl (fun found d => (sh.setting side d).or found) found =
        (sh.cascade side back).or found := by
    unfold cascade
    induction back generalizing found with
    | nil => rfl
    | cons d back ih => rw [List.foldl_cons, List.foldl_cons, ih, ih (Option.or _ none), Option.or_assoc,
        Option.or_none]
  rw [cascade, List.foldl_append, hfold]
  rfl

/-- The first declaration counts only where no later one says anything of the side. -/
theorem cascade_cons (d : Declaration) (ds : List Declaration) :
    sh.cascade side (d :: ds) = (sh.cascade side ds).or (sh.setting side d) := by
  rw [← List.singleton_append, cascade_append]
  congr 1
  exact Option.or_none

/-- Where a declaration says nothing of a side, it is neither the shorthand nor that member. -/
theorem setting_eq_none (hname : d.name ≠ sh.name) (hmember : sh.members[side.val]? ≠ some d.name) :
    sh.setting side d = none := by
  rw [setting, if_neg hname, if_neg hmember]

/-- A declaration of the shorthand, or of the member of a side, says something of that side. -/
theorem IsBox.setting_ne_none (hsh : sh.IsBox) (hd : sh.Sets d)
    (hname : d.name = sh.name ∨ sh.members[side.val]? = some d.name) :
    sh.setting side d ≠ none := by
  have hlength (sides : List (List Char)) (hne : sides ≠ []) (hle : sides.length ≤ 4) :
      (spread sides).length = 4 := by
    match sides with
    | [_] | [_, _] | [_, _, _] | [_, _, _, _] => rfl
  rcases hd with ⟨hd, hvalue⟩ | ⟨hd, hvalue⟩
  · rw [setting, if_pos hd]
    simp [hlength _ hvalue.ne_nil hvalue.length_le]
  · have hne : d.name ≠ sh.name := fun heq => hsh.not_mem (heq ▸ hd)
    rw [setting, if_neg hne, if_pos (hname.resolve_left hne)]
    simpa using hvalue.ne_nil

/-- A side is set where it is declared at all. The declarations may stand in any order and any
number. -/
theorem IsBox.cascade_ne_none (hsh : sh.IsBox) (hds : ∀ d ∈ ds, sh.Sets d)
    (h : ∃ d ∈ ds, d.name = sh.name ∨ sh.members[side.val]? = some d.name) :
    sh.cascade side ds ≠ none := by
  induction ds with
  | nil =>
    obtain ⟨d, hd, -⟩ := h
    cases hd
  | cons d ds ih =>
    rw [cascade_cons, Ne, Option.or_eq_none_iff]
    rintro ⟨hrest, hfirst⟩
    obtain ⟨e, he, hname⟩ := h
    rcases List.mem_cons.1 he with rfl | he
    · exact hsh.setting_ne_none (hds e (by simp)) hname hfirst
    · exact ih (fun x hx => hds x (by simp [hx])) ⟨e, he, hname⟩ hrest

/-- All values are lengths, from one to four of them. -/
theorem Sets.isBoxValue (h : sh.Sets d) : IsBoxValue d.value :=
  h.elim (·.2) (·.2.toIsBoxValue)

theorem Sets.shortened (h : sh.Sets d) : sh.Sets d.shortened :=
  h.imp (fun h => ⟨h.1, (h.2.optimizeUnits d.name).1⟩) fun h => ⟨h.1, (h.2.optimizeUnits d.name).1⟩

/-- Shortening a declaration leaves what it says of a side. Lengths count as equal when their
measures are. -/
theorem IsBox.setting_shortened (hsh : sh.IsBox) (h : sh.Sets d) :
    (sh.setting side d.shortened).map lengthKey = (sh.setting side d).map lengthKey := by
  have hname : d.shortened.name = d.name := rfl
  rcases h with ⟨hd, hvalue⟩ | ⟨hd, hvalue⟩
  · rw [setting, setting, hname, if_pos hd, if_pos hd, ← List.getElem?_map, ← List.getElem?_map]
    exact congrArg (·[side.val]?) (hvalue.optimizeUnits d.name).2.2
  · have hne : d.name ≠ sh.name := fun heq => hsh.not_mem (heq ▸ hd)
    rw [setting, setting, hname, if_neg hne, if_neg hne]
    split
    · rw [← List.head?_map, ← List.head?_map]
      exact congrArg List.head? (hvalue.optimizeUnits d.name).2
    · rfl

/-- Where each member of a list gives one thing, it is found at the member's place. -/
theorem getElem?_flatMap_of_length_eq_one {α β : Type} {f : α → List β} {as : List α}
    (h : ∀ a ∈ as, (f a).length = 1) (i : Nat) :
    (as.flatMap f)[i]? = as[i]?.bind fun a => (f a).head? := by
  induction as generalizing i with
  | nil => rfl
  | cons a as ih =>
    obtain ⟨b, hb⟩ := List.length_eq_one_iff.1 (h a (by simp))
    rw [List.flatMap_cons, hb]
    cases i with
    | zero => simp [hb]
    | succ i => simpa using ih (fun x hx => h x (by simp [hx])) i

/-- The declaration that takes the place of the members says of each side what its member said. Each
member's value is one length. -/
theorem IsBox.setting_merged (hsh : sh.IsBox) (side : Fin 4) {firsts : List Declaration}
    (hnames : firsts.map (·.name) = sh.members) (hfirsts : ∀ x ∈ firsts, sh.Sets x) :
    let merged : Declaration := ⟨sh.name, " ".intercalate (firsts.map (·.value))⟩
    sh.Sets merged ∧ ∀ first, firsts[side.val]? = some first →
      sh.setting side merged = sh.setting side first := by
  intro merged
  have hside (x : Declaration) (hx : x ∈ firsts) : IsSideValue x.value := by
    have hmember : x.name ∈ sh.members := hnames ▸ List.mem_map_of_mem hx
    refine ((hfirsts x hx).resolve_left fun h => ?_).2
    exact hsh.not_mem (h.1 ▸ hmember)
  have hwords : words merged.value.toList = firsts.flatMap fun x => words x.value.toList := by
    show words (" ".intercalate (firsts.map (·.value))).toList = _
    rw [String.toList_intercalate]
    have hspace : " ".toList = [' '] := rfl
    rw [hspace, words_intercalate, List.map_map, List.flatMap_map]
    rfl
  have hlength : (words merged.value.toList).length = 4 := by
    have hfour : firsts.length = 4 := by rw [← hsh.four, ← hnames, List.length_map]
    rw [hwords, List.length_flatMap, List.map_congr_left fun x hx => (hside x hx).length_eq]
    simp [hfour]
  have hspread : spread (words merged.value.toList) = words merged.value.toList := by
    match hw : words merged.value.toList, hlength with
    | [_, _, _, _], _ => rfl
  refine ⟨.inl ⟨rfl, ?_, ?_, hlength.le⟩, fun first hfirst => ?_⟩
  · rw [hwords]
    intro w hw
    obtain ⟨x, hx, hw⟩ := List.mem_flatMap.1 hw
    exact (hside x hx).lengths w hw
  · rw [← List.length_pos_iff, hlength]
    decide
  · have hmember : sh.members[side.val]? = some first.name := by
      rw [← hnames, List.getElem?_map, hfirst]
      rfl
    have hne : first.name ≠ sh.name := fun heq =>
      hsh.not_mem (heq ▸ List.mem_of_getElem? hmember)
    rw [setting, if_pos rfl, hspread, hwords,
      getElem?_flatMap_of_length_eq_one fun x hx => (hside x hx).length_eq, hfirst, setting,
      if_neg hne, if_pos hmember]
    rfl

end Shorthand

end Sheetsmith
