import Sheetsmith.Proofs.Sheet.Ancestry
import Sheetsmith.Proofs.Sheet.Growth
import Sheetsmith.Proofs.Text.Occurs
import Sheetsmith.Vendor.Expand

namespace Sheetsmith.Sheet

/-- The outermost keyframes block around a node is the one around its parent or, if there is none,
the parent itself. -/
theorem IsForest.keyframesAround_eq {s : Sheet} (hs : s.IsForest) (id : NodeId) :
    s.keyframesAround id =
      match s.parent? id with
      | some parent => (s.keyframesAround parent).or (s.keyframes? parent)
      | none => none := by
  rw [keyframesAround, hs.ancestors_eq id]
  cases s.parent? id with
  | none => rfl
  | some parent =>
    dsimp only
    rw [List.filterMap_cons, keyframesAround]
    cases s.keyframes? parent with
    | none => simp
    | some around =>
      rw [List.getLast?_cons]
      cases ((s.ancestors parent).filterMap s.keyframes?).getLast? <;> rfl

/-- A plain keyframes block starts with the word, in any letter case. Nothing is assumed about what
follows the word. -/
theorem keyframes?_eq_plain {s : Sheet} {id keyframes : NodeId}
    (h : s.keyframes? id = some (.plain keyframes)) :
    keyframes = id ∧ ∃ selector, s.selector? id = some selector ∧
      "@keyframes".toList.isPrefixOf (Text.fold selector.toList) = true := by
  rw [keyframes?] at h
  -- The words are only in the way here.
  generalize "@keyframes".toList = word at h ⊢
  generalize "@-".toList = start at h
  generalize "-keyframes".toList = rest at h
  cases hselector : s.selector? id with
  | none =>
    rw [hselector] at h
    cases h
  | some selector =>
    rw [hselector] at h
    simp only [Option.bind_eq_bind, Option.bind_some] at h
    split at h
    · next hplain =>
      cases h
      exact ⟨rfl, selector, rfl, hplain⟩
    · split at h <;> cases h

/-- The outermost keyframes block has none around it. It lies strictly above the node, which may
itself be keyframes. -/
theorem IsForest.keyframesAround_eq_plain {s : Sheet} (hs : s.IsForest) {id keyframes : NodeId}
    (h : s.keyframesAround id = some (.plain keyframes)) :
    s.Below id keyframes ∧ s.keyframes? keyframes = some (.plain keyframes) ∧
      s.keyframesAround keyframes = none := by
  obtain ⟨depth, hdepth⟩ := hs.grounded
  induction hn : depth id using Nat.strongRecOn generalizing id with
  | ind n ih =>
    rw [hs.keyframesAround_eq id] at h
    cases hparent : s.parent? id with
    | none =>
      rw [hparent] at h
      cases h
    | some parent =>
      rw [hparent] at h
      dsimp only at h
      cases haround : s.keyframesAround parent with
      | none =>
        rw [haround, Option.none_or] at h
        obtain ⟨rfl, -⟩ := keyframes?_eq_plain h
        exact ⟨.single hparent, h, haround⟩
      | some around =>
        rw [haround, Option.some_or] at h
        obtain ⟨hbelow, hrest⟩ :=
          ih (depth parent) (hn ▸ hdepth id parent hparent) (haround.trans h) rfl
        exact ⟨.head hparent hbelow, hrest⟩

/-- Growth does not change the keyframes block around an old node. Both sheets are forests, and what
is new may stand anywhere among the old nodes. -/
theorem Grows.keyframesAround {s t : Sheet} (hs : s.IsForest) (ht : t.IsForest)
    (h : Grows s.size s t) {id : NodeId} (hid : id < s.size) :
    t.keyframesAround id = s.keyframesAround id := by
  obtain ⟨depth, hdepth⟩ := hs.grounded
  induction hn : depth id using Nat.strongRecOn generalizing id with
  | ind n ih =>
    rw [hs.keyframesAround_eq id, ht.keyframesAround_eq id, h.parent id hid]
    cases hparent : s.parent? id with
    | none => rfl
    | some parent =>
      have hlt := hs.parent_lt_size hparent
      dsimp only
      rw [ih (depth parent) (hn ▸ hdepth id parent hparent) hlt rfl, keyframes?, keyframes?,
        h.selector? hlt]

/-- Nodes of one parent have the same block around them. -/
theorem keyframesAround_congr {s : Sheet} {id other : NodeId} (h : s.parent? id = s.parent? other) :
    s.keyframesAround id = s.keyframesAround other := by
  rw [keyframesAround, keyframesAround, ancestors, ancestors, h]

/-- All below an outermost keyframes block has that block around it. Blocks between the two do not
matter, keyframes or not. -/
theorem IsForest.keyframesAround_of_below {s : Sheet} (hs : s.IsForest) {id top : NodeId}
    {keyframes : Keyframes} (hbelow : s.Below id top) (htop : s.keyframes? top = some keyframes)
    (haround : s.keyframesAround top = none) : s.keyframesAround id = some keyframes := by
  induction hbelow using Relation.TransGen.head_induction_on with
  | single hparent =>
    rw [hs.keyframesAround_eq, hparent]
    dsimp only
    rw [haround, htop, Option.none_or]
  | head hparent _ ih =>
    rw [hs.keyframesAround_eq, hparent]
    dsimp only
    rw [ih, Option.some_or]

/-- The vendors' words for keyframes start with a hyphen behind the `@`, so none of them is the
plain word. -/
theorem keyframesWord_starts : ∀ vendor ∈ Vendor.all,
    ¬ "@keyframes".toList <+: Text.fold vendor.keyframesWord.toList ∧
      "@keyframes".toList.length ≤ (Text.fold vendor.keyframesWord.toList).length ∧
      "@-".toList <+: Text.fold vendor.keyframesWord.toList ∧
      "-keyframes".toList <:+: Text.fold vendor.keyframesWord.toList := by
  decide +kernel

/-- A copy under a vendor's name is a vendor's keyframes block, whatever follows the word. The
vendor may be any, whether it is enabled or not. -/
theorem keyframes?_eq_vendored {s : Sheet} {id : NodeId} {vendor : Vendor} {name : String}
    (h : s.selector? id = some (vendor.keyframesWord ++ name)) :
    s.keyframes? id = some .vendored := by
  obtain ⟨hplain, hlength, hstart, hinside⟩ :=
    keyframesWord_starts vendor (by cases vendor <;> decide)
  have hne : "-keyframes".toList ≠ [] := by decide
  rw [keyframes?, h]
  simp only [Option.bind_eq_bind, Option.bind_some, String.toList_append, Text.fold, List.map_append]
  rw [Text.fold] at hplain hlength hstart hinside
  generalize vendor.keyframesWord.toList.map Char.toLower = word at hplain hlength hstart hinside ⊢
  generalize "@keyframes".toList = plain at hplain hlength ⊢
  generalize "-keyframes".toList = inside at hinside hne ⊢
  generalize "@-".toList = start at hstart ⊢
  rw [if_neg, if_pos]
  · rw [Bool.and_eq_true, List.isPrefixOf_iff_prefix]
    refine ⟨hstart.trans (List.prefix_append _ _), Text.occurs_literal hne ?_⟩
    exact hinside.trans (List.prefix_append _ _).isInfix
  · rw [List.isPrefixOf_iff_prefix]
    exact fun hfront => hplain (List.prefix_of_prefix_length_le hfront (List.prefix_append _ _) hlength)

end Sheetsmith.Sheet
