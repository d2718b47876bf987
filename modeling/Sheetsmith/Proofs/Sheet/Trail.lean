import Sheetsmith.Proofs.Sheet.Attach
import Sheetsmith.Proofs.Sheet.Outline
import Sheetsmith.Sheet.Parse

namespace Sheetsmith

namespace Event

/-- What a list of events describes inside the innermost open block (level 0), the
block around it (level 1) and so on outward. -/
def levels : List Event → Nat → List Outline
  | [], _ => []
  | .opened selector :: events, 0 =>
    .group (selector.elim [] Sheet.selectorParts) (levels events 0) :: levels events 1
  | .opened _ :: events, level + 1 => levels events (level + 2)
  | .declaration name value :: events, 0 => .declaration ⟨name, value⟩ :: levels events 0
  | .declaration _ _ :: events, level + 1 => levels events (level + 1)
  | .importRule text :: events, 0 => .leaf ⟨.importRule, text⟩ :: levels events 0
  | .importRule _ :: events, level + 1 => levels events (level + 1)
  | .comment text :: events, 0 => .leaf ⟨.comment, text⟩ :: levels events 0
  | .comment _ :: events, level + 1 => levels events (level + 1)
  | .closed :: _, 0 => []
  | .closed :: events, level + 1 => levels events level

/-- Inside `depth` open blocks, no more blocks close than are open. -/
def Nested : (depth : Nat) → List Event → Prop
  | _, [] => True
  | depth, .opened _ :: events => Nested (depth + 1) events
  | 0, .closed :: _ => False
  | depth + 1, .closed :: events => Nested depth events
  | depth, .declaration _ _ :: events => Nested depth events
  | depth, .importRule _ :: events => Nested depth events
  | depth, .comment _ :: events => Nested depth events

/-- The declaration of a buffer stands in front of what comes later and closes nothing. This also
holds where the buffer is no declaration, as then nothing stands in front. -/
theorem nested_declaration?_append (trim : Bool) (buffer : String) (depth : Nat)
    (events : List Event) :
    Nested depth ((declaration? trim buffer).toList ++ events) ↔ Nested depth events := by
  cases h : declaration? trim buffer with
  | none => rfl
  | some event =>
    obtain ⟨⟨name, value⟩, -, rfl⟩ := Option.map_eq_some_iff.1 h
    cases depth <;> rfl

theorem nested_atSemicolon_append (trim : Bool) (buffer : String) (depth : Nat)
    (events : List Event) :
    Nested depth ((atSemicolon trim buffer).1 ++ events) ↔ Nested depth events := by
  have h := nested_declaration?_append trim buffer depth events
  rw [atSemicolon]
  split
  · next event hevent => simpa [hevent] using h
  · split
    · cases depth <;> rfl
    · split <;> rfl

/-- A closing brace reports the declaration in the buffer, and the end of a block if one is open.
What is left in the buffer is said by its other component. -/
theorem atClose_eq (trim : Bool) (depth : Nat) (buffer : String) :
    (atClose trim depth buffer).1 =
      (declaration? trim buffer).toList ++ if depth = 0 then [] else [.closed] := by
  rw [atClose]
  cases declaration? trim buffer <;> cases depth <;> rfl

/-- The reader closes only blocks that it has opened, whatever the text. Braces too many are not
reported. -/
theorem nested_scan (trim : Bool) (depth : Nat) (buffer : String) (cs : List Char) :
    Nested depth (scan trim depth buffer cs) := by
  fun_induction scan trim depth buffer cs with
  | case1 depth buffer =>
    simpa [Nested] using (nested_declaration?_append trim buffer depth []).2 trivial
  | case2 depth buffer rest ih => exact ih
  | case3 depth buffer rest events buffer' heq _ ih =>
    have h := nested_atSemicolon_append trim buffer depth (scan trim depth buffer' rest)
    rw [heq] at h
    exact h.2 ih
  | case4 depth buffer rest events buffer' heq _ _ ih =>
    have hevents : events = _ := (congrArg Prod.fst heq).symm.trans (atClose_eq trim depth buffer)
    rw [hevents, List.append_assoc, nested_declaration?_append]
    cases depth with
    | zero => exact ih
    | succ depth => exact ih
  | case5 => assumption
  | case6 depth => cases depth <;> assumption
  | case7 depth buffer =>
    simpa [Nested] using (nested_declaration?_append trim buffer depth []).2 trivial
  | case8 => assumption

end Event

namespace Sheet

/-- The open blocks, innermost first: each one is a child of the next and was
created later. -/
inductive Trail (s : Sheet) : NodeId → List NodeId → Prop where
  | root (hgroup : (s.group? root).isSome) : Trail s root []
  | cons {id parent : NodeId} {outer : List NodeId} (hgroup : (s.group? id).isSome)
      (hparent : s.parent? id = some parent) (hlt : parent < id) (houter : Trail s parent outer) :
      Trail s id (parent :: outer)

section

variable {s t : Sheet} {current : NodeId} {outer : List NodeId}

/-- The innermost open block is a group, as all of them are. -/
theorem Trail.isSome_group? (h : s.Trail current outer) : (s.group? current).isSome := by
  cases h <;> assumption

/-- The blocks further out were created earlier, so they have smaller numbers. -/
theorem Trail.le_of_mem (h : s.Trail current outer) : ∀ id ∈ current :: outer, id ≤ current := by
  induction h with
  | root => simp
  | @cons id parent outer hgroup hparent hlt houter ih =>
    intro x hx
    rcases List.mem_cons.1 hx with rfl | hx
    · exact Nat.le_refl _
    · exact Nat.le_trans (ih x hx) (Nat.le_of_lt hlt)

theorem Trail.lt_size (h : s.Trail current outer) : ∀ id ∈ current :: outer, id < s.size := by
  intro id hid
  obtain ⟨g, hg⟩ := Option.isSome_iff_exists.1 h.isSome_group?
  exact Nat.lt_of_le_of_lt (h.le_of_mem id hid) (lt_size_of_node? (group?_eq_some_iff.1 hg))

theorem Trail.not_mem_outer (h : s.Trail current outer) : current ∉ outer := by
  cases h with
  | root => simp
  | @cons _ parent outer hgroup hparent hlt houter =>
    intro hmem
    exact absurd (houter.le_of_mem current hmem) (Nat.not_le_of_lt hlt)

/-- A trail stays one while its groups stay groups and keep their parents. Their children may
change. Nodes off the trail may do anything. -/
theorem Trail.congr (h : s.Trail current outer)
    (hgroup : ∀ id ∈ current :: outer, (s.group? id).isSome → (t.group? id).isSome)
    (hparent : ∀ id ∈ current :: outer, t.parent? id = s.parent? id) : t.Trail current outer := by
  induction h with
  | root hroot => exact .root (hgroup _ (by simp) hroot)
  | @cons id parent outer hid hup hlt houter ih =>
    refine .cons (hgroup _ (by simp) hid) ?_ hlt (ih ?_ ?_)
    · rw [hparent _ (by simp), hup]
    · exact fun x hx => hgroup x (List.mem_cons_of_mem _ hx)
    · exact fun x hx => hparent x (List.mem_cons_of_mem _ hx)

end

end Sheet

end Sheetsmith
