import Sheetsmith.Proofs.Sheet.Buffer
import Sheetsmith.Proofs.Sheet.Building

namespace Sheetsmith

/-- The header of a block that is read from its written parts. -/
def Layout.header (layout : Layout) (parts : List String) : String :=
  Text.trimmed (layout.comma.intercalate parts)

mutual

/-- What the reader reports of the text of an outline. -/
def Outline.events (layout : Layout) : Outline → List Event
  | .leaf ⟨.comment, text⟩ => [.comment text]
  | .leaf ⟨.importRule, text⟩ => [.importRule text]
  | .declaration d => [.declaration d.name d.value]
  | .group parts children =>
    .opened (some (layout.header parts)) :: (Outline.allEvents layout children ++ [.closed])

/-- What the reader reports of the text of a list of outlines. -/
def Outline.allEvents (layout : Layout) : List Outline → List Event
  | [] => []
  | o :: os => o.events layout ++ Outline.allEvents layout os

end

theorem Outline.allEvents_append (layout : Layout) (os os' : List Outline) :
    allEvents layout (os ++ os') = allEvents layout os ++ allEvents layout os' := by
  induction os with
  | nil => rfl
  | cons o os ih => rw [List.cons_append, allEvents, allEvents, ih, List.append_assoc]

theorem Outline.allEvents_singleton (layout : Layout) (o : Outline) :
    allEvents layout [o] = o.events layout :=
  List.append_nil _

namespace Event

open Sheetsmith.Text

/-- Events that describe nodes of the innermost open block, and leave the same
blocks open. -/
def Tells (events : List Event) (os : List Outline) : Prop :=
  ∀ later, levels (events ++ later) 0 = os ++ levels later 0 ∧
    ∀ level, levels (events ++ later) (level + 1) = levels later (level + 1)

theorem tells_nil : Tells [] [] :=
  fun _ => ⟨rfl, fun _ => rfl⟩

/-- Events in a row describe what both lists of events describe, one after the other. -/
theorem Tells.append {events events' : List Event} {os os' : List Outline} (h : Tells events os)
    (h' : Tells events' os') : Tells (events ++ events') (os ++ os') := by
  intro later
  rw [List.append_assoc, List.append_assoc, ← (h' later).1]
  refine ⟨(h _).1, fun level => ?_⟩
  rw [(h _).2, (h' later).2]

theorem tells_declaration (name value : String) :
    Tells [.declaration name value] [.declaration ⟨name, value⟩] :=
  fun _ => ⟨rfl, fun _ => rfl⟩

theorem tells_importRule (text : String) : Tells [.importRule text] [.leaf ⟨.importRule, text⟩] :=
  fun _ => ⟨rfl, fun _ => rfl⟩

theorem tells_comment (text : String) : Tells [.comment text] [.leaf ⟨.comment, text⟩] :=
  fun _ => ⟨rfl, fun _ => rfl⟩

/-- A block describes a group with what is inside of it, and leaves the same blocks open as before.
Nothing is assumed about the header: its parts are what the splitter makes of it. -/
theorem Tells.group {events : List Event} {os : List Outline} (h : Tells events os)
    (selector : String) :
    Tells (.opened (some selector) :: (events ++ [.closed]))
      [.group (Sheet.selectorParts selector) os] := by
  intro later
  have hinner := h (.closed :: later)
  rw [List.cons_append, List.append_assoc, List.singleton_append]
  refine ⟨?_, fun level => hinner.2 (level + 1)⟩
  rw [levels, hinner.1, hinner.2 0]
  simp [levels]

/-- Selector parts that are found again when they are written with commas between
them. -/
structure ReadableParts (depth : Nat) (parts : List String) : Prop where
  ne_nil : parts ≠ []
  ne_blank : parts ≠ [""]
  part : ∀ part ∈ parts, ',' ∉ part.toList ∧ trim part.toList = part.toList
  absorbed : Absorbed depth ([','].intercalate (parts.map String.toList))

instance (depth : Nat) (parts : List String) : Decidable (ReadableParts depth parts) :=
  decidable_of_iff (parts ≠ [] ∧ parts ≠ [""] ∧
      (∀ part ∈ parts, ',' ∉ part.toList ∧ trim part.toList = part.toList) ∧
      Absorbed depth ([','].intercalate (parts.map String.toList)))
    ⟨fun h => ⟨h.1, h.2.1, h.2.2.1, h.2.2.2⟩,
      fun h => ⟨h.ne_nil, h.ne_blank, h.part, h.absorbed⟩⟩

/-- A declaration that is found again when it is written. -/
structure ReadableDeclaration (depth : Nat) (d : Declaration) : Prop where
  name : trim d.name.toList = d.name.toList
  value : trim d.value.toList = d.value.toList
  colon : ':' ∉ d.name.toList
  absorbed : Absorbed depth (d.name.toList ++ ':' :: d.value.toList)

instance (depth : Nat) (d : Declaration) : Decidable (ReadableDeclaration depth d) :=
  decidable_of_iff (trim d.name.toList = d.name.toList ∧ trim d.value.toList = d.value.toList ∧
      ':' ∉ d.name.toList ∧ Absorbed depth (d.name.toList ++ ':' :: d.value.toList))
    ⟨fun h => ⟨h.1, h.2.1, h.2.2.1, h.2.2.2⟩, fun h => ⟨h.name, h.value, h.colon, h.absorbed⟩⟩

/-- The body of an `@import` statement that is found again when it is written. -/
structure ReadableImport (depth : Nat) (body : List Char) : Prop where
  start : StartsImport body
  trimmed : trim body = body
  colon : ':' ∉ body
  absorbed : Absorbed depth body

/-- A leaf that is found again when it is written: a comment ends where it is
first closed, an `@import` statement at its semicolon. -/
def ReadableLeaf (depth : Nat) : Leaf → Prop
  | ⟨.comment, text⟩ =>
    ∃ body, text.toList = '/' :: '*' :: body ∧ takeComment? false body = some (body, [])
  | ⟨.importRule, text⟩ => ∃ body, text.toList = body ++ [';'] ∧ ReadableImport depth body

/-- Outlines that are found again when they are written inside `depth` open
blocks. -/
inductive Readable : Nat → List Outline → Prop where
  | nil {depth : Nat} : Readable depth []
  | leaf {depth : Nat} {leaf : Leaf} {os : List Outline} (hleaf : ReadableLeaf depth leaf)
      (hrest : Readable depth os) : Readable depth (.leaf leaf :: os)
  | declaration {depth : Nat} {d : Declaration} {os : List Outline}
      (hdeclaration : ReadableDeclaration depth d) (hrest : Readable depth os) :
      Readable depth (.declaration d :: os)
  | group {depth : Nat} {parts : List String} {inner os : List Outline}
      (hparts : ReadableParts depth parts) (hinner : Readable (depth + 1) inner)
      (hrest : Readable depth os) : Readable depth (.group parts inner :: os)

/-- The parts of a selector are readable when the reader takes the selector in as it stands: the
blanks around its commas do not matter. Its parts may be empty, as long as not all of it is blank.
-/
theorem readableParts_selectorParts {depth : Nat} {selector : String}
    (hne : trim selector.toList ≠ []) (habsorbed : Absorbed depth selector.toList) :
    ReadableParts depth (Sheet.selectorParts selector) := by
  have hempty : selector.isEmpty = false := by
    rw [← Bool.not_eq_true, String.isEmpty_iff]
    rintro rfl
    exact hne rfl
  have htoList : (Sheet.selectorParts selector).map String.toList =
      (splitAtEach ',' selector.toList).map trim := by
    simp [Sheet.selectorParts, hempty]
  refine ⟨?_, ?_, ?_, ?_⟩
  · rw [Ne, Sheet.selectorParts_eq_nil_iff, hempty]
    decide
  · intro hblank
    rw [hblank] at htoList
    obtain ⟨part, hsplit, htrim⟩ := List.map_eq_singleton_iff.1 htoList.symm
    have hpart := intercalate_splitAtEach ',' selector.toList
    rw [hsplit, List.intercalate_singleton] at hpart
    exact hne (hpart ▸ htrim)
  · intro part hpart
    rw [Sheet.selectorParts, hempty] at hpart
    obtain ⟨piece, hpiece, rfl⟩ := List.mem_map.1 hpart
    rw [String.toList_ofList]
    exact ⟨fun hmem => not_mem_of_mem_splitAtEach hpiece (mem_of_mem_trim hmem), trim_trim piece⟩
  · have h := (ignoresBlanks_absorbed depth).closed_map_trim_iff looseEnd_nil
      (splitAtEach ',' selector.toList)
    rw [htoList]
    exact h.2 (by rwa [List.nil_append, intercalate_splitAtEach])

end Event

end Sheetsmith
