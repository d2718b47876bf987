import Sheetsmith.Proofs.Sheet.ReadBack

namespace Sheetsmith

open Sheetsmith.Text Sheetsmith.Event

/-- Trimmed text that holds, outside its strings, no brace, no semicolon and no
start of a comment, and in which every string is closed. -/
structure Clean (cs : List Char) : Prop where
  trimmed : trim cs = cs
  lexed : Lexed (fun c => c ≠ '\x7b' ∧ c ≠ '\x7d' ∧ c ≠ ';') cs

instance (cs : List Char) : Decidable (Clean cs) :=
  decidable_of_iff (trim cs = cs ∧ Lexed (fun c => c ≠ '\x7b' ∧ c ≠ '\x7d' ∧ c ≠ ';') cs)
    ⟨fun h => ⟨h.1, h.2⟩, fun h => ⟨h.trimmed, h.lexed⟩⟩

/-- A node whose text stands for itself: a comment ends at the first `*/` behind its
opening, an `@import` statement at its semicolon, the name of a declaration at its
colon, and a group has a selector. -/
def Node.WellWritten : Node → Prop
  | .leaf ⟨.comment, text⟩ =>
    ∃ body, text.toList = '/' :: '*' :: body ∧ takeComment? false body = some (body, [])
  | .leaf ⟨.importRule, text⟩ =>
    ∃ body, text.toList = body ++ [';'] ∧ Clean body ∧ "@import".toList <+: body ∧ ':' ∉ body
  | .declaration d => Clean d.name.toList ∧ Clean d.value.toList ∧ ':' ∉ d.name.toList
  | .group g => ∃ selector, g.selector = some selector ∧ selector ≠ "" ∧ Clean selector.toList

instance : DecidablePred Node.WellWritten
  | .leaf ⟨.comment, text⟩ =>
    decidable_of_iff (text.toList.take 2 = ['/', '*'] ∧
        takeComment? false (text.toList.drop 2) = some (text.toList.drop 2, [])) <| by
      constructor
      · rintro ⟨hopen, hclose⟩
        exact ⟨_, by rw [← List.take_append_drop 2 text.toList, hopen]; rfl, hclose⟩
      · rintro ⟨body, htext, hclose⟩
        rw [htext]
        exact ⟨rfl, hclose⟩
  | .leaf ⟨.importRule, text⟩ =>
    decidable_of_iff (text.toList.getLast? = some ';' ∧ Clean text.toList.dropLast ∧
        "@import".toList <+: text.toList.dropLast ∧ ':' ∉ text.toList.dropLast) <| by
      constructor
      · rintro ⟨hlast, hbody⟩
        exact ⟨_, (List.dropLast_append_getLast? _ hlast).symm, hbody⟩
      · rintro ⟨body, htext, hbody⟩
        rw [htext, List.dropLast_concat, List.getLast?_concat]
        exact ⟨rfl, hbody⟩
  | .declaration d =>
    inferInstanceAs (Decidable (Clean d.name.toList ∧ Clean d.value.toList ∧ ':' ∉ d.name.toList))
  | .group g =>
    decidable_of_iff (∃ selector ∈ g.selector, selector ≠ "" ∧ Clean selector.toList) Iff.rfl

/-- The root has no selector, and every node below it is well written. -/
structure Sheet.WellWritten (s : Sheet) : Prop where
  root : s.selectors root = []
  node : ∀ id ∈ s.descendants Sheet.root, ∀ node, s.node? id = some node → node.WellWritten

instance (s : Sheet) : Decidable s.WellWritten :=
  decidable_of_iff (s.selectors Sheet.root = [] ∧
      ∀ id ∈ s.descendants Sheet.root, ∀ node ∈ s.node? id, node.WellWritten)
    ⟨fun h => ⟨h.1, h.2⟩, fun h => ⟨h.root, h.node⟩⟩

/-- A character that is no brace and no semicolon is kept in the buffer, at every depth and behind
any text. -/
theorem keeps_of_clean (depth : Nat) (before : List Char) {c : Char}
    (hc : c ≠ '\x7b' ∧ c ≠ '\x7d' ∧ c ≠ ';') : Keeps depth before c :=
  ⟨hc.1, fun h => absurd h hc.2.2, fun h => absurd h hc.2.1⟩

/-- The reader takes in clean text without reporting anything of it, at every depth. -/
theorem Clean.absorbed {cs : List Char} (h : Clean cs) (depth : Nat) : Absorbed depth cs :=
  h.lexed.closed.mono fun before _ hc => ⟨keeps_of_clean depth before hc.1, hc.2⟩

/-- The colon between a name and a value keeps a comment from opening there. So name and value need
to be clean each for itself only. -/
theorem Clean.absorbed_declaration {name value : List Char} (hname : Clean name)
    (hvalue : Clean value) (depth : Nat) : Absorbed depth (name ++ ':' :: value) := by
  obtain ⟨hplace, heach⟩ := hvalue.lexed.each (name ++ [':']) (by simp)
  have hfront : Absorbed depth (name ++ [':']) :=
    (hname.absorbed depth).push (by decide) ⟨keeps_of_clean depth name (by decide), by simp [NoComment]⟩
  have hsplit : name ++ ':' :: value = (name ++ [':']) ++ value := by simp
  rw [hsplit]
  refine ⟨by rw [Place.after_append, hfront.place, hplace], each_append.2 ⟨hfront.each, ?_⟩⟩
  rw [hfront.place]
  exact heach.mono fun before _ hc => ⟨keeps_of_clean depth before hc.1, hc.2⟩

/-- A well-written comment or import rule is found again at every depth. -/
theorem Node.WellWritten.readableLeaf {leaf : Leaf} (h : (Node.leaf leaf).WellWritten) (depth : Nat) :
    ReadableLeaf depth leaf := by
  obtain ⟨kind, text⟩ := leaf
  cases kind with
  | comment => exact h
  | importRule =>
    obtain ⟨body, htext, hclean, ⟨rest, hrest⟩, hcolon⟩ := h
    exact ⟨body, htext, ⟨[], rest, allBlank_nil, hrest.symm⟩, hclean.trimmed, hcolon,
      hclean.absorbed depth⟩

theorem Node.WellWritten.readableDeclaration {d : Declaration} (h : (Node.declaration d).WellWritten)
    (depth : Nat) : ReadableDeclaration depth d :=
  ⟨h.1.trimmed, h.2.1.trimmed, h.2.2, h.1.absorbed_declaration h.2.1 depth⟩

/-- The header of a well-written group is found again at every depth, in its parts. The blanks
around its commas are not kept. -/
theorem Node.WellWritten.readableParts {g : Group} (h : (Node.group g).WellWritten) (depth : Nat) :
    ReadableParts depth (g.selector.elim [] Sheet.selectorParts) := by
  obtain ⟨selector, hselector, hne, hclean⟩ := h
  rw [hselector]
  refine readableParts_selectorParts ?_ (hclean.absorbed depth)
  rw [hclean.trimmed]
  simpa using hne

namespace Sheet

/-- The selector parts of a group are those of its header. Without a header it has none. -/
theorem selectors_of_group? {s : Sheet} {id : NodeId} {g : Group} (h : s.group? id = some g) :
    s.selectors id = g.selector.elim [] selectorParts := by
  rw [selectors, selector?, h]
  cases hselector : g.selector <;> simp [hselector]

/-- Well-written nodes look readable at every depth. The nodes of the listing are asked to be well
written, and no others. -/
theorem Shows.readable {s : Sheet} {ids : List NodeId} {os : List Outline} (hshows : s.Shows ids os)
    {all : List NodeId} (hspans : s.Spans ids all)
    (hall : ∀ id ∈ all, ∀ node, s.node? id = some node → node.WellWritten) (depth : Nat) :
    Readable depth os := by
  induction hshows generalizing all depth with
  | nil => exact .nil
  | @leaf id ids leaf os hnode hrest ih =>
    cases hspans with
    | @cons _ _ below rest hbelow hspans =>
      exact .leaf ((hall id (by simp) _ hnode).readableLeaf depth)
        (ih hspans (fun x hx => hall x (by simp [hx])) depth)
  | @declaration id ids d os hnode hrest ih =>
    cases hspans with
    | @cons _ _ below rest hbelow hspans =>
      exact .declaration ((hall id (by simp) _ hnode).readableDeclaration depth)
        (ih hspans (fun x hx => hall x (by simp [hx])) depth)
  | @group id ids inner os hgroup hinner hrest ihinner ihrest =>
    cases hspans with
    | @cons _ _ below rest hbelow hspans =>
      obtain ⟨g, hg⟩ := Option.isSome_iff_exists.1 hgroup
      have hparts := (hall id (by simp) _ (group?_eq_some_iff.1 hg)).readableParts depth
      rw [← selectors_of_group? hg] at hparts
      exact .group hparts (ihinner hbelow (fun x hx => hall x (by simp [hx])) (depth + 1))
        (ihrest hspans (fun x hx => hall x (by simp [hx])) depth)

/-- A well-written sheet is readable. The converse fails: headers and values may be readable where
they stand without being clean. -/
theorem WellWritten.isReadable {s : Sheet} (h : s.WellWritten) (hs : s.IsForest) : s.IsReadable := by
  obtain ⟨os, hshows⟩ := hs.exists_shows_children Sheet.root
  exact ⟨os, hshows, hshows.readable (hs.spans_descendants Sheet.root) h.node 0⟩

/-- Reading back the text of a well-written sheet gives the same tree, in both layouts. The sheet
may be any forest, however it was made; its detached nodes may be anything, as they are not written.
Assumed is that each node of the tree stands for itself in a text: no name, value or header holds a
brace, a semicolon or the start of a comment outside of its strings, all strings are closed, and
every group has a header. Declarations may be empty, and blanks around the commas of a header may be
lost, since trees are compared by the parts of their headers. -/
theorem parse_render_sameTree {s : Sheet} (hs : s.IsForest) (hwritten : s.WellWritten)
    (layout : Layout) : s.SameTree (parse true (s.render layout)) := by
  obtain ⟨os, hshows, hreadable⟩ := hwritten.isReadable hs
  exact hs.sameTree_parse_render hwritten.root hshows hreadable layout

/-- A well-written sheet: a comment, an import and, two blocks deep, a declaration
whose string looks like the end of a block. -/
def printSheet : Sheet :=
  ofEvents [.comment "/* a; */", .importRule "@import \"a;\";", .opened (some "@media"),
    .opened (some "a , b"), .declaration "c" "\"\x7d\"", .closed, .closed]

/-- The sheet meets what is assumed of a sheet that is read back. -/
theorem wellWritten_printSheet : printSheet.WellWritten := by
  decide +kernel

theorem parse_render_sameTree_printSheet :
    printSheet.SameTree (parse true (printSheet.render .compressed)) ∧
      printSheet.SameTree (parse true (printSheet.render .spread)) :=
  ⟨parse_render_sameTree (isForest_ofEvents _) wellWritten_printSheet .compressed,
    parse_render_sameTree (isForest_ofEvents _) wellWritten_printSheet .spread⟩

end Sheet

end Sheetsmith
