import Sheetsmith.Proofs.Sheet.ReadBack

namespace Sheetsmith

namespace Text

/-- No comment opens in a text outside its strings. -/
structure CommentFree (cs : List Char) : Prop where
  each : Each NoComment .outside [] cs

instance (cs : List Char) : Decidable (CommentFree cs) :=
  decidable_of_iff (Each NoComment .outside [] cs) ⟨fun h => ⟨h⟩, fun h => h.each⟩

end Text

open Sheetsmith.Text

namespace Event

/-- The text of an event as it is written again. -/
def written : Event → List Char
  | .opened selector => (selector.getD "").toList
  | .declaration name value => name.toList ++ ':' :: value.toList
  | .importRule text => text.toList
  | .comment text => text.toList
  | .closed => []

/-- A property of outlines inside so many open blocks that readable pieces hand on. -/
structure Composes (P : Nat → List Outline → Prop) : Prop where
  nil {depth : Nat} : P depth []
  leaf {depth : Nat} {leaf : Leaf} {os : List Outline} (hleaf : ReadableLeaf depth leaf)
    (hrest : P depth os) : P depth (.leaf leaf :: os)
  declaration {depth : Nat} {d : Declaration} {os : List Outline}
    (hdeclaration : ReadableDeclaration depth d) (hrest : P depth os) :
    P depth (.declaration d :: os)
  group {depth : Nat} {parts : List String} {inner os : List Outline}
    (hparts : ReadableParts depth parts) (hinner : P (depth + 1) inner) (hrest : P depth os) :
    P depth (.group parts inner :: os)

theorem composes_readable : Composes Readable :=
  ⟨.nil, .leaf, .declaration, .group⟩

/-- Inside `depth` open blocks, what the events add to each of the blocks has the property. -/
def OnLevels (P : Nat → List Outline → Prop) (depth : Nat) (events : List Event) : Prop :=
  ∀ level ≤ depth, P (depth - level) (levels events level)

section

variable {P : Nat → List Outline → Prop} {depth : Nat} {events : List Event}

/-- Nothing was reported, so nothing is added to any block. -/
theorem Composes.onLevels_nil (hP : Composes P) (depth : Nat) : OnLevels P depth [] :=
  fun _ _ => hP.nil

/-- A block that opens, with the property of what has become a group in the block around it. Whether
a missing header is allowed is left to that assumption. -/
theorem OnLevels.opened (h : OnLevels P (depth + 1) events) {selector : Option String}
    (hgroup : ∀ {inner os}, P (depth + 1) inner → P depth os →
      P depth (.group (selector.elim [] Sheet.selectorParts) inner :: os)) :
    OnLevels P depth (.opened selector :: events) := by
  intro level hlevel
  cases level with
  | zero => exact hgroup (h 0 (Nat.zero_le _)) (by simpa using h 1 (by omega))
  | succ level =>
    have houter := h (level + 2) (by omega)
    rwa [show depth + 1 - (level + 2) = depth - (level + 1) by omega] at houter

/-- A declaration that is readable at its depth may stand in front of what follows it. The events
behind it may close blocks that were open before. -/
theorem Composes.onLevels_declaration (hP : Composes P) (h : OnLevels P depth events)
    {name value : String} (hdeclaration : ReadableDeclaration depth ⟨name, value⟩) :
    OnLevels P depth (.declaration name value :: events) := by
  intro level hlevel
  cases level with
  | zero => exact hP.declaration hdeclaration (h 0 hlevel)
  | succ level => exact h (level + 1) hlevel

/-- An import rule that is readable at its depth may stand in front of what follows it. Comments
have no such lemma, as none is reported here. -/
theorem Composes.onLevels_importRule (hP : Composes P) (h : OnLevels P depth events)
    {text : String} (hleaf : ReadableLeaf depth ⟨.importRule, text⟩) :
    OnLevels P depth (.importRule text :: events) := by
  intro level hlevel
  cases level with
  | zero => exact hP.leaf hleaf (h 0 hlevel)
  | succ level => exact h (level + 1) hlevel

/-- A brace ends what its block holds and is added to no block. What follows it belongs to the
blocks further out. -/
theorem Composes.onLevels_closed (hP : Composes P) (h : OnLevels P depth events) :
    OnLevels P (depth + 1) (.closed :: events) := by
  intro level hlevel
  cases level with
  | zero => exact hP.nil
  | succ level =>
    have houter := h level (by omega)
    rwa [show depth - level = depth + 1 - (level + 1) by omega] at houter

end

theorem closed_empty (depth : Nat) : Closed (Keeps depth) "".toList := by
  rw [String.toList_empty]
  exact closed_nil _

section

variable {P : Nat → List Outline → Prop} {depth : Nat} {buffer : String}
  (hbuffer : Closed (Keeps depth) buffer.toList)
include hbuffer

/-- What is in the buffer, without the blanks around it, is kept by the reader when it is written
again. That it opens no comment is assumed. -/
theorem absorbed_trim (hcomment : CommentFree (trim buffer.toList)) :
    Absorbed depth (trim buffer.toList) := by
  have htrim := (ignoresBlanks_keeps depth).closed_trim_iff looseEnd_nil looseStart_nil buffer.toList
  simp only [List.nil_append, List.append_nil] at htrim
  have hkeeps := htrim.1 hbuffer
  exact hkeeps.and ⟨hkeeps.place, hcomment.each⟩

/-- The declaration in a buffer is readable. Where the buffer holds none, nothing is reported and
nothing is to be shown. -/
theorem onLevels_declaration? (hP : Composes P) {events : List Event} (h : OnLevels P depth events)
    (hcomment : ∀ event ∈ declaration? true buffer, CommentFree event.written) :
    OnLevels P depth ((declaration? true buffer).toList ++ events) := by
  by_cases hcolon : ':' ∈ buffer.toList
  · obtain ⟨name, value, hsplit, hname⟩ := List.eq_append_cons_of_mem hcolon
    obtain rfl : buffer = String.ofList (name ++ ':' :: value) := by
      rw [← hsplit, String.ofList_toList]
    rw [String.toList_ofList] at hbuffer
    rw [declaration?_ofList hname] at hcomment ⊢
    have hfree := hcomment _ rfl
    have hfront := (ignoresBlanks_keeps depth).closed_trim_iff looseEnd_nil
      (looseStart_cons (.inr rfl) value) name
    have hback := (ignoresBlanks_keeps depth).closed_trim_iff
      (looseEnd_concat (trim name) (.inr rfl)) looseStart_nil value
    simp only [List.nil_append, List.append_nil, List.append_assoc, List.singleton_append]
      at hfront hback
    have hkeeps := hback.1 (hfront.1 hbuffer)
    simp only [written, String.toList_ofList] at hfree
    refine hP.onLevels_declaration h ⟨?_, ?_, ?_, ?_⟩
    · simp [trim_trim]
    · simp [trim_trim]
    · rw [String.toList_ofList]
      exact fun hmem => hname (mem_of_mem_trim hmem)
    · simp only [String.toList_ofList]
      exact hkeeps.and ⟨hkeeps.place, hfree.each⟩
  · rw [declaration?_eq_none_iff.2 hcolon]
    exact h

/-- The header of a block that opens is readable, or missing. That a block without a header has the
property is asked for only if there is one. -/
theorem onLevels_atOpen (hP : Composes P) {events : List Event} (h : OnLevels P (depth + 1) events)
    (hbare : atOpen true buffer = .opened none → ∀ {inner os}, P (depth + 1) inner → P depth os →
      P depth (.group [] inner :: os))
    (hcomment : CommentFree (atOpen true buffer).written) :
    OnLevels P depth (atOpen true buffer :: events) := by
  by_cases hne : trim buffer.toList = []
  · have hopen : atOpen true buffer = .opened none := by simp [atOpen, clip, hne]
    rw [hopen]
    exact h.opened (hbare hopen)
  · have hopen : atOpen true buffer = .opened (some (String.ofList (trim buffer.toList))) := by
      simp [atOpen, clip, String.isEmpty_iff, hne]
    rw [hopen] at hcomment ⊢
    simp only [written, Option.getD_some, String.toList_ofList] at hcomment
    refine h.opened fun hinner hrest => hP.group ?_ hinner hrest
    apply readableParts_selectorParts
    · rwa [String.toList_ofList, trim_trim]
    · rw [String.toList_ofList]
      exact absorbed_trim hbuffer hcomment

/-- What a semicolon ends is readable, be it a declaration, an import rule, or text that is left in
the buffer. -/
theorem onLevels_atSemicolon (hP : Composes P) {events : List Event} (h : OnLevels P depth events)
    (hcomment : ∀ event ∈ (atSemicolon true buffer).1, CommentFree event.written) :
    OnLevels P depth ((atSemicolon true buffer).1 ++ events) := by
  rw [atSemicolon] at hcomment ⊢
  cases hdeclaration : declaration? true buffer with
  | some event =>
    have hreadable := onLevels_declaration? hbuffer hP h
    simp only [hdeclaration] at hreadable hcomment ⊢
    exact hreadable fun event' hevent' => hcomment event' (by simpa [eq_comm] using hevent')
  | none =>
    simp only [hdeclaration] at hcomment ⊢
    by_cases himport : isImport buffer = true
    · simp only [himport, if_true, clip] at hcomment ⊢
      apply hP.onLevels_importRule h
      have hfree := hcomment _ (List.mem_singleton_self _)
      simp only [written, String.toList_append, String.toList_ofList] at hfree
      refine ⟨trim buffer.toList, by simp, ?_, trim_trim _, ?_, ?_⟩
      · rw [isImport, List.isPrefixOf_iff_prefix] at himport
        obtain ⟨rest, hrest⟩ := himport
        exact ⟨[], rest, allBlank_nil, hrest.symm⟩
      · rw [declaration?_eq_none_iff] at hdeclaration
        exact fun hmem => hdeclaration (mem_of_mem_trim hmem)
      · exact absorbed_trim hbuffer ⟨(each_append.1 hfree.each).1⟩
    · simp only [himport, Bool.false_eq_true, if_false]
      split <;> exact h

/-- The buffer behind a semicolon: it is empty, or it is kept since it made no declaration. -/
theorem closed_keeps_atSemicolon : Closed (Keeps depth) (atSemicolon true buffer).2.toList := by
  rw [atSemicolon]
  cases hdeclaration : declaration? true buffer with
  | some event => exact closed_empty depth
  | none =>
    dsimp only
    split
    · exact closed_empty depth
    · next himport =>
      split
      · exact hbuffer
      · next hblank =>
        rw [String.toList_push]
        apply hbuffer.push (by decide)
        refine ⟨by decide, fun _ => ⟨?_, ?_, ?_⟩, fun h => absurd h (by decide)⟩
        · exact declaration?_eq_none_iff.1 hdeclaration
        · rwa [← isImport_iff]
        · rwa [← isAllBlank_iff]

/-- The buffer behind a closing brace: outside every block the brace is text. Inside one the brace
may leave text over, which stands in front of what follows the block. -/
theorem closed_keeps_atClose :
    Closed (Keeps (depth - 1)) (atClose true depth buffer).2.toList := by
  have hrest : ∃ rest : String, Closed (Keeps depth) rest.toList ∧ ':' ∉ rest.toList ∧
      (atClose true depth buffer).2 = if depth = 0 then rest.push '\x7d' else rest := by
    cases hdeclaration : declaration? true buffer with
    | some event =>
      refine ⟨"", closed_empty depth, by simp, ?_⟩
      simp only [atClose, hdeclaration]
      split <;> rfl
    | none =>
      refine ⟨buffer, hbuffer, declaration?_eq_none_iff.1 hdeclaration, ?_⟩
      simp only [atClose, hdeclaration]
      split <;> rfl
  obtain ⟨rest, hclosed, hcolon, heq⟩ := hrest
  rw [heq]
  cases depth with
  | zero =>
    rw [if_pos rfl, String.toList_push]
    apply hclosed.push (by decide)
    exact ⟨by decide, fun h => absurd h (by decide), fun _ => ⟨rfl, hcolon⟩⟩
  | succ depth =>
    rw [if_neg (Nat.succ_ne_zero depth)]
    exact hclosed.mono fun _ _ => Keeps.outward

end

/-- What the reader reports of a text is made of readable pieces and of blocks without a header. The
strings of the text are closed, and what was reported forms no comment when it is written again;
this shuts out comments in the text, and leftovers that become one with what follows. Whether the
property holds of blocks without a header is asked for only if there is one. -/
theorem onLevels_scan {P : Nat → List Outline → Prop} (hP : Composes P) {depth : Nat}
    {buffer : String} {cs : List Char} (htext : Lexed (fun _ => True) cs)
    (hbuffer : Closed (Keeps depth) buffer.toList)
    (hbare : .opened none ∈ scan true depth buffer cs → ∀ {depth inner os}, P (depth + 1) inner →
      P depth os → P depth (.group [] inner :: os))
    (hcomment : ∀ event ∈ scan true depth buffer cs, CommentFree event.written) :
    OnLevels P depth (scan true depth buffer cs) := by
  fun_induction scan true depth buffer cs with
  | case1 depth buffer =>
    have h := onLevels_declaration? hbuffer hP (hP.onLevels_nil depth)
    rw [List.append_nil] at h
    exact h fun event hevent => hcomment event (by simpa using hevent)
  | case2 depth buffer rest ih =>
    cases htext with
    | string hquote => exact absurd hquote (by decide)
    | char _ _ _ hrest =>
      simp only [List.mem_cons, or_imp, forall_and, forall_eq] at hbare hcomment
      exact onLevels_atOpen hbuffer hP (ih hrest (closed_empty _) hbare.2 hcomment.2)
        (fun hopen => hbare.1 hopen.symm) hcomment.1
  | case3 depth buffer rest events buffer' heq _ ih =>
    cases htext with
    | string hquote => exact absurd hquote (by decide)
    | char _ _ _ hrest =>
      have hclosed := closed_keeps_atSemicolon hbuffer
      simp only [heq] at hclosed
      simp only [List.mem_append, or_imp, forall_and] at hbare hcomment
      have hlater := ih hrest hclosed hbare.2 hcomment.2
      have hreadable := onLevels_atSemicolon hbuffer hP hlater
      simp only [heq] at hreadable
      exact hreadable hcomment.1
  | case4 depth buffer rest events buffer' heq _ _ ih =>
    cases htext with
    | string hquote => exact absurd hquote (by decide)
    | char _ _ _ hrest =>
      have hclosed := closed_keeps_atClose hbuffer
      have hevents : events = _ := (congrArg Prod.fst heq).symm.trans (atClose_eq true depth buffer)
      simp only [heq] at hclosed
      simp only [List.mem_append, or_imp, forall_and] at hbare hcomment
      have hlater := ih hrest hclosed hbare.2 hcomment.2
      have hdeclaration : ∀ event ∈ declaration? true buffer, CommentFree event.written := by
        intro event hevent
        exact hcomment.1 event (by rw [hevents]; simp [Option.mem_def.1 hevent])
      rw [hevents, List.append_assoc]
      apply onLevels_declaration? hbuffer hP _ hdeclaration
      cases depth with
      | zero => exact hlater
      | succ depth => exact hP.onLevels_closed hlater
  | case5 depth buffer c rest _ _ _ hquote string text ih =>
    cases htext with
    | char hnot => exact absurd hquote hnot
    | @string _ _ body after _ hclosed hafter =>
      have hstring : string = (body, some after) := hclosed
      have htext : text = quotedText c body true := by simp [text, hstring]
      apply ih
      · rw [hstring]
        exact hafter
      · rw [String.toList_append, String.toList_ofList, htext]
        exact hbuffer.append_string hquote hclosed
      · exact hbare
      · exact hcomment
  | case6 depth buffer c rest _ _ _ hnot hopen =>
    cases htext with
    | string hquote => exact absurd hquote hnot
    | char _ _ hcomment => exact absurd hopen hcomment
  | case7 depth buffer c rest _ _ _ hnot hopen =>
    cases htext with
    | string hquote => exact absurd hquote hnot
    | char _ _ hcomment => exact absurd hopen hcomment
  | case8 depth buffer c rest hopen hsemicolon hclose hnot _ ih =>
    cases htext with
    | string hquote => exact absurd hquote hnot
    | char _ _ _ hrest =>
      refine ih hrest ?_ hbare hcomment
      rw [String.toList_push]
      exact hbuffer.push hnot ⟨hopen, fun h => absurd h hsemicolon, fun h => absurd h hclose⟩

/-- Everything that the reader reports is found again when it is written, if no header is missing.
Braces and semicolons may be missing or too many. -/
theorem readable_levels_ofText {text : String} (htext : Lexed (fun _ => True) text.toList)
    (hheader : .opened none ∉ ofText true text)
    (hcomment : ∀ event ∈ ofText true text, CommentFree event.written) :
    Readable 0 (levels (ofText true text) 0) :=
  onLevels_scan composes_readable htext (closed_empty 0) (fun h => absurd h hheader) hcomment 0
    (Nat.le_refl 0)

end Event

namespace Sheet

open Sheetsmith.Event

/-- Sheets with the same tree are written alike, in both layouts. Their detached nodes and the
numbers of all nodes may differ. The roots have no header, as in every sheet that is read. -/
theorem SameTree.render_eq {s t : Sheet} (h : s.SameTree t) (hs : s.IsForest) (ht : t.IsForest)
    (hsroot : s.selectors root = []) (htroot : t.selectors root = []) (layout : Layout) :
    s.render layout = t.render layout := by
  obtain ⟨outline, hshows, hshows'⟩ := h
  obtain ⟨inner, rfl, hinner⟩ := hs.exists_inner hshows
  obtain ⟨inner', heq, hinner'⟩ := ht.exists_inner hshows'
  obtain rfl : inner = inner' := (Outline.group.inj heq).2
  rw [hs.render_eq_texts hsroot hinner, ht.render_eq_texts htroot hinner']

/-- One reading and writing gives a normal form: reading the text of a sheet that was read gives the
same tree again, in both layouts, and the same compressed text. Blocks and declarations that are not
closed, stray semicolons and braces, and text that is left over are all allowed. Assumed are closed
strings, a header on every block, and that nothing that was reported opens a comment where it is
written again. -/
theorem parse_render_parse_sameTree {text : String} (htext : Lexed (fun _ => True) text.toList)
    (hheader : .opened none ∉ ofText true text)
    (hcomment : ∀ event ∈ ofText true text, CommentFree event.written) (layout : Layout) :
    (parse true text).SameTree (parse true ((parse true text).render layout)) ∧
      (parse true ((parse true text).render layout)).render .compressed =
        (parse true text).render .compressed := by
  obtain ⟨hroot, hshows⟩ := shows_parse true text
  have hforest := isForest_parse true text
  have hreadable := readable_levels_ofText htext hheader hcomment
  have hsame := hforest.sameTree_parse_render hroot hshows hreadable layout
  refine ⟨hsame, (hsame.render_eq hforest (isForest_parse _ _) hroot ?_ .compressed).symm⟩
  exact (shows_parse _ _).1

/-- A text with a stray brace, a stray semicolon, text left over in front of another
declaration, a block that is not closed and a declaration that is not ended. -/
theorem parse_render_parse_sameTree_stray :
    let text := "x\x7da , b\x7b;foo;c:\"\x7d\"\x7dbar\x7d e\x7bf:g"
    (parse true text).SameTree (parse true ((parse true text).render .spread)) ∧
      (parse true ((parse true text).render .spread)).render .compressed =
        (parse true text).render .compressed :=
  parse_render_parse_sameTree (by decide +kernel) (by decide +kernel) (by decide +kernel) .spread

/-- What is left over when a block closes may form the start of a comment with what
follows. The text has no comment, and its tree has a block that is lost in the second
reading. -/
theorem not_sameTree_parse_render_leftover :
    Lexed (fun _ => True) "a\x7bfoo/\x7d*b\x7bc:d\x7d".toList ∧
      .opened none ∉ ofText true "a\x7bfoo/\x7d*b\x7bc:d\x7d" ∧
      ¬ (parse true "a\x7bfoo/\x7d*b\x7bc:d\x7d").SameTree
        (parse true ((parse true "a\x7bfoo/\x7d*b\x7bc:d\x7d").render .compressed)) := by
  refine ⟨by decide +kernel, by decide +kernel, ?_⟩
  intro hsame
  have hrender := hsame.render_eq (isForest_parse _ _) (isForest_parse _ _) (shows_parse _ _).1
    (shows_parse _ _).1 .compressed
  exact absurd hrender (by decide +kernel)

end Sheet

end Sheetsmith
