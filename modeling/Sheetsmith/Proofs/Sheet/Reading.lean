import Sheetsmith.Proofs.Sheet.Readable
import Sheetsmith.Proofs.Sheet.Scan
import Sheetsmith.Proofs.Sheet.Writing

namespace Sheetsmith.Event

open Sheetsmith.Text

/-- The reader takes in a text, whatever follows it, reports `events` and is left with
nothing but blanks. -/
def Reads (depth : Nat) (text : List Char) (events : List Event) : Prop :=
  ∀ blanks tail, AllBlank blanks → ∃ blanks', AllBlank blanks' ∧
    scan true depth (String.ofList blanks) (text ++ tail) =
      events ++ scan true depth (String.ofList blanks') tail

/-- The reader takes in the last text of a block and reports `events`, of which it may
still hold one declaration. -/
def ReadsLast (depth : Nat) (text : List Char) (events : List Event) : Prop :=
  ∀ blanks tail, AllBlank blanks → tail.head? ≠ some '*' → ∃ reported buffer,
    (':' ∉ buffer → AllBlank buffer) ∧
    reported ++ (declaration? true (String.ofList buffer)).toList = events ∧
    scan true depth (String.ofList blanks) (text ++ tail) =
      reported ++ scan true depth (String.ofList buffer) tail

section

variable {depth : Nat} {text text' : List Char} {events events' : List Event}

/-- Two texts behind each other, each taken in whatever follows it. -/
theorem Reads.append (h : Reads depth text events) (h' : Reads depth text' events') :
    Reads depth (text ++ text') (events ++ events') := by
  intro blanks tail hblanks
  obtain ⟨middle, hmiddle, hscan⟩ := h blanks (text' ++ tail) hblanks
  obtain ⟨blanks', hblanks', hscan'⟩ := h' middle tail hmiddle
  refine ⟨blanks', hblanks', ?_⟩
  rw [List.append_assoc, hscan, hscan', List.append_assoc]

/-- The last text of a block may stand behind any text that is taken in whatever follows. -/
theorem Reads.append_last (h : Reads depth text events) (h' : ReadsLast depth text' events') :
    ReadsLast depth (text ++ text') (events ++ events') := by
  intro blanks tail hblanks htail
  obtain ⟨middle, hmiddle, hscan⟩ := h blanks (text' ++ tail) hblanks
  obtain ⟨reported, buffer, hbuffer, rfl, hscan'⟩ := h' middle tail hmiddle htail
  refine ⟨events ++ reported, buffer, hbuffer, List.append_assoc _ _ _, ?_⟩
  rw [List.append_assoc, hscan, hscan', List.append_assoc]

/-- What is taken in whatever follows may be the last text of a block. Then no declaration is left
in the buffer. -/
theorem Reads.last (h : Reads depth text events) : ReadsLast depth text events := by
  intro blanks tail hblanks _
  obtain ⟨blanks', hblanks', hscan⟩ := h blanks tail hblanks
  refine ⟨events, blanks', fun _ => hblanks', ?_, hscan⟩
  rw [declaration?_of_allBlank hblanks']
  simp

end

/-- Blanks go into every buffer. They report nothing, at any depth. The buffer may hold anything,
also the first half of a comment's opening. -/
theorem scan_blanks (depth : Nat) (before : List Char) {blanks : List Char}
    (hblanks : AllBlank blanks) (tail : List Char) :
    scan true depth (String.ofList before) (blanks ++ tail) =
      scan true depth (String.ofList (before ++ blanks)) tail := by
  induction blanks generalizing before with
  | nil => simp
  | cons b blanks ih =>
    have hb : isBlank b = true := hblanks b (by simp)
    rw [List.cons_append, scan_of_keeps ((ignoresBlanks_keeps depth).blank before b hb)
      (not_isQuote_of_isBlank hb), ih _ fun c hc => hblanks c (by simp [hc])]
    · simp
    · rintro ⟨rfl, -⟩
      exact absurd hb (by decide)

theorem reads_blanks (depth : Nat) {blanks : List Char} (hblanks : AllBlank blanks) :
    Reads depth blanks [] := by
  intro before tail hbefore
  exact ⟨before ++ blanks, hbefore.append hblanks, scan_blanks depth before hblanks tail⟩

/-- Blanks behind a declaration are trimmed away with the rest. What the buffer holds, and whether
it is a declaration at all, does not matter. -/
theorem declaration?_append_blanks (buffer : List Char) {blanks : List Char}
    (hblanks : AllBlank blanks) :
    declaration? true (String.ofList (buffer ++ blanks)) =
      declaration? true (String.ofList buffer) := by
  by_cases hcolon : ':' ∈ buffer
  · obtain ⟨name, value, rfl, hname⟩ := List.eq_append_cons_of_mem hcolon
    rw [List.append_assoc, List.cons_append, declaration?_ofList hname, declaration?_ofList hname,
      trim_append_blank hblanks]
  · have hnone : declaration? true (String.ofList buffer) = none := by
      rwa [declaration?_eq_none_iff, String.toList_ofList]
    rw [hnone, declaration?_eq_none_iff, String.toList_ofList, List.mem_append, not_or]
    exact ⟨hcolon, hblanks.not_mem (by decide)⟩

/-- A closing brace inside a block ends the declaration in the buffer, if there is one, and leaves
blanks. Without a colon in the buffer there must be nothing but blanks in it, since other text would
be carried out of the block. -/
theorem scan_close_of_last (depth : Nat) {buffer : List Char}
    (hbuffer : ':' ∉ buffer → AllBlank buffer) (rest : List Char) :
    ∃ blanks, AllBlank blanks ∧
      scan true (depth + 1) (String.ofList buffer) ('\x7d' :: rest) =
        (declaration? true (String.ofList buffer)).toList ++
          .closed :: scan true depth (String.ofList blanks) rest := by
  rw [scan_close]
  cases hdeclaration : declaration? true (String.ofList buffer) with
  | none =>
    refine ⟨buffer, hbuffer ?_, by simp [atClose, hdeclaration]⟩
    rwa [declaration?_eq_none_iff, String.toList_ofList] at hdeclaration
  | some event => exact ⟨[], by simp [AllBlank], by simp [atClose, hdeclaration]⟩

section

variable {depth : Nat}

/-- A readable declaration is found in a buffer that holds it behind blanks. Name and value come
back as they were, without a blank more or less. -/
theorem declaration?_of_readable {d : Declaration} (hd : ReadableDeclaration depth d)
    {blanks : List Char} (hblanks : AllBlank blanks) :
    declaration? true (String.ofList (blanks ++ (d.name.toList ++ ':' :: d.value.toList))) =
      some (.declaration d.name d.value) := by
  have hname : ':' ∉ blanks ++ d.name.toList := by
    rw [List.mem_append, not_or]
    exact ⟨hblanks.not_mem (by decide), hd.colon⟩
  rw [← List.append_assoc, declaration?_ofList hname, trim_blank_append hblanks, hd.name,
    hd.value, String.ofList_toList, String.ofList_toList]

/-- A declaration without its semicolon is taken in as the last text of a block. What follows may
not be a star, which would make a comment of a slash at the end of the value. -/
theorem readsLast_declaration {d : Declaration} (hd : ReadableDeclaration depth d) :
    ReadsLast depth (d.name.toList ++ ':' :: d.value.toList) [.declaration d.name d.value] := by
  intro blanks tail hblanks htail
  refine ⟨[], blanks ++ (d.name.toList ++ ':' :: d.value.toList), by simp, ?_, ?_⟩
  · rw [declaration?_of_readable hd hblanks]
    rfl
  · exact scan_absorbed hblanks hd.absorbed fun h => htail h.2

/-- A declaration with its semicolon is taken in whatever follows. The semicolon is what makes this
hold without a look ahead. -/
theorem reads_declaration {d : Declaration} (hd : ReadableDeclaration depth d) :
    Reads depth (d.name.toList ++ ':' :: d.value.toList ++ [';'])
      [.declaration d.name d.value] := by
  intro blanks tail hblanks
  refine ⟨[], by simp [AllBlank], ?_⟩
  rw [List.append_assoc, List.singleton_append, scan_absorbed hblanks hd.absorbed (by simp),
    scan_semicolon, atSemicolon, declaration?_of_readable hd hblanks]

/-- A comment or an import rule is taken in whatever follows, and is written alike in all layouts.
-/
theorem reads_leaf {leaf : Leaf} (hleaf : ReadableLeaf depth leaf) (layout : Layout) :
    Reads depth leaf.text.toList ((Outline.leaf leaf).events layout) := by
  intro blanks tail hblanks
  obtain ⟨kind, text⟩ := leaf
  cases kind with
  | comment =>
    obtain ⟨body, htext, hbody⟩ := hleaf
    have hclosed := takeComment?_append hbody tail
    refine ⟨blanks, hblanks, ?_⟩
    simp only [htext, List.cons_append]
    rw [scan_comment true depth _ hclosed, ← htext, String.ofList_toList]
    rfl
  | importRule =>
    obtain ⟨body, htext, hbody⟩ := hleaf
    have hnone : declaration? true (String.ofList (blanks ++ body)) = none := by
      rw [declaration?_eq_none_iff, String.toList_ofList, List.mem_append, not_or]
      exact ⟨hblanks.not_mem (by decide), hbody.colon⟩
    have himport : isImport (String.ofList (blanks ++ body)) = true := by
      obtain ⟨front, rest, hfront, heq⟩ := hbody.start
      rw [isImport_iff, String.toList_ofList]
      exact ⟨blanks ++ front, rest, hblanks.append hfront, by simp [heq]⟩
    have htext' : String.ofList body ++ ";" = text := by
      rw [← String.toList_inj, htext]
      simp
    refine ⟨[], by simp [AllBlank], ?_⟩
    simp only [htext, List.append_assoc, List.singleton_append]
    rw [scan_absorbed hblanks hbody.absorbed (by simp), scan_semicolon, atSemicolon, hnone]
    simp only [himport, if_true, clip, String.toList_ofList, trim_blank_append hblanks,
      hbody.trimmed, htext']
    rfl

private theorem map_toList_injective : Function.Injective (List.map String.toList) :=
  List.map_injective_iff.2 fun _ _ => String.toList_injective

/-- The header of a block, with blanks behind its commas, is read back into its parts. The blanks
may be any, as the two layouts differ in them only. -/
theorem selectorParts_header {parts : List String} (hparts : ReadableParts depth parts)
    {gap : List Char} (hgap : AllBlank gap) :
    Sheet.selectorParts
      (String.ofList (trim ((',' :: gap).intercalate (parts.map String.toList)))) = parts := by
  have hsplit : (splitAtEach ',' (trim ((',' :: gap).intercalate (parts.map String.toList)))).map trim =
      parts.map String.toList := by
    rw [map_trim_splitAtEach_trim (by decide)]
    refine map_trim_splitAtEach_intercalate hgap (by decide) (by simpa using hparts.ne_nil) ?_
    intro part hpart
    obtain ⟨part, hmem, rfl⟩ := List.mem_map.1 hpart
    exact hparts.part part hmem
  generalize trim ((',' :: gap).intercalate (parts.map String.toList)) = header at hsplit
  have hne : header ≠ [] := by
    rintro rfl
    apply hparts.ne_blank
    apply map_toList_injective
    rw [← hsplit]
    rfl
  have hnotEmpty : (String.ofList header).isEmpty = false := by
    simpa [String.isEmpty_iff] using hne
  rw [Sheet.selectorParts, hnotEmpty, String.toList_ofList]
  apply map_toList_injective
  simpa [Function.comp_def] using hsplit

/-- A header with its opening brace is reported as one block that opens, whatever is inside of it.
The parts must be readable as a row, since a comma or a brace in one of them would cut it. -/
theorem scan_header {parts : List String} (hparts : ReadableParts depth parts)
    {blanks gap : List Char} (hblanks : AllBlank blanks) (hgap : AllBlank gap) (rest : List Char) :
    scan true depth (String.ofList blanks)
        ((',' :: gap).intercalate (parts.map String.toList) ++ '\x7b' :: rest) =
      .opened (some (String.ofList (trim ((',' :: gap).intercalate (parts.map String.toList))))) ::
        scan true (depth + 1) "" rest := by
  have habsorbed : Absorbed depth ((',' :: gap).intercalate (parts.map String.toList)) := by
    have h := (ignoresBlanks_absorbed depth).closed_gap_iff [] hgap (parts.map String.toList)
    exact h.2 hparts.absorbed
  have hnotEmpty :
      (String.ofList (trim ((',' :: gap).intercalate (parts.map String.toList)))).isEmpty = false := by
    have hheader := selectorParts_header hparts hgap
    rw [Bool.eq_false_iff]
    intro hempty
    rw [(Sheet.selectorParts_eq_nil_iff _).2 hempty] at hheader
    exact hparts.ne_nil hheader.symm
  generalize (',' :: gap).intercalate (parts.map String.toList) = header at habsorbed hnotEmpty ⊢
  rw [scan_absorbed hblanks habsorbed (by simp), scan_open]
  simp [atOpen, clip, trim_blank_append hblanks, hnotEmpty]

/-- A block is read when what is inside it is. The gaps that a layout writes around its braces and
commas may be any blanks. -/
theorem reads_group {parts : List String} (hparts : ReadableParts depth parts)
    {events : List Event} {gap front text back after : List Char}
    (hinner : ReadsLast (depth + 1) text events) (hgap : AllBlank gap) (hfront : AllBlank front)
    (hback : AllBlank back) (hafter : AllBlank after) :
    Reads depth ((',' :: gap).intercalate (parts.map String.toList) ++
        '\x7b' :: (front ++ (text ++ (back ++ '\x7d' :: after))))
      (.opened (some (String.ofList (trim ((',' :: gap).intercalate (parts.map String.toList))))) ::
        (events ++ [.closed])) := by
  intro blanks tail hblanks
  have hheader := scan_header hparts hblanks hgap
    (front ++ (text ++ (back ++ '\x7d' :: (after ++ tail))))
  have hhead : (back ++ '\x7d' :: (after ++ tail)).head? ≠ some '*' := by
    cases back with
    | nil => simp
    | cons b back =>
      intro h
      cases h
      exact absurd (hback '*' (by simp)) (by decide)
  obtain ⟨reported, buffer, hbuffer, rfl, hscan⟩ := hinner front _ hfront hhead
  have hlast : ':' ∉ buffer ++ back → AllBlank (buffer ++ back) :=
    fun h => (hbuffer fun hmem => h (by simp [hmem])).append hback
  obtain ⟨blanks', hblanks', hclose⟩ := scan_close_of_last depth hlast (after ++ tail)
  refine ⟨blanks' ++ after, hblanks'.append hafter, ?_⟩
  have hfrontScan := scan_blanks (depth + 1) [] hfront
    (text ++ (back ++ '\x7d' :: (after ++ tail)))
  simp only [List.nil_append, String.ofList_nil] at hfrontScan
  simp only [List.append_assoc, List.cons_append]
  rw [hheader, hfrontScan, hscan, scan_blanks _ _ hback, hclose,
    declaration?_append_blanks buffer hback, scan_blanks _ _ hafter]
  simp

end

end Sheetsmith.Event
