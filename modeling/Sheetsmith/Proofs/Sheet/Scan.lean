import Sheetsmith.Proofs.Sheet.Buffer

namespace Sheetsmith.Event

open Sheetsmith.Text

/-- Text without a colon is no declaration, and any colon makes it one. -/
theorem declaration?_eq_none_iff {trim : Bool} {buffer : String} :
    declaration? trim buffer = none ↔ ':' ∉ buffer.toList := by
  rw [declaration?, Option.map_eq_none_iff, splitAtFirst?_eq_none_iff]

/-- Name and value are what stands in front of the first colon and behind it, trimmed. Either may be
empty, and the value may hold further colons. -/
theorem declaration?_ofList {name value : List Char} (hname : ':' ∉ name) :
    declaration? true (String.ofList (name ++ ':' :: value)) =
      some (.declaration (String.ofList (trim name)) (String.ofList (trim value))) := by
  simp [declaration?, splitAtFirst?_append hname, clip]

theorem declaration?_of_allBlank {trim : Bool} {blanks : List Char} (hblanks : AllBlank blanks) :
    declaration? trim (String.ofList blanks) = none := by
  rw [declaration?_eq_none_iff, String.toList_ofList]
  exact hblanks.not_mem (by decide)

theorem isImport_ofList_eq_false {cs : List Char} (hcs : ¬ StartsImport cs) :
    isImport (String.ofList cs) = false := by
  rw [← Bool.not_eq_true, isImport_iff, String.toList_ofList]
  exact hcs

theorem scan_nil (trim : Bool) (depth : Nat) (buffer : String) :
    scan trim depth buffer [] = (declaration? trim buffer).toList := by
  rw [scan]

/-- An opening brace reports the buffer as a header and starts with an empty one inside the block.
The header may be blank, and the block may never be closed. -/
theorem scan_open (trim : Bool) (depth : Nat) (buffer : String) (rest : List Char) :
    scan trim depth buffer ('\x7b' :: rest) =
      atOpen trim buffer :: scan trim (depth + 1) "" rest := by
  rw [scan, if_pos rfl]

/-- A semicolon reports what it ends and goes on with what that leaves in the buffer. A buffer that
is neither a declaration nor an import stays, with the semicolon if it is not blank. -/
theorem scan_semicolon (trim : Bool) (depth : Nat) (buffer : String) (rest : List Char) :
    scan trim depth buffer (';' :: rest) = (atSemicolon trim buffer).1 ++
      scan trim depth (atSemicolon trim buffer).2 rest := by
  rw [scan, if_neg (by decide), if_pos rfl]

/-- A closing brace reports what it ends. Outside of all blocks it is text, and the depth stays
where it is. -/
theorem scan_close (trim : Bool) (depth : Nat) (buffer : String) (rest : List Char) :
    scan trim depth buffer ('\x7d' :: rest) = (atClose trim depth buffer).1 ++
      scan trim (depth - 1) (atClose trim depth buffer).2 rest := by
  rw [scan, if_neg (by decide), if_neg (by decide), if_pos rfl]

/-- A closed string goes into the buffer as a whole, with its quotes, so nothing in it is seen. The
quote may be either of the two. An unclosed string is another case. -/
theorem scan_string (trim : Bool) (depth : Nat) (buffer : String) {quote : Char}
    (hquote : IsQuote quote) {rest body after : List Char}
    (hclosed : takeQuoted quote quote rest = (body, some after)) :
    scan trim depth buffer (quote :: rest) =
      scan trim depth (buffer ++ String.ofList (quotedText quote body true)) after := by
  rw [scan, if_neg (by rcases hquote with rfl | rfl <;> decide),
    if_neg (by rcases hquote with rfl | rfl <;> decide),
    if_neg (by rcases hquote with rfl | rfl <;> decide), if_pos hquote]
  simp [hclosed]

/-- A closed comment is reported where it stands and leaves the buffer as it was, also in the middle
of a declaration. -/
theorem scan_comment (trim : Bool) (depth : Nat) (buffer : String) {rest text after : List Char}
    (hclosed : takeComment? false rest = some (text, after)) :
    scan trim depth buffer ('/' :: '*' :: rest) =
      .comment (String.ofList ('/' :: '*' :: text)) :: scan trim depth buffer after := by
  rw [scan, if_neg (by decide), if_neg (by decide), if_neg (by decide), if_neg (by decide),
    if_pos ⟨rfl, rfl⟩]
  split
  · next text' after' hclosed' =>
    rw [List.tail_cons, hclosed] at hclosed'
    cases hclosed'
    rfl
  · next hopen =>
    rw [List.tail_cons, hclosed] at hopen
    cases hopen

/-- A character that belongs into the buffer goes there. It neither is a quote nor opens a comment.
Whether it stays there depends on the depth and on what is in front of it. -/
theorem scan_of_keeps {depth : Nat} {before : List Char} {c : Char} (hkeeps : Keeps depth before c)
    (hquote : ¬ IsQuote c) {rest : List Char} (hcomment : ¬ (c = '/' ∧ rest.head? = some '*')) :
    scan true depth (String.ofList before) (c :: rest) =
      scan true depth (String.ofList (before ++ [c])) rest := by
  have hpush : (String.ofList before).push c = String.ofList (before ++ [c]) := by simp
  by_cases hsemicolon : c = ';'
  · subst hsemicolon
    obtain ⟨hcolon, himport, hblank⟩ := hkeeps.semicolon rfl
    have hnone : declaration? true (String.ofList before) = none := by
      rwa [declaration?_eq_none_iff, String.toList_ofList]
    have hnotBlank : isAllBlank (String.ofList before) = false := by
      rwa [← Bool.not_eq_true, isAllBlank_iff, String.toList_ofList]
    rw [scan_semicolon]
    simp only [atSemicolon, hnone, isImport_ofList_eq_false himport, hnotBlank, hpush]
    rfl
  · by_cases hclose : c = '\x7d'
    · subst hclose
      obtain ⟨rfl, hcolon⟩ := hkeeps.close rfl
      have hnone : declaration? true (String.ofList before) = none := by
        rwa [declaration?_eq_none_iff, String.toList_ofList]
      rw [scan_close]
      simp only [atClose, hnone, if_true, hpush]
      rfl
    · rw [scan, if_neg hkeeps.notOpen, if_neg hsemicolon, if_neg hclose, if_neg hquote,
        if_neg hcomment, hpush]

/-- The reader takes in a piece of text without reporting anything. The text behind it must not turn
the end of the piece into a comment. The piece may hold strings, as long as it ends outside of them.
-/
theorem scan_of_each {depth : Nat} {before cs tail : List Char}
    (hplace : Place.outside.after cs = .outside)
    (heach : Each (fun pre c => Keeps depth pre c ∧ NoComment pre c) .outside before cs)
    (htail : ¬ (cs.getLast? = some '/' ∧ tail.head? = some '*')) :
    scan true depth (String.ofList before) (cs ++ tail) =
      scan true depth (String.ofList (before ++ cs)) tail := by
  refine each_induction (motive := fun before cs =>
      ¬ (cs.getLast? = some '/' ∧ tail.head? = some '*') →
        scan true depth (String.ofList before) (cs ++ tail) =
          scan true depth (String.ofList (before ++ cs)) tail)
    ?nil ?char ?string hplace heach htail
  case nil => simp
  case char =>
    intro before c cs hquote hkeeps hcomment ih htail
    have hnone : ¬ (c = '/' ∧ (cs ++ tail).head? = some '*') := by
      rintro ⟨rfl, hhead⟩
      cases cs with
      | nil => exact htail ⟨rfl, hhead⟩
      | cons d cs => exact hcomment ⟨rfl, hhead⟩
    have hrest : ¬ (cs.getLast? = some '/' ∧ tail.head? = some '*') := fun h =>
      htail ⟨by simp [List.getLast?_cons, h.1], h.2⟩
    rw [List.cons_append, scan_of_keeps hkeeps hquote hnone, ih hrest, List.append_assoc]
    rfl
  case string =>
    intro before quote body after hquote htake ih htail
    have hrest : ¬ (after.getLast? = some '/' ∧ tail.head? = some '*') := fun h =>
      htail ⟨by simp [List.getLast?_cons, List.getLast?_append, h.1], h.2⟩
    rw [List.cons_append, scan_string true depth _ hquote (htake tail), ← String.ofList_append,
      ih hrest]
    simp [quotedText]

/-- Absorbed text goes into a buffer of blanks as a whole. The text may hold closed strings, in
which any character may stand. -/
theorem scan_absorbed {depth : Nat} {blanks cs tail : List Char} (hblanks : AllBlank blanks)
    (hcs : Absorbed depth cs) (htail : ¬ (cs.getLast? = some '/' ∧ tail.head? = some '*')) :
    scan true depth (String.ofList blanks) (cs ++ tail) =
      scan true depth (String.ofList (blanks ++ cs)) tail := by
  have hwhole : Absorbed depth (blanks ++ cs) := by
    have h := (ignoresBlanks_absorbed depth).closed_blanks_right_iff looseEnd_nil hblanks cs
    exact h.2 hcs
  have heach := (each_append.1 hwhole.each).2
  have hempty : Place.outside.after blanks = .outside := by
    have h := (ignoresBlanks_absorbed depth).closed_blanks_right_iff looseEnd_nil hblanks []
    have hclosed := h.2 (closed_nil _)
    simpa using hclosed.place
  rw [hempty] at heach
  exact scan_of_each hcs.place (by simpa using heach) htail

end Sheetsmith.Event
