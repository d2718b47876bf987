import Sheetsmith.Proofs.Text.Quotable
import Sheetsmith.Proofs.Usage.Literals

namespace Sheetsmith

open Text

namespace Usage

/-- A closed string literal. -/
structure Literal where
  quote : Char
  body : List Char
  isQuote : IsQuote quote
  quotable : Quotable quote body

/-- What joins a literal to the one before: an operator with blanks around it. -/
structure Joint where
  before : List Char
  operator : Char
  after : List Char
  isBlank_before : ∀ c ∈ before, isBlank c = true
  isOperator : operator = '+' ∨ operator = '.'
  isBlank_after : ∀ c ∈ after, isBlank c = true

/-- A literal and the literals that are joined to it, one after the other. -/
structure Chain where
  first : Literal
  joined : List (Joint × Literal)

/-- The literal as it is written. -/
def Literal.text (literal : Literal) : List Char :=
  quotedText literal.quote literal.body true

/-- The operator and its blanks as they are written. -/
def Joint.text (joint : Joint) : List Char :=
  joint.before ++ joint.operator :: joint.after

/-- The chain as it is written. -/
def Chain.text (chain : Chain) : List Char :=
  chain.first.text ++ chain.joined.flatMap fun link => link.1.text ++ link.2.text

/-- What the literals of the chain hold, put together. -/
def Chain.content (chain : Chain) : List Char :=
  chain.first.body ++ chain.joined.flatMap fun link => link.2.body

/-- Chains of literals with the text in front of, between and behind them. That text has no quotes,
and between two chains it is not what would join them. -/
structure Script where
  lead : List Char
  parts : List (Chain × List Char)
  unquoted : ∀ gap ∈ lead :: parts.map Prod.snd, ∀ c ∈ gap, ¬ IsQuote c
  apart : ∀ gap ∈ (parts.map Prod.snd).dropLast, ∀ joint : Joint, gap ≠ joint.text

/-- The script as it is written. -/
def Script.text (script : Script) : List Char :=
  script.lead ++ script.parts.flatMap fun part => part.1.text ++ part.2

/-- The name of the tag that opens at the start of a text. -/
def tagName? : List Char → Option String
  | '<' :: rest =>
    let name := rest.takeWhile isWordChar
    if name.isEmpty then none else some (String.ofList name)
  | _ => none

/-- The two tests for a quote, the one of the sheet reader and the one of the file reader, agree. -/
theorem isQuote_iff {c : Char} : isQuote c = true ↔ IsQuote c := by
  rw [isQuote, Bool.or_eq_true, beq_iff_eq, beq_iff_eq]

/-- No quote is blank, so the blanks of a joint end in front of it. -/
theorem isBlank_eq_false_of_isQuote {c : Char} (h : IsQuote c) : isBlank c = false := by
  rcases h with rfl | rfl <;> decide

/-- A literal is joined exactly behind an operator with blanks around it. There may be no blanks at
all, and there is one operator. -/
theorem joinedLiteral?_eq_some_iff {cs after : List Char} {quote : Char} :
    joinedLiteral? cs = some (quote, after) ↔
      IsQuote quote ∧ ∃ joint : Joint, cs = joint.text ++ quote :: after := by
  constructor
  · intro h
    have hblank (ds : List Char) : ∀ c ∈ ds.takeWhile isBlank, isBlank c = true :=
      fun c hc => List.all_eq_true.1 List.all_takeWhile c hc
    unfold joinedLiteral? at h
    split at h
    · next operator rest hcs =>
      split at h
      · next hoperator =>
        split at h
        · next quote' after' hrest =>
          split at h
          · next hquote =>
            cases h
            refine ⟨isQuote_iff.1 hquote, ⟨cs.takeWhile isBlank, operator, rest.takeWhile isBlank,
              hblank cs, hoperator, hblank rest⟩, ?_⟩
            rw [Joint.text, List.append_assoc, List.cons_append, ← hrest,
              List.takeWhile_append_dropWhile, ← hcs, List.takeWhile_append_dropWhile]
          · cases h
        · cases h
      · cases h
    · cases h
  · rintro ⟨hquote, joint, rfl⟩
    have hoperator : isBlank joint.operator = false := by
      rcases joint.isOperator with h | h <;> rw [h] <;> decide
    have hbefore : (joint.text ++ quote :: after).dropWhile isBlank =
        joint.operator :: (joint.after ++ quote :: after) := by
      rw [Joint.text, List.append_assoc, List.cons_append,
        List.dropWhile_append_of_pos joint.isBlank_before,
        List.dropWhile_cons_of_neg (by simp [hoperator])]
    have hafter : (joint.after ++ quote :: after).dropWhile isBlank = quote :: after := by
      rw [List.dropWhile_append_of_pos joint.isBlank_after,
        List.dropWhile_cons_of_neg (by simp [isBlank_eq_false_of_isQuote hquote])]
    unfold joinedLiteral?
    rw [hbefore]
    dsimp only
    rw [if_pos joint.isOperator, hafter]
    dsimp only
    rw [if_pos (isQuote_iff.2 hquote)]

theorem Joint.not_isQuote_of_mem (joint : Joint) {c : Char} (h : c ∈ joint.text) : ¬ IsQuote c := by
  have hoperator : ∀ operator, operator = '+' ∨ operator = '.' → ¬ IsQuote operator := by
    rintro _ (rfl | rfl) <;> decide
  have hblank (h : isBlank c = true) : ¬ IsQuote c := fun hquote =>
    Bool.eq_false_iff.1 (isBlank_eq_false_of_isQuote hquote) h
  rcases List.mem_append.1 h with hbefore | hrest
  · exact hblank (joint.isBlank_before c hbefore)
  · rcases List.mem_cons.1 hrest with rfl | hafter
    · exact hoperator _ joint.isOperator
    · exact hblank (joint.isBlank_after c hafter)

/-- Where no quotes stand before it, the first quote of a text is in one place only. The two quotes
need not be of the same kind. -/
theorem eq_of_append_quote {front other : List Char} {quote quote' : Char} {back back' : List Char}
    (hfront : ∀ c ∈ front, ¬ IsQuote c) (hother : ∀ c ∈ other, ¬ IsQuote c) (hquote : IsQuote quote)
    (hquote' : IsQuote quote') (h : front ++ quote :: back = other ++ quote' :: back') :
    front = other := by
  have hsplit {front : List Char} {quote : Char} (hfront : ∀ c ∈ front, ¬ IsQuote c)
      (hquote : IsQuote quote) (back : List Char) :
      (front ++ quote :: back).takeWhile (fun c => !isQuote c) = front := by
    rw [List.takeWhile_append_of_pos, List.takeWhile_cons, if_neg, List.append_nil]
    · simpa using isQuote_iff.2 hquote
    · intro c hc
      simpa using mt isQuote_iff.1 (hfront c hc)
  rw [← hsplit hfront hquote back, h, hsplit hother hquote' back']

/-- Nothing is joined behind text without quotes, unless it stands in front of a literal and is what
joins it. At the end of the text the gap may be anything without quotes. -/
theorem joinedLiteral?_gap_append {gap rest : List Char} (hgap : ∀ c ∈ gap, ¬ IsQuote c)
    (hrest : ∀ c ∈ rest.head?, IsQuote c) (hapart : rest ≠ [] → ∀ joint : Joint, gap ≠ joint.text) :
    joinedLiteral? (gap ++ rest) = none := by
  rw [Option.eq_none_iff_forall_ne_some]
  rintro ⟨quote, after⟩ h
  obtain ⟨hquote, joint, htext⟩ := joinedLiteral?_eq_some_iff.1 h
  cases rest with
  | nil =>
    rw [List.append_nil] at htext
    exact hgap quote (by simp [htext]) hquote
  | cons quote' back =>
    have hjoint := eq_of_append_quote hgap (fun c => joint.not_isQuote_of_mem) (hrest quote' rfl)
      hquote htext
    exact hapart (List.cons_ne_nil quote' back) joint hjoint

/-- What is behind a literal stands behind its closing quote. -/
theorem Literal.text_append (literal : Literal) (after : List Char) :
    literal.text ++ after = literal.quote :: (literal.body ++ literal.quote :: after) := by
  simp [Literal.text, quotedText]

/-- A literal is read up to its own closing quote, whatever follows it. What follows may be another
quote or the end of the text. -/
theorem Literal.takeQuoted (literal : Literal) (after : List Char) :
    Text.takeQuoted literal.quote literal.quote (literal.body ++ literal.quote :: after) =
      (literal.body, some after) :=
  (takeQuoted_eq_some_iff_quotable literal.isQuote).2 ⟨rfl, literal.quotable⟩

/-- A chain starts with the quote of its first literal. -/
theorem Chain.head?_text_append (chain : Chain) (after : List Char) :
    (chain.text ++ after).head? = some chain.first.quote := by
  rw [Chain.text, List.append_assoc, chain.first.text_append, List.head?_cons]

/-- A literal is read with all that is joined to it. The induction is on the literals that are
joined; what follows the last one must not join another. -/
theorem takeLiteral_joined (first : Literal) (joined : List (Joint × Literal)) {after : List Char}
    (hafter : joinedLiteral? after = none) :
    takeLiteral first.quote (first.body ++ first.quote ::
        ((joined.flatMap fun link => link.1.text ++ link.2.text) ++ after)) =
      (first.body ++ joined.flatMap fun link => link.2.body, after) := by
  induction joined generalizing first with
  | nil =>
    rw [takeLiteral]
    split
    · next body htake =>
      rw [first.takeQuoted] at htake
      cases htake
    · next body rest htake =>
      rw [first.takeQuoted] at htake
      cases htake
      split
      · simp
      · next next' after' hjoined =>
        rw [List.flatMap_nil, List.nil_append, hafter] at hjoined
        cases hjoined
  | cons link joined ih =>
    obtain ⟨joint, literal⟩ := link
    have hlink (rest : List Char) : joinedLiteral? (joint.text ++ literal.quote :: rest) =
        some (literal.quote, rest) :=
      joinedLiteral?_eq_some_iff.2 ⟨literal.isQuote, joint, rfl⟩
    rw [takeLiteral]
    split
    · next body htake =>
      rw [first.takeQuoted] at htake
      cases htake
    · next body rest htake =>
      rw [first.takeQuoted] at htake
      cases htake
      rw [List.flatMap_cons, List.append_assoc, List.append_assoc, literal.text_append]
      split
      · next hjoined =>
        rw [hlink] at hjoined
        cases hjoined
      · next next' after' hjoined =>
        rw [hlink] at hjoined
        cases hjoined
        rw [ih literal, List.flatMap_cons]

theorem literals_append {gap : List Char} (h : ∀ c ∈ gap, ¬ IsQuote c) (cs : List Char) :
    literals (gap ++ cs) = literals cs := by
  induction gap with
  | nil => rfl
  | cons c gap ih =>
    rw [List.cons_append, literals, if_neg (mt isQuote_iff.1 (h c List.mem_cons_self)),
      ih fun d hd => h d (List.mem_cons_of_mem c hd)]

/-- A chain is one entry, made of what its literals hold. -/
theorem literals_chain (chain : Chain) {after : List Char} (hafter : joinedLiteral? after = none) :
    literals (chain.text ++ after) = chain.content :: literals after := by
  rw [Chain.text, List.append_assoc, chain.first.text_append, literals,
    if_pos (isQuote_iff.2 chain.first.isQuote)]
  dsimp only
  rw [takeLiteral_joined chain.first chain.joined hafter, Chain.content]

/-- The literals of chains with text between them that does not join them. Behind the last chain any
text without quotes may follow. -/
theorem literals_parts {parts : List (Chain × List Char)}
    (hunquoted : ∀ gap ∈ parts.map Prod.snd, ∀ c ∈ gap, ¬ IsQuote c)
    (hapart : ∀ gap ∈ (parts.map Prod.snd).dropLast, ∀ joint : Joint, gap ≠ joint.text) :
    literals (parts.flatMap fun part => part.1.text ++ part.2) = parts.map (·.1.content) := by
  induction parts with
  | nil => rw [List.flatMap_nil, literals, List.map_nil]
  | cons part parts ih =>
    obtain ⟨chain, gap⟩ := part
    have hgap : ∀ c ∈ gap, ¬ IsQuote c := hunquoted gap (by simp)
    have hlater : ∀ other ∈ (parts.map Prod.snd).dropLast,
        other ∈ (((chain, gap) :: parts).map Prod.snd).dropLast := by
      intro other hother
      cases parts with
      | nil => cases hother
      | cons next parts => exact List.mem_cons_of_mem gap hother
    have hrest := ih (fun other hother => hunquoted other (List.mem_cons_of_mem gap hother))
      fun other hother => hapart other (hlater other hother)
    have hjoined : joinedLiteral? (gap ++ parts.flatMap fun part => part.1.text ++ part.2) = none := by
      cases parts with
      | nil => exact joinedLiteral?_gap_append hgap (by simp) fun hne => absurd rfl hne
      | cons next parts =>
        refine joinedLiteral?_gap_append hgap (fun c hc => ?_) fun _ => hapart gap (by simp)
        rw [List.flatMap_cons, List.append_assoc, next.1.head?_text_append] at hc
        cases hc
        exact next.1.first.isQuote
    rw [List.flatMap_cons, List.append_assoc, literals_chain chain hjoined, literals_append hgap,
      hrest, List.map_cons]

theorem filterMap_tails_append {word : List Char} (h : '<' ∉ word) (cs : List Char) :
    (word ++ cs).tails.filterMap tagName? = cs.tails.filterMap tagName? := by
  induction word with
  | nil => rfl
  | cons c word ih =>
    have hnone : tagName? (c :: (word ++ cs)) = none := by
      unfold tagName?
      split
      · next rest heq =>
        obtain ⟨rfl, -⟩ := List.cons.inj heq
        exact absurd List.mem_cons_self h
      · rfl
    rw [List.cons_append, List.tails_cons, List.filterMap_cons_none hnone,
      ih fun hmem => h (List.mem_cons_of_mem c hmem)]

/-- A tag opens wherever a word directly follows `<`, and that word is its name. The text may be
any, and tags are found in literals too. -/
theorem tagNames_eq (cs : List Char) : tagNames cs = cs.tails.filterMap tagName? := by
  rw [tagNames, findAll]
  generalize (none : Option Char) = before
  induction before, cs using pieces.induct tag with
  | case1 before => simp [pieces, tagName?]
  | case2 before c rest n hn ih =>
    obtain ⟨rfl, rfl, hne⟩ := eq_of_tag_eq_some hn
    have hname : tagName? ('<' :: rest) = some (String.ofList (rest.takeWhile isWordChar)) := by
      simp [tagName?, hne]
    have hword : '<' ∉ rest.takeWhile isWordChar := not_mem_takeWhile (by decide) rest
    rw [pieces, hn]
    dsimp only
    rw [List.filterMap_cons, List.map_cons, ih, List.tails_cons, List.filterMap_cons_some hname,
      drop_length_takeWhile, ← filterMap_tails_append hword, List.takeWhile_append_dropWhile,
      take_length_takeWhile]
    rfl
  | case3 before c rest hn ih =>
    have hnone : tagName? (c :: rest) = none := by
      unfold tagName?
      split
      · next rest' heq =>
        obtain ⟨rfl, rfl⟩ := List.cons.inj heq
        by_contra hsome
        have hne : (rest.takeWhile isWordChar).length ≠ 0 := by
          simpa using hsome
        obtain ⟨n, hlength⟩ := Nat.exists_eq_succ_of_ne_zero hne
        refine hn (n + 1) ?_
        simp [tag, hlength]
      · rfl
    rw [List.tails_cons, List.filterMap_cons_none hnone, ← ih, pieces]
    split
    · next n hsome => exact absurd hsome (hn n)
    · rw [List.filterMap_cons]

/-- What literals and tags name. There is one entry for each chain of literals, which is what its
literals hold, put together. The names are those of the entries, in order, and behind them those of
the tags of the whole text. Chains may be of any length and number, and the escapes in a literal
stay as they are written; literals that are not closed are not part of a script. -/
theorem tokens_script (script : Script) :
    literals script.text = script.parts.map (·.1.content) ∧
      ScanStrategy.bestEffort.tokens (String.ofList script.text) =
        (script.parts.flatMap fun part => names part.1.content) ++
          script.text.tails.filterMap tagName? := by
  have hliterals : literals script.text = script.parts.map (·.1.content) := by
    rw [Script.text, literals_append (script.unquoted _ List.mem_cons_self)]
    exact literals_parts (fun gap hgap => script.unquoted gap (List.mem_cons_of_mem _ hgap))
      script.apart
  refine ⟨hliterals, ?_⟩
  rw [ScanStrategy.tokens, String.toList_ofList, literalNames, hliterals, List.flatMap_map,
    tagNames_eq]

/-- Where a literal is not joined, the text in front of it is not what joins one. So the assumption
on gaps can be computed. -/
theorem ne_text_of_joinedLiteral? {gap : List Char} (h : joinedLiteral? (gap ++ ['"']) = none)
    (joint : Joint) : gap ≠ joint.text := by
  rintro rfl
  rw [joinedLiteral?_eq_some_iff.2 ⟨.inl rfl, joint, rfl⟩] at h
  cases h

/-- Two literals with an operator between them, the second with a quote of its own kind in it, and
behind them a third without an operator. -/
def menuScript : Script where
  lead := "<ul> ".toList
  parts :=
    let nav : Literal := ⟨'"', "nav-".toList, .inl rfl, (quotable_iff (.inl rfl)).2 (by decide)⟩
    let items : Literal :=
      ⟨'\x27', "it\\\x27em".toList, .inr rfl, (quotable_iff (.inr rfl)).2 (by decide)⟩
    let menu : Literal := ⟨'"', "menu +".toList, .inl rfl, (quotable_iff (.inl rfl)).2 (by decide)⟩
    let plus : Joint :=
      ⟨" ".toList, '+', "\n ".toList, forall_mem_of_all (by decide), .inl rfl,
        forall_mem_of_all (by decide)⟩
    [(⟨nav, [(plus, items)]⟩, []), (⟨menu, []⟩, " . <li".toList)]
  unquoted := by
    intro gap hgap
    have hgaps : gap = "<ul> ".toList ∨ gap = [] ∨ gap = " . <li".toList := by simpa using hgap
    rcases hgaps with rfl | rfl | rfl <;> exact forall_mem_of_all (by decide)
  apart := by
    intro gap hgap
    obtain rfl : gap = [] := by simpa using hgap
    exact ne_text_of_joinedLiteral? (by decide)

theorem tokens_script_menuScript :
    menuScript.text = "<ul> \"nav-\" +\n \x27it\\\x27em\x27\"menu +\" . <li".toList ∧
      literals menuScript.text = ["nav-it\\\x27em".toList, "menu +".toList] ∧
      ScanStrategy.bestEffort.tokens (String.ofList menuScript.text) =
        ["nav-it", "em", "menu", "ul", "li"] := by
  obtain ⟨hliterals, htokens⟩ := tokens_script menuScript
  refine ⟨by decide, hliterals.trans (by decide), htokens.trans (by decide +kernel)⟩

end Usage

end Sheetsmith
