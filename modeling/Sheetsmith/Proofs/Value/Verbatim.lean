import Sheetsmith.Proofs.Text.Lexing
import Sheetsmith.Proofs.Value.Lengths

namespace Sheetsmith.Value

open Text

/-- What encloses a place inside verbatim text: the parentheses of a `url`, or the quotes of a
string, which may itself stand in the parentheses of a `url`. An escaped character closes
nothing. -/
inductive Enclosure where
  | url (escaped : Bool)
  | string (quote : { c : Char // IsQuote c }) (escaped nested : Bool)

namespace Enclosure

/-- What encloses the place behind one more character, unless that character closes it all. -/
def next : Enclosure → Char → Option Enclosure
  | url true, _ => some (url false)
  | url false, c =>
    if c = ')' then none
    else if hquote : IsQuote c then some (string ⟨c, hquote⟩ false true)
    else some (url (c == '\\'))
  | string quote true nested, _ => some (string quote false nested)
  | string quote false nested, c =>
    if c = quote then if nested then some (url false) else none
    else some (string quote (c == '\\') nested)

/-- The enclosure with nothing escaped. -/
def settled : Enclosure → Enclosure
  | url _ => url false
  | string quote _ nested => string quote false nested

@[simp] theorem settled_settled (e : Enclosure) : e.settled.settled = e.settled := by
  cases e <;> rfl

/-- A character that is neither a quote nor a backslash opens nothing and escapes nothing. -/
theorem next_eq (e : Enclosure) {c : Char} (hquote : ¬ IsQuote c) (hescape : c ≠ '\\') :
    e.next c = some e.settled ∨ (c = ')' ∧ e.next c = none) := by
  rcases e with escaped | ⟨quote, escaped, nested⟩ <;> cases escaped
  · by_cases hc : c = ')'
    · exact .inr ⟨hc, by simp [next, hc]⟩
    · exact .inl (by simp [next, settled, hc, hquote, hescape])
  · exact .inl rfl
  · have hne : c ≠ quote := fun heq => hquote (heq ▸ quote.2)
    exact .inl (by simp [next, settled, hne, hescape])
  · exact .inl rfl

/-- Verbatim text ends with a parenthesis or with a quote. -/
theorem closes_of_next_eq_none {e : Enclosure} {c : Char} (h : e.next c = none) :
    IsQuote c ∨ c = ')' := by
  rcases e with escaped | ⟨quote, escaped, nested⟩ <;> cases escaped <;> simp only [next] at h
  · split at h
    · next hc => exact .inr hc
    · split at h <;> cases h
  · cases h
  · split at h
    · next hc => exact .inl (hc ▸ quote.2)
    · cases h
  · cases h

end Enclosure

/-- How many characters there are up to and with the one that closes an enclosure. -/
def closing? (e : Enclosure) : List Char → Option Nat
  | [] => none
  | c :: cs =>
    match e.next c with
    | none => some 1
    | some e => (closing? e cs).map (· + 1)

/-- Verbatim text: a string, or a `url` with all that stands in its parentheses. -/
def verbatim : Recognizer := fun _ cs =>
  match cs with
  | [] => none
  | c :: rest =>
    if hquote : IsQuote c then (closing? (.string ⟨c, hquote⟩ false false) rest).map (· + 1)
    else if startsWithFold "url(".toList cs then (closing? (.url false) (cs.drop 4)).map (· + 4)
    else none

/-- The strings and `url`s of a text, in order. -/
def verbatims (cs : List Char) : List (List Char) :=
  findAll verbatim cs

/-- Every string of a text has an end. -/
def ClosesStrings (cs : List Char) : Prop :=
  ∀ quote, IsQuote quote → .plain quote ∉ pieces verbatim none cs

instance (cs : List Char) : Decidable (ClosesStrings cs) :=
  decidable_of_iff
    (.plain '"' ∉ pieces verbatim none cs ∧ .plain '\x27' ∉ pieces verbatim none cs)
    (by simp [ClosesStrings, IsQuote])

/-- A character at which no verbatim text starts. -/
abbrev IsQuiet (c : Char) : Prop :=
  ¬ IsQuote c ∧ c.toLower ≠ 'u'

/-- A text that is one string or one `url`. -/
def IsVerbatim (text : List Char) : Prop :=
  verbatim none text = some text.length

section

variable {e : Enclosure} {cs rest : List Char} {n : Nat}

theorem closing?_cons_of_none {c : Char} (h : e.next c = none) (cs : List Char) :
    closing? e (c :: cs) = some 1 := by
  rw [closing?, h]

theorem closing?_cons_of_some {e' : Enclosure} {c : Char} (h : e.next c = some e')
    (cs : List Char) : closing? e (c :: cs) = (closing? e' cs).map (· + 1) := by
  rw [closing?, h]

/-- What closes an enclosure is found without a look at the text behind it. -/
theorem closing?_append (h : closing? e cs = some n) (rest : List Char) :
    closing? e (cs ++ rest) = some n := by
  induction cs generalizing e n with
  | nil => cases h
  | cons c cs ih =>
    cases hnext : e.next c with
    | none =>
      rw [closing?_cons_of_none hnext] at h
      rw [List.cons_append, closing?_cons_of_none hnext, h]
    | some e' =>
      rw [closing?_cons_of_some hnext] at h
      obtain ⟨m, hm, rfl⟩ := Option.map_eq_some_iff.1 h
      rw [List.cons_append, closing?_cons_of_some hnext, ih hm, Option.map_some]

/-- The text up to the closing character is enough to find it. What stands behind it has no
influence, so verbatim text can be moved. -/
theorem closing?_take (h : closing? e cs = some n) :
    closing? e (cs.take n) = some n ∧ (cs.take n).length = n ∧
      ∃ d ∈ (cs.take n).getLast?, IsQuote d ∨ d = ')' := by
  induction cs generalizing e n with
  | nil => cases h
  | cons c cs ih =>
    cases hnext : e.next c with
    | none =>
      rw [closing?_cons_of_none hnext] at h
      cases h
      exact ⟨closing?_cons_of_none hnext [], rfl, c, rfl, Enclosure.closes_of_next_eq_none hnext⟩
    | some e' =>
      rw [closing?_cons_of_some hnext] at h
      obtain ⟨m, hm, rfl⟩ := Option.map_eq_some_iff.1 h
      obtain ⟨htake, hlength, d, hd, hcloses⟩ := ih hm
      refine ⟨?_, by simp [hlength], d, ?_, hcloses⟩
      · rw [List.take_succ_cons, closing?_cons_of_some hnext, htake, Option.map_some]
      · rw [List.take_succ_cons, List.getLast?_cons, Option.mem_def.1 hd]
        rfl

/-- Text that closes nothing does not help an enclosure that is not closed. -/
theorem closing?_append_eq_none (h : closing? e cs = none)
    (hrest : ∀ c ∈ rest, ¬ IsQuote c ∧ c ≠ ')') : closing? e (cs ++ rest) = none := by
  induction cs generalizing e with
  | nil =>
    clear h
    rw [List.nil_append]
    induction rest generalizing e with
    | nil => rfl
    | cons c rest ih =>
      obtain ⟨hquote, hparen⟩ := hrest c (by simp)
      cases hnext : e.next c with
      | none =>
        rcases Enclosure.closes_of_next_eq_none hnext with hc | hc
        · exact absurd hc hquote
        · exact absurd hc hparen
      | some e' =>
        rw [closing?_cons_of_some hnext, ih fun d hd => hrest d (by simp [hd]), Option.map_none]
  | cons c cs ih =>
    cases hnext : e.next c with
    | none =>
      rw [closing?_cons_of_none hnext] at h
      cases h
    | some e' =>
      rw [closing?_cons_of_some hnext, Option.map_eq_none_iff] at h
      rw [List.cons_append, closing?_cons_of_some hnext, ih h, Option.map_none]

end

/-- A character that is no letter is its own lower case, and that of no other. -/
theorem toLower_eq_iff {c d : Char} (hd : d.isAlpha = false) : c.toLower = d ↔ c = d := by
  have hupper : c.isUpper = true → c.toLower.isAlpha = true := fun hc =>
    forall_ascii (P := fun c => c.isUpper = true → c.toLower.isAlpha = true) (by decide)
      (by rw [isUpper_iff] at hc; omega) hc
  by_cases hc : c.isUpper = true
  · constructor
    · rintro rfl
      rw [hupper hc] at hd
      cases hd
    · rintro rfl
      rw [isAlpha_iff.2 (.inl hc)] at hd
      cases hd
  · rw [toLower_of_isUpper_eq_false (by simpa using hc)]

/-- A `url` opens with its three letters, in any case, and a parenthesis right behind them. -/
theorem startsWithFold_url {cs : List Char} :
    startsWithFold "url(".toList cs = true ↔ ∃ u r l rest, cs = u :: r :: l :: '(' :: rest ∧
      u.toLower = 'u' ∧ r.toLower = 'r' ∧ l.toLower = 'l' := by
  have hword : fold "url(".toList = ['u', 'r', 'l', '('] := by decide
  rw [startsWithFold, beq_iff_eq, hword, fold]
  rcases cs with _ | ⟨u, _ | ⟨r, _ | ⟨l, _ | ⟨c, rest⟩⟩⟩⟩
  · simp
  · simp
  · simp
  · simp
  · show ['u', 'r', 'l', '('] = [u.toLower, r.toLower, l.toLower, c.toLower] ↔ _
    simp only [List.cons.injEq, and_true]
    constructor
    · rintro ⟨hu, hr, hl, hc⟩
      exact ⟨u, r, l, rest, ⟨rfl, rfl, rfl, (toLower_eq_iff (by decide)).1 hc.symm, rfl⟩, hu.symm,
        hr.symm, hl.symm⟩
    · rintro ⟨_, _, _, _, ⟨rfl, rfl, rfl, rfl, rfl⟩, hu, hr, hl⟩
      exact ⟨hu.symm, hr.symm, hl.symm, rfl⟩

section

variable {before : Option Char} {cs rest : List Char} {n : Nat}

theorem verbatim_of_isQuote {c : Char} (hquote : IsQuote c) :
    verbatim before (c :: cs) = (closing? (.string ⟨c, hquote⟩ false false) cs).map (· + 1) :=
  dif_pos hquote

theorem not_isQuote_of_toLower_eq {c : Char} (h : c.toLower = 'u') : ¬ IsQuote c := by
  rintro (rfl | rfl) <;> exact absurd h (by decide)

/-- Where a `url` opens, it goes on up to the parenthesis that closes it. The character in front of
the word is not looked at. -/
theorem verbatim_url {u r l : Char} (hu : u.toLower = 'u') (hr : r.toLower = 'r')
    (hl : l.toLower = 'l') :
    verbatim before (u :: r :: l :: '(' :: cs) = (closing? (.url false) cs).map (· + 4) := by
  rw [verbatim, dif_neg (not_isQuote_of_toLower_eq hu),
    if_pos (startsWithFold_url.2 ⟨u, r, l, cs, rfl, hu, hr, hl⟩)]
  rfl

/-- Where neither a string nor a `url` opens, there is no verbatim text. -/
theorem verbatim_of_not_isQuote {c : Char} (hquote : ¬ IsQuote c)
    (hurl : startsWithFold "url(".toList (c :: cs) = false) : verbatim before (c :: cs) = none := by
  rw [verbatim, dif_neg hquote, if_neg (by rw [hurl]; decide)]

/-- Verbatim text starts with a quote or with `url(`, and what it is does not depend on the text
around it. -/
theorem verbatim_eq_some (h : verbatim before cs = some n) :
    (∃ quote rest m, ∃ hquote : IsQuote quote, cs = quote :: rest ∧ n = m + 1 ∧
      closing? (.string ⟨quote, hquote⟩ false false) rest = some m) ∨
    (∃ u r l rest m, cs = u :: r :: l :: '(' :: rest ∧ u.toLower = 'u' ∧ r.toLower = 'r' ∧
      l.toLower = 'l' ∧ n = m + 4 ∧ closing? (.url false) rest = some m) := by
  cases cs with
  | nil => cases h
  | cons c rest =>
    by_cases hquote : IsQuote c
    · rw [verbatim_of_isQuote hquote] at h
      obtain ⟨m, hm, rfl⟩ := Option.map_eq_some_iff.1 h
      exact .inl ⟨c, rest, m, hquote, rfl, rfl, hm⟩
    · cases hurl : startsWithFold "url(".toList (c :: rest) with
      | false =>
        rw [verbatim_of_not_isQuote hquote hurl] at h
        cases h
      | true =>
        obtain ⟨u, r, l, rest, hcs, hu, hr, hl⟩ := startsWithFold_url.1 hurl
        rw [hcs, verbatim_url hu hr hl] at h
        obtain ⟨m, hm, rfl⟩ := Option.map_eq_some_iff.1 h
        exact .inr ⟨u, r, l, rest, m, hcs, hu, hr, hl, rfl, hm⟩

/-- Verbatim text stays so in front of any other text. -/
theorem IsVerbatim.append {text : List Char} (h : IsVerbatim text) (rest : List Char) :
    verbatim none (text ++ rest) = some text.length := by
  rcases verbatim_eq_some h with ⟨quote, body, m, hquote, rfl, hm, hclosing⟩ |
    ⟨u, r, l, body, m, rfl, hu, hr, hl, hm, hclosing⟩
  · rw [List.cons_append, verbatim_of_isQuote hquote, closing?_append hclosing, hm, Option.map_some]
  · rw [List.cons_append, List.cons_append, List.cons_append, List.cons_append,
      verbatim_url hu hr hl, closing?_append hclosing, hm, Option.map_some]

theorem isVerbatim_take (h : verbatim before cs = some n) :
    IsVerbatim (cs.take n) ∧ (cs.take n).length = n ∧
      ∃ d ∈ (cs.take n).getLast?, IsQuote d ∨ d = ')' := by
  rcases verbatim_eq_some h with ⟨quote, body, m, hquote, rfl, rfl, hclosing⟩ |
    ⟨u, r, l, body, m, rfl, hu, hr, hl, rfl, hclosing⟩
  · obtain ⟨htake, hlength, d, hd, hcloses⟩ := closing?_take hclosing
    refine ⟨?_, by simp [hlength], d, ?_, hcloses⟩
    · rw [IsVerbatim, List.take_succ_cons, verbatim_of_isQuote hquote, htake, Option.map_some,
        List.length_cons, hlength]
    · rw [List.take_succ_cons, List.getLast?_cons, Option.mem_def.1 hd]
      rfl
  · obtain ⟨htake, hlength, d, hd, hcloses⟩ := closing?_take hclosing
    have hcons : (u :: r :: l :: '(' :: body).take (m + 4) =
        u :: r :: l :: '(' :: body.take m := rfl
    rw [hcons]
    refine ⟨?_, by simp [hlength], d, ?_, hcloses⟩
    · rw [IsVerbatim, verbatim_url hu hr hl, htake, Option.map_some]
      simp [hlength]
    · simp [List.getLast?_cons, Option.mem_def.1 hd]

namespace IsVerbatim

variable {text : List Char} (h : IsVerbatim text)
include h

/-- Verbatim text starts with a quote or with a letter that may open a `url`. -/
theorem exists_cons : ∃ c rest, text = c :: rest ∧ (IsQuote c ∨ c.toLower = 'u') := by
  rcases verbatim_eq_some h with ⟨quote, body, m, hquote, rfl, -⟩ | ⟨u, r, l, body, m, rfl, hu, -⟩
  · exact ⟨quote, body, rfl, .inl hquote⟩
  · exact ⟨u, r :: l :: '(' :: body, rfl, .inr hu⟩

theorem exists_concat : ∃ front d, text = front ++ [d] ∧ (IsQuote d ∨ d = ')') := by
  obtain ⟨-, -, d, hd, hcloses⟩ := isVerbatim_take h
  rw [List.take_length] at hd
  obtain ⟨front, rfl⟩ := List.getLast?_eq_some_iff.1 hd
  exact ⟨front, d, rfl, hcloses⟩

end IsVerbatim

end

section

variable {cs : List Char}

/-- The character in front of a place does not matter for verbatim texts. -/
theorem pieces_verbatim_eq (before before' : Option Char) (cs : List Char) :
    pieces verbatim before cs = pieces verbatim before' cs := by
  cases cs with
  | nil => rw [pieces, pieces]
  | cons c rest =>
    rw [pieces, pieces]
    rfl

theorem IsVerbatim.pieces_append {text : List Char} (h : IsVerbatim text) (rest : List Char) :
    pieces verbatim none (text ++ rest) = .hit text :: pieces verbatim none rest := by
  have hmatch := h.append rest
  obtain ⟨c, tail, rfl, -⟩ := h.exists_cons
  rw [List.cons_append] at hmatch ⊢
  rw [pieces, hmatch, List.length_cons]
  dsimp only
  rw [List.take_left, List.drop_left, pieces_verbatim_eq _ none]

theorem pieces_verbatim_cons {c : Char} (h : verbatim none (c :: cs) = none) :
    pieces verbatim none (c :: cs) = .plain c :: pieces verbatim none cs := by
  rw [pieces, h, pieces_verbatim_eq _ none]

theorem exists_verbatim_or_plain (c : Char) (cs : List Char) :
    (∃ text rest, IsVerbatim text ∧ c :: cs = text ++ rest ∧ rest.length < (c :: cs).length) ∨
      verbatim none (c :: cs) = none := by
  cases h : verbatim none (c :: cs) with
  | none => exact .inr rfl
  | some n =>
    obtain ⟨htext, hlength, d, hd, -⟩ := isVerbatim_take h
    refine .inl ⟨_, (c :: cs).drop n, htext, (List.take_append_drop n _).symm, ?_⟩
    have hne : (c :: cs).take n ≠ [] := by
      rintro hnil
      rw [hnil] at hd
      cases hd
    have hpos := List.length_pos_iff.2 hne
    rw [List.length_drop, List.length_cons]
    omega

/-- Every text is built from verbatim texts and single characters. The character in front of a place
plays no role, so it is left out. -/
theorem verbatim_induction {motive : List Char → Prop} (nil : motive [])
    (verbatim : ∀ text rest, IsVerbatim text → motive rest → motive (text ++ rest))
    (plain : ∀ c rest, Value.verbatim none (c :: rest) = none → motive rest → motive (c :: rest))
    (cs : List Char) : motive cs := by
  induction hlength : cs.length using Nat.strongRecOn generalizing cs with
  | ind n ih =>
    subst hlength
    cases cs with
    | nil => exact nil
    | cons c rest =>
      rcases exists_verbatim_or_plain c rest with ⟨text, after, htext, hcs, hlt⟩ | hnone
      · rw [hcs]
        exact verbatim text after htext (ih _ hlt after rfl)
      · exact plain c rest hnone (ih _ (Nat.lt_succ_self _) rest rfl)

/-- Text at no character of which verbatim text starts is made of single pieces. -/
theorem pieces_verbatim_append {text : List Char} (h : ∀ c ∈ text, IsQuiet c) (cs : List Char) :
    pieces verbatim none (text ++ cs) = text.map .plain ++ pieces verbatim none cs := by
  induction text with
  | nil => rfl
  | cons c text ih =>
    obtain ⟨hquote, hu⟩ := h c (by simp)
    have hnone : verbatim none (c :: (text ++ cs)) = none := by
      refine verbatim_of_not_isQuote hquote (Bool.eq_false_iff.2 fun hurl => ?_)
      obtain ⟨u, r, l, rest, heq, hlower, -⟩ := startsWithFold_url.1 hurl
      rw [(List.cons.inj heq).1] at hu
      exact hu hlower
    rw [List.cons_append, pieces_verbatim_cons hnone, ih fun d hd => h d (by simp [hd])]
    rfl

/-- Text without quotes and without the opening of a `url` has no verbatim text. Quotes of either
kind are excluded, closed or not. -/
theorem verbatims_eq_nil (hquote : ∀ c ∈ cs, ¬ IsQuote c)
    (hurl : ∀ u r l, [u, r, l, '('] <:+: cs → fold [u, r, l] ≠ "url".toList) :
    verbatims cs = [] := by
  refine List.eq_nil_iff_forall_not_mem.2 fun text htext => ?_
  obtain ⟨front, before, c, rest, n, hcs, hmatch, -⟩ := exists_of_mem_findAll htext
  rcases verbatim_eq_some hmatch with ⟨quote, body, m, hquote', heq, -⟩ |
    ⟨u, r, l, body, m, heq, hu, hr, hl, -⟩
  · exact hquote quote (by simp [hcs, heq]) hquote'
  · refine hurl u r l ⟨front, body, by simp [hcs, heq]⟩ ?_
    rw [fold, List.map_cons, List.map_cons, List.map_cons, hu, hr, hl]
    rfl

end

end Sheetsmith.Value
