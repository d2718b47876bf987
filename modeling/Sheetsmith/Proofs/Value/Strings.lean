import Mathlib.Algebra.Group.Nat.Even
import Mathlib.Data.List.Induction
import Sheetsmith.Proofs.Text.Quotable
import Sheetsmith.Sheet.Event
import Sheetsmith.Value.Color

namespace Sheetsmith.Text

/-- How many backslashes a text ends with. -/
def backslashes (cs : List Char) : Nat :=
  (cs.reverse.takeWhile (· == '\\')).length

/-- The text between a quote and the quote that ends its string: an even number of backslashes
stands in front of the latter, and an odd one in front of every quote of this kind on the way. -/
structure IsBody (quote : Char) (body : List Char) : Prop where
  even : Even (backslashes body)
  odd : ∀ front back, body = front ++ quote :: back → ¬ Even (backslashes front)

@[simp] theorem backslashes_nil : backslashes [] = 0 := rfl

/-- A backslash at the end counts one more, and any other character starts anew. -/
theorem backslashes_concat (cs : List Char) (c : Char) :
    backslashes (cs ++ [c]) = if c = '\\' then backslashes cs + 1 else 0 := by
  unfold backslashes
  rw [List.reverse_concat, List.takeWhile_cons]
  by_cases hc : c = '\\' <;> simp [hc]

/-- There are none at the end if the last character is something else. -/
theorem backslashes_eq_zero_iff {cs : List Char} :
    backslashes cs = 0 ↔ cs.getLast? ≠ some '\\' := by
  induction cs using List.reverseRecOn with
  | nil => simp
  | append_singleton cs c =>
    rw [backslashes_concat, List.getLast?_concat]
    by_cases hc : c = '\\' <;> simp [hc]

/-- Only backslashes are counted, so what stands in front of the last other character is not. -/
theorem backslashes_append_cons {c : Char} (hc : c ≠ '\\') (front back : List Char) :
    backslashes (front ++ c :: back) = backslashes back := by
  induction back using List.reverseRecOn with
  | nil => rw [backslashes_concat, if_neg hc, backslashes_nil]
  | append_singleton back d ih =>
    rw [← List.cons_append, ← List.append_assoc, backslashes_concat, backslashes_concat, ih]

/-- A backslash and the character that it escapes leave the parity as it is, also when that
character is a backslash. -/
theorem even_backslashes_escape (c : Char) (cs : List Char) :
    Even (backslashes ('\\' :: c :: cs)) ↔ Even (backslashes cs) := by
  by_cases hc : c = '\\'
  · subst hc
    induction cs using List.reverseRecOn with
    | nil => decide
    | append_singleton cs d ih =>
      rw [← List.cons_append, ← List.cons_append, backslashes_concat, backslashes_concat]
      split
      · rw [Nat.even_add_one, Nat.even_add_one, ih]
      · rfl
  · rw [show '\\' :: c :: cs = ['\\'] ++ c :: cs from rfl, backslashes_append_cons hc]

section

variable {quote : Char}

theorem isBody_nil : IsBody quote [] :=
  ⟨by decide, fun front back h => by simp at h⟩

/-- A character that is neither a backslash nor the quote goes on with a string. -/
theorem isBody_cons {c : Char} {body : List Char} (hc : c ≠ '\\') (hquote : c ≠ quote) :
    IsBody quote (c :: body) ↔ IsBody quote body := by
  have hcount (cs : List Char) : backslashes (c :: cs) = backslashes cs :=
    backslashes_append_cons hc [] cs
  constructor
  · intro h
    refine ⟨by rw [← hcount]; exact h.even, fun front back heq => ?_⟩
    rw [← hcount]
    exact h.odd (c :: front) back (by rw [heq, List.cons_append])
  · intro h
    refine ⟨by rw [hcount]; exact h.even, fun front back heq => ?_⟩
    cases front with
    | nil => exact absurd (List.cons.inj heq).1 hquote
    | cons d front =>
      obtain ⟨rfl, hrest⟩ := List.cons.inj heq
      rw [hcount]
      exact h.odd front back hrest

/-- A backslash and any character behind it go on with a string. -/
theorem isBody_escape (hquote : quote ≠ '\\') (c : Char) (body : List Char) :
    IsBody quote ('\\' :: c :: body) ↔ IsBody quote body := by
  constructor
  · intro h
    refine ⟨(even_backslashes_escape c body).1 h.even, fun front back heq => ?_⟩
    rw [← even_backslashes_escape c front]
    exact h.odd ('\\' :: c :: front) back (by rw [heq]; rfl)
  · intro h
    refine ⟨(even_backslashes_escape c body).2 h.even, fun front back heq => ?_⟩
    match front with
    | [] => exact absurd (List.cons.inj heq).1.symm hquote
    | [d] =>
      -- The escaped character may be the quote itself.
      rw [← (List.cons.inj heq).1]
      decide
    | d :: e :: front =>
      obtain ⟨hd, heq⟩ := List.cons.inj heq
      obtain ⟨he, heq⟩ := List.cons.inj heq
      rw [← hd, even_backslashes_escape]
      exact h.odd front back heq

/-- A backslash at the start of a string has a character to escape. The escaped character may itself
be a quote or a backslash. -/
theorem IsBody.exists_escape (hquote : quote ≠ '\\') {body after rest : List Char}
    (h : IsBody quote body) (hbody : body ++ quote :: after = '\\' :: rest) :
    ∃ c tail, body = '\\' :: c :: tail ∧ rest = c :: (tail ++ quote :: after) ∧
      IsBody quote tail := by
  match body with
  | [] => exact absurd (List.cons.inj hbody).1 hquote
  | [d] =>
    obtain rfl := (List.cons.inj hbody).1
    exact absurd h.even (by decide)
  | d :: c :: tail =>
    obtain ⟨rfl, rfl⟩ := List.cons.inj hbody
    exact ⟨c, tail, rfl, rfl, (isBody_escape hquote c tail).1 h⟩

end

end Sheetsmith.Text

namespace Sheetsmith.Value

open Text

variable {quote : Char}

/-- The pattern for strings finds the quote that ends the string. So it never ends at an escaped
one, nor behind the end of the string. -/
theorem stringEnd?_eq_some (hquote : quote ≠ '\\') {cs : List Char} {n : Nat}
    (h : stringEnd? quote cs = some n) :
    ∃ body after, cs = body ++ quote :: after ∧ IsBody quote body ∧ n = body.length + 1 := by
  fun_induction stringEnd? quote cs generalizing n with
  | case1 => cases h
  | case2 => cases h
  | case3 => cases h
  | case4 c cs hc ih =>
    obtain ⟨m, hm, rfl⟩ := Option.map_eq_some_iff.1 h
    obtain ⟨body, after, rfl, hbody, rfl⟩ := ih hm
    exact ⟨'\\' :: c :: body, after, rfl, (isBody_escape hquote c body).2 hbody, rfl⟩
  | case5 cs _ _ =>
    cases h
    exact ⟨[], cs, rfl, isBody_nil, rfl⟩
  | case6 c cs hnil hcons hc ih =>
    obtain ⟨m, hm, rfl⟩ := Option.map_eq_some_iff.1 h
    obtain ⟨body, after, rfl, hbody, rfl⟩ := ih hm
    have hbackslash : c ≠ '\\' := by
      rintro rfl
      cases body with
      | nil => exact hcons quote after rfl rfl
      | cons d body => exact hcons d (body ++ quote :: after) rfl rfl
    exact ⟨c :: body, after, rfl, (isBody_cons hbackslash hc).2 hbody, rfl⟩

/-- Where no line ends inside a string, the pattern finds its end. Line ends are excluded because
the pattern takes none behind a backslash. -/
theorem stringEnd?_of_isBody (hquote : quote ≠ '\\') {body after : List Char}
    (hbody : IsBody quote body) (hline : '\n' ∉ body) :
    stringEnd? quote (body ++ quote :: after) = some (body.length + 1) := by
  generalize hcs : body ++ quote :: after = cs
  fun_induction stringEnd? quote cs generalizing body with
  | case1 => simp at hcs
  | case2 =>
    obtain ⟨c, tail, -, heq, -⟩ := hbody.exists_escape hquote hcs
    cases heq
  | case3 cs =>
    obtain ⟨c, tail, rfl, heq, -⟩ := hbody.exists_escape hquote hcs
    obtain ⟨rfl, -⟩ := List.cons.inj heq
    exact absurd (by simp) hline
  | case4 c cs hc ih =>
    obtain ⟨d, tail, rfl, heq, htail⟩ := hbody.exists_escape hquote hcs
    obtain ⟨rfl, rfl⟩ := List.cons.inj heq
    rw [ih htail (fun hmem => hline (by simp [hmem])) rfl]
    rfl
  | case5 cs _ _ =>
    cases body with
    | nil => rfl
    | cons d body =>
      obtain ⟨rfl, -⟩ := List.cons.inj hcs
      exact absurd (by decide) (hbody.odd [] body rfl)
  | case6 c cs hnil hcons hc ih =>
    cases body with
    | nil => exact absurd (List.cons.inj hcs).1.symm hc
    | cons d body =>
      obtain ⟨rfl, rfl⟩ := List.cons.inj hcs
      have hbackslash : d ≠ '\\' := by
        rintro rfl
        obtain ⟨c, tail, -, heq, -⟩ := hbody.exists_escape hquote hcs
        exact hcons c _ rfl heq
      rw [ih ((isBody_cons hbackslash hc).1 hbody) (fun hmem => hline (by simp [hmem])) rfl]
      rfl

/-- Where strings end. The quote that ends a string is the first one of its kind behind an even
number of backslashes. The reader takes it for the end if and only if this number is zero; the
pattern for strings takes it for the end whenever no line ends inside the string. Where there is no
such quote the string has no end, for either of them. The text may be any. -/
theorem takeQuoted_ends_iff (hquote : IsQuote quote) (cs : List Char) :
    (∀ body after, cs = body ++ quote :: after → IsBody quote body →
      (takeQuoted quote quote cs = (body, some after) ↔ backslashes body = 0) ∧
      ('\n' ∉ body → stringEnd? quote cs = some (body.length + 1))) ∧
    ((∀ body after, cs = body ++ quote :: after → ¬ Even (backslashes body)) →
      takeQuoted quote quote cs = (cs, none) ∧ stringEnd? quote cs = none) := by
  have hne : quote ≠ '\\' := by
    rcases hquote with rfl | rfl <;> decide
  -- The opening quote is no backslash.
  have hlast (body : List Char) :
      (quote :: body).getLast? ≠ some '\\' ↔ backslashes body = 0 := by
    rw [backslashes_eq_zero_iff, List.getLast?_cons]
    cases body.getLast? <;> simp [hne]
  constructor
  · rintro body after rfl hbody
    refine ⟨?_, fun hline => stringEnd?_of_isBody hne hbody hline⟩
    rw [takeQuoted_eq_some_iff, hlast]
    refine ⟨fun h => h.2.1, fun h => ⟨rfl, h, fun front back heq => ?_⟩⟩
    by_contra hfront
    rw [← ne_eq, hlast] at hfront
    exact hbody.odd front back heq (by rw [hfront]; decide)
  · intro hnone
    constructor
    · cases hstring : takeQuoted quote quote cs with
      | mk body after =>
        cases after with
        | none => rw [← takeQuoted_unclosed hstring]
        | some after =>
          obtain ⟨hcs, hbare, -⟩ := takeQuoted_eq_some_iff.1 hstring
          rw [hlast] at hbare
          exact absurd (by rw [hbare]; decide) (hnone body after hcs)
    · cases hend : stringEnd? quote cs with
      | none => rfl
      | some n =>
        obtain ⟨body, after, hcs, hbody, -⟩ := stringEnd?_eq_some hne hend
        exact absurd hbody.even (hnone body after hcs)

/-- A string with an escaped quote, and text behind it. -/
theorem takeQuoted_ends_iff_escaped :
    IsQuote '\x27' ∧ IsBody '\x27' "it\\'s".toList ∧
      takeQuoted '\x27' '\x27' "it\\'s' b".toList = ("it\\'s".toList, some " b".toList) ∧
      stringEnd? '\x27' "it\\'s' b".toList = some 6 := by
  have hquote : IsQuote '\x27' := .inr rfl
  have hbody : IsBody '\x27' "it\\'s".toList := by
    rw [show "it\\'s".toList = ['i', 't', '\\', '\x27', 's'] from rfl,
      isBody_cons (by decide) (by decide), isBody_cons (by decide) (by decide),
      isBody_escape (by decide), isBody_cons (by decide) (by decide)]
    exact isBody_nil
  obtain ⟨hreader, hpattern⟩ :=
    (takeQuoted_ends_iff hquote "it\\'s' b".toList).1 "it\\'s".toList " b".toList rfl hbody
  exact ⟨hquote, hbody, hreader.2 (by decide), hpattern (by decide)⟩

/-- A backslash that is escaped itself escapes no quote. The reader takes the quote behind it for a
part of the string, which then runs to the end of the text; the pattern ends the string there. -/
theorem takeQuoted_ends_ne :
    IsBody '"' ['\\', '\\'] ∧ stringEnd? '"' ['\\', '\\', '"'] = some 3 ∧
      takeQuoted '"' '"' ['\\', '\\', '"'] = (['\\', '\\', '"'], none) ∧
      Event.ofText true "a\x7bcontent:\"\\\\\";color:red\x7d" =
        [.opened (some "a"), .declaration "content" "\"\\\\\";color:red\x7d"] :=
  ⟨(isBody_escape (by decide) _ _).2 isBody_nil, by decide, by decide, by decide +kernel⟩

end Sheetsmith.Value
