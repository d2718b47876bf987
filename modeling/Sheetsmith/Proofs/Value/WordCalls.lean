import Mathlib.Data.List.TakeWhile
import Sheetsmith.Proofs.Value.Sweeping
import Sheetsmith.Proofs.Value.Tokens

namespace Sheetsmith.Value

open Text

variable {before : Option Char} {cs : List Char}

/-- The end of a string is found without a look at the text behind it. The text behind may hold
further quotes. -/
theorem stringEnd?_append {quote : Char} (hquote : quote ≠ '\\') {n : Nat}
    (h : stringEnd? quote cs = some n) (rest : List Char) :
    stringEnd? quote (cs ++ rest) = some n := by
  have hcons {c : Char} (hc : c ≠ '\\') (cs : List Char) : stringEnd? quote (c :: cs) =
      if c = quote then some 1 else (stringEnd? quote cs).map (· + 1) := by
    rw [stringEnd?]
    · exact fun heq _ => hc heq
    · exact fun _ _ heq _ => hc heq
  fun_induction stringEnd? quote cs generalizing n with
  | case1 => cases h
  | case2 => cases h
  | case3 => cases h
  | case4 c cs hc ih =>
    obtain ⟨m, hm, rfl⟩ := Option.map_eq_some_iff.1 h
    rw [List.cons_append, List.cons_append, stringEnd?, if_neg hc, ih hm, Option.map_some]
  | case5 cs hnil hescape => rw [List.cons_append, hcons hquote, if_pos rfl, h]
  | case6 c cs hnil hescape hc ih =>
    obtain ⟨m, hm, rfl⟩ := Option.map_eq_some_iff.1 h
    have hbackslash : c ≠ '\\' := by
      rintro rfl
      cases cs with
      | nil => exact hnil rfl rfl
      | cons d cs => exact hescape d cs rfl rfl
    rw [List.cons_append, hcons hbackslash, if_neg hc, ih hm, Option.map_some]

/-- At a quote the search for colours looks for a string only. -/
theorem colorToken_of_isQuote {c : Char} (hc : IsQuote c) :
    colorToken before (c :: cs) = (stringEnd? c cs).map (· + 1) := by
  rcases hc with rfl | rfl <;> rfl

/-- A string that is taken as a whole is so in front of any other text. What stands in front of the
quote does not matter either. -/
theorem colorToken_string {quote : Char} (hquote : IsQuote quote)
    (h : colorToken none (quote :: cs) = some (cs.length + 1)) (after : List Char) :
    colorToken before (quote :: (cs ++ after)) = some (cs.length + 1) := by
  have hbackslash : quote ≠ '\\' := by
    rcases hquote with rfl | rfl <;> decide
  rw [colorToken_of_isQuote hquote] at h ⊢
  obtain ⟨n, hn, hlength⟩ := Option.map_eq_some_iff.1 h
  rw [stringEnd?_append hbackslash hn, Option.map_some, hlength]

/-- At a word the search for colours looks for a call first and then for a name. Inside a longer
word it finds neither. -/
theorem colorToken_of_isWordChar {c : Char} (hc : isWordChar c = true) :
    colorToken before (c :: cs) =
      if wordStarts before then (wordCall? (c :: cs)).or (colorName? (c :: cs)) else none := by
  have hne {d : Char} (hd : isWordChar d = false) : c ≠ d := by
    rintro rfl
    rw [hc] at hd
    cases hd
  unfold colorToken
  split
  · next heq => exact absurd (List.cons.inj heq).1 (hne (by decide))
  · next heq => exact absurd (List.cons.inj heq).1 (hne (by decide))
  · next heq => exact absurd (List.cons.inj heq).1 (hne (by decide))
  · rw [Option.orElse_eq_orElse, Option.orElse_eq_or]

/-- A call is a word and what is in parentheses behind it. It is closed by the first closing
parenthesis, also one in a string. -/
theorem exists_wordCall?_iff : (∃ n, wordCall? cs = some (n + 1)) ↔
    ∃ word rest, cs = word ++ '(' :: rest ∧ word ≠ [] ∧ (∀ c ∈ word, isWordChar c = true) ∧
      ')' ∈ rest := by
  have hdrop {rest : List Char} : (rest.dropWhile (· ≠ ')')).isEmpty = true ↔ ')' ∉ rest := by
    rw [List.isEmpty_iff, List.dropWhile_eq_nil_iff]
    exact ⟨fun h hmem => by simpa using h _ hmem, fun h c hc => by
      simpa using fun heq : c = ')' => h (heq ▸ hc)⟩
  constructor
  · rintro ⟨n, h⟩
    unfold wordCall? at h
    dsimp only at h
    split at h
    · next rest hrest =>
      split at h
      · cases h
      · next hclosed =>
        rw [not_or, drop_length_takeWhile, hdrop, not_not] at hclosed
        refine ⟨cs.takeWhile isWordChar, rest, ?_,
          List.ne_nil_of_length_pos (Nat.pos_of_ne_zero hclosed.1),
          List.all_eq_true.1 List.all_takeWhile, hclosed.2⟩
        rw [← hrest, drop_length_takeWhile, List.takeWhile_append_dropWhile]
    · cases h
  · rintro ⟨word, rest, rfl, hne, hword, hclosed⟩
    have htake : (word ++ '(' :: rest).takeWhile isWordChar = word :=
      takeWhile_append_of_head hword (by rintro c ⟨⟩; decide)
    unfold wordCall?
    simp only [htake, List.drop_left, drop_length_takeWhile, hdrop]
    rw [if_neg]
    · exact ⟨_, rfl⟩
    · rintro (hlength | hopen)
      · exact hne (List.length_eq_zero_iff.1 hlength)
      · exact hopen hclosed

theorem wordCall?_eq_none_iff : wordCall? cs = none ↔ ∀ n, wordCall? cs ≠ some (n + 1) := by
  constructor
  · intro h n
    simp [h]
  · intro h
    cases hcall : wordCall? cs with
    | none => rfl
    | some n =>
      cases n with
      | succ n => exact absurd hcall (h n)
      | zero =>
        unfold wordCall? at hcall
        dsimp only at hcall
        split at hcall
        · split at hcall
          · cases hcall
          · cases hcall
        · cases hcall

theorem wordCall?_of_wordEnds (h : wordEnds cs = true) : wordCall? cs = none := by
  refine wordCall?_eq_none_iff.2 fun n hn => ?_
  obtain ⟨word, rest, rfl, hne, hword, -⟩ := exists_wordCall?_iff.1 ⟨n, hn⟩
  obtain ⟨c, word, rfl⟩ := List.exists_cons_of_ne_nil hne
  have hc := hword c (by simp)
  rw [List.cons_append, wordEnds, hc] at h
  cases h

/-- A word that is no call does not become one without its first character. -/
theorem wordCall?_tail {c : Char} (hc : isWordChar c = true) (h : wordCall? (c :: cs) = none) :
    wordCall? cs = none := by
  refine wordCall?_eq_none_iff.2 fun n hn => ?_
  obtain ⟨word, rest, rfl, hne, hword, hclosed⟩ := exists_wordCall?_iff.1 ⟨n, hn⟩
  obtain ⟨m, hm⟩ := exists_wordCall?_iff.2 ⟨c :: word, rest, rfl, by simp,
    List.forall_mem_cons.2 ⟨hc, hword⟩, hclosed⟩
  rw [List.cons_append] at hm
  rw [h] at hm
  cases hm

/-- A verbatim text that the search for colours takes as a whole is a string or a call. The call has
no closing parenthesis inside, so it ends at the first one. -/
theorem IsVerbatim.isCall {text : List Char} (h : IsVerbatim text)
    (hwhole : colorToken none text = some text.length) :
    (∃ quote tail, text = quote :: tail ∧ IsQuote quote) ∨
      ∃ word inner, text = word ++ '(' :: (inner ++ [')']) ∧ word ≠ [] ∧
        (∀ c ∈ word, isWordChar c = true) ∧ ')' ∉ inner := by
  obtain ⟨token, rest, htext, hlength, htoken⟩ := colorToken_eq_some hwhole
  obtain rfl : rest = [] := by
    rw [htext, List.length_append] at hlength
    exact List.length_eq_zero_iff.1 (by omega)
  rw [List.append_nil] at htext
  subst htext
  rcases verbatim_eq_some h with ⟨quote, body, m, hquote, rfl, -⟩ | ⟨u, r, l, body, m, hcs, hu, -⟩
  · exact .inl ⟨quote, body, rfl, hquote⟩
  · have hopen : '(' ∈ text := by simp [hcs]
    cases htoken with
    | string hquote hbody => exact .inl ⟨_, _, rfl, hquote⟩
    | hex hdigits hends =>
      rw [← (List.cons.inj hcs).1] at hu
      exact absurd hu (by decide)
    | call hstarts hne hword hinner => exact .inr ⟨_, _, rfl, hne, hword, hinner⟩
    | name hstarts hword hname hends hcall => exact absurd (hword _ hopen) (by decide)

end Sheetsmith.Value
