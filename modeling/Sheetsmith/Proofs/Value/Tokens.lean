import Sheetsmith.Proofs.Text.Pieces
import Sheetsmith.Proofs.Value.Strings

namespace Sheetsmith.Value

open Text

/-- What the search for colours finds, with the character before it and the text behind it: strings,
and three forms that a colour may have. -/
inductive IsToken (before : Option Char) : (token rest : List Char) → Prop
  | string {quote : Char} {body rest : List Char} (hquote : IsQuote quote)
    (hbody : IsBody quote body) : IsToken before (quote :: (body ++ [quote])) rest
  | hex {digits rest : List Char} (hdigits : ∀ c ∈ digits, isHexDigit c = true)
    (hends : wordEnds rest = true) : IsToken before ('#' :: digits) rest
  | call {word inner rest : List Char} (hstarts : wordStarts before = true) (hne : word ≠ [])
    (hword : ∀ c ∈ word, isWordChar c = true) (hinner : ')' ∉ inner) :
    IsToken before (word ++ '(' :: (inner ++ [')'])) rest
  | name {word rest : List Char} (hstarts : wordStarts before = true)
    (hword : ∀ c ∈ word, isWordChar c = true)
    (hname : (Color.named? (String.ofList (word.map plainLetter))).isSome = true) (hends : wordEnds rest = true)
    (hcall : wordCall? (word ++ rest) = none) : IsToken before word rest

theorem wordEnds_drop_takeWhile (cs : List Char) :
    wordEnds (cs.drop (cs.takeWhile isWordChar).length) = true := by
  rw [drop_length_takeWhile]
  cases hrest : cs.dropWhile isWordChar with
  | nil => rfl
  | cons c rest =>
    have hc := List.head?_dropWhile_not isWordChar cs
    rw [hrest] at hc
    simpa [wordEnds] using hc

/-- The end that is found for a string makes it a token. What stands in front of the string does not
matter. -/
theorem stringEnd?_isToken {before : Option Char} {quote : Char} {rest : List Char} {n : Nat}
    (hquote : IsQuote quote) (h : (stringEnd? quote rest).map (· + 1) = some n) :
    ∃ token more, quote :: rest = token ++ more ∧ n = token.length ∧ IsToken before token more := by
  obtain ⟨m, hm, rfl⟩ := Option.map_eq_some_iff.1 h
  have hne : quote ≠ '\\' := by
    rcases hquote with rfl | rfl <;> decide
  obtain ⟨body, after, rfl, hbody, rfl⟩ := stringEnd?_eq_some hne hm
  exact ⟨quote :: (body ++ [quote]), after, by simp, by simp, .string hquote hbody⟩

/-- A word with parentheses behind it is a token, whatever stands in them. The word must not be
the end of a longer one, which is what the character in front decides. -/
theorem wordCall?_isToken {before : Option Char} (hstarts : wordStarts before = true)
    {cs : List Char} {n : Nat} (h : wordCall? cs = some n) :
    ∃ token rest, cs = token ++ rest ∧ n = token.length ∧ IsToken before token rest := by
  unfold wordCall? at h
  dsimp only at h
  split at h
  · next rest hrest =>
    split at h
    · cases h
    · next hclosed =>
      rw [not_or, List.isEmpty_iff] at hclosed
      obtain ⟨hword, hclosed⟩ := hclosed
      obtain ⟨c, after, hafter⟩ := List.exists_cons_of_ne_nil hclosed
      have hc : c = ')' := by
        rw [drop_length_takeWhile] at hafter
        have hc := List.head?_dropWhile_not (· ≠ ')') rest
        rw [hafter] at hc
        simpa using hc
      subst hc
      cases h
      refine ⟨cs.takeWhile isWordChar ++ '(' :: (rest.takeWhile (· ≠ ')') ++ [')']), after, ?_, ?_,
        .call hstarts (List.ne_nil_of_length_pos (Nat.pos_of_ne_zero hword))
          (List.all_eq_true.1 List.all_takeWhile) (not_mem_takeWhile (by decide) rest)⟩
      · calc cs = cs.takeWhile isWordChar ++ cs.drop (cs.takeWhile isWordChar).length := by
              rw [drop_length_takeWhile, List.takeWhile_append_dropWhile]
          _ = cs.takeWhile isWordChar ++ '(' :: (rest.takeWhile (· ≠ ')') ++
              rest.drop (rest.takeWhile (· ≠ ')')).length) := by
              rw [hrest, drop_length_takeWhile, List.takeWhile_append_dropWhile]
          _ = _ := by
              rw [hafter]
              simp
      · simp only [List.length_append, List.length_cons, List.length_nil]
        omega
  · cases h

/-- A name of a colour is a token where no call starts. The name may be in any letter case. -/
theorem colorName?_isToken {before : Option Char} (hstarts : wordStarts before = true)
    {cs : List Char} {n : Nat} (hcall : wordCall? cs = none) (h : colorName? cs = some n) :
    ∃ token rest, cs = token ++ rest ∧ n = token.length ∧ IsToken before token rest := by
  unfold colorName? at h
  dsimp only at h
  split at h
  · next hname =>
    cases h
    have hsplit : cs.takeWhile isWordChar ++ cs.drop (cs.takeWhile isWordChar).length = cs := by
      rw [drop_length_takeWhile, List.takeWhile_append_dropWhile]
    exact ⟨cs.takeWhile isWordChar, cs.drop (cs.takeWhile isWordChar).length, hsplit.symm, rfl,
      .name hstarts (List.all_eq_true.1 List.all_takeWhile) hname (wordEnds_drop_takeWhile cs)
        (by rwa [hsplit])⟩
  · cases h

/-- What the search for colours finds is one of the four forms. They are told apart in the order in
which the search tries them. -/
theorem colorToken_eq_some {before : Option Char} {cs : List Char} {n : Nat}
    (h : colorToken before cs = some n) :
    ∃ token rest, cs = token ++ rest ∧ n = token.length ∧ IsToken before token rest := by
  unfold colorToken at h
  split at h
  · exact stringEnd?_isToken (.inl rfl) h
  · exact stringEnd?_isToken (.inr rfl) h
  · next rest =>
    obtain ⟨m, hm, rfl⟩ := Option.map_eq_some_iff.1 h
    unfold hexDigits? at hm
    dsimp only at hm
    split at hm
    · next hdigits =>
      cases hm
      refine ⟨'#' :: rest.takeWhile isHexDigit, rest.drop (rest.takeWhile isHexDigit).length, ?_,
        rfl, .hex (List.all_eq_true.1 List.all_takeWhile) hdigits.2.2⟩
      rw [drop_length_takeWhile, List.cons_append, List.takeWhile_append_dropWhile]
    · cases hm
  · split at h
    · next hstarts =>
      rw [Option.orElse_eq_orElse, Option.orElse_eq_or, Option.or_eq_some_iff] at h
      rcases h with hcall | ⟨hnone, hname⟩
      · exact wordCall?_isToken hstarts hcall
      · exact colorName?_isToken hstarts hnone hname
    · cases h

/-- The same, given by the number of characters that are found. This is the form in which a
replacement meets its matches. -/
theorem isToken_of_colorToken {before : Option Char} {c : Char} {rest : List Char} {n : Nat}
    (h : colorToken before (c :: rest) = some (n + 1)) :
    IsToken before (c :: rest.take n) (rest.drop n) := by
  obtain ⟨token, behind, hcs, hlength, htoken⟩ := colorToken_eq_some h
  have htake := congrArg (List.take (n + 1)) hcs
  have hdrop := congrArg (List.drop (n + 1)) hcs
  rw [hlength, List.take_left, ← hlength, List.take_succ_cons] at htake
  rw [hlength, List.drop_left, ← hlength, List.drop_succ_cons] at hdrop
  rwa [htake, hdrop]

namespace IsToken

variable {before : Option Char} {token rest : List Char} (h : IsToken before token rest)
  (hquote : ∀ quote, IsQuote quote → token.head? ≠ some quote)
include h hquote

/-- What may be a colour starts with a `#` or with a word. -/
theorem starts (hne : token ≠ []) : token.head? = some '#' ∨
    (wordStarts before = true ∧ ∃ c, token.head? = some c ∧ isWordChar c = true) := by
  cases h with
  | string hstring hbody => exact absurd rfl (hquote _ hstring)
  | hex hdigits hends => exact .inl rfl
  | @call word inner _ hstarts hword' hword hinner =>
    obtain ⟨c, word, rfl⟩ := List.exists_cons_of_ne_nil hword'
    exact .inr ⟨hstarts, c, rfl, hword c (by simp)⟩
  | name hstarts hword hname hends hcall =>
    obtain ⟨c, word, rfl⟩ := List.exists_cons_of_ne_nil hne
    exact .inr ⟨hstarts, c, rfl, hword c (by simp)⟩

/-- What may be a colour ends with a parenthesis or with its word. -/
theorem ends : token.getLast? = some ')' ∨ wordEnds rest = true := by
  cases h with
  | string hstring hbody => exact absurd rfl (hquote _ hstring)
  | hex hdigits hends => exact .inr hends
  | call hstarts hne hword hinner =>
    exact .inl (by rw [← List.cons_append, ← List.append_assoc, List.getLast?_concat])
  | name hstarts hword hname hends hcall => exact .inr hends

end IsToken

end Sheetsmith.Value
