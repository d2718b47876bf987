import Sheetsmith.Proofs.Color.Bare
import Sheetsmith.Proofs.Color.Hexadecimal
import Sheetsmith.Proofs.Value.Apart
import Sheetsmith.Proofs.Value.Parts

namespace Sheetsmith.Value

open Text

/-- Where the search for colours comes along, verbatim texts are taken as a whole and calls close
the strings that stand in them. -/
structure Searchable (before : Option Char) (cs : List Char) : Prop where
  closes : ClosesStrings cs
  whole : ∀ text ∈ verbatims cs, colorToken none text = some text.length
  calls : ∀ token, .hit token ∈ pieces colorToken before cs → ClosesStrings token
  /-- The place is not inside the word of a call. -/
  word : wordStarts before = false → wordCall? cs = none

namespace Searchable

variable {before : Option Char} {c : Char} {rest : List Char}

/-- Verbatim text at the place is taken as a whole. -/
theorem colorToken_eq {text after : List Char} (h : Searchable before (text ++ after))
    (htext : IsVerbatim text) : ∃ n, colorToken before (text ++ after) = some (n + 1) := by
  have hwhole := h.whole text (by simp [verbatims_append htext])
  rcases htext.isCall hwhole with ⟨quote, tail, rfl, hquote⟩ |
    ⟨word, inner, rfl, hne, hword, -⟩
  · exact ⟨_, colorToken_string hquote hwhole after⟩
  · obtain ⟨n, hn⟩ := exists_wordCall?_iff.2 ⟨word, inner ++ ')' :: after, rfl, hne, hword, by simp⟩
    have hcs : word ++ '(' :: (inner ++ [')']) ++ after =
        word ++ '(' :: (inner ++ ')' :: after) := by
      simp
    rw [hcs] at h ⊢
    cases hstarts : wordStarts before with
    | false =>
      rw [h.word hstarts] at hn
      cases hn
    | true =>
      obtain ⟨c, word, rfl⟩ := List.exists_cons_of_ne_nil hne
      rw [List.cons_append] at hn ⊢
      refine ⟨n, ?_⟩
      rw [colorToken_of_isWordChar (hword c (by simp)), if_pos hstarts, hn, Option.some_or]

/-- A character that the search passes over is not at the start of verbatim text. This covers
strings and `url`s, where the text is searchable. -/
theorem verbatim_eq_none (h : Searchable before (c :: rest))
    (hpass : ∀ n, colorToken before (c :: rest) ≠ some (n + 1)) :
    verbatim none (c :: rest) = none := by
  rcases exists_verbatim_or_plain c rest with ⟨text, after, htext, hcs, -⟩ | hnone
  · rw [hcs] at h hpass
    obtain ⟨n, hn⟩ := h.colorToken_eq htext
    exact absurd hn (hpass n)
  · exact hnone

/-- The word of a character that the search passes over is no call. Otherwise the search would have
taken the call, which comes before names of colours. -/
theorem wordCall?_eq_none (h : Searchable before (c :: rest))
    (hpass : ∀ n, colorToken before (c :: rest) ≠ some (n + 1)) (hc : isWordChar c = true) :
    wordCall? rest = none := by
  refine wordCall?_tail hc ?_
  cases hstarts : wordStarts before with
  | false => exact h.word hstarts
  | true =>
    refine wordCall?_eq_none_iff.2 fun n hn => hpass n ?_
    rw [colorToken_of_isWordChar hc, if_pos hstarts, hn, Option.some_or]

/-- Behind a character that it passes over, the search comes along as before. -/
theorem tail (h : Searchable before (c :: rest))
    (hpass : ∀ n, colorToken before (c :: rest) ≠ some (n + 1)) : Searchable (some c) rest := by
  have hpieces := pieces_verbatim_cons (h.verbatim_eq_none hpass)
  refine ⟨h.closes.of_append [.plain c] hpieces, fun text htext => h.whole text ?_,
    fun token htoken => h.calls token ?_,
    fun hstarts => h.wordCall?_eq_none hpass (by simpa [wordStarts] using hstarts)⟩
  · rwa [verbatims_of_pieces_eq [c] hpieces]
  · rw [pieces]
    split
    · next n hn => exact absurd hn (hpass n)
    · exact List.mem_cons_of_mem _ htoken

end Searchable

namespace Searchable

variable {before : Option Char} {token after : List Char} (h : Searchable before (token ++ after))
  (hne : token ≠ []) (hmatch : colorToken before (token ++ after) = some token.length)
  (htoken : IsToken before token after)
include h hne hmatch htoken

/-- What the search finds does not cut verbatim text. -/
theorem apart (hcloses : ClosesStrings token) : Apart token after := by
  cases htoken with
  | @string quote body _ hquote hbody =>
    -- The quote opens verbatim text, and the search takes that as a whole.
    rw [List.cons_append] at h hmatch
    rcases exists_verbatim_or_plain quote (body ++ [quote] ++ after) with
      ⟨text, rest, htext, hcs, -⟩ | hnone
    · obtain ⟨c, tail, rfl, -⟩ := htext.exists_cons
      have hwhole := h.whole (c :: tail) (by rw [hcs, verbatims_append htext]; simp)
      rw [List.cons_append] at hcs
      obtain ⟨rfl, htail⟩ := List.cons.inj hcs
      rw [htail, colorToken_string hquote hwhole, List.length_cons] at hmatch
      obtain ⟨rfl, -⟩ := List.append_inj htail (by simpa using hmatch.symm)
      exact apart_of_isVerbatim htext after
    · exact absurd (by rw [pieces_verbatim_cons hnone]; simp) (h.closes quote hquote)
  | hex hdigits hends =>
    refine apart_of_isQuiet (List.forall_mem_cons.2 ⟨by decide, fun c hc => ?_⟩) after
    exact forall_ascii (P := fun c => isHexDigit c = true → IsQuiet c) (by decide)
      (toNat_lt_of_isHexDigit (hdigits c hc)) (hdigits c hc)
  | call hstarts hne hword hinner =>
    exact apart_of_endsClosed (endsClosed_call hword hinner) hcloses h.whole
  | name hstarts hword hname hends hcall => exact apart_of_word hword hcall h.whole

theorem of_append (hcloses : ClosesStrings token) : Searchable token.getLast? after := by
  have hapart := h.apart hne hmatch htoken hcloses
  refine ⟨h.closes.of_append _ hapart, fun text htext => h.whole text ?_,
    fun other hother => h.calls other ?_, fun hstarts => ?_⟩
  · rw [verbatims, findAll, hapart, List.filterMap_append]
    exact List.mem_append_right _ htext
  · obtain ⟨c, tail, rfl⟩ := List.exists_cons_of_ne_nil hne
    rw [List.cons_append] at hmatch ⊢
    rw [pieces, hmatch, List.length_cons]
    dsimp only
    rw [List.take_left, List.drop_left]
    exact List.mem_cons_of_mem _ hother
  · cases htoken with
    | string hquote hbody =>
      rw [← List.cons_append, List.getLast?_concat] at hstarts
      rcases hquote with rfl | rfl <;> exact absurd hstarts (by decide)
    | hex hdigits hends => exact wordCall?_of_wordEnds hends
    | call hstarts' hne hword hinner =>
      rw [← List.cons_append, ← List.append_assoc, List.getLast?_concat] at hstarts
      exact absurd hstarts (by decide)
    | name hstarts' hword hname hends hcall => exact wordCall?_of_wordEnds hends

end Searchable

/-- Text that is kept in front of text that is rewritten. -/
theorem Sweeps.append_left {text old new : List Char} (h : Sweeps old new) (hapart : Apart text old)
    (hcloses : ClosesStrings text) : Sweeps (text ++ old) (text ++ new) := by
  induction text using verbatim_induction with
  | nil => exact h
  | verbatim text rest htext ih =>
    rw [Apart, List.append_assoc, htext.pieces_append, htext.pieces_append,
      List.cons_append] at hapart
    rw [List.append_assoc, List.append_assoc]
    exact .verbatim htext (ih (List.cons.inj hapart).2
      (hcloses.of_append [.hit text] (htext.pieces_append rest)))
  | plain c rest hnone ih =>
    have hpieces := pieces_verbatim_cons hnone
    rw [Apart, List.cons_append, hpieces, List.cons_append] at hapart
    have hnone' : Value.verbatim none (c :: (rest ++ old)) = none := by
      rcases exists_verbatim_or_plain c (rest ++ old) with ⟨text, after, htext, hcs, -⟩ | hnone'
      · rw [hcs, htext.pieces_append] at hapart
        cases (List.cons.inj hapart).1
      · exact hnone'
    rw [pieces_verbatim_cons hnone'] at hapart
    exact .plain (fun hquote => hcloses c hquote (by simp [hpieces])) hnone'
      (ih (List.cons.inj hapart).2 (hcloses.of_append [.plain c] hpieces))

/-- Hexadecimal colours are idle: the letters up to `f` open no `url`. -/
theorem isIdle_of_isHex {hex : List Char} (h : Color.IsHex hex) :
    hex ≠ [] ∧ ∀ c ∈ hex, IsIdle c := by
  obtain ⟨digits, rfl, hdigits⟩ := h
  refine ⟨by simp, List.forall_mem_cons.2 ⟨by decide, fun c hc => ?_⟩⟩
  exact forall_ascii (P := fun c => isHexDigit c = true → IsIdle c) (by decide)
    (toNat_lt_of_isHexDigit (hdigits c hc)) (hdigits c hc)

/-- The search for colours rewrites a text outside of its verbatim texts. The reader has to write by
hexadecimal digits and to recognize no text with a string in it; otherwise it may be any. -/
theorem Searchable.sweeps {read : Color.Reader} (hhex : read.WritesHex) (hbare : read.ReadsBare)
    {write : Piece → Except Color.Fault (List Char)} (hplain : ∀ c, write (.plain c) = .ok [c])
    (hhit : ∀ token, write (.hit token) = shorterColor read token) {before : Option Char}
    {cs : List Char} (h : Searchable before cs) {outs : List (List Char)}
    (houts : (pieces colorToken before cs).mapM write = .ok outs) : Sweeps cs outs.flatten := by
  induction before, cs using pieces.induct colorToken generalizing outs with
  | case1 before =>
    rw [pieces] at houts
    cases houts
    exact .nil
  | case2 before c rest n hn ih =>
    rw [pieces, hn] at houts
    obtain ⟨out, more, hout, hmore, rfl⟩ := mapM_cons_eq_ok houts
    have htoken := isToken_of_colorToken hn
    have hcloses : ClosesStrings (c :: rest.take n) :=
      h.calls _ (by rw [pieces, hn]; exact List.mem_cons_self)
    have hsplit : c :: rest = (c :: rest.take n) ++ rest.drop n := by simp
    have hmatch : colorToken before ((c :: rest.take n) ++ rest.drop n) =
        some (c :: rest.take n).length := by
      obtain ⟨token, behind, hcs, hlength, -⟩ := colorToken_eq_some hn
      have hle := congrArg List.length hcs
      rw [List.length_cons, List.length_append] at hle
      rw [← hsplit, hn, List.length_cons, List.length_take, Nat.min_eq_left (by omega)]
    rw [hsplit] at h ⊢
    have hrest := ih (h.of_append (by simp) hmatch htoken hcloses) hmore
    have hapart := h.apart (by simp) hmatch htoken hcloses
    rw [hhit] at hout
    rw [List.flatten_cons]
    by_cases hkept : out = c :: rest.take n
    · rw [hkept]
      exact hrest.append_left hapart hcloses
    · obtain ⟨-, answer, hanswer, rfl⟩ := shorterColor_eq_ok hout hkept
      obtain ⟨hchars, hnil⟩ := hbare _ _ hanswer
      rw [String.toList_ofList] at hchars hnil
      obtain ⟨hne, hidle⟩ := isIdle_of_isHex (hhex _ _ hanswer)
      rw [Apart, pieces_of_verbatims_eq_nil hnil] at hapart
      exact .hit (by simp) hchars hapart hne hidle hrest
  | case3 before c rest hn ih =>
    rw [pieces] at houts
    split at houts
    · next n hsome => exact absurd hsome (hn n)
    · obtain ⟨out, more, hout, hmore, rfl⟩ := mapM_cons_eq_ok houts
      rw [hplain] at hout
      cases hout
      have hnone := h.verbatim_eq_none hn
      have hquote : ¬ IsQuote c := fun hquote =>
        h.closes c hquote (by simp [pieces_verbatim_cons hnone])
      exact .plain hquote hnone (ih (h.tail hn) hmore)

end Sheetsmith.Value
