import Mathlib.Data.List.Infix
import Sheetsmith.Proofs.Text.Lexing
import Sheetsmith.Proofs.Text.Runs
import Sheetsmith.Usage.Token

namespace Sheetsmith

open Text

namespace Usage

/-- The places of a text at which a literal opens: its quote and the text behind the quote. -/
def openings (cs : List Char) : List (Char × List Char) :=
  match cs with
  | [] => []
  | c :: rest =>
    if isQuote c then (c, rest) :: openings (takeLiteral c rest).2 else openings rest
termination_by cs.length
decreasing_by
  all_goals simp_wf
  have := length_takeLiteral_le c rest
  omega

theorem literals_eq_map_openings (cs : List Char) :
    literals cs = (openings cs).map fun place => (takeLiteral place.1 place.2).1 := by
  fun_induction openings cs with
  | case1 => rw [literals, List.map_nil]
  | case2 c rest hc ih =>
    rw [literals, if_pos hc]
    dsimp only
    rw [ih, List.map_cons]
  | case3 c rest hc ih => rw [literals, if_neg hc, ih]

/-- Whether another literal is joined to the one that opens here. -/
def isJoined (quote : Char) (cs : List Char) : Bool :=
  ((takeQuoted quote quote cs).2.bind joinedLiteral?).isSome

/-- The names in literals that are joined from several. -/
def joinedNames (cs : List Char) : List String :=
  ((openings cs).filter fun place => isJoined place.1 place.2).flatMap fun place =>
    names (takeLiteral place.1 place.2).1

/-- The name of the tag that opens here, if it is cut short: a name character stands behind it that
is no word character, as in `<my-tag>`. -/
def cutTag? : List Char → Option String
  | '<' :: rest =>
    if (rest.dropWhile isWordChar).head?.any isNameChar then
      some (String.ofList (rest.takeWhile isWordChar))
    else none
  | _ => none

/-- The names of tags that are cut short. -/
def cutTags (cs : List Char) : List String :=
  cs.tails.filterMap cutTag?

/-- What is behind the quote of a joined literal is the end of the text. -/
theorem isSuffix_of_joinedLiteral? {cs after : List Char} {quote : Char}
    (h : joinedLiteral? cs = some (quote, after)) : after <:+ cs := by
  unfold joinedLiteral? at h
  split at h
  · next operator rest hcs =>
    have hrest : rest <:+ cs :=
      (List.suffix_cons operator rest).trans (hcs ▸ List.dropWhile_suffix isBlank)
    split at h
    · split at h
      · next quote' after' hquote =>
        have hafter : after' <:+ rest :=
          (List.suffix_cons quote' after').trans (hquote ▸ List.dropWhile_suffix isBlank)
        split at h
        · obtain ⟨-, rfl⟩ := Prod.mk.inj (Option.some.inj h)
          exact hafter.trans hrest
        · cases h
      · cases h
    · cases h
  · cases h

/-- What is behind a closed string is the end of the text. -/
theorem isSuffix_of_takeQuoted {quote : Char} {cs body rest : List Char}
    (h : takeQuoted quote quote cs = (body, some rest)) : rest <:+ cs := by
  rw [(takeQuoted_inside h).1]
  exact (List.suffix_cons quote rest).trans (List.suffix_append body _)

/-- What stands behind a literal is the end of the text, also when others are joined to it. -/
theorem takeLiteral_isSuffix (quote : Char) (cs : List Char) : (takeLiteral quote cs).2 <:+ cs := by
  fun_induction takeLiteral quote cs with
  | case1 quote cs body h => exact List.nil_suffix
  | case2 quote cs body rest h hjoined => exact isSuffix_of_takeQuoted h
  | case3 quote cs body rest h next after hjoined more rest' heq ih =>
    rw [heq] at ih
    exact ih.trans ((isSuffix_of_joinedLiteral? hjoined).trans (isSuffix_of_takeQuoted h))

theorem exists_of_mem_openings {cs behind : List Char} {quote : Char}
    (h : (quote, behind) ∈ openings cs) :
    isQuote quote = true ∧ ∃ front, cs = front ++ quote :: behind := by
  fun_induction openings cs with
  | case1 => cases h
  | case2 c rest hc ih =>
    rcases List.mem_cons.1 h with h | h
    · cases h
      exact ⟨hc, [], rfl⟩
    · obtain ⟨hquote, front, hrest⟩ := ih h
      obtain ⟨skipped, hskipped⟩ := takeLiteral_isSuffix c rest
      refine ⟨hquote, c :: skipped ++ front, ?_⟩
      rw [List.append_assoc, ← hrest, List.cons_append, hskipped]
  | case3 c rest hc ih =>
    obtain ⟨hquote, front, hrest⟩ := ih h
    exact ⟨hquote, c :: front, by rw [hrest, List.cons_append]⟩

/-- A literal that nothing is joined to stands in the text up to its closing quote or to the end. No
escape is taken away from it. -/
theorem eq_takeLiteral_of_isJoined_eq_false {quote : Char} {cs : List Char}
    (h : isJoined quote cs = false) :
    cs = (takeLiteral quote cs).1 ∨ ∃ rest, cs = (takeLiteral quote cs).1 ++ quote :: rest := by
  rw [isJoined] at h
  rw [takeLiteral]
  split
  · next body htake => exact .inl (takeQuoted_unclosed htake)
  · next body rest htake =>
    rw [htake, Option.bind_some] at h
    split
    · exact .inr ⟨rest, (takeQuoted_inside htake).1⟩
    · next hjoined =>
      rw [hjoined] at h
      cases h

theorem isNameChar_eq_false_of_isQuote {c : Char} (h : isQuote c = true) :
    isNameChar c = false := by
  rw [isQuote, Bool.or_eq_true, beq_iff_eq, beq_iff_eq] at h
  rcases h with rfl | rfl <;> decide

/-- A character that belongs to no name parts the names in front of it from those behind it. -/
theorem names_append_cons {c : Char} (hc : isNameChar c = false) (front back : List Char) :
    names (front ++ c :: back) = names front ++ names back := by
  rw [names, runs_append_cons hc, List.map_append]
  rfl

theorem isNameChar_of_mem_names {cs : List Char} {name : String} (h : name ∈ names cs) :
    ∀ c ∈ name.toList, isNameChar c = true := by
  obtain ⟨word, hword, rfl⟩ := List.mem_map.1 h
  rw [String.toList_ofList]
  exact all_of_mem_runs hword

/-- A literal that nothing is joined to has no names that the text around it lacks: its quotes keep
its names apart from what is around them. -/
theorem mem_names_of_mem_openings {cs behind : List Char} {quote : Char}
    (h : (quote, behind) ∈ openings cs) (hjoined : isJoined quote behind = false) {name : String}
    (hname : name ∈ names (takeLiteral quote behind).1) : name ∈ names cs := by
  obtain ⟨hquote, front, rfl⟩ := exists_of_mem_openings h
  have hbreak := isNameChar_eq_false_of_isQuote hquote
  rw [names_append_cons hbreak, List.mem_append]
  rcases eq_takeLiteral_of_isJoined_eq_false hjoined with hend | ⟨rest, hclosed⟩
  · rw [hend]
    exact .inr hname
  · rw [hclosed, names_append_cons hbreak, List.mem_append]
    exact .inr (.inl hname)

/-- What literals name is a name of the text, or is joined from several literals. -/
theorem mem_names_or_joinedNames {cs : List Char} {name : String}
    (h : name ∈ (literals cs).flatMap names) : name ∈ names cs ∨ name ∈ joinedNames cs := by
  rw [literals_eq_map_openings, List.flatMap_map, List.mem_flatMap] at h
  obtain ⟨⟨quote, behind⟩, hplace, hname⟩ := h
  cases hjoined : isJoined quote behind with
  | false => exact .inl (mem_names_of_mem_openings hplace hjoined hname)
  | true => exact .inr (List.mem_flatMap.2 ⟨_, List.mem_filter.2 ⟨hplace, hjoined⟩, hname⟩)

/-- A tag is a `<` and the word right behind it. What stands in front of the `<` does not matter. -/
theorem eq_of_tag_eq_some {before : Option Char} {c : Char} {rest : List Char} {n : Nat}
    (h : tag before (c :: rest) = some (n + 1)) :
    c = '<' ∧ n = (rest.takeWhile isWordChar).length ∧ rest.takeWhile isWordChar ≠ [] := by
  unfold tag at h
  split at h
  · next rest' hcs =>
    obtain ⟨rfl, rfl⟩ := List.cons.inj hcs
    dsimp only at h
    split at h
    · cases h
    · next hne =>
      cases h
      exact ⟨rfl, rfl, fun hnil => hne (by rw [hnil, List.length_nil])⟩
  · cases h

/-- The name of a tag is a name of the text, or it is cut short. Names of word characters are asked
for, as a word may hold letters that no name has. -/
theorem mem_names_or_cutTags {cs : List Char} {name : String} (h : name ∈ tagNames cs)
    (hname : ∀ c ∈ name.toList, isNameChar c = true) : name ∈ names cs ∨ name ∈ cutTags cs := by
  obtain ⟨hit, hhit, rfl⟩ := List.mem_map.1 h
  obtain ⟨front, before, c, rest, n, rfl, hfound, rfl⟩ := exists_of_mem_findAll hhit
  obtain ⟨rfl, rfl, hne⟩ := eq_of_tag_eq_some hfound
  rw [List.drop_succ_cons, List.drop_zero, take_length_takeWhile] at hname ⊢
  rw [String.toList_ofList] at hname
  by_cases hcut : (rest.dropWhile isWordChar).head?.any isNameChar = true
  · refine .inr (List.mem_filterMap.2 ⟨'<' :: rest, ?_, if_pos hcut⟩)
    exact (List.mem_tails _ _).2 (List.suffix_append front _)
  · have hrun : IsRun isNameChar (rest.takeWhile isWordChar) (rest.dropWhile isWordChar) := by
      refine ⟨hne, hname, fun d hd => ?_⟩
      rw [Option.mem_def.1 hd] at hcut
      exact eq_false_of_ne_true hcut
    have hwhole : names rest = String.ofList (rest.takeWhile isWordChar) ::
        names (rest.dropWhile isWordChar) := by
      rw [names, ← List.takeWhile_append_dropWhile (p := isWordChar) (l := rest),
        runs_append_of_isRun hrun, List.takeWhile_append_dropWhile]
      rfl
    have hbreak : isNameChar '<' = false := by decide
    rw [names_append_cons hbreak, List.mem_append, hwhole]
    exact .inl (.inr List.mem_cons_self)

/-- Where literals and tags name something that the text does not, the name was joined from several
literals or it is a tag cut short. -/
theorem mem_names_of_mem_literalNames {cs : List Char} {name : String} (h : name ∈ literalNames cs)
    (hname : ∀ c ∈ name.toList, isNameChar c = true) :
    name ∈ names cs ∨ name ∈ joinedNames cs ∨ name ∈ cutTags cs := by
  rcases List.mem_append.1 h with h | h
  · exact (mem_names_or_joinedNames h).imp_right .inl
  · exact (mem_names_or_cutTags h hname).imp_right .inr

end Usage

end Sheetsmith
