import Mathlib.Algebra.GroupWithZero.Nat
import Mathlib.Data.String.Basic
import Sheetsmith.Proofs.Text.Runs
import Sheetsmith.Proofs.Text.Trim
import Sheetsmith.Proofs.Value.Stages

namespace Sheetsmith

open String (utf8Len)

namespace Text

/-- Texts that are made of parts in the same way are compared part by part. The lengths are those of
the bytes, not of the characters. -/
theorem utf8Len_flatMap_le {α : Type} {as : List α} {f g : α → List Char}
    (h : ∀ a ∈ as, utf8Len (f a) ≤ utf8Len (g a)) :
    utf8Len (as.flatMap f) ≤ utf8Len (as.flatMap g) := by
  induction as with
  | nil => exact Nat.le_refl _
  | cons a as ih =>
    rw [List.flatMap_cons, List.flatMap_cons, String.utf8Len_append, String.utf8Len_append]
    exact Nat.add_le_add (h a (by simp)) (ih fun b hb => h b (by simp [hb]))

/-- A replacement does not make a text longer when no match has a longer image. The image may be
empty, and the text may have any characters. -/
theorem utf8Len_replaceAll_le {recognize : Recognizer} {image : List Char → List Char}
    (h : ∀ before c rest n, recognize before (c :: rest) = some (n + 1) →
      utf8Len (image (c :: rest.take n)) ≤ utf8Len (c :: rest.take n)) (cs : List Char) :
    utf8Len (replaceAll recognize image cs) ≤ utf8Len cs := by
  conv_rhs => rw [← flatMap_chars_pieces recognize none cs]
  refine utf8Len_flatMap_le fun piece hpiece => ?_
  cases piece with
  | plain c => exact Nat.le_refl _
  | hit text =>
    obtain ⟨-, before, c, rest, n, -, hmatch, rfl⟩ := exists_of_mem_pieces hpiece
    exact h before c rest n hmatch

/-- Parts of which none becomes longer make no longer text, in a replacement that may fail. Where it
fails there is nothing to compare. -/
theorem utf8Len_flatten_le_of_mapM {ε α : Type} {f : α → Except ε (List Char)} {g : α → List Char}
    (h : ∀ a out, f a = .ok out → utf8Len out ≤ utf8Len (g a)) {as : List α}
    {outs : List (List Char)} (houts : as.mapM f = .ok outs) :
    utf8Len outs.flatten ≤ utf8Len (as.flatMap g) := by
  induction as generalizing outs with
  | nil =>
    cases houts
    exact Nat.le_refl _
  | cons a as ih =>
    obtain ⟨out, rest, hout, hrest, rfl⟩ := mapM_cons_eq_ok houts
    rw [List.flatten_cons, List.flatMap_cons, String.utf8Len_append, String.utf8Len_append]
    exact Nat.add_le_add (h a out hout) (ih hrest)

/-- A replacement that may fail does not make a text longer when it succeeds and no image is longer
than its match. -/
theorem utf8Len_replaceAllM_le {ε : Type} {recognize : Recognizer}
    {image : List Char → Except ε (List Char)}
    (h : ∀ text out, image text = .ok out → utf8Len out ≤ utf8Len text) {cs out : List Char}
    (hout : replaceAllM recognize image cs = .ok out) : utf8Len out ≤ utf8Len cs := by
  rw [replaceAllM] at hout
  obtain ⟨outs, houts, rfl⟩ := exists_of_map_eq_ok hout
  conv_rhs => rw [← flatMap_chars_pieces recognize none cs]
  refine utf8Len_flatten_le_of_mapM (fun piece out hout => ?_) houts
  cases piece with
  | plain c =>
    cases hout
    exact Nat.le_refl _
  | hit text => exact h text out hout

theorem utf8Len_trim_le (cs : List Char) : utf8Len (trim cs) ≤ utf8Len cs := by
  obtain ⟨left, right, -, -, hsplit⟩ := exists_trim cs
  conv_rhs => rw [hsplit]
  rw [String.utf8Len_append, String.utf8Len_append]
  omega

theorem length_le_utf8Len (cs : List Char) : cs.length ≤ utf8Len cs := by
  induction cs with
  | nil => exact Nat.le_refl _
  | cons c cs ih =>
    have := c.utf8Size_pos
    rw [List.length_cons, String.utf8Len_cons]
    omega

theorem utf8Len_intercalate (sep : List Char) (parts : List (List Char)) :
    utf8Len (sep.intercalate parts) =
      (parts.map utf8Len).sum + (parts.length - 1) * utf8Len sep := by
  induction parts with
  | nil => simp
  | cons part parts ih =>
    cases parts with
    | nil => simp
    | cons next parts =>
      rw [List.intercalate_cons_cons, String.utf8Len_append, String.utf8Len_append, ih]
      simp only [List.map_cons, List.sum_cons, List.length_cons, Nat.add_sub_cancel, Nat.add_mul]
      omega

/-- The number of bytes of parts with a separator between them. No separator stands behind the last
part, and none at all if there is no part. -/
theorem utf8ByteSize_intercalate (sep : String) (parts : List String) :
    (sep.intercalate parts).utf8ByteSize =
      (parts.map String.utf8ByteSize).sum + (parts.length - 1) * sep.utf8ByteSize := by
  have hmap : (parts.map String.toList).map utf8Len = parts.map String.utf8ByteSize := by
    rw [List.map_map]
    exact List.map_congr_left fun part _ => String.utf8Len_toList part
  rw [← String.utf8Len_toList, String.toList_intercalate, utf8Len_intercalate, hmap,
    List.length_map, String.utf8Len_toList]

/-- The runs of a text are no longer than the text, even with one more character for each of them:
where a text goes on behind a run, a character outside the class stands there. -/
theorem sum_runs_le (p : Char → Bool) (cs : List Char) :
    ((runs p cs).map utf8Len).sum + (runs p cs).length ≤ utf8Len cs + 1 ∧
      ((∀ c ∈ cs.head?, p c = false) →
        ((runs p cs).map utf8Len).sum + (runs p cs).length ≤ utf8Len cs) := by
  induction cs using runs_induction (p := p) with
  | nil => simp
  | skip c cs hc ih =>
    have := c.utf8Size_pos
    rw [runs_cons_of_false hc, String.utf8Len_cons]
    omega
  | word word rest hword ih =>
    have hrest := ih.2 hword.ends
    rw [runs_append_of_isRun hword, String.utf8Len_append]
    simp only [List.map_cons, List.sum_cons, List.length_cons]
    refine ⟨by omega, fun hhead => ?_⟩
    -- A run starts with a character of the class.
    obtain ⟨c, tail, rfl⟩ := List.exists_cons_of_ne_nil hword.ne_nil
    have hc := hword.all c (by simp)
    rw [hhead c rfl] at hc
    cases hc

end Text

namespace Value

open Text

/-- A word takes at least as many bytes as the name that it folds to has characters. -/
theorem utf8Len_of_fold_eq {word : List Char} {name : String} (h : fold word = name.toList) :
    name.toList.length ≤ utf8Len word := by
  have hlength : word.length = name.toList.length := by
    rw [← h, fold, List.length_map]
  rw [← hlength]
  exact length_le_utf8Len word

/-- The number of a weight is no longer than its name. -/
theorem utf8Len_weightNumber_le (word : List Char) : utf8Len (weightNumber word) ≤ utf8Len word := by
  unfold weightNumber
  split
  · next h => exact Nat.le_trans (by decide) (utf8Len_of_fold_eq h)
  · split
    · next h => exact Nat.le_trans (by decide) (utf8Len_of_fold_eq h)
    · exact Nat.le_refl _

theorem utf8Len_foldWeights_le (value : List Char) :
    utf8Len (foldWeights value) ≤ utf8Len value :=
  Nat.le_trans (utf8Len_trim_le _)
    (utf8Len_replaceAll_le (fun _ _ _ _ _ => utf8Len_weightNumber_le _) value)

/-- A colour is replaced only where that makes it shorter, whatever the reader says. -/
theorem utf8Len_shorterColor_le {read : Color.Reader} (token out : List Char)
    (h : shorterColor read token = .ok out) : utf8Len out ≤ utf8Len token := by
  unfold shorterColor at h
  split at h
  · cases h
    exact Nat.le_refl _
  · dsimp only at h
    cases hread : read (String.ofList token) with
    | error e =>
      rw [hread] at h
      cases h
    | ok answer =>
      rw [hread] at h
      cases answer with
      | none =>
        cases h
        exact Nat.le_refl _
      | some hex =>
        cases h
        split
        · next hlt =>
          rw [String.utf8Len_toList, ← String.utf8ByteSize_ofList]
          exact Nat.le_of_lt hlt
        · exact Nat.le_refl _

theorem utf8Len_shortenColors_le {read : Color.Reader} {value out : List Char}
    (h : shortenColors read value = .ok out) : utf8Len out ≤ utf8Len value :=
  utf8Len_replaceAllM_le utf8Len_shorterColor_le h

/-- Replacing a spelling by one that is no longer makes no text longer. How often the spelling
occurs does not matter. -/
theorem utf8Len_replaceLiteral_le {word image : String}
    (h : utf8Len image.toList ≤ utf8Len word.toList) (cs : List Char) :
    utf8Len (replaceLiteral word image cs) ≤ utf8Len cs := by
  refine utf8Len_replaceAll_le (fun before c rest n hmatch => ?_) cs
  unfold literal at hmatch
  split at hmatch
  · next hprefix =>
    -- The match is the spelling itself.
    have hlength := Option.some.inj hmatch
    have htake := List.prefix_iff_eq_take.1 (List.isPrefixOf_iff_prefix.1 hprefix)
    rw [hlength, List.take_succ_cons] at htake
    rw [← htake]
    exact h
  · cases hmatch

theorem utf8Len_positionWords_le :
    ∀ entry ∈ positionWords, utf8Len entry.2.toList ≤ utf8Len entry.1.toList := by
  decide

/-- Percentages are no longer than the keywords that they take the place of. -/
theorem utf8Len_shortenPosition_le (value : List Char) :
    utf8Len (shortenPosition value) ≤ utf8Len value := by
  unfold shortenPosition
  refine positionWords.foldlRecOn (motive := fun out => utf8Len out ≤ utf8Len value) _
    (Nat.le_refl _) fun out hout entry hentry => ?_
  exact Nat.le_trans (utf8Len_replaceLiteral_le (utf8Len_positionWords_le entry hentry) out) hout

/-- Shortening the words and colours of a value makes it no longer, whatever the colours are. The
property and the value may be any. -/
theorem utf8ByteSize_optimizeWords_le {read : Color.Reader} {property value out : String}
    (h : optimizeWords read property value = .ok out) : out.utf8ByteSize ≤ value.utf8ByteSize := by
  obtain ⟨cs, hcs, hout⟩ := optimizeWords_eq_ok h
  have hweights : utf8Len (weighed property value) ≤ value.utf8ByteSize := by
    rw [← String.utf8Len_toList, weighed]
    split
    · exact utf8Len_foldWeights_le _
    · exact Nat.le_refl _
  have hcolors : utf8Len cs ≤ utf8Len (weighed property value) := by
    unfold colored at hcs
    split at hcs
    · cases hcs
      exact Nat.le_refl _
    · exact utf8Len_shortenColors_le hcs
  have hposition : utf8Len (positioned property cs) ≤ utf8Len cs := by
    unfold positioned
    split
    · exact utf8Len_shortenPosition_le cs
    · exact Nat.le_refl _
  rw [← String.utf8Len_toList, hout]
  exact Nat.le_trans hposition (Nat.le_trans hcolors hweights)

/-- A match is its lead and what is behind it. -/
theorem splitLead_append (hit : List Char) : (splitLead hit).1 ++ (splitLead hit).2 = hit := by
  unfold splitLead
  split
  · rfl
  · split <;> rfl

theorem utf8Len_dropZeros_le (hit : List Char) : utf8Len (dropZeros hit) ≤ utf8Len hit := by
  have hsplit := congrArg utf8Len (splitLead_append hit)
  have hdrop := String.utf8Len_le_of_sublist (List.dropWhile_sublist isZero (l := (splitLead hit).2))
  rw [String.utf8Len_append] at hsplit
  rw [dropZeros, String.utf8Len_append]
  omega

theorem pos_of_zeroWithUnit? {cs : List Char} {n : Nat} (h : zeroWithUnit? cs = some n) :
    ∃ rest, cs = '0' :: rest ∧ 0 < n := by
  unfold zeroWithUnit? at h
  dsimp only at h
  split at h
  · cases h
  · next hzeros =>
    obtain ⟨unit, -, rfl⟩ := Option.map_eq_some_iff.1 h
    cases cs with
    | nil => exact absurd rfl hzeros
    | cons c rest =>
      by_cases hc : isZero c = true
      · have hc' : c = '0' := by simpa [isZero] using hc
        exact ⟨rest, by rw [hc'], by omega⟩
      · simp [hc] at hzeros

/-- A match of `zeroUnit` is a zero, behind another character or at the start of the text. -/
theorem utf8Len_bareZero_le {before : Option Char} {c : Char} {rest : List Char} {n : Nat}
    (h : zeroUnit before (c :: rest) = some (n + 1)) :
    utf8Len (bareZero (c :: rest.take n)) ≤ utf8Len (c :: rest.take n) := by
  have hzero : c.utf8Size + utf8Len (rest.take n) = utf8Len (c :: rest.take n) := by
    rw [String.utf8Len_cons, Nat.add_comm]
  have hone : utf8Len ['0'] = 1 := by decide
  rw [bareZero, String.utf8Len_append, hone, ← hzero]
  by_cases hc : isZero c = true
  · have := c.utf8Size_pos
    simp only [splitLead, hc, if_true, String.utf8Len_nil]
    omega
  · simp only [splitLead, hc, Bool.false_eq_true, if_false, String.utf8Len_cons, String.utf8Len_nil]
    suffices hrest : 1 ≤ utf8Len (rest.take n) by omega
    have hlead : ∃ m, zeroWithUnit? rest = some m ∧ m = n := by
      have hnone : zeroWithUnit? (c :: rest) = none := by
        cases hmatch : zeroWithUnit? (c :: rest) with
        | none => rfl
        | some m =>
          obtain ⟨tail, heq, -⟩ := pos_of_zeroWithUnit? hmatch
          obtain rfl : c = '0' := (List.cons.inj heq).1
          exact absurd rfl hc
      unfold zeroUnit afterBoundary at h
      cases before with
      | none =>
        simp only [hnone, Option.orElse_eq_orElse, Option.orElse_eq_or, Option.none_or] at h
        split at h
        · cases h
        · obtain ⟨m, hm, heq⟩ := Option.map_eq_some_iff.1 h
          exact ⟨m, hm, by omega⟩
      | some b =>
        simp only at h
        split at h
        · cases h
        · obtain ⟨m, hm, heq⟩ := Option.map_eq_some_iff.1 h
          exact ⟨m, hm, by omega⟩
    obtain ⟨m, hm, rfl⟩ := hlead
    obtain ⟨tail, rfl, hpos⟩ := pos_of_zeroWithUnit? hm
    obtain ⟨k, rfl⟩ := Nat.exists_eq_add_of_lt hpos
    refine Nat.le_trans ?_ (length_le_utf8Len _)
    simp

theorem utf8Len_shortenLengths_le (value : List Char) :
    utf8Len (shortenLengths value) ≤ utf8Len value :=
  Nat.le_trans (utf8Len_replaceAll_le (fun _ _ _ _ h => utf8Len_bareZero_le h) _)
    (utf8Len_replaceAll_le (fun _ _ _ _ _ => utf8Len_dropZeros_le _) value)

/-- The sides that are left out are the last ones. -/
theorem isPrefix_collapseSides (parts : List (List Char)) : collapseSides parts <+: parts := by
  have htwo (a b : List Char) : collapseSides.collapseTwo a b <+: [a, b] := by
    unfold collapseSides.collapseTwo
    split <;> simp
  have hthree (a b c : List Char) : collapseSides.collapseThree a b c <+: [a, b, c] := by
    unfold collapseSides.collapseThree
    split
    · exact (htwo a b).trans (List.prefix_append [a, b] [c])
    · exact List.prefix_refl _
  unfold collapseSides
  split
  · split
    · next a b c d _ => exact (hthree a b c).trans (List.prefix_append [a, b, c] [d])
    · exact List.prefix_refl _
  · exact hthree _ _ _
  · exact htwo _ _
  · exact List.prefix_refl _

/-- Leaving out sides makes no value longer: what is left stands with single blanks between its
words. -/
theorem utf8Len_collapseBox_le (value : List Char) : utf8Len (collapseBox value) ≤ utf8Len value := by
  unfold collapseBox
  dsimp only
  split
  · have hruns := (sum_runs_le (!isBlank ·) value).1
    have hprefix := isPrefix_collapseSides (runs (!isBlank ·) value)
    obtain ⟨left, hleft⟩ := hprefix
    rw [← hleft, List.map_append, List.sum_append, List.length_append] at hruns
    have hspace : utf8Len [' '] = 1 := by decide
    rw [utf8Len_intercalate, hspace, Nat.mul_one]
    cases hsides : collapseSides (runs (!isBlank ·) value) with
    | nil => simp
    | cons side sides =>
      rw [hsides, List.length_cons] at hruns
      rw [List.length_cons]
      omega
  · exact Nat.le_refl _

/-- Shortening the lengths of a value makes it no longer, whatever stands in it. -/
theorem utf8ByteSize_optimizeUnits_le (property value : String) :
    (optimizeUnits property value).utf8ByteSize ≤ value.utf8ByteSize := by
  have hlengths := utf8Len_shortenLengths_le value.toList
  rw [optimizeUnits, optimizeLengths, String.utf8ByteSize_ofList, ← String.utf8Len_toList]
  split
  · exact Nat.le_trans (utf8Len_collapseBox_le _) hlengths
  · exact hlengths

end Value

end Sheetsmith
